import Phraseology.Proofs.Catalogue

/-! Which lexicon a tag selects after lexicons have been offered one after another, each of which is
added unless it has a flaw. -/
namespace Phraseology

namespace Catalogue

/-- The catalogue once a lexicon has been offered: one with a flaw is turned down. -/
def offer (c : Catalogue) (l : Lexicon) : Catalogue :=
  match c.register l with
  | .ok d => d
  | .error _ => c

def offerAll (c : Catalogue) (ls : List Lexicon) : Catalogue := ls.foldl offer c

/-- Two tags that differ at most in case and in blanks at their ends. -/
def SameTag (s t : String) : Prop :=
  Text.lowercase (Text.trim s) = Text.lowercase (Text.trim t)

variable {c : Catalogue} {l : Lexicon} {ls : List Lexicon} {tag : String}

theorem get_eq_of_get?_eq {d : Catalogue} (h : c.get? tag = d.get? tag) :
    c.get tag = d.get tag := by
  unfold get
  rw [h]

theorem register_eq_ok_iff {d : Catalogue} :
    c.register l = .ok d ↔ l.validate = .ok () ∧ d = c.insert l := by
  refine ⟨register_eq_ok, ?_⟩
  rintro ⟨hl, rfl⟩
  exact bind_eq_ok_iff.2 ⟨(), hl, rfl⟩

theorem offer_of_validate (hl : l.validate = .ok ()) : c.offer l = c.insert l := by
  unfold offer
  rw [register_eq_ok_iff.2 ⟨hl, rfl⟩]

theorem offer_of_flawed (hl : l.validate ≠ .ok ()) : c.offer l = c := by
  unfold offer
  cases h : c.register l with
  | ok d => exact absurd (register_eq_ok h).1 hl
  | error _ => rfl

/-- The tag of a lexicon is filed with its blanks and looked for without them. -/
theorem get?_insert : (c.insert l).get? tag =
    if Text.lowercase l.locale = Text.lowercase (Text.trim tag) then some l else c.get? tag := by
  unfold get? insert
  rw [List.lookup_cons]
  split_ifs with h
  · rw [h, beq_self_eq_true]
  · rw [beq_eq_false_iff_ne.2 (Ne.symm h)]

theorem get?_insert_of_sameTag (htrim : Text.trim l.locale = l.locale)
    (h : SameTag tag l.locale) : (c.insert l).get? tag = some l := by
  rw [get?_insert, if_pos (by rw [h, htrim])]

/-- Only a tag without blanks at its ends is found, and there the two keys agree. -/
theorem get?_insert_of_not_sameTag (h : ¬ SameTag l.locale tag) :
    (c.insert l).get? tag = c.get? tag := by
  rw [get?_insert, if_neg]
  intro hkey
  exact h (by rw [SameTag, Text.trim_of_lowercase_eq hkey, hkey])

theorem get?_offer_of_not_sameTag (h : l.validate = .ok () → ¬ SameTag l.locale tag) :
    (c.offer l).get? tag = c.get? tag := by
  by_cases hl : l.validate = .ok ()
  · rw [offer_of_validate hl, get?_insert_of_not_sameTag (h hl)]
  · rw [offer_of_flawed hl]

@[simp] theorem offerAll_nil : c.offerAll [] = c := rfl

@[simp] theorem offerAll_cons : c.offerAll (l :: ls) = (c.offer l).offerAll ls := rfl

theorem offerAll_append (ls' : List Lexicon) :
    c.offerAll (ls ++ ls') = (c.offerAll ls).offerAll ls' := List.foldl_append

theorem get?_offerAll_of_not_sameTag
    (h : ∀ l ∈ ls, l.validate = .ok () → ¬ SameTag l.locale tag) :
    (c.offerAll ls).get? tag = c.get? tag := by
  induction ls generalizing c with
  | nil => rfl
  | cons l ls ih =>
    obtain ⟨hl, hls⟩ := List.forall_mem_cons.1 h
    rw [offerAll_cons, ih hls, get?_offer_of_not_sameTag hl]

/-- The last lexicon added under a tag is the one that the tag selects. -/
theorem get?_offerAll_of_sameTag {before after : List Lexicon} (hl : l.validate = .ok ())
    (htrim : Text.trim l.locale = l.locale)
    (hafter : ∀ l' ∈ after, l'.validate = .ok () → ¬ SameTag l'.locale l.locale)
    (h : SameTag tag l.locale) : (c.offerAll (before ++ l :: after)).get? tag = some l := by
  have hother : ∀ l' ∈ after, l'.validate = .ok () → ¬ SameTag l'.locale tag := by
    intro l' hl' hvalid hsame
    exact hafter l' hl' hvalid (hsame.trans h)
  rw [offerAll_append, offerAll_cons, get?_offerAll_of_not_sameTag hother, offer_of_validate hl,
    get?_insert_of_sameTag htrim h]

theorem Filed.offerAll (hc : c.Filed) (ls : List Lexicon) : (c.offerAll ls).Filed := by
  induction ls generalizing c with
  | nil => exact hc
  | cons l ls ih =>
    by_cases hl : l.validate = .ok ()
    · exact ih (offer_of_validate hl ▸ hc.insert l)
    · exact ih (offer_of_flawed hl ▸ hc)

/-- What can be selected has no blanks at the ends of its tag. -/
theorem Filed.trim_locale (hc : c.Filed) (h : c.get tag = .ok l) :
    Text.trim l.locale = l.locale :=
  Text.trim_of_lowercase_eq (hc.lowercase_locale h)

/-- Where adding must not fail, nothing is turned down. -/
theorem foldlM_register_eq_ok_iff {d : Catalogue} :
    ls.foldlM register c = .ok d ↔
      (∀ l ∈ ls, l.validate = .ok ()) ∧ d = c.offerAll ls := by
  induction ls generalizing c with
  | nil =>
    constructor
    · intro h
      exact ⟨by simp, (Except.ok.inj h).symm⟩
    · rintro ⟨-, rfl⟩
      rfl
  | cons l ls ih =>
    rw [List.foldlM_cons, bind_eq_ok_iff, List.forall_mem_cons]
    simp only [register_eq_ok_iff, ih]
    constructor
    · rintro ⟨_, ⟨hl, rfl⟩, hls, rfl⟩
      exact ⟨⟨hl, hls⟩, by rw [offerAll_cons, offer_of_validate hl]⟩
    · rintro ⟨⟨hl, hls⟩, rfl⟩
      exact ⟨_, ⟨hl, rfl⟩, hls, by rw [offerAll_cons, offer_of_validate hl]⟩

/-- A lexicon that was added last under its tag is selected by that tag, however it is cased and
whatever blanks stand around it, provided that the lexicon itself writes it without blanks at its
ends; one that does not is never selected. A lexicon that is turned down changes no answer, nor does
one that is added change the answer for another tag. -/
theorem get_offerAll_builtin (ls : List Lexicon) :
    (∀ before l after, ls = before ++ l :: after → l.validate = .ok () →
      (∀ l' ∈ after, l'.validate = .ok () → ¬ SameTag l'.locale l.locale) →
      (Text.trim l.locale = l.locale →
        ∀ tag, SameTag tag l.locale → (builtin.offerAll ls).get tag = .ok l) ∧
      (Text.trim l.locale ≠ l.locale → ∀ tag, (builtin.offerAll ls).get tag ≠ .ok l)) ∧
    (∀ l err, (builtin.offerAll ls).register l = .error err →
      ∀ tag, (builtin.offerAll (ls ++ [l])).get tag = (builtin.offerAll ls).get tag) ∧
    (∀ tag, (∀ l ∈ ls, l.validate = .ok () → ¬ SameTag l.locale tag) →
      (builtin.offerAll ls).get tag = builtin.get tag) ∧
    ∀ config : Config, config.lexicons = ls → ∀ c, config.catalogue = .ok c ↔
      (∀ l ∈ ls, l.validate = .ok ()) ∧ c = builtin.offerAll ls := by
  refine ⟨?added, ?turnedDown, ?other, ?config⟩
  case added =>
    rintro before l after rfl hl hafter
    constructor
    · intro htrim tag htag
      exact get_eq_ok_iff.2 (get?_offerAll_of_sameTag hl htrim hafter htag)
    · intro hblank tag h
      exact hblank ((filed_builtin.offerAll _).trim_locale h)
  case turnedDown =>
    intro l err herr tag
    have hl : l.validate ≠ .ok () := by
      intro hl
      rw [register_eq_ok_iff.2 ⟨hl, rfl⟩] at herr
      cases herr
    rw [offerAll_append, offerAll_cons, offerAll_nil, offer_of_flawed hl]
  case other =>
    intro tag h
    exact get_eq_of_get?_eq (get?_offerAll_of_not_sameTag h)
  case config =>
    rintro config rfl c
    exact foldlM_register_eq_ok_iff

def britishEnglish : Lexicon := { Lexicon.english with locale := "en-GB" }

theorem get_britishEnglish :
    (builtin.offerAll [britishEnglish]).get " EN-gb" = .ok britishEnglish := by
  have hvalid : britishEnglish.validate = .ok () := by rfl
  have hsame : Text.lowercase (Text.trim " EN-gb") =
      Text.lowercase (Text.trim britishEnglish.locale) := by decide +kernel
  obtain ⟨hadded, -⟩ := get_offerAll_builtin [britishEnglish]
  exact (hadded [] britishEnglish [] rfl hvalid (by simp)).1 (by decide +kernel) " EN-gb" hsame

/-- British English under a tag that begins with a blank. -/
def indentedEnglish : Lexicon := { Lexicon.english with locale := " en-GB" }

/-- A lexicon can be added under a tag that does not select it. -/
theorem get_indentedEnglish : indentedEnglish.validate = .ok () ∧
    builtin.register indentedEnglish = .ok (builtin.offerAll [indentedEnglish]) ∧
    (builtin.offerAll [indentedEnglish]).get indentedEnglish.locale =
      .error (.unsupportedLocale " en-GB") ∧
    ∀ tag, (builtin.offerAll [indentedEnglish]).get tag ≠ .ok indentedEnglish := by
  have hvalid : indentedEnglish.validate = .ok () := by rfl
  have hoffer : builtin.offerAll [indentedEnglish] = builtin.insert indentedEnglish :=
    offer_of_validate hvalid
  refine ⟨hvalid, register_eq_ok_iff.2 ⟨hvalid, hoffer⟩, ?_, ?_⟩
  · rw [hoffer]
    decide +kernel
  · intro tag h
    exact absurd ((filed_builtin.offerAll _).trim_locale h) (by decide +kernel)

end Catalogue

end Phraseology
