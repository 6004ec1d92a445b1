import Phraseology.Config
import Phraseology.Proofs.Failure
import Phraseology.Proofs.Text.Lowercase

/-! A lexicon that can be selected at all can be selected by its own tag, and has no flaw. -/
namespace Phraseology

namespace Catalogue

/-- Every lexicon is filed under its own tag. -/
def Filed (c : Catalogue) : Prop := ∀ e ∈ c.entries, e.1 = Text.lowercase e.2.locale

theorem Filed.insert {c : Catalogue} (hc : c.Filed) (l : Lexicon) : (c.insert l).Filed := by
  intro e he
  rcases List.mem_cons.1 he with rfl | he
  · rfl
  · exact hc e he

theorem filed_builtin : builtin.Filed := by
  have hnone : Filed ⟨[]⟩ := by
    intro e he
    cases he
  exact (hnone.insert .english).insert .mandarin

theorem register_eq_ok {c d : Catalogue} {l : Lexicon} (h : c.register l = .ok d) :
    l.validate = .ok () ∧ d = c.insert l := by
  obtain ⟨_, hv, h⟩ := bind_eq_ok_iff.1 h
  exact ⟨hv, (Except.ok.inj h).symm⟩

/-- What each lexicon that can be used leaves as it is holds after all of them. -/
theorem foldlM_register_induction {P : Catalogue → Prop}
    (hinsert : ∀ c l, l.validate = .ok () → P c → P (c.insert l))
    {c d : Catalogue} (hc : P c) (ls : List Lexicon) (h : ls.foldlM register c = .ok d) : P d := by
  induction ls generalizing c with
  | nil =>
    obtain rfl : c = d := Except.ok.inj h
    exact hc
  | cons l ls ih =>
    rw [List.foldlM_cons] at h
    obtain ⟨e, he, h⟩ := bind_eq_ok_iff.1 h
    obtain ⟨hvalid, rfl⟩ := register_eq_ok he
    exact ih (hinsert c l hvalid hc) h

theorem Filed.foldlM_register {c d : Catalogue} (hc : c.Filed) (ls : List Lexicon)
    (h : ls.foldlM register c = .ok d) : d.Filed :=
  foldlM_register_induction (P := Filed) (fun _ l _ hc => hc.insert l) hc ls h

def Flawless (c : Catalogue) : Prop := ∀ e ∈ c.entries, e.2.validate = .ok ()

theorem Flawless.insert {c : Catalogue} (hc : c.Flawless) {l : Lexicon} (hl : l.validate = .ok ()) :
    (c.insert l).Flawless := List.forall_mem_cons.2 ⟨hl, hc⟩

theorem flawless_builtin : builtin.Flawless := by
  have hnone : Flawless ⟨[]⟩ := fun _ he => nomatch he
  have henglish : Lexicon.english.validate = .ok () := by rfl
  have hmandarin : Lexicon.mandarin.validate = .ok () := by rfl
  exact (hnone.insert henglish).insert hmandarin

theorem Flawless.validate {c : Catalogue} (hc : c.Flawless) {tag : String} {l : Lexicon}
    (h : c.get? tag = some l) : l.validate = .ok () := by
  obtain ⟨before, after, he, -⟩ := List.lookup_eq_some_iff.1 h
  exact hc (Text.lowercase (Text.trim tag), l) (by simp [he])

@[simp] theorem get_eq_ok_iff {c : Catalogue} {tag : String} {l : Lexicon} :
    c.get tag = .ok l ↔ c.get? tag = some l := by
  unfold get
  cases c.get? tag <;> simp

@[simp] theorem get_eq_error_iff {c : Catalogue} {tag : String} {err : Error} :
    c.get tag = .error err ↔ c.get? tag = none ∧ err = .unsupportedLocale tag := by
  unfold get
  cases c.get? tag <;> simp [eq_comm]

theorem Filed.lowercase_locale {c : Catalogue} (hc : c.Filed) {tag : String} {l : Lexicon}
    (h : c.get tag = .ok l) : Text.lowercase l.locale = Text.lowercase (Text.trim tag) := by
  have hl : c.entries.lookup (Text.lowercase (Text.trim tag)) = some l := get_eq_ok_iff.1 h
  obtain ⟨before, after, he, -⟩ := List.lookup_eq_some_iff.1 hl
  have hmem : (Text.lowercase (Text.trim tag), l) ∈ c.entries := by
    rw [he]
    exact List.mem_append_right before List.mem_cons_self
  exact (hc _ hmem).symm

/-- A tag need not be written as its lexicon writes it, but then the lexicon's own tag leads to the
same lexicon. -/
theorem Filed.get_locale {c : Catalogue} (hc : c.Filed) {tag : String} {l : Lexicon}
    (h : c.get tag = .ok l) : c.get l.locale = .ok l := by
  have hlow := hc.lowercase_locale h
  rw [get_eq_ok_iff, get?, Text.trim_of_lowercase_eq hlow, hlow]
  exact get_eq_ok_iff.1 h

/-- A tag that leads to a lexicon still leads to one when more are added. -/
theorem isSome_get?_insert {c : Catalogue} {tag : String} (h : (c.get? tag).isSome) (l : Lexicon) :
    ((c.insert l).get? tag).isSome := by
  unfold get? insert
  rw [List.lookup_cons]
  split
  · rfl
  · exact h

theorem isSome_get?_foldlM_register {c d : Catalogue} {tag : String} (hc : (c.get? tag).isSome)
    (ls : List Lexicon) (h : ls.foldlM register c = .ok d) : (d.get? tag).isSome :=
  foldlM_register_induction (P := fun c => (c.get? tag).isSome)
    (fun _ l _ hc => isSome_get?_insert hc l) hc ls h

end Catalogue

theorem Config.validate_eq_ok_iff {c : Config} :
    c.validate = .ok () ↔ 1 ≤ c.flightDigits ∧ c.flightDigits ≤ c.flightMaxDigits := by
  unfold Config.validate Config.flaw?
  split_ifs with hzero hlt
  · simp [hzero]
  · simp only [false_iff]
    omega
  · simp only [true_iff]
    omega

theorem Config.filed_catalogue {config : Config} {c : Catalogue} (h : config.catalogue = .ok c) :
    c.Filed :=
  Catalogue.filed_builtin.foldlM_register config.lexicons h

theorem Config.flawless_catalogue {config : Config} {c : Catalogue}
    (h : config.catalogue = .ok c) : c.Flawless :=
  Catalogue.foldlM_register_induction (P := Catalogue.Flawless) (fun _ _ hl hc => hc.insert hl)
    Catalogue.flawless_builtin config.lexicons h

/-- English can be replaced, but not removed. -/
theorem Config.get_english {config : Config} {c : Catalogue} (h : config.catalogue = .ok c) :
    ∃ l, c.get Lexicon.english.locale = .ok l := by
  have hbuiltin : (Catalogue.builtin.get? Lexicon.english.locale).isSome := by decide +kernel
  obtain ⟨l, hl⟩ := Option.isSome_iff_exists.1
    (Catalogue.isSome_get?_foldlM_register hbuiltin config.lexicons h)
  exact ⟨l, Catalogue.get_eq_ok_iff.2 hl⟩

end Phraseology
