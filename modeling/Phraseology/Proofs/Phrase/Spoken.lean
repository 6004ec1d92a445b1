import Phraseology.Phrase
import Phraseology.Proofs.Text.Words

/-! The words that a phrase can be spoken with. -/
namespace Phraseology.Phrase

open Text (Unbroken)

/-- A phrase can be uttered in these pieces, where `cut` tells the pieces of a text. -/
inductive Uttered (cut : String → List String) : Phrase → List String → Prop where
  | text (s : String) : Uttered cut (.text s) (cut s)
  | choice {alternatives : List Phrase} {p : Phrase} {ws : List String} (mem : p ∈ alternatives)
      (uttered : Uttered cut p ws) : Uttered cut (.choice alternatives) ws
  | nil : Uttered cut (.sequence []) []
  | cons {p : Phrase} {rest : List Phrase} {us ws : List String} (first : Uttered cut p us)
      (others : Uttered cut (.sequence rest) ws) : Uttered cut (.sequence (p :: rest)) (us ++ ws)
  | repeated {body : Phrase} {min max : Nat} (wss : List (List String))
      (copies : ∀ ws ∈ wss, Uttered cut body ws) (lower : min ≤ wss.length)
      (upper : wss.length ≤ max) : Uttered cut (.repeated body min max) wss.flatten
  | element {kind : ElementKind} {body : Phrase} {ws : List String}
      (uttered : Uttered cut body ws) : Uttered cut (.element kind body) ws

abbrev Spoken (p : Phrase) (ws : List String) : Prop := Uttered Text.words p ws

/-- A phrase can be spoken with these texts, none of which is cut into words. -/
abbrev SpokenWhole (p : Phrase) (ws : List String) : Prop := Uttered (fun s => [s]) p ws

mutual

def texts : Phrase → List String
  | .text s => [s]
  | .choice alternatives => textsOf alternatives
  | .sequence parts => textsOf parts
  | .repeated body _ _ => texts body
  | .element _ body => texts body

def textsOf : List Phrase → List String
  | [] => []
  | p :: rest => texts p ++ textsOf rest

end

theorem mem_textsOf_iff {ps : List Phrase} {s : String} :
    s ∈ textsOf ps ↔ ∃ p ∈ ps, s ∈ p.texts := by
  induction ps with
  | nil => simp [textsOf]
  | cons p ps ih => simp [textsOf, ih]

variable {cut : String → List String} {p body : Phrase} {min max : Nat} {ws : List String}
  {w : String}

/-- No word is empty or has a blank in it. -/
theorem Uttered.unbroken (h : Spoken p ws) : ∀ w ∈ ws, Unbroken w.toList := by
  induction h with
  | text s =>
    intro w hw
    obtain ⟨u, hu, rfl⟩ := List.mem_map.1 hw
    rw [String.toList_ofList]
    exact Text.unbroken_of_mem_wordChars hu
  | choice _ _ ih => exact ih
  | nil => simp
  | cons _ _ ih₁ ih₂ => exact List.forall_mem_append.2 ⟨ih₁, ih₂⟩
  | repeated wss _ _ _ ih =>
    intro w hw
    obtain ⟨us, hus, hw⟩ := List.mem_flatten.1 hw
    exact ih us hus w hw
  | element _ ih => exact ih

/-- Each piece of a repetition is a piece of one of the copies. -/
theorem Uttered.mem_repeated (h : Uttered cut (.repeated body min max) ws) (hw : w ∈ ws) :
    ∃ us, Uttered cut body us ∧ w ∈ us := by
  cases h with
  | repeated wss copies =>
    obtain ⟨us, hus, hw⟩ := List.mem_flatten.1 hw
    exact ⟨us, copies us hus, hw⟩

/-- Each piece of a sequence is a piece of one of the parts. -/
theorem Uttered.mem_sequence {parts : List Phrase} (h : Uttered cut (.sequence parts) ws)
    (hw : w ∈ ws) : ∃ p ∈ parts, ∃ us, Uttered cut p us ∧ w ∈ us := by
  induction parts generalizing ws with
  | nil =>
    cases h
    cases hw
  | cons p parts ih =>
    cases h with
    | cons first others =>
      rcases List.mem_append.1 hw with hw | hw
      · exact ⟨p, by simp, _, first, hw⟩
      · obtain ⟨q, hq, hus⟩ := ih others hw
        exact ⟨q, List.mem_cons_of_mem p hq, hus⟩

/-- One of several texts is uttered. -/
theorem Uttered.oneOf_iff {texts : List String} :
    Uttered cut (.oneOf texts) ws ↔ ∃ s ∈ texts, ws = cut s := by
  constructor
  · intro h
    cases h with
    | choice mem uttered =>
      obtain ⟨s, hs, rfl⟩ := List.mem_map.1 mem
      cases uttered
      exact ⟨s, hs, rfl⟩
  · rintro ⟨s, hs, rfl⟩
    exact .choice (List.mem_map_of_mem hs) (.text s)

/-- One of several texts is uttered, or nothing. -/
theorem Uttered.optional_oneOf_iff {texts : List String} :
    Uttered cut (.optional (.oneOf texts)) ws ↔ ws = [] ∨ ∃ s ∈ texts, ws = cut s := by
  rw [← Uttered.oneOf_iff]
  constructor
  · intro h
    cases h with
    | repeated wss copies lower upper =>
      match wss, upper with
      | [], _ => exact .inl rfl
      | [us], _ => exact .inr (by simpa using copies)
  · rintro (rfl | h)
    · exact .repeated [] (by simp) le_rfl (by decide)
    · rw [← List.flatten_singleton (l := ws)]
      exact .repeated [ws] (by simpa using h) (Nat.zero_le _) le_rfl

theorem Uttered.append {ps qs : List Phrase} {us vs : List String}
    (hus : Uttered cut (.sequence ps) us) (hvs : Uttered cut (.sequence qs) vs) :
    Uttered cut (.sequence (ps ++ qs)) (us ++ vs) := by
  induction ps generalizing us with
  | nil =>
    cases hus
    exact hvs
  | cons p ps ih =>
    cases hus with
    | cons first others =>
      rw [List.append_assoc]
      exact .cons first (ih others)

/-- What is uttered for two sequences one after another. -/
theorem Uttered.of_append {ps qs : List Phrase} (h : Uttered cut (.sequence (ps ++ qs)) ws) :
    ∃ us vs, ws = us ++ vs ∧ Uttered cut (.sequence ps) us ∧ Uttered cut (.sequence qs) vs := by
  induction ps generalizing ws with
  | nil => exact ⟨[], ws, rfl, .nil, h⟩
  | cons p ps ih =>
    cases h with
    | cons first others =>
      obtain ⟨us, vs, rfl, hus, hvs⟩ := ih others
      exact ⟨_, vs, (List.append_assoc _ _ _).symm, .cons first hus, hvs⟩

end Phraseology.Phrase
