import Mathlib
import Phraseology.Text.Blank

/-! Texts without blanks at their ends. -/
namespace Phraseology.Text

/-- A text that neither begins nor ends with a blank. -/
structure Trimmed (s : List Char) : Prop where
  head : ∀ c ∈ s.head?, isBlank c = false
  last : ∀ c ∈ s.getLast?, isBlank c = false

@[simp] theorem Trimmed.trimChars_eq {s : List Char} (h : Trimmed s) : trimChars s = s := by
  have hdrop : ∀ t : List Char, (∀ c ∈ t.head?, isBlank c = false) → t.dropWhile isBlank = t := by
    intro t ht
    cases t with
    | nil => rfl
    | cons c t => rw [List.dropWhile_cons_of_neg (by simp [ht c rfl])]
  unfold trimChars
  rw [hdrop s h.head, hdrop s.reverse (by simpa using h.last), List.reverse_reverse]

theorem trimmed_trimChars (s : List Char) : Trimmed (trimChars s) where
  head := by
    intro c hc
    have hdrop := List.head?_dropWhile_not isBlank s
    obtain ⟨u, hu⟩ : trimChars s <+: s.dropWhile isBlank := List.rdropWhile_prefix isBlank _
    rw [← hu, List.head?_append, Option.mem_def.1 hc] at hdrop
    exact hdrop
  last := by
    intro c hc
    have hdrop := List.head?_dropWhile_not isBlank (s.dropWhile isBlank).reverse
    rw [trimChars, List.getLast?_reverse] at hc
    rw [Option.mem_def.1 hc] at hdrop
    exact hdrop

/-- Only blanks are trimmed. -/
theorem exists_trimChars (s : List Char) :
    ∃ bl bl', s = bl ++ (trimChars s ++ bl') ∧ (∀ c ∈ bl, isBlank c = true) ∧
      ∀ c ∈ bl', isBlank c = true := by
  have hfront := List.takeWhile_append_dropWhile (p := isBlank) (l := s)
  have hback := congrArg List.reverse
    (List.takeWhile_append_dropWhile (p := isBlank) (l := (s.dropWhile isBlank).reverse))
  rw [List.reverse_append, List.reverse_reverse] at hback
  refine ⟨_, _, (hback ▸ hfront).symm, fun c => List.mem_takeWhile_imp, fun c hc => ?_⟩
  exact List.mem_takeWhile_imp (List.mem_reverse.1 hc)

/-- Nothing is left of a text only if it is blank. -/
theorem trimChars_eq_nil_iff {s : List Char} : trimChars s = [] ↔ s.all isBlank = true := by
  obtain ⟨bl, bl', hs, hbl, hbl'⟩ := exists_trimChars s
  constructor
  · intro h
    rw [h, List.nil_append] at hs
    rw [hs, List.all_append, List.all_eq_true.2 hbl, List.all_eq_true.2 hbl', Bool.and_self]
  · intro h
    cases htrim : trimChars s with
    | nil => rfl
    | cons c t =>
      have hblank : isBlank c = true := List.all_eq_true.1 h c (by rw [hs, htrim]; simp)
      rw [(trimmed_trimChars s).head c (by rw [htrim]; rfl)] at hblank
      cases hblank

end Phraseology.Text
