import Mathlib.Tactic.Common
import Phraseology.Lexicon

/-! Which lexicons can be used. -/
namespace Phraseology.Lexicon

variable {l : Lexicon}

theorem word_mem_vocabulary {d : DigitWord} (h : d ∈ l.digits) : d.word ∈ l.vocabulary :=
  List.mem_append_left _ (List.mem_append_left _ (List.mem_map_of_mem h))

theorem phonetic_mem_vocabulary {x : Spelling} (h : x ∈ l.phonetic) : x.spoken ∈ l.vocabulary :=
  List.mem_append_left _ (List.mem_append_right _ (List.mem_map_of_mem h))

theorem direction_mem_vocabulary {x : Spelling} (h : x ∈ l.directions) :
    x.spoken ∈ l.vocabulary := List.mem_append_right _ (List.mem_map_of_mem h)

/-- A lexicon in which nothing is blank, missing or too great. -/
structure Flawless (l : Lexicon) : Prop where
  locale : Text.isBlankText l.locale = false
  value_le : ∀ d ∈ l.digits, d.value ≤ 9
  digit : ∀ v < 10, (l.canonicalDigit? v).isSome
  not_blank : ∀ w ∈ l.vocabulary, Text.isBlankText w = false
  phonetic_ne : l.phonetic ≠ []

theorem flaw?_eq_none_iff : l.flaw? = none ↔ l.Flawless := by
  unfold flaw?
  by_cases hlocale : Text.isBlankText l.locale = true
  · rw [if_pos hlocale]
    exact iff_of_false (by simp) fun h => by simp [h.locale] at hlocale
  rw [if_neg hlocale]
  cases hgreat : l.digits.find? fun d => 9 < d.value with
  | some d =>
    refine iff_of_false (by simp) fun h => ?_
    have hle := h.value_le d (List.mem_of_find?_eq_some hgreat)
    have hlt : 9 < d.value := by simpa using List.find?_some hgreat
    omega
  | none =>
    cases hmissing : (List.range 10).find? fun v => (l.canonicalDigit? v).isNone with
    | some v =>
      refine iff_of_false (by simp) fun h => ?_
      have hsome := h.digit v (List.mem_range.1 (List.mem_of_find?_eq_some hmissing))
      have hnone := List.find?_some hmissing
      rw [Option.isNone_iff_eq_none] at hnone
      simp [hnone] at hsome
    | none =>
      simp only
      split_ifs with hblank hempty
      · obtain ⟨w, hw, hwblank⟩ := List.any_eq_true.1 hblank
        exact iff_of_false (by simp) fun h => by simp [h.not_blank w hw] at hwblank
      · exact iff_of_false (by simp) fun h => h.phonetic_ne (List.isEmpty_iff.1 hempty)
      · have hdigit : ∀ v < 10, (l.canonicalDigit? v).isSome := fun v hv => by
          simpa [Option.isSome_iff_ne_none] using
            List.find?_eq_none.1 hmissing v (List.mem_range.2 hv)
        have hword : ∀ w ∈ l.vocabulary, Text.isBlankText w = false := by
          simpa [List.any_eq_true] using hblank
        exact iff_of_true rfl ⟨by simpa using hlocale,
          by simpa using List.find?_eq_none.1 hgreat, hdigit, hword, by simpa using hempty⟩

theorem validate_eq_ok_iff : l.validate = .ok () ↔ l.Flawless := by
  rw [← flaw?_eq_none_iff, validate]
  cases l.flaw? <;> simp

end Phraseology.Lexicon
