import Phraseology.Proofs.Text.Ideograph
import Phraseology.Proofs.Text.Laid

/-! Alternatives keep all words, and no word comes before a longer one; and searching in lowercase for
what stands in a text in some case. -/
namespace Phraseology.Text

section Alternatives

variable {α : Type} {length : α → Nat} {a b : α} {xs : List α}

@[simp, grind =] theorem mem_insertLongest : b ∈ insertLongest length a xs ↔ b = a ∨ b ∈ xs := by
  induction xs with
  | nil => simp [insertLongest]
  | cons x xs ih => grind

@[simp] theorem mem_longestFirst : b ∈ longestFirst length xs ↔ b ∈ xs := by
  induction xs with
  | nil => rfl
  | cons x xs ih =>
    rw [longestFirst, List.foldr_cons, mem_insertLongest, List.mem_cons]
    exact or_congr_right ih

theorem pairwise_insertLongest (h : xs.Pairwise (length · ≥ length ·)) :
    (insertLongest length a xs).Pairwise (length · ≥ length ·) := by
  induction xs with
  | nil => simp [insertLongest]
  | cons x xs ih =>
    obtain ⟨hx, hxs⟩ := List.pairwise_cons.1 h
    simp only [insertLongest]
    split_ifs with hle
    · refine List.pairwise_cons.2 ⟨fun y hy => ?_, h⟩
      rcases List.mem_cons.1 hy with rfl | hy
      · exact hle
      · exact (hx y hy).trans hle
    · refine List.pairwise_cons.2 ⟨fun y hy => ?_, ih hxs⟩
      rcases mem_insertLongest.1 hy with rfl | hy
      · exact (not_le.1 hle).le
      · exact hx y hy

theorem pairwise_longestFirst (length : α → Nat) (xs : List α) :
    (longestFirst length xs).Pairwise (length · ≥ length ·) := by
  induction xs with
  | nil => exact .nil
  | cons x xs ih => exact pairwise_insertLongest ih

theorem mem_alternativesOrEmpty {words : List String} {w : List Char} (hne : words ≠ []) :
    w ∈ alternativesOrEmpty words ↔ ∃ x ∈ words, x.toList = w := by
  have hempty : words.isEmpty = false := by simpa using hne
  rw [alternativesOrEmpty, hempty, if_neg (by decide), alternatives, mem_longestFirst, List.mem_map]

theorem pairwise_alternativesOrEmpty (words : List String) :
    (alternativesOrEmpty words).Pairwise (List.length · ≥ List.length ·) := by
  unfold alternativesOrEmpty
  split_ifs
  · simp
  · exact pairwise_longestFirst _ _

end Alternatives

variable {b p s t u v : List Char} {c : Char}

theorem occursIn_iff : occursIn p s = true ↔ p <:+: s := by
  induction s with
  | nil => rw [occursIn, List.isEmpty_iff, List.infix_nil]
  | cons c s ih =>
    rw [occursIn, Bool.or_eq_true, List.isPrefixOf_iff_prefix, ih, List.infix_cons_iff]

/-- Without a capital sigma each character has a lowercase of its own. -/
theorem lowerAfter_of_not_mem (h : 'Σ' ∉ s) : lowerAfter b s = s.flatMap lowerChar := by
  induction s generalizing b with
  | nil => rfl
  | cons c s ih =>
    have hc : (c == 'Σ') = false := beq_false_of_ne fun hc => h (by simp [hc])
    rw [lowerAfter_cons, lowerIn, hc, if_neg (by decide),
      ih fun hs => h (List.mem_cons_of_mem c hs), List.flatMap_cons]

private theorem caseRanges_not_blank :
    ((casedRanges ++ caseIgnorableRanges).all fun r =>
      blankRanges.all fun b => b.2.blt r.1 || r.2.blt b.1) = true := by
  decide +kernel

/-- No blank has case, and none is looked through. -/
private theorem not_inRanges_of_blank {rs : List (Nat × Nat)}
    (hrs : ∀ r ∈ rs, r ∈ casedRanges ++ caseIgnorableRanges) (hc : isBlank c = true) :
    inRanges c.toNat rs = false := by
  by_contra h
  obtain ⟨r, hr, hlo, hhi⟩ := exists_of_inRanges (Bool.eq_true_of_not_eq_false h)
  obtain ⟨b, hb, hblo, hbhi⟩ := exists_of_inRanges hc
  have hapart := List.all_eq_true.1 (List.all_eq_true.1 caseRanges_not_blank r (hrs r hr)) b hb
  rw [Bool.or_eq_true, Nat.blt_eq, Nat.blt_eq] at hapart
  omega

theorem isCased_of_blank (hc : isBlank c = true) : isCased c = false := by
  unfold isCased
  split_ifs with hascii
  · exact forall_ascii (p := fun c => isBlank c = true → c.isAlpha = false) (by decide) hascii hc
  · exact not_inRanges_of_blank (fun r hr => List.mem_append_left _ hr) hc

theorem isCaseIgnorable_of_blank (hc : isBlank c = true) : isCaseIgnorable c = false := by
  unfold isCaseIgnorable
  split_ifs with hascii
  · exact forall_ascii (p := fun c => isBlank c = true →
      "'.:^\u0060".toList.contains c = false) (by decide) hascii hc
  · exact not_inRanges_of_blank (fun r hr => List.mem_append_right _ hr) hc

/-- A letter behind a blank is a letter at the beginning. -/
theorem startsCased_of_blank (h : ∀ c ∈ s.head?, isBlank c = true) : startsCased s = false := by
  cases s with
  | nil => rfl
  | cons c s =>
    rw [startsCased_cons, isCaseIgnorable_of_blank (h c rfl), if_neg (by decide),
      isCased_of_blank (h c rfl)]

/-- What comes before a text and does not end in a letter that has case leaves its lowercase as it
is. -/
theorem lowerAfter_behind (h : startsCased b = false) (v s : List Char) :
    lowerAfter (v ++ b) s = lowerAfter v s := by
  induction s generalizing v with
  | nil => rfl
  | cons c s ih =>
    have hlower : lowerIn (v ++ b) c s = lowerIn v c s := by
      rw [lowerIn, startsCased_append h, lowerIn]
    rw [lowerAfter_cons, lowerAfter_cons, hlower, ← List.cons_append, ih]

theorem lowerAfter_word (ht : ∀ c ∈ t.head?, isBlank c = true) (hb : startsCased b = false)
    (u : List Char) : lowerAfter b (u ++ t) = lowerChars u ++ lowerAfter (u.reverse ++ b) t := by
  rw [lowerAfter_append (startsCased_of_blank ht), lowerChars]
  congr 1
  exact lowerAfter_behind hb [] u

@[simp] theorem isPrefixOf?_append (p t : List Char) : p.isPrefixOf? (p ++ t) = some t :=
  List.isPrefixOf?_eq_some_iff_append_eq.2 rfl

theorem isPrefixOf?_eq_none (h : ¬ p <+: s) : p.isPrefixOf? s = none := by
  refine Option.eq_none_iff_forall_ne_some.2 fun t ht => ?_
  exact h ⟨t, List.isPrefixOf?_eq_some_iff_append_eq.1 ht⟩

end Phraseology.Text
