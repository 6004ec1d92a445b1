import Mathlib
import Phraseology.Proofs.Text.Blank
import Phraseology.Text.Lowercase

/-! Lowercase and blanks: no letter becomes a blank and no blank a letter, so the blanks at the ends
of a text can be told from its lowercase. -/
namespace Phraseology.Text

theorem mapRuns_cases (n : Nat) (runs : List CaseRun) :
    mapRuns n runs = n ∨
      ∃ r ∈ runs, r.first ≤ n ∧ n ≤ r.last ∧ (n - r.first) % r.step = 0 ∧
        mapRuns n runs = r.image + (n - r.first) := by
  induction runs with
  | nil => exact .inl rfl
  | cons r rest ih =>
    simp only [mapRuns]
    split_ifs with hlt hin
    · exact .inl rfl
    · simp only [Bool.and_eq_true, decide_eq_true_eq, beq_iff_eq] at hin
      exact .inr ⟨r, by simp, by omega, hin.1, hin.2, rfl⟩
    · rcases ih with h | ⟨q, hq, h⟩
      · exact .inl h
      · exact .inr ⟨q, List.mem_cons_of_mem r hq, h⟩

theorem exists_of_inRanges {n : Nat} {rs : List (Nat × Nat)} (h : inRanges n rs = true) :
    ∃ r ∈ rs, r.1 ≤ n ∧ n ≤ r.2 := by
  induction rs with
  | nil => cases h
  | cons r rest ih =>
    simp only [inRanges] at h
    split_ifs at h with hlt
    rcases Bool.or_eq_true_iff.1 h with hle | hrest
    · exact ⟨r, by simp, by omega, by simpa using hle⟩
    · obtain ⟨q, hq, hn⟩ := ih hrest
      exact ⟨q, List.mem_cons_of_mem r hq, hn⟩

/-- No run of the table maps a blank, and none maps to one. -/
private theorem lowerRuns_apart :
    ∀ r ∈ lowerRuns, ∀ b ∈ blankRanges,
      (b.2 < r.first ∨ r.last < b.1) ∧ (b.2 < r.image ∨ r.image + (r.last - r.first) < b.1) := by
  decide +kernel

theorem mapRuns_of_blank {n : Nat} (h : inRanges n blankRanges = true) :
    mapRuns n lowerRuns = n := by
  obtain ⟨b, hb, hlo, hhi⟩ := exists_of_inRanges h
  rcases mapRuns_cases n lowerRuns with he | ⟨r, hr, hf, hl, -, -⟩
  · exact he
  · have := (lowerRuns_apart r hr b hb).1
    omega

theorem not_blank_mapRuns {n : Nat} (h : inRanges n blankRanges = false) :
    inRanges (mapRuns n lowerRuns) blankRanges = false := by
  rcases mapRuns_cases n lowerRuns with he | ⟨r, hr, hf, hl, -, he⟩
  · rw [he, h]
  · by_contra hn
    obtain ⟨b, hb, hlo, hhi⟩ := exists_of_inRanges (Bool.eq_true_of_not_eq_false hn)
    have := (lowerRuns_apart r hr b hb).2
    omega

/-- What holds of the first 128 code points holds of all of ASCII. -/
theorem forall_ascii {p : Char → Prop} (h : ∀ n < 128, p (Char.ofNat n)) {c : Char}
    (hc : c.toNat < 128) : p c := by
  simpa using h c.toNat hc

theorem not_blank_ofNat {n : Nat} (h : inRanges n blankRanges = false) :
    isBlank (Char.ofNat n) = false := by
  unfold isBlank
  rw [Char.toNat_ofNat]
  split_ifs
  · exact h
  · decide

theorem lowerChar_of_blank {c : Char} (h : isBlank c = true) : lowerChar c = [c] := by
  unfold lowerChar
  split_ifs with hascii hdot
  · have hlow : isBlank c = true → c.toLower = c :=
      forall_ascii (p := fun c => isBlank c = true → c.toLower = c) (by decide) hascii
    rw [hlow h]
  · rw [beq_iff_eq.1 hdot] at h
    exact absurd h (by decide)
  · rw [mapRuns_of_blank h, Char.ofNat_toNat]

theorem not_blank_lowerChar {c d : Char} (h : isBlank c = false) (hd : d ∈ lowerChar c) :
    isBlank d = false := by
  unfold lowerChar at hd
  split_ifs at hd with hascii hdot
  · have hlow : isBlank c = false → isBlank c.toLower = false :=
      forall_ascii (p := fun c => isBlank c = false → isBlank c.toLower = false) (by decide) hascii
    rw [List.mem_singleton.1 hd]
    exact hlow h
  · rcases List.mem_pair.1 hd with rfl | rfl <;> decide
  · rw [List.mem_singleton.1 hd]
    exact not_blank_ofNat (not_blank_mapRuns h)

theorem lowerChar_ne_nil (c : Char) : lowerChar c ≠ [] := by
  unfold lowerChar
  split_ifs <;> simp

/-- What one character becomes, between what has been read and what follows. -/
def lowerIn (before : List Char) (c : Char) (s : List Char) : List Char :=
  if c == 'Σ' then [if startsCased before && !startsCased s then 'ς' else 'σ'] else lowerChar c

theorem lowerAfter_cons (before : List Char) (c : Char) (s : List Char) :
    lowerAfter before (c :: s) = lowerIn before c s ++ lowerAfter (c :: before) s := rfl

theorem startsCased_cons (c : Char) (s : List Char) :
    startsCased (c :: s) = if isCaseIgnorable c then startsCased s else isCased c := by
  rw [startsCased, List.dropWhile_cons]
  split_ifs <;> rfl

theorem startsCased_append {s : List Char} (h : startsCased s = false) (u : List Char) :
    startsCased (u ++ s) = startsCased u := by
  induction u with
  | nil => exact h
  | cons c u ih => rw [List.cons_append, startsCased_cons, startsCased_cons, ih]

/-- What comes after a text and does not begin with a letter that has case leaves its lowercase as
it is. -/
theorem lowerAfter_append {s : List Char} (h : startsCased s = false) (b u : List Char) :
    lowerAfter b (u ++ s) = lowerAfter b u ++ lowerAfter (u.reverse ++ b) s := by
  induction u generalizing b with
  | nil => rfl
  | cons c u ih =>
    have hlower : lowerIn b c (u ++ s) = lowerIn b c u := by
      rw [lowerIn, startsCased_append h, lowerIn]
    rw [List.cons_append, lowerAfter_cons, hlower, ih, lowerAfter_cons, List.append_assoc,
      List.reverse_cons, List.append_assoc, List.singleton_append]

theorem lowerIn_ne_nil (before : List Char) (c : Char) (s : List Char) :
    lowerIn before c s ≠ [] := by
  unfold lowerIn
  split_ifs
  · simp
  · simp
  · exact lowerChar_ne_nil c

theorem isBlank_of_mem_lowerIn {before s : List Char} {c d : Char} (hd : d ∈ lowerIn before c s) :
    isBlank d = isBlank c := by
  unfold lowerIn at hd
  split_ifs at hd with hsigma hfinal
  · rw [beq_iff_eq.1 hsigma, List.mem_singleton.1 hd]
    decide
  · rw [beq_iff_eq.1 hsigma, List.mem_singleton.1 hd]
    decide
  · cases hc : isBlank c with
    | true =>
      rw [lowerChar_of_blank hc] at hd
      rw [List.mem_singleton.1 hd, hc]
    | false => exact not_blank_lowerChar hc hd

theorem head?_lowerAfter (before : List Char) (c : Char) (s : List Char) :
    (lowerAfter before (c :: s)).head?.map isBlank = some (isBlank c) := by
  have hne := lowerIn_ne_nil before c s
  rw [lowerAfter_cons, List.head?_append_of_ne_nil _ hne, List.head?_eq_some_head hne,
    Option.map_some, isBlank_of_mem_lowerIn (List.head_mem hne)]

theorem getLast?_lowerAfter (before s : List Char) (c : Char) :
    (lowerAfter before (s ++ [c])).getLast?.map isBlank = some (isBlank c) := by
  induction s generalizing before with
  | nil =>
    have hne := lowerIn_ne_nil before c []
    rw [List.nil_append, lowerAfter_cons, lowerAfter, List.append_nil,
      List.getLast?_eq_some_getLast hne, Option.map_some,
      isBlank_of_mem_lowerIn (List.getLast_mem hne)]
  | cons d s ih =>
    have hne : lowerAfter (d :: before) (s ++ [c]) ≠ [] := by
      intro h
      simpa [h] using ih (d :: before)
    rw [List.cons_append, lowerAfter_cons, List.getLast?_append_of_ne_nil _ hne, ih]

@[simp] theorem lowerChars_eq_nil_iff {s : List Char} : lowerChars s = [] ↔ s = [] := by
  constructor
  · intro h
    cases s with
    | nil => rfl
    | cons c s => simpa [show lowerAfter [] (c :: s) = [] from h] using head?_lowerAfter [] c s
  · rintro rfl
    rfl

/-- A text with the lowercase of a trimmed one is trimmed itself. -/
theorem Trimmed.of_lowerChars {s t : List Char} (ht : Trimmed t)
    (h : lowerChars s = lowerChars t) : Trimmed s where
  head := by
    intro c hc
    obtain ⟨s, rfl⟩ := List.head?_eq_some_iff.1 hc
    cases t with
    | nil => exact absurd (lowerChars_eq_nil_iff.1 h) (by simp)
    | cons d t =>
      have hs := head?_lowerAfter [] c s
      rw [show lowerAfter [] (c :: s) = lowerAfter [] (d :: t) from h, head?_lowerAfter] at hs
      rw [← Option.some.inj hs, ht.head d rfl]
  last := by
    intro c hc
    obtain ⟨s, rfl⟩ := List.getLast?_eq_some_iff.1 hc
    rcases List.eq_nil_or_concat' t with rfl | ⟨t, d, rfl⟩
    · exact absurd (lowerChars_eq_nil_iff.1 h) (by simp)
    · have hs := getLast?_lowerAfter [] s c
      rw [show lowerAfter [] (s ++ [c]) = lowerAfter [] (t ++ [d]) from h,
        getLast?_lowerAfter] at hs
      rw [← Option.some.inj hs, ht.last d (by simp)]

theorem trim_of_lowercase_eq {s t : String} (h : lowercase s = lowercase (trim t)) :
    trim s = s := by
  have hc : lowerChars s.toList = lowerChars (trimChars t.toList) := by
    simpa [lowercase, trim] using congrArg String.toList h
  have hs := (trimmed_trimChars t.toList).of_lowerChars hc
  rw [trim, hs.trimChars_eq, String.ofList_toList]

end Phraseology.Text
