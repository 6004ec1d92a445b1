import Phraseology.Proofs.Text.Place
import Phraseology.Text.Ascii

/-! Words of ASCII letters, which have one lowercase whatever stands around them, and the case of
ASCII: texts that differ in it only have one lowercase and are alike, and where the lowercase is ASCII
it is what the text folds to. -/
namespace Phraseology.Text

structure LetterWord (w : String) : Prop where
  ne_nil : w.toList ≠ []
  isAlpha : ∀ c ∈ w.toList, c.isAlpha = true

theorem letterWord_iff {w : String} :
    LetterWord w ↔ (!w.toList.isEmpty && w.toList.all Char.isAlpha) = true := by
  rw [Bool.and_eq_true, Bool.not_eq_true', List.isEmpty_eq_false_iff, List.all_eq_true]
  exact ⟨fun h => ⟨h.ne_nil, h.isAlpha⟩, fun h => ⟨h.1, h.2⟩⟩

instance (w : String) : Decidable (LetterWord w) := decidable_of_iff _ letterWord_iff.symm

theorem toNat_lt_of_isAlpha {c : Char} (h : c.isAlpha = true) : c.toNat < 128 := by
  simp only [Char.isAlpha, Char.isUpper, Char.isLower, Bool.or_eq_true, Bool.and_eq_true,
    decide_eq_true_eq, UInt32.le_iff_toNat_le] at h
  change c.val.toNat < 128
  rcases h with ⟨-, h⟩ | ⟨-, h⟩
  · exact h.trans_lt (by decide)
  · exact h.trans_lt (by decide)

theorem LetterWord.plain {w : String} (h : LetterWord w) : PlainWord w.toList where
  ne_nil := h.ne_nil
  all := by
    intro c hc
    have halpha := h.isAlpha c hc
    unfold isWordChar Char.isAlphanum
    rw [if_pos (toNat_lt_of_isAlpha halpha), halpha]
    rfl

theorem lowerAfter_ascii (b : List Char) {s : List Char} (h : ∀ c ∈ s, c.toNat < 128) :
    lowerAfter b s = s.map Char.toLower := by
  induction s generalizing b with
  | nil => rfl
  | cons c s ih =>
    have hc : c.toNat < 128 := h c (by simp)
    have hsigma : (c == 'Σ') = false := by
      refine beq_false_of_ne ?_
      rintro rfl
      exact absurd hc (by decide)
    have hlower : lowerChar c = [c.toLower] := by
      rw [lowerChar, if_pos hc]
    rw [lowerAfter, hsigma, if_neg (by decide), hlower,
      ih _ fun d hd => h d (List.mem_cons_of_mem c hd)]
    rfl

theorem LetterWord.lowerChars_eq {w : String} (hw : LetterWord w) :
    lowerChars w.toList = w.toList.map Char.toLower :=
  lowerAfter_ascii [] fun c hc => toNat_lt_of_isAlpha (hw.isAlpha c hc)

theorem LetterWord.lowercase_eq {v w : String} (hv : LetterWord v) (hw : LetterWord w) :
    (lowercase v == lowercase w) = sameIgnoringAsciiCase v w := by
  rw [Bool.eq_iff_iff, beq_iff_eq, sameIgnoringAsciiCase, beq_iff_eq, lowercase, lowercase,
    hv.lowerChars_eq, hw.lowerChars_eq, String.ofList_inj]

/-- Words of ASCII letters differ in case only if their lowercase is the same. -/
theorem LetterWord.alike_iff {v w : String} (hv : LetterWord v) (hw : LetterWord w) :
    Alike v.toList w.toList ↔ lowerChars v.toList = lowerChars w.toList := by
  have hfold {u : String} (hu : LetterWord u) : u.toList.map fold = lowerChars u.toList := by
    rw [hu.lowerChars_eq]
    refine List.map_congr_left fun c hc => ?_
    rw [fold, if_pos (toNat_lt_of_isAlpha (hu.isAlpha c hc))]
  rw [Alike, hfold hv, hfold hw]

variable {b s u v : List Char} {c : Char}

theorem toLower_of_not_ascii (h : ¬ c.toNat < 128) : c.toLower = c := by
  have hupper : ¬ c.isUpper = true := by
    intro hc
    exact h (toNat_lt_of_isAlpha (by simp [Char.isAlpha, hc]))
  unfold Char.toLower
  rw [dif_neg]
  simpa [Char.isUpper] using hupper

/-- What does not tell the cases of ASCII apart does not change when they are put aside. -/
theorem apply_toLower {α : Type} {f : Char → α}
    (h : ∀ n < 128, f (Char.ofNat n).toLower = f (Char.ofNat n)) (c : Char) :
    f c.toLower = f c := by
  by_cases hc : c.toNat < 128
  · exact forall_ascii (p := fun c => f c.toLower = f c) h hc
  · rw [toLower_of_not_ascii hc]

@[simp] theorem fold_toLower (c : Char) : fold c.toLower = fold c := apply_toLower (by decide) c

@[simp] theorem startsCased_map_toLower (s : List Char) :
    startsCased (s.map Char.toLower) = startsCased s := by
  induction s with
  | nil => rfl
  | cons c s ih =>
    have hignorable : isCaseIgnorable c.toLower = isCaseIgnorable c := apply_toLower (by decide) c
    have hcased : isCased c.toLower = isCased c := apply_toLower (by decide) c
    rw [List.map_cons, startsCased_cons, startsCased_cons, hignorable, hcased, ih]

/-- The form of a sigma does not depend on the case of the ASCII letters around it. -/
@[simp] theorem lowerIn_toLower (b : List Char) (c : Char) (s : List Char) :
    lowerIn (b.map Char.toLower) c.toLower (s.map Char.toLower) = lowerIn b c s := by
  have hsigma : (c.toLower == 'Σ') = (c == 'Σ') :=
    apply_toLower (f := fun c => c == 'Σ') (by decide) c
  have hlower : lowerChar c.toLower = lowerChar c := apply_toLower (by decide) c
  rw [lowerIn, lowerIn, hsigma, hlower, startsCased_map_toLower, startsCased_map_toLower]

@[simp] theorem lowerAfter_map_toLower (b s : List Char) :
    lowerAfter (b.map Char.toLower) (s.map Char.toLower) = lowerAfter b s := by
  induction s generalizing b with
  | nil => rfl
  | cons c s ih =>
    rw [List.map_cons, lowerAfter_cons, lowerAfter_cons, lowerIn_toLower, ← List.map_cons, ih]

theorem lowercase_eq_of_sameIgnoringAsciiCase {v w : String}
    (h : sameIgnoringAsciiCase v w = true) : lowercase v = lowercase w := by
  rw [lowercase, lowercase, lowerChars, lowerChars, ← lowerAfter_map_toLower,
    ← lowerAfter_map_toLower [] w.toList, beq_iff_eq.1 h]

theorem alike_of_sameIgnoringAsciiCase {v w : String} (h : sameIgnoringAsciiCase v w = true) :
    Alike v.toList w.toList := by
  have hfold (t : List Char) : t.map fold = (t.map Char.toLower).map fold := by
    rw [List.map_map]
    exact List.map_congr_left fun c _ => (fold_toLower c).symm
  rw [Alike, hfold v.toList, beq_iff_eq.1 h, ← hfold]

/-- The only letter above ASCII that has a lowercase in ASCII is the Kelvin sign. -/
private theorem lowerRuns_images :
    ∀ r ∈ lowerRuns, (128 ≤ r.image ∨ r.first = 0x212A ∧ r.last = 0x212A) ∧
      (r.image + (r.last - r.first) < 0xD800 ∨
        0xE000 ≤ r.image ∧ r.image + (r.last - r.first) < 0x110000) := by
  decide +kernel

theorem lowerChar_of_ascii (h : ∀ d ∈ lowerChar c, d.toNat < 128) : lowerChar c = [fold c] := by
  unfold lowerChar at h ⊢
  split_ifs at h ⊢ with hascii hdot
  · rw [fold, if_pos hascii]
  · exact absurd (h '\u0307' (by simp)) (by decide)
  · have hlow := h _ (List.mem_singleton_self _)
    rcases mapRuns_cases c.toNat lowerRuns with he | ⟨r, hr, hlo, hhi, -, he⟩
    · rw [he, Char.ofNat_toNat] at hlow
      exact absurd hlow hascii
    · obtain ⟨himage, hvalid⟩ := lowerRuns_images r hr
      rw [he, Char.toNat_ofNat, if_pos (by unfold Nat.isValidChar; omega)] at hlow
      obtain rfl : c = '\u212A' := by
        rw [← Char.ofNat_toNat c, show c.toNat = 0x212A by omega]
      decide +kernel

/-- A text with a lowercase of ASCII folds to it. -/
theorem lowerAfter_eq_map_fold (h : ∀ c ∈ lowerAfter b s, c.toNat < 128) :
    lowerAfter b s = s.map fold := by
  induction s generalizing b with
  | nil => rfl
  | cons c s ih =>
    rw [lowerAfter_cons] at h ⊢
    have hc : lowerIn b c s = [fold c] := by
      have hin := fun d hd => h d (List.mem_append_left _ hd)
      unfold lowerIn at hin ⊢
      split_ifs at hin ⊢
      · exact absurd (hin 'ς' (by simp)) (by decide)
      · exact absurd (hin 'σ' (by simp)) (by decide)
      · exact lowerChar_of_ascii hin
    rw [hc, ih fun d hd => h d (List.mem_append_right _ hd)]
    rfl

/-- Whatever has the lowercase of a word of ASCII letters differs from it in case only. -/
theorem LetterWord.alike_of_lowerChars {w : String} (hw : LetterWord w)
    (h : lowerChars w.toList = lowerChars v) : Alike w.toList v := by
  have hascii : ∀ c ∈ lowerChars w.toList, c.toNat < 128 := by
    rw [hw.lowerChars_eq]
    intro c hc
    obtain ⟨d, hd, rfl⟩ := List.mem_map.1 hc
    have hlow := forall_ascii (p := fun c => c.toLower.toNat < 128) (by decide)
      (toNat_lt_of_isAlpha (hw.isAlpha d hd))
    exact hlow
  have hfold : lowerChars w.toList = w.toList.map fold := lowerAfter_eq_map_fold hascii
  rw [h] at hascii
  exact hfold.symm.trans (h.trans (lowerAfter_eq_map_fold hascii))

end Phraseology.Text
