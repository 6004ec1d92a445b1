import Phraseology.Proofs.Text.Lowercase
import Phraseology.Text.CaseFold
import Phraseology.Text.WordChar

/-! Letters that differ in case only: all of them are word characters or none is, and the same holds
of blanks. -/
namespace Phraseology.Text

theorem inRanges_of_mem {n : Nat} {rs : List (Nat × Nat)} (hsorted : rs.Pairwise (·.1 ≤ ·.1))
    {r : Nat × Nat} (hr : r ∈ rs) (hlo : r.1 ≤ n) (hhi : n ≤ r.2) : inRanges n rs = true := by
  induction rs with
  | nil => cases hr
  | cons q rest ih =>
    obtain ⟨hq, hrest⟩ := List.pairwise_cons.1 hsorted
    simp only [inRanges]
    rcases List.mem_cons.1 hr with rfl | hr
    · rw [if_neg (by omega), decide_eq_true hhi, Bool.true_or]
    · have := hq r hr
      rw [if_neg (by omega), ih hrest hr, Bool.or_true]

theorem wordRanges_sorted : wordRanges.Pairwise (·.1 ≤ ·.1) := by
  have hchain : (wordRanges.map Prod.fst).IsChain (· ≤ ·) := by decide +kernel
  exact List.pairwise_map.1 (List.isChain_iff_pairwise.1 hchain)

private def covers (rs : List (Nat × Nat)) (lo hi : Nat) : Bool :=
  rs.any fun w => w.1.ble lo && hi.ble w.2

private theorem inRanges_of_covers {n lo hi : Nat} (h : covers wordRanges lo hi = true)
    (hlo : lo ≤ n) (hhi : n ≤ hi) : inRanges n wordRanges = true := by
  obtain ⟨w, hw, h⟩ := List.any_eq_true.1 h
  rw [Bool.and_eq_true, Nat.ble_eq, Nat.ble_eq] at h
  exact inRanges_of_mem wordRanges_sorted hw (by omega) (by omega)

/-- Every letter that the table folds is a word character; one run skips code points that are
none. -/
private theorem foldRuns_covered :
    (foldRuns.all fun r => Nat.ble 128 r.first &&
      (covers wordRanges r.first r.last ||
        (List.range (r.last - r.first + 1)).all fun k =>
          k % r.step != 0 || inRanges (r.first + k) wordRanges)) = true := by
  decide +kernel

private def letterRanges : List (Nat × Nat) := (0x61, 0x7A) :: wordRanges

private theorem foldRuns_images_covered :
    (foldRuns.all fun r => covers letterRanges r.image (r.image + (r.last - r.first)) &&
      ((r.image + (r.last - r.first)).blt 0xD800 ||
        (Nat.ble 0xE000 r.image && (r.image + (r.last - r.first)).blt 0x110000))) = true := by
  decide +kernel

private theorem wordRanges_not_blank :
    (wordRanges.all fun w => Nat.ble 128 w.1 &&
      blankRanges.all fun b => b.2.blt w.1 || w.2.blt b.1) = true := by
  decide +kernel

private theorem le_of_mem_wordRanges {w : Nat × Nat} (hw : w ∈ wordRanges) : 128 ≤ w.1 := by
  have h := List.all_eq_true.1 wordRanges_not_blank w hw
  rw [Bool.and_eq_true, Nat.ble_eq] at h
  exact h.1

private theorem word_of_run {r : CaseRun} (hr : r ∈ foldRuns) {n : Nat} (hlo : r.first ≤ n)
    (hhi : n ≤ r.last) (hstep : (n - r.first) % r.step = 0) :
    128 ≤ n ∧ inRanges n wordRanges = true := by
  have h := List.all_eq_true.1 foldRuns_covered r hr
  rw [Bool.and_eq_true, Nat.ble_eq, Bool.or_eq_true] at h
  refine ⟨by omega, ?_⟩
  rcases h.2 with hcovers | hall
  · exact inRanges_of_covers hcovers hlo hhi
  · have hk := List.all_eq_true.1 hall (n - r.first) (List.mem_range.2 (by omega))
    rw [hstep, show r.first + (n - r.first) = n by omega] at hk
    simpa using hk

private theorem word_of_image {r : CaseRun} (hr : r ∈ foldRuns) {n : Nat} (hlo : r.image ≤ n)
    (hhi : n ≤ r.image + (r.last - r.first)) : isWordChar (Char.ofNat n) = true := by
  have h := List.all_eq_true.1 foldRuns_images_covered r hr
  simp only [Bool.and_eq_true, Bool.or_eq_true, Nat.ble_eq, Nat.blt_eq] at h
  obtain ⟨hcovers, hvalid⟩ := h
  have hn : n.isValidChar := by
    unfold Nat.isValidChar
    omega
  obtain ⟨w, hw, hwn⟩ := List.any_eq_true.1 hcovers
  rw [Bool.and_eq_true, Nat.ble_eq, Nat.ble_eq] at hwn
  rcases List.mem_cons.1 hw with rfl | hw
  · have hletter : ∀ m < 128, 0x61 ≤ m → m ≤ 0x7A → isWordChar (Char.ofNat m) = true := by decide
    exact hletter n (by omega) (by omega) (by omega)
  · have := le_of_mem_wordRanges hw
    unfold isWordChar
    rw [Char.toNat_ofNat, if_pos hn, if_neg (by omega)]
    exact inRanges_of_mem wordRanges_sorted hw (by omega) (by omega)

/-- Only word characters fold to other characters. -/
theorem fold_eq_self {c : Char} (h : isWordChar c = false) : fold c = c := by
  unfold fold
  split_ifs with hascii
  · have hlow : isWordChar c = false → c.toLower = c :=
      forall_ascii (p := fun c => isWordChar c = false → c.toLower = c) (by decide) hascii
    exact hlow h
  · rcases mapRuns_cases c.toNat foldRuns with he | ⟨r, hr, hlo, hhi, hstep, -⟩
    · rw [he, Char.ofNat_toNat]
    · unfold isWordChar at h
      rw [if_neg hascii, (word_of_run hr hlo hhi hstep).2] at h
      cases h

theorem isWordChar_fold (c : Char) : isWordChar (fold c) = isWordChar c := by
  cases h : isWordChar c with
  | false => rw [fold_eq_self h, h]
  | true =>
    unfold fold
    split_ifs with hascii
    · have hlow : isWordChar c = true → isWordChar c.toLower = true :=
        forall_ascii (p := fun c => isWordChar c = true → isWordChar c.toLower = true) (by decide)
          hascii
      exact hlow h
    · rcases mapRuns_cases c.toNat foldRuns with he | ⟨r, hr, hlo, hhi, -, he⟩
      · rw [he, Char.ofNat_toNat, h]
      · rw [he]
        exact word_of_image hr (by omega) (by omega)

theorem not_blank_of_isWordChar {c : Char} (h : isWordChar c = true) : isBlank c = false := by
  unfold isWordChar at h
  split_ifs at h with hascii
  · have hword : (c.isAlphanum || c == '_') = true → isBlank c = false :=
      forall_ascii (p := fun c => (c.isAlphanum || c == '_') = true → isBlank c = false) (by decide)
        hascii
    exact hword h
  · by_contra hblank
    obtain ⟨w, hw, hwlo, hwhi⟩ := exists_of_inRanges h
    obtain ⟨b, hb, hblo, hbhi⟩ := exists_of_inRanges (Bool.eq_true_of_not_eq_false hblank)
    have hapart := List.all_eq_true.1 wordRanges_not_blank w hw
    rw [Bool.and_eq_true] at hapart
    have := List.all_eq_true.1 hapart.2 b hb
    rw [Bool.or_eq_true, Nat.blt_eq, Nat.blt_eq] at this
    omega

theorem alike_iff {a b : Char} : alike a b = true ↔ fold a = fold b := beq_iff_eq

theorem isWordChar_eq_of_alike {a b : Char} (h : alike a b = true) :
    isWordChar a = isWordChar b := by
  rw [← isWordChar_fold a, alike_iff.1 h, isWordChar_fold]

theorem eq_of_alike {a b : Char} (h : alike a b = true) (ha : isWordChar a = false) : a = b := by
  have hb : isWordChar b = false := (isWordChar_eq_of_alike h).symm.trans ha
  rw [← fold_eq_self ha, alike_iff.1 h, fold_eq_self hb]

theorem isBlank_eq_of_alike {a b : Char} (h : alike a b = true) : isBlank a = isBlank b := by
  cases ha : isWordChar a with
  | false => rw [eq_of_alike h ha]
  | true =>
    have hb : isWordChar b = true := (isWordChar_eq_of_alike h).symm.trans ha
    rw [not_blank_of_isWordChar ha, not_blank_of_isWordChar hb]

end Phraseology.Text
