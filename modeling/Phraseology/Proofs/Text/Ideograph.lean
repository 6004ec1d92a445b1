import Phraseology.Proofs.Text.Words
import Phraseology.Text.Search

/-! Ideographs have no case: each is alike to itself only, and stays itself in the lowercase of
every text. -/
namespace Phraseology.Text

def Ideograph (c : Char) : Prop := 0x4E00 ≤ c.toNat ∧ c.toNat ≤ 0x9FFF

instance : DecidablePred Ideograph := fun _ => inferInstanceAs (Decidable (_ ∧ _))

/-- A text of ideographs only. -/
def Ideographic (s : List Char) : Prop := ∀ c ∈ s, Ideograph c

variable {b m s t u v : List Char} {c d : Char}

theorem ideographic_of_all (h : (s.all fun c => decide (Ideograph c)) = true) : Ideographic s := by
  intro c hc
  exact of_decide_eq_true (List.all_eq_true.1 h c hc)

/-- No entry of a table maps an ideograph, and none maps to one. -/
def Avoids (runs : List CaseRun) : Prop :=
  ∀ r ∈ runs, (r.last < 0x4E00 ∨ 0x9FFF < r.first) ∧
    (r.image + (r.last - r.first) < 0x4E00 ∨ 0x9FFF < r.image)

theorem avoids_foldRuns : Avoids foldRuns := by
  unfold Avoids
  decide +kernel

theorem avoids_lowerRuns : Avoids lowerRuns := by
  unfold Avoids
  decide +kernel

theorem Avoids.mapRuns_eq {runs : List CaseRun} (h : Avoids runs) {n : Nat}
    (hn : 0x4E00 ≤ n ∧ n ≤ 0x9FFF ∨ 0x4E00 ≤ mapRuns n runs ∧ mapRuns n runs ≤ 0x9FFF) :
    mapRuns n runs = n := by
  rcases mapRuns_cases n runs with he | ⟨r, hr, hf, hl, -, he⟩
  · exact he
  · have := h r hr
    rw [he] at hn
    omega

theorem Ideograph.not_ascii (h : Ideograph c) : ¬ c.toNat < 128 := by
  have := h.1
  omega

theorem toNat_ofNat_of_ideograph {n : Nat} (h : Ideograph (Char.ofNat n)) :
    (Char.ofNat n).toNat = n := by
  have hlo := h.1
  rw [Char.toNat_ofNat] at hlo ⊢
  split_ifs at hlo ⊢
  · rfl
  · omega

theorem Ideograph.eq_of_ofNat_mapRuns {runs : List CaseRun} (h : Ideograph c) (hruns : Avoids runs)
    (hc : Char.ofNat (mapRuns d.toNat runs) = c) : d = c := by
  subst hc
  have hn := toNat_ofNat_of_ideograph h
  have hinside := h
  rw [Ideograph, hn] at hinside
  rw [hruns.mapRuns_eq (.inr hinside), Char.ofNat_toNat]

theorem not_ideograph_toLower (h : c.toNat < 128) : ¬ Ideograph c.toLower :=
  forall_ascii (p := fun c => ¬ Ideograph c.toLower) (by decide) h

theorem Ideograph.fold_eq (h : Ideograph c) : fold c = c := by
  rw [fold, if_neg h.not_ascii, avoids_foldRuns.mapRuns_eq (.inl h), Char.ofNat_toNat]

theorem Ideograph.eq_of_alike (h : Ideograph c) (hcd : alike c d = true) : d = c := by
  have hd : fold d = c := (alike_iff.1 hcd).symm.trans h.fold_eq
  unfold fold at hd
  split_ifs at hd with hascii
  · rw [← hd] at h
    exact absurd h (not_ideograph_toLower hascii)
  · exact h.eq_of_ofNat_mapRuns avoids_foldRuns hd

theorem Ideograph.lowerIn_eq (h : Ideograph c) (b s : List Char) : lowerIn b c s = [c] := by
  unfold lowerIn lowerChar
  split_ifs with hsigma hfinal hascii hdot
  · rw [beq_iff_eq.1 hsigma] at h
    exact absurd h (by decide)
  · rw [beq_iff_eq.1 hsigma] at h
    exact absurd h (by decide)
  · exact absurd hascii h.not_ascii
  · rw [beq_iff_eq.1 hdot] at h
    exact absurd h (by decide)
  · rw [avoids_lowerRuns.mapRuns_eq (.inl h), Char.ofNat_toNat]

theorem Ideograph.eq_of_mem_lowerIn (h : Ideograph d) (hd : d ∈ lowerIn b c s) : c = d := by
  unfold lowerIn lowerChar at hd
  split_ifs at hd with hsigma hfinal hascii hdot
  · rw [List.mem_singleton.1 hd] at h
    exact absurd h (by decide)
  · rw [List.mem_singleton.1 hd] at h
    exact absurd h (by decide)
  · rw [List.mem_singleton.1 hd] at h
    exact absurd h (not_ideograph_toLower hascii)
  · rcases List.mem_pair.1 hd with rfl | rfl
    · exact absurd h (by decide)
    · exact absurd h (by decide)
  · exact h.eq_of_ofNat_mapRuns avoids_lowerRuns (List.mem_singleton.1 hd).symm

theorem Ideograph.not_inRanges (h : Ideograph c) {ranges : List (Nat × Nat)}
    (hapart : ∀ r ∈ ranges, r.2 < 0x4E00 ∨ 0x9FFF < r.1) : inRanges c.toNat ranges = false := by
  by_contra hinside
  obtain ⟨r, hr, hlo, hhi⟩ := exists_of_inRanges (Bool.eq_true_of_not_eq_false hinside)
  have := hapart r hr
  have := h.1
  have := h.2
  omega

theorem Ideograph.not_blank (h : Ideograph c) : isBlank c = false := h.not_inRanges (by decide)

theorem Ideograph.not_cased (h : Ideograph c) : isCased c = false := by
  rw [isCased, if_neg h.not_ascii]
  exact h.not_inRanges (by decide +kernel)

theorem Ideograph.not_caseIgnorable (h : Ideograph c) : isCaseIgnorable c = false := by
  rw [isCaseIgnorable, if_neg h.not_ascii]
  exact h.not_inRanges (by decide +kernel)

theorem Ideograph.isWordChar (h : Ideograph c) : isWordChar c = true := by
  have hmem : (0x4E00, 0xA48C) ∈ wordRanges := by decide +kernel
  have hlast : c.toNat ≤ 0xA48C := h.2.trans (by decide)
  rw [Text.isWordChar, if_neg h.not_ascii]
  exact inRanges_of_mem wordRanges_sorted hmem h.1 hlast

theorem Ideographic.map_fold_eq (h : Ideographic u) : u.map fold = u := by
  rw [List.map_congr_left fun c hc => (h c hc).fold_eq, List.map_id']

theorem Ideographic.eq_of_alike (h : Ideographic u) (huv : Alike u v) : v = u := by
  induction u generalizing v with
  | nil => exact huv.eq_nil_iff.1 rfl
  | cons c u ih =>
    cases v with
    | nil => exact absurd huv.length_eq (by simp)
    | cons d v =>
      obtain ⟨hcd, huv⟩ := alike_cons_iff.1 huv
      obtain ⟨hc, hu⟩ := List.forall_mem_cons.1 h
      rw [hc.eq_of_alike hcd, ih hu huv]

theorem Ideographic.lowerAfter_append (h : Ideographic u) (b s : List Char) :
    lowerAfter b (u ++ s) = u ++ lowerAfter (u.reverse ++ b) s := by
  induction u generalizing b with
  | nil => rfl
  | cons c u ih =>
    obtain ⟨hc, hu⟩ := List.forall_mem_cons.1 h
    rw [List.cons_append, lowerAfter_cons, hc.lowerIn_eq, ih hu]
    simp

theorem Ideographic.not_startsCased (h : Ideographic u) (hne : u ≠ []) (s : List Char) :
    startsCased (u ++ s) = false := by
  obtain ⟨c, u, rfl⟩ := List.exists_cons_of_ne_nil hne
  have hc := h c (by simp)
  rw [List.cons_append, startsCased_cons, if_neg (by simp [hc.not_caseIgnorable]), hc.not_cased]

theorem Ideographic.lowerChars_eq (h : Ideographic u) : lowerChars u = u := by
  have := h.lowerAfter_append [] []
  rwa [List.append_nil, lowerAfter, List.append_nil] at this

/-- Ideographs that begin the lowercase of a text begin the text. -/
theorem Ideographic.prefix_lowerAfter_iff (h : Ideographic m) (b s : List Char) :
    m <+: lowerAfter b s ↔ m <+: s := by
  constructor
  · intro hfront
    induction m generalizing b s with
    | nil => exact List.nil_prefix
    | cons c m ih =>
      obtain ⟨hc, hm⟩ := List.forall_mem_cons.1 h
      cases s with
      | nil => simp [lowerAfter] at hfront
      | cons d s =>
        obtain ⟨x, xs, hx⟩ := List.exists_cons_of_ne_nil (lowerIn_ne_nil b d s)
        rw [lowerAfter_cons, hx, List.cons_append, List.cons_prefix_cons] at hfront
        obtain ⟨rfl, hfront⟩ := hfront
        obtain rfl : d = c := hc.eq_of_mem_lowerIn (by rw [hx]; simp)
        rw [hc.lowerIn_eq] at hx
        obtain rfl := (List.cons.inj hx).2
        exact List.cons_prefix_cons.2 ⟨rfl, ih hm _ _ hfront⟩
  · rintro ⟨t, rfl⟩
    rw [h.lowerAfter_append]
    exact List.prefix_append m _

theorem Ideographic.unbroken (h : Ideographic u) (hne : u ≠ []) : Unbroken u :=
  ⟨hne, fun c hc => (h c hc).not_blank⟩

end Phraseology.Text
