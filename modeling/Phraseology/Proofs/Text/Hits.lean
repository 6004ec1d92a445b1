import Phraseology.Proofs.Text.Place

/-! Hits that take up at least one character each: the fuel and the rule for empty hits do not
matter to them. -/
namespace Phraseology.Text.Cursor

/-- The place `d` is behind at least one of the characters that come after `c`. -/
def Ahead (c d : Cursor) : Prop :=
  ∃ u s, u ≠ [] ∧ c.after = u ++ s ∧ d = behind u c.before s

theorem Ahead.length_lt {c d : Cursor} (h : c.Ahead d) : d.after.length < c.after.length := by
  obtain ⟨u, s, hu, hc, rfl⟩ := h
  have := List.length_pos_of_ne_nil hu
  rw [hc, place_after, List.length_append]
  omega

theorem Ahead.offset_lt {c d : Cursor} (h : c.Ahead d) : c.offset < d.offset := by
  obtain ⟨u, s, hu, hc, rfl⟩ := h
  rw [← place_eta c, hc]
  exact offset_lt_of_ne_nil hu

variable {α : Type} {hit? : Cursor → Option α} {stop : α → Cursor} {b s : List Char}

/-- Each hit takes up at least one character. -/
def Advancing (hit? : Cursor → Option α) (stop : α → Cursor) : Prop :=
  ∀ c h, hit? c = some h → c.Ahead (stop h)

theorem Advancing.hitsFrom_succ (ha : Advancing hit? stop) (fuel : Nat) (ended : Bool)
    (c : Cursor) :
    hitsFrom hit? stop (fuel + 1) ended c =
      match hit? c with
      | some h => (c, h) :: hitsFrom hit? stop fuel true (stop h)
      | none =>
        match c.next? with
        | some c => hitsFrom hit? stop fuel false c
        | none => [] := by
  rw [hitsFrom]
  cases h : hit? c with
  | none => rfl
  | some a =>
    have hlt := (ha c a h).offset_lt
    have hkeep : (!(ended && (stop a).offset == c.offset)) = true := by
      simp [show (stop a).offset ≠ c.offset by omega]
    simp only [Option.filter, hkeep, if_true]

theorem Advancing.hitsFrom_eq (ha : Advancing hit? stop) {fuel fuel' : Nat} {c : Cursor}
    (h : c.after.length < fuel) (h' : c.after.length < fuel') (ended ended' : Bool) :
    hitsFrom hit? stop fuel ended c = hitsFrom hit? stop fuel' ended' c := by
  induction fuel generalizing fuel' c ended ended' with
  | zero => omega
  | succ fuel ih =>
    obtain ⟨fuel', rfl⟩ := Nat.exists_eq_succ_of_ne_zero (n := fuel') (by omega)
    rw [ha.hitsFrom_succ, ha.hitsFrom_succ]
    cases hc : hit? c with
    | some a =>
      have hlt := (ha c a hc).length_lt
      exact congrArg _ (ih (by omega) (by omega) true true)
    | none =>
      obtain ⟨b, s, n, rfl⟩ := c
      cases s with
      | nil => rfl
      | cons x s =>
        simp only [List.length_cons] at h h'
        exact ih (by change s.length < _; omega) (by change s.length < _; omega) false false

def hitsAt (hit? : Cursor → Option α) (stop : α → Cursor) (c : Cursor) : List (Cursor × α) :=
  hitsFrom hit? stop (c.after.length + 1) false c

theorem Advancing.hits_eq (ha : Advancing hit? stop) (s : List Char) :
    hits hit? stop s = hitsAt hit? stop (place [] s) := by
  unfold hits hitsAt
  rw [start_eq]
  exact ha.hitsFrom_eq (by rw [place_after]; omega) (by rw [place_after]; omega) _ _

theorem Advancing.hitsAt_of_some (ha : Advancing hit? stop) {c : Cursor} {a : α}
    (h : hit? c = some a) : hitsAt hit? stop c = (c, a) :: hitsAt hit? stop (stop a) := by
  have hlt := (ha c a h).length_lt
  unfold hitsAt
  rw [ha.hitsFrom_succ, h]
  exact congrArg _ (ha.hitsFrom_eq (by omega) (by omega) _ _)

theorem Advancing.hitsAt_cons (ha : Advancing hit? stop) {c : Char}
    (h : hit? (place b (c :: s)) = none) :
    hitsAt hit? stop (place b (c :: s)) = hitsAt hit? stop (place (c :: b) s) := by
  unfold hitsAt
  rw [ha.hitsFrom_succ, h, next?_place_cons]
  rfl

theorem Advancing.hitsAt_nil (ha : Advancing hit? stop) (h : hit? (place b []) = none) :
    hitsAt hit? stop (place b []) = [] := by
  unfold hitsAt
  rw [ha.hitsFrom_succ, h]
  rfl

/-- Where no hit begins, the hits are those behind. -/
theorem Advancing.hitsAt_append (ha : Advancing hit? stop) {u : List Char}
    (h : ∀ v w, v ++ w = u → w ≠ [] → hit? (behind v b (w ++ s)) = none) :
    hitsAt hit? stop (place b (u ++ s)) = hitsAt hit? stop (behind u b s) := by
  induction u generalizing b with
  | nil => rfl
  | cons c u ih =>
    have hc : hit? (place b (c :: (u ++ s))) = none := h [] (c :: u) rfl (by simp)
    rw [List.cons_append, ha.hitsAt_cons hc, ih, behind_cons]
    intro v w hvw hw
    rw [← behind_cons]
    exact h (c :: v) w (by rw [← hvw]; rfl) hw

/-- Every hit begins at a place of the text. -/
theorem Advancing.mem_hitsAt (ha : Advancing hit? stop) {c : Cursor} {r : Cursor × α}
    (h : r ∈ hitsAt hit? stop c) : hit? r.1 = some r.2 := by
  induction hn : c.after.length using Nat.strong_induction_on generalizing c with
  | _ n ih =>
    subst hn
    cases hc : hit? c with
    | some a =>
      rw [ha.hitsAt_of_some hc] at h
      rcases List.mem_cons.1 h with rfl | h
      · exact hc
      · exact ih _ (ha c a hc).length_lt h rfl
    | none =>
      rw [← place_eta c] at h hc ih
      cases hs : c.after with
      | nil =>
        rw [hs] at h hc
        rw [ha.hitsAt_nil hc] at h
        cases h
      | cons x s =>
        rw [hs] at h hc ih
        rw [ha.hitsAt_cons hc] at h
        exact ih _ (by simp) h rfl

end Phraseology.Text.Cursor
