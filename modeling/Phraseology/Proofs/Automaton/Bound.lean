import Mathlib
import Phraseology.Automaton.Room

/-! A bound on the room of an automaton that is quick to compute: the room of a word, which is the
greatest part of it, is looked up. -/
namespace Phraseology.Automaton

theorem sum_map_eraseDups_le {α : Type} [BEq α] (f : α → Nat) (xs : List α) :
    (xs.eraseDups.map f).sum ≤ (xs.map f).sum := by
  induction hn : xs.length using Nat.strong_induction_on generalizing xs with
  | _ n ih =>
    cases xs with
    | nil => simp
    | cons a as =>
      have hsub : (as.filter fun b => !b == a).Sublist as := List.filter_sublist
      have hlt : (as.filter fun b => !b == a).length < n := by
        have := hsub.length_le
        simp only [List.length_cons] at hn
        omega
      have hle := ih _ hlt (as.filter fun b => !b == a) rfl
      have hsum := (hsub.map f).sum_le_sum (by simp)
      rw [List.eraseDups_cons, List.map_cons, List.sum_cons, List.map_cons, List.sum_cons]
      omega

def wordClassBound : Nat := 50000

/-- States that are merged take no more room than when they are kept apart. -/
theorem forwardRoom_le (rs : List Range) :
    forwardRoom rs ≤ stateRoom + ((waysOn 5 (sequences rs)).map fun ss =>
      stateRoom + transitionRoom * (branches ss).length).sum :=
  Nat.add_le_add_left (sum_map_eraseDups_le _ _) stateRoom

private theorem forwardRoom_wordRanges_le : forwardRoom wordRanges ≤ wordClassBound := by
  have hbound : stateRoom + ((waysOn 5 (sequences wordRanges)).map fun ss =>
      stateRoom + transitionRoom * (branches ss).length).sum ≤ wordClassBound := by
    decide +kernel
  exact (forwardRoom_le wordRanges).trans hbound

private theorem backwardRoom_wordRanges_le : backwardRoom wordRanges ≤ wordClassBound := by
  decide +kernel

theorem classRoom_wordRanges_le (d : Direction) : classRoom d wordRanges ≤ wordClassBound := by
  have hascii : (wordRanges.all fun r => r.2 < 0x80) = false := by decide +kernel
  cases d with
  | forward =>
    simp only [classRoom, hascii, Bool.false_eq_true, if_false]
    exact forwardRoom_wordRanges_le
  | backward =>
    simp only [classRoom, hascii, Bool.false_eq_true, if_false]
    exact backwardRoom_wordRanges_le

/-- A bound on the room of a class that has a name. -/
def classBound (d : Direction) : CharClass → Nat
  | .word => wordClassBound
  | c => c.room d

theorem room_le_classBound (d : Direction) (c : CharClass) : c.room d ≤ classBound d c := by
  cases c with
  | blank => exact le_rfl
  | solid => exact le_rfl
  | word =>
    rw [CharClass.room_eq]
    exact classRoom_wordRanges_le d

mutual

def bound (d : Direction) : Expr → Nat
  | .empty | .assertion => stateRoom
  | .literal codes => stateRoom * (codes.flatMap bytesOf).length
  | .set rs => classRoom d rs
  | .named c => classBound d c
  | .run e => runRoom (bound d e)
  | .group e => 2 * stateRoom + bound d e
  | .concat es => bounds d es
  | .choice es =>
    match es.mapM bytes? with
    | some ws => literalsRoom d ws
    | none => 2 * stateRoom + alternativeRoom * es.length + bounds d es
  | .repeated e min max => copiesRoom (bound d e) min max

def bounds (d : Direction) : List Expr → Nat
  | [] => 0
  | e :: es => bound d e + bounds d es

end

theorem copiesRoom_le {room limit : Nat} (h : room ≤ limit) (min max : Nat) :
    copiesRoom room min max ≤ copiesRoom limit min max := by
  have hmin : min * room ≤ min * limit := Nat.mul_le_mul_left min h
  have hmax : (max - min) * (room + stateRoom + 2 * alternativeRoom) ≤
      (max - min) * (limit + stateRoom + 2 * alternativeRoom) :=
    Nat.mul_le_mul_left _ (by omega)
  simp only [copiesRoom]
  split_ifs <;> omega

mutual

theorem room_le_bound (d : Direction) : (e : Expr) → room d e ≤ bound d e
  | .empty => le_rfl
  | .assertion => le_rfl
  | .literal codes => le_rfl
  | .set rs => le_rfl
  | .named c => room_le_classBound d c
  | .run e => Nat.add_le_add_right (Nat.add_le_add_right (room_le_bound d e) _) _
  | .group e => by
    have h := room_le_bound d e
    cases d <;> simp only [room, bound] <;> omega
  | .concat es => rooms_le_bounds d es
  | .choice es => by
    have h := rooms_le_bounds d es
    simp only [room, bound]
    cases es.mapM bytes? with
    | some ws => exact (le_rfl : literalsRoom d ws ≤ literalsRoom d ws)
    | none => exact Nat.add_le_add_left h (2 * stateRoom + alternativeRoom * es.length)
  | .repeated e min max => copiesRoom_le (room_le_bound d e) min max

theorem rooms_le_bounds (d : Direction) : (es : List Expr) → rooms d es ≤ bounds d es
  | [] => le_rfl
  | e :: es => Nat.add_le_add (room_le_bound d e) (rooms_le_bounds d es)

end

def boundFits (e : Expr) : Bool :=
  [Direction.forward, .backward].all fun d =>
    decide (bound d (.group e) + 5 * stateRoom + transitionRoom + 2 * alternativeRoom ≤ roomLimit)

theorem fits_of_boundFits (anchored : Bool) {e : Expr} (h : boundFits e = true) :
    fits anchored e = true := by
  have hforward := room_le_bound .forward (.group e)
  have hbackward := room_le_bound .backward (.group e)
  have hstart : startRoom anchored ≤ 3 * stateRoom + transitionRoom + 2 * alternativeRoom := by
    unfold startRoom
    split_ifs <;> omega
  simp only [boundFits, List.all_cons, List.all_nil, Bool.and_true, Bool.and_eq_true,
    decide_eq_true_eq] at h
  refine Bool.and_eq_true_iff.2 ⟨decide_eq_true ?_, decide_eq_true ?_⟩
  · unfold wholeRoom
    omega
  · unfold wholeRoom
    omega

end Phraseology.Automaton
