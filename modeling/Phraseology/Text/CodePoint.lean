/-! Sorted tables of code points: membership in ranges, and mappings given by runs. -/
namespace Phraseology.Text

def byteCount (s : List Char) : Nat := s.foldr (fun c n => c.utf8Size + n) 0

@[simp, grind =] theorem byteCount_nil : byteCount [] = 0 := rfl

@[simp, grind =] theorem byteCount_cons (c : Char) (s : List Char) :
    byteCount (c :: s) = c.utf8Size + byteCount s := rfl

@[simp, grind =] theorem byteCount_append (s t : List Char) :
    byteCount (s ++ t) = byteCount s + byteCount t := by
  induction s with
  | nil => simp
  | cons c s ih => simp [ih, Nat.add_assoc]

@[simp, grind =] theorem byteCount_reverse (s : List Char) : byteCount s.reverse = byteCount s := by
  induction s with
  | nil => rfl
  | cons c s ih => simp [ih, Nat.add_comm]

/-- The ranges are inclusive and ascend, so the search ends at the first that starts above `n`. -/
def inRanges (n : Nat) : List (Nat × Nat) → Bool
  | [] => false
  | (lo, hi) :: rest => if n < lo then false else n ≤ hi || inRanges n rest

/-- Every `step`-th code point from `first` to `last` maps to the one at the same distance
from `image`. -/
structure CaseRun where
  first : Nat
  last : Nat
  step : Nat
  image : Nat

def mapRuns (n : Nat) : List CaseRun → Nat
  | [] => n
  | r :: rest =>
    if n < r.first then n
    else if n ≤ r.last && (n - r.first) % r.step == 0 then r.image + (n - r.first)
    else mapRuns n rest

def CaseRun.preimage? (r : CaseRun) (n : Nat) : Option Nat :=
  let distance := n - r.image
  bif r.image.ble n && (r.first + distance).ble r.last && (distance % r.step).beq 0 then
    some (r.first + distance)
  else none

end Phraseology.Text
