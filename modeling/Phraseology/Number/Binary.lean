/-! Binary floating point by exact integer arithmetic, rounded to nearest with ties to even. -/
namespace Phraseology.Number

/-- Mantissas have `precision` bits, and the unit of the last bit is between `2 ^ least` and
`2 ^ greatest`. -/
structure Format where
  precision : Nat
  least : Int
  greatest : Int

def single : Format := ⟨24, -149, 104⟩

def double : Format := ⟨53, -1074, 971⟩

/-- `finite` stands for `mantissa * 2 ^ exponent`, with a sign that zero has as well. -/
inductive Binary where
  | finite (negative : Bool) (mantissa : Nat) (exponent : Int)
  | infinite (negative : Bool)
  deriving DecidableEq, Repr

/-- The integer nearest to `num / den`, the even one of two that are as near. -/
def roundDiv (num den : Nat) : Nat :=
  let q := num / den
  let r := num % den
  if 2 * r < den then q else if den < 2 * r then q + 1 else q + q % 2

def fraction (m : Nat) (e : Int) : Nat × Nat :=
  if 0 ≤ e then (m * Nat.pow 2 e.toNat, 1) else (m, Nat.pow 2 (-e).toNat)

/-- The greatest `k` with `2 ^ k ≤ num / den`, for positive arguments. -/
def floorLog2 (num den : Nat) : Int :=
  let k : Int := num.log2 - den.log2
  let (a, b) := fraction den k
  if a ≤ num * b then k else k - 1

/-- The value of the format nearest to `num / den`. -/
def Format.round (f : Format) (negative : Bool) (num den : Nat) : Binary :=
  if num == 0 then .finite negative 0 f.least
  else
    let e := max f.least (floorLog2 num den - f.precision + 1)
    let (a, b) := fraction 1 e
    let m := roundDiv (num * b) (den * a)
    let (m, e) := if m == Nat.pow 2 f.precision then (Nat.pow 2 (f.precision - 1), e + 1) else (m, e)
    if f.greatest < e then .infinite negative else .finite negative m e

def Format.convert (f : Format) : Binary → Binary
  | .finite negative m e => let (a, b) := fraction m e; f.round negative a b
  | .infinite negative => .infinite negative

def Format.mul (f : Format) (m : Nat) (e : Int) (m' : Nat) (e' : Int) : Binary :=
  let (a, b) := fraction (m * m') (e + e')
  f.round false a b

def Format.div (f : Format) (m : Nat) (e : Int) (m' : Nat) (e' : Int) : Binary :=
  let (a, b) := fraction m (e - e')
  f.round false a (b * m')

end Phraseology.Number
