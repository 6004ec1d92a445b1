import Phraseology.Number.Binary

/-! The shortest decimal that reads back as a given binary value, and how it is written. -/
namespace Phraseology.Number

/-- The greatest `k` with `10 ^ k ≤ num / den`, for positive arguments; below one, `fuel` bounds
the zeros after the point. -/
def floorLog10 (num den : Nat) : Nat → Int
  | 0 => 0
  | fuel + 1 =>
    if den ≤ num then ((Nat.toDigits 10 (num / den)).length : Int) - 1
    else floorLog10 (num * 10) den fuel - 1

/-- The bounds of what rounds to `m * 2 ^ e`, and the value itself, over one denominator. -/
def Format.neighbourhood (f : Format) (m : Nat) (e : Int) : Nat × Nat × Nat × Nat :=
  let below := if m == Nat.pow 2 (f.precision - 1) && f.least < e then 4 * m - 1 else 4 * m - 2
  let (v, d) := fraction (4 * m) (e - 2)
  let (lo, _) := fraction below (e - 2)
  let (hi, _) := fraction (4 * m + 2) (e - 2)
  (lo, v, hi, d)

/-- Of the two decimals of `n` digits around the value, the nearer that rounds back to it. -/
def Format.decimal? (f : Format) (m : Nat) (e : Int) (n : Nat) : Option (Nat × Int) :=
  let (lo, v, hi, d) := f.neighbourhood m e
  let k := floorLog10 v d 400 - n + 1
  let (up, down) := if 0 ≤ k then (Nat.pow 10 k.toNat, 1) else (1, Nat.pow 10 (-k).toNat)
  -- over the denominator `d * down`, a decimal `c` is `c * up * d`
  let unit := up * d
  let within (c : Nat) : Bool :=
    let x := c * unit
    if m % 2 == 0 then lo * down ≤ x && x ≤ hi * down else lo * down < x && x < hi * down
  let c := v * down / unit
  let r := v * down % unit
  let first := if 2 * r < unit then c else if unit < 2 * r then c + 1 else c + c % 2
  let second := if first == c then c + 1 else c
  if within first then some (first, k)
  else if within second then some (second, k)
  else none

/-- The decimal `c * 10 ^ k` with the fewest digits that rounds back to the value. -/
def Format.shortest (f : Format) (m : Nat) (e : Int) : Nat × Int :=
  ((List.range 17).findSome? fun n => f.decimal? m e (n + 1)).getD (0, 0)

/-- Decimals whose first digit has a place between `10 ^ least` and `10 ^ greatest` are written
out; others take an exponent. -/
structure Style where
  format : Format
  least : Int
  greatest : Int

def singleStyle : Style := ⟨single, -6, 12⟩

def doubleStyle : Style := ⟨double, -5, 15⟩

def zeros (n : Nat) : List Char := List.replicate n '0'

/-- The digits of a decimal whose first digit has the place `10 ^ place`. -/
def Style.digitsText (s : Style) (ds : List Char) (place : Int) : List Char :=
  if s.least ≤ place && place ≤ s.greatest then
    if place < 0 then ['0', '.'] ++ zeros ((-place).toNat - 1) ++ ds
    else
      let whole := place.toNat + 1
      if ds.length ≤ whole then ds ++ zeros (whole - ds.length) ++ ['.', '0']
      else ds.take whole ++ '.' :: ds.drop whole
  else
    let sign := if place < 0 then '-' else '+'
    let mantissa := match ds with
      | d :: r :: rest => d :: '.' :: r :: rest
      | ds => ds
    mantissa ++ 'e' :: sign :: Nat.toDigits 10 place.natAbs

/-- The written form of a finite value; there is none for infinity. -/
def Style.text? (s : Style) : Binary → Option String
  | .infinite _ => none
  | .finite negative m e =>
    let sign := if negative then "-" else ""
    if m == 0 then some (sign ++ "0.0")
    else
      let (c, k) := s.format.shortest m e
      let ds := Nat.toDigits 10 c
      let significant := (ds.reverse.dropWhile (· == '0')).reverse
      some (sign ++ String.ofList (s.digitsText significant (k + ds.length - 1)))

end Phraseology.Number
