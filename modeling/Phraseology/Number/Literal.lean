import Phraseology.Number.Binary

/-! Number literals: an optional minus, digits, and optionally a fraction and an exponent. -/
namespace Phraseology.Number

/-- A literal without fraction and exponent is an integer if it fits 64 bits; every other literal
is a double. -/
inductive Value where
  | integer (value : Int)
  | float (value : Binary)
  deriving DecidableEq, Repr

/-- Significands have 64 bits. -/
def significandLimit : Nat := UInt64.size

/-- Digits are appended to the significand as long as it fits; the rest is what did not. -/
def takeDigits (significand : Nat) : List Char → Nat × List Char
  | [] => (significand, [])
  | c :: s =>
    let next := significand * 10 + (c.toNat - '0'.toNat)
    if next < significandLimit then takeDigits next s else (significand, c :: s)

/-- The power of ten as a double, `none` above the greatest one. -/
def powerOfTen? (n : Nat) : Option (Nat × Int) :=
  if n ≤ 308 then
    match double.round false (Nat.pow 10 n) 1 with
    | .finite _ m e => some (m, e)
    | .infinite _ => none
  else none

/-- Significand and power of ten are rounded to doubles before they are multiplied or divided; a
power below the least is divided out in two steps. Too great a value is `none`. -/
def scale? (significand : Nat) (exponent : Int) : Option Binary :=
  match double.round false significand 1 with
  | .infinite _ => none
  | .finite _ m e =>
    match powerOfTen? exponent.natAbs, powerOfTen? 308 with
    | some (m', e'), _ =>
      if 0 ≤ exponent then
        match double.mul m e m' e' with
        | .infinite _ => none
        | v => some v
      else some (double.div m e m' e')
    | none, some (m', e') =>
      if m == 0 then some (.finite false 0 double.least)
      else if 0 ≤ exponent then none
      else
        match double.div m e m' e' with
        | .finite _ n k =>
          match powerOfTen? (exponent.natAbs - 308) with
          | some (m'', e'') => some (double.div n k m'' e'')
          | none => some (.finite false 0 double.least)
        | .infinite _ => none
    | none, none => none

def Binary.signed (negative : Bool) : Binary → Binary
  | .finite _ m e => .finite negative m e
  | .infinite _ => .infinite negative

/-- The parts of a literal; an exponent is a sign and digits. -/
structure Literal where
  negative : Bool
  whole : List Char
  fraction : Option (List Char)
  exponent : Option (Bool × List Char)

def Literal.ofChars (s : List Char) : Literal :=
  let (negative, s) := match s with
    | '-' :: s => (true, s)
    | s => (false, s)
  let whole := s.takeWhile Char.isDigit
  let s := s.dropWhile Char.isDigit
  let (fraction, s) := match s with
    | '.' :: s => (some (s.takeWhile Char.isDigit), s.dropWhile Char.isDigit)
    | s => (none, s)
  let exponent := match s with
    | _ :: '-' :: s => some (true, s)
    | _ :: '+' :: s => some (false, s)
    | _ :: s => some (false, s)
    | [] => none
  ⟨negative, whole, fraction, exponent⟩

/-- The value of a literal, `none` when it is too great for a double. -/
def Literal.value? (l : Literal) : Option Value :=
  let (significand, dropped) := takeDigits 0 l.whole
  let float (v : Binary) : Value := .float (v.signed l.negative)
  match l.fraction, l.exponent with
  | none, none =>
    if dropped.isEmpty && !l.negative then some (.integer significand)
    else if dropped.isEmpty && 0 < significand && significand ≤ UInt64.size / 2 then
      some (.integer (-significand))
    else (scale? significand dropped.length).map float
  | fraction, exponent =>
    let (significand, places) := match fraction with
      | none => (significand, 0)
      | some ds =>
        let (s, rest) := takeDigits significand ds
        (s, ds.length - rest.length)
    let start : Int := dropped.length - places
    match exponent with
    | none => (scale? significand start).map float
    | some (down, ds) =>
      let n := ds.foldl (fun n c => n * 10 + (c.toNat - '0'.toNat)) 0
      if n < UInt32.size / 2 then
        (scale? significand (if down then start - n else start + n)).map float
      else if significand != 0 && !down then none
      else some (float (.finite false 0 double.least))

end Phraseology.Number
