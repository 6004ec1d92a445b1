import Phraseology.Error
import Phraseology.Text.Ascii

/-! Magnetic headings, read back digit by digit. -/
namespace Phraseology

/-- North is 360, so no heading is zero. -/
structure Heading where
  degrees : Nat
  pos : 0 < degrees
  le : degrees ≤ 360
  deriving DecidableEq, Repr

namespace Heading

/-- Zero degrees are north. -/
def ofDegrees? (degrees : Nat) : Option Heading :=
  if h : degrees = 0 then some ⟨360, by decide, by decide⟩
  else if h' : degrees ≤ 360 then some ⟨degrees, Nat.pos_of_ne_zero h, h'⟩
  else none

def ofDegrees (degrees : Nat) : Except IdentifierError Heading :=
  match ofDegrees? degrees with
  | some h => .ok h
  | none => .error (.heading (toString degrees))

def ofChars? : List Char → Option Heading
  | [a, b, c] => do
    let a ← digit? a
    let b ← digit? b
    let c ← digit? c
    ofDegrees? (100 * a.val + 10 * b.val + c.val)
  | _ => none

def parse (text : String) : Except IdentifierError Heading :=
  match ofChars? text.toList with
  | some h => .ok h
  | none => .error (.heading text)

def chars (h : Heading) : List Char :=
  [numeral (h.degrees / 100), numeral (h.degrees / 10 % 10), numeral (h.degrees % 10)]

def name (h : Heading) : String := String.ofList h.chars

end Heading

end Phraseology
