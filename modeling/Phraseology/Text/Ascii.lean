/-! The digits of ASCII, the characters that write them, and the case of its letters. -/
namespace Phraseology

def digit? (c : Char) : Option (Fin 10) :=
  if h : c.toNat - '0'.toNat < 10 then
    if '0'.toNat ≤ c.toNat then some ⟨c.toNat - '0'.toNat, h⟩ else none
  else none

def digitChar (d : Fin 10) : Char := Char.ofNat ('0'.toNat + d)

/-- The character at the distance `value` from zero, within one byte. -/
def numeral (value : Nat) : Char := Char.ofNat (('0'.toNat + value) % 256)

def hexDigit? (c : Char) : Option Nat :=
  if '0' ≤ c ∧ c ≤ '9' then some (c.toNat - '0'.toNat)
  else if 'a' ≤ c ∧ c ≤ 'f' then some (c.toNat - 'a'.toNat + 10)
  else if 'A' ≤ c ∧ c ≤ 'F' then some (c.toNat - 'A'.toNat + 10)
  else none

@[simp] theorem digit?_digitChar (d : Fin 10) : digit? (digitChar d) = some d := by
  revert d
  decide

namespace Text

def sameIgnoringAsciiCase (a b : String) : Bool :=
  a.toList.map Char.toLower == b.toList.map Char.toLower

def isDigits (s : List Char) : Bool := s.all Char.isDigit

end Text

end Phraseology
