import Phraseology.Lexicon

/-! What can be tuned: the length of flight numbers, and further locales. -/
namespace Phraseology

/-- Grammars have exactly `flightDigits` digits after the name of an airline, and up to
`flightMaxDigits` are understood. -/
structure Config where
  flightDigits : Nat
  flightMaxDigits : Nat
  lexicons : List Lexicon
  deriving DecidableEq, Repr

namespace Config

/-- Three digits, of which up to four are understood, and no further locales. -/
def standard : Config := ⟨3, 4, []⟩

def flaw? (c : Config) : Option ConfigFlaw :=
  if c.flightDigits = 0 then some .noDigits
  else if c.flightMaxDigits < c.flightDigits then
    some (.boundsInverted c.flightMaxDigits c.flightDigits)
  else none

def validate (c : Config) : Except Error Unit :=
  match c.flaw? with
  | some flaw => .error (.invalidConfig flaw)
  | none => .ok ()

def catalogue (c : Config) : Except Error Catalogue :=
  c.lexicons.foldlM Catalogue.register Catalogue.builtin

end Config

end Phraseology
