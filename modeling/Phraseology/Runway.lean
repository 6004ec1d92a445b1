import Phraseology.Error
import Phraseology.Text.Ascii
import Phraseology.Text.Blank

/-! Runways, which are named by one or two digits and, where they are parallel, by a side. -/
namespace Phraseology

inductive Side where
  | left
  | center
  | right
  deriving DecidableEq, Repr

namespace Side

def letter : Side → Char
  | .left => 'L'
  | .center => 'C'
  | .right => 'R'

def ofLetter? (c : Char) : Option Side :=
  match c.toUpper with
  | 'L' => some .left
  | 'C' => some .center
  | 'R' => some .right
  | _ => none

@[simp] theorem ofLetter?_letter (s : Side) : ofLetter? s.letter = some s := by
  cases s <;> decide

end Side

/-- A runway keeps its digits as they are given, so `9` and `09` are two runways. -/
structure Runway where
  first : Fin 10
  second : Option (Fin 10)
  side : Option Side
  deriving DecidableEq, Repr

namespace Runway

def digits (r : Runway) : List (Fin 10) := r.first :: r.second.toList

def chars (r : Runway) : List Char :=
  r.digits.map digitChar ++ (r.side.map Side.letter).toList

def number (r : Runway) : String := String.ofList (r.digits.map digitChar)

def name (r : Runway) : String := String.ofList r.chars

def ofChars? : List Char → Option Runway
  | [a] => do return ⟨← digit? a, none, none⟩
  | [a, b] => do
    let a ← digit? a
    match digit? b with
    | some b => return ⟨a, some b, none⟩
    | none => return ⟨a, none, some (← Side.ofLetter? b)⟩
  | [a, b, c] => do return ⟨← digit? a, some (← digit? b), some (← Side.ofLetter? c)⟩
  | _ => none

/-- A name may have blanks around it. -/
def parse (text : String) : Except IdentifierError Runway :=
  match ofChars? (Text.trimChars text.toList) with
  | some r => .ok r
  | none => .error (.runway text)

end Runway

end Phraseology
