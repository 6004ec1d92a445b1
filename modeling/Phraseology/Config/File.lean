import Phraseology.Config
import Phraseology.Config.Notation.Reader

/-! Configurations read from files. -/
namespace Phraseology

namespace Notation

/-- The fields of a record that goes by a name; where names are `explicit` it has to be given. A
field occurs once. -/
def fieldsOf? (explicit : Bool) (expected : String) : Notation → Option (List (String × Notation))
  | .record name fields =>
    let named := match name with
      | none => !explicit
      | some name => name == expected
    if named then some fields else none
  | _ => none

def once? (name : String) (fields : List (String × Notation)) : Option (Option Notation) :=
  match fields.filter fun f => f.1 == name with
  | [] => some none
  | [f] => some (some f.2)
  | _ => none

def field? {α : Type} (read : Notation → Option α) (name : String)
    (fields : List (String × Notation)) : Option α := do
  match ← once? name fields with
  | some v => read v
  | none => none

def fieldOr? {α : Type} (read : Notation → Option α) (default : α) (name : String)
    (fields : List (String × Notation)) : Option α := do
  match ← once? name fields with
  | some v => read v
  | none => some default

/-- A number of a type, not marked with another. -/
def natOf? (type : IntegerType) : Notation → Option Nat
  | .integer mark v => if (mark.getD type) = type ∧ type.holds v then some v.toNat else none
  | _ => none

def string? : Notation → Option String
  | .text s => some s
  | _ => none

def list? {α : Type} (read : Notation → Option α) : Notation → Option (List α)
  | .list items => items.mapM read
  | _ => none

def script? : Notation → Option Script
  | .symbol "Spaced" => some .spaced
  | .symbol "Ideographic" => some .ideographic
  | _ => none

def digitWord? (explicit : Bool) (v : Notation) : Option DigitWord := do
  let fs ← fieldsOf? explicit "DigitWord" v
  return ⟨← field? string? "word" fs, ← field? (natOf? .byte) "value" fs⟩

def spelling? (explicit : Bool) (v : Notation) : Option Spelling := do
  let fs ← fieldsOf? explicit "Spelling" v
  return ⟨← field? string? "spoken" fs, ← field? string? "code" fs⟩

def lexicon? (explicit : Bool) (v : Notation) : Option Lexicon := do
  let fs ← fieldsOf? explicit "Lexicon" v
  return {
    locale := ← field? string? "locale" fs
    script := ← field? script? "script" fs
    digits := ← field? (list? (digitWord? explicit)) "digits" fs
    phonetic := ← field? (list? (spelling? explicit)) "phonetic" fs
    directions := ← field? (list? (spelling? explicit)) "directions" fs
    runwayKeyword := ← field? string? "runway_keyword" fs
    waypointMarker := ← field? string? "waypoint_marker" fs }

def config? (explicit : Bool) (v : Notation) : Option Config := do
  let fs ← fieldsOf? explicit "VoiceControlConfig" v
  return {
    flightDigits := ← fieldOr? (natOf? .unsignedLong) Config.standard.flightDigits
      "flight_number_digits" fs
    flightMaxDigits := ← fieldOr? (natOf? .unsignedLong) Config.standard.flightMaxDigits
      "flight_number_max_digits" fs
    lexicons := ← fieldOr? (list? (lexicon? explicit)) Config.standard.lexicons "lexicons" fs }

end Notation

namespace Config

def ofText (s : String) : Except Error Config :=
  match Notation.ofChars? s.toList with
  | none => .error .configText
  | some (extensions, v) =>
    match v.config? (extensions.contains .explicitStructNames) with
    | some c => .ok c
    | none => .error .configText

def ofFile (bytes : ByteArray) : Except Error Config :=
  match String.fromUTF8? bytes with
  | none => .error .io
  | some s => do
    let c ← ofText s
    c.validate
    return c

end Config

end Phraseology
