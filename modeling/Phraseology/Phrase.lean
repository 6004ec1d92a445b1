import Phraseology.Category

/-! Descriptions of the phrases that a recognizer listens for. -/
namespace Phraseology

/-- An element is a description that is shared and goes by the name of its kind. -/
inductive Phrase where
  | text (s : String)
  | choice (alternatives : List Phrase)
  | sequence (parts : List Phrase)
  | repeated (body : Phrase) (min max : Nat)
  | element (kind : ElementKind) (body : Phrase)
  deriving Repr

namespace Phrase

def oneOf (texts : List String) : Phrase := .choice (texts.map .text)

def optional (body : Phrase) : Phrase := .repeated body 0 1

def bounds (min max : Nat) : String :=
  if min = max then "\x7b" ++ toString min ++ "\x7d"
  else "\x7b" ++ toString min ++ "," ++ toString max ++ "\x7d"

mutual

def definition : Phrase → String
  | .text s => "\"" ++ s ++ "\""
  | .choice alternatives => "(" ++ " | ".intercalate (definitions alternatives) ++ ")"
  | .sequence parts => " ".intercalate (definitions parts)
  | .repeated body min max =>
    if min = 0 ∧ max = 1 then "[" ++ definition body ++ "]" else definition body ++ bounds min max
  | .element kind _ => "<" ++ kind.name ++ ">"

def definitions : List Phrase → List String
  | [] => []
  | p :: rest => definition p :: definitions rest

end

end Phrase

end Phraseology
