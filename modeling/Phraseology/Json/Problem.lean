import Phraseology.Json.Node
import Phraseology.Number.Shortest
import Phraseology.Text.Quoted

/-! Why a document cannot be read as a value of the domain. -/
namespace Phraseology.Json

/-- What stands where something else was expected. -/
inductive Found where
  | null
  | bool (b : Bool)
  | integer (n : Int)
  | float (v : Number.Binary)
  | string (s : String)
  | list
  | map
  | unitVariant
  deriving DecidableEq, Repr

def Found.message : Found → String
  | .null => "null"
  | .bool b => "boolean `" ++ toString b ++ "`"
  | .integer n => "integer `" ++ toString n ++ "`"
  | .float v => "floating point `" ++ (Number.doubleStyle.text? v).getD "inf" ++ "`"
  | .string s => "string " ++ Text.quoted s
  | .list => "sequence"
  | .map => "map"
  | .unitVariant => "unit variant"

/-- The text itself can be at fault, or what it says. Where in the text the problem was met is left
out: a host reads ` at line 1 column 5` or the like behind the message. -/
inductive Problem where
  | malformed (fault : Fault)
  | missingField (name : String)
  | duplicateField (name : String)
  | unknownVariant (name : String) (known : List String)
  | invalidType (found : Found) (expected : String)
  | invalidValue (found : Found) (expected : String)
  | invalidLength (length : Nat) (expected : String)
  | rejected (reason : String)
  deriving DecidableEq, Repr

def ticked (name : String) : String := "`" ++ name ++ "`"

/-- The names that were expected; two are joined by a word, more by commas. -/
def oneOf : List String → String
  | [] => "there are no variants"
  | [a] => "expected " ++ ticked a
  | [a, b] => "expected " ++ ticked a ++ " or " ++ ticked b
  | names => "expected one of " ++ ", ".intercalate (names.map ticked)

def isCount (s : List Char) : Bool :=
  !s.isEmpty && s.all Char.isDigit && s.foldl (fun n c => 10 * n + (c.toNat - '0'.toNat)) 0 < UInt64.size

def isPosition (s : List Char) : Bool :=
  match " at line ".toList.isPrefixOf? s with
  | none => false
  | some s =>
    match " column ".toList.isPrefixOf? (s.dropWhile Char.isDigit) with
    | none => false
    | some column => isCount (s.takeWhile Char.isDigit) && isCount column

def withoutPosition : List Char → List Char
  | [] => []
  | c :: s => if isPosition (c :: s) then [] else c :: withoutPosition s

/-- How a problem is reported, up to its position. A position at the end of somebody's reason is taken
for that of the problem. -/
def Problem.message : Problem → String
  | .malformed fault => fault.message
  | .missingField name => "missing field " ++ ticked name
  | .duplicateField name => "duplicate field " ++ ticked name
  | .unknownVariant name known => "unknown variant " ++ ticked name ++ ", " ++ oneOf known
  | .invalidType found expected => "invalid type: " ++ found.message ++ ", expected " ++ expected
  | .invalidValue found expected => "invalid value: " ++ found.message ++ ", expected " ++ expected
  | .invalidLength length expected =>
    "invalid length " ++ toString length ++ ", expected " ++ expected
  | .rejected reason => String.ofList (withoutPosition reason.toList)

end Phraseology.Json
