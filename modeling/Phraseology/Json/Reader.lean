import Phraseology.Json.Problem

/-! Readers turn a document into a value of the domain, or name the first problem in it. -/
namespace Phraseology.Json

/-- A document is read as its text is, or from a value that was read before, or from a field kept
until another one was known. What is reported differs in places. -/
inductive Origin where
  | text
  | value
  | field
  deriving DecidableEq

/-- A reader looks at a tree, and tells problems by where the tree comes from. -/
abbrev Reader (α : Type) := Origin → Node → Except Problem α

def mismatch (expected : String) : Node → Problem
  | .null => .invalidType .null expected
  | .bool b => .invalidType (.bool b) expected
  | .number literal =>
    match (Number.Literal.ofChars literal.toList).value? with
    | none => .malformed .numberOutOfRange
    | some (.integer n) => .invalidType (.integer n) expected
    | some (.float v) => .invalidType (.float v) expected
  | .string (.ok s) => .invalidType (.string s) expected
  | .string (.error f) => .malformed f
  | .array _ _ => .invalidType .list expected
  | .object _ _ => .invalidType .map expected
  | .broken flaw => .malformed flaw.read
  | .missing flaw => .malformed flaw.read

namespace Reader

variable {α β : Type}

def bind (r : Reader α) (f : α → Except Problem β) : Reader β := fun o n => do f (← r o n)

def map (f : α → β) (r : Reader α) : Reader β := fun o n => (r o n).map f

def string : Reader String
  | _, .string (.ok s) => .ok s
  | _, n => .error (mismatch "a string" n)

def bool : Reader Bool
  | _, .bool b => .ok b
  | _, n => .error (mismatch "a boolean" n)

def nat (name : String) (bound : Nat) : Reader Nat := fun _ n =>
  match n with
  | .number literal =>
    match (Number.Literal.ofChars literal.toList).value? with
    | some (.integer i) =>
      if 0 ≤ i ∧ i < bound then .ok i.toNat else .error (.invalidValue (.integer i) name)
    | _ => .error (mismatch name n)
  | n => .error (mismatch name n)

def single : Reader Number.Binary := fun _ n =>
  match n with
  | .number literal =>
    match (Number.Literal.ofChars literal.toList).value? with
    | some (.integer i) => .ok (Number.single.round (i < 0) i.natAbs 1)
    | some (.float v) => .ok (Number.single.convert v)
    | none => .error (mismatch "f32" n)
  | n => .error (mismatch "f32" n)

/-- Nothing; in a field that was kept it can also be an object without fields. -/
def unit : Reader Unit
  | _, .null => .ok ()
  | .field, .object [] _ => .ok ()
  | _, n => .error (mismatch "unit" n)

def each (r : Reader α) (o : Origin) : List Node → Except Problem (List α)
  | [] => .ok []
  | n :: rest => do
    let a ← r o n
    let as ← each r o rest
    return a :: as

def sound : Option Flaw → Except Problem Unit
  | none => .ok ()
  | some flaw => .error (.malformed flaw.read)

def list (r : Reader α) : Reader (List α)
  | o, .array xs flaw => do
    let as ← each r o xs
    sound flaw
    return as
  | _, n => .error (mismatch "a sequence" n)

end Reader

/-- What the fields of a record hold as they come in, in any order, and what they make. -/
structure Record (α : Type) where
  State : Type
  names : List String
  start : State
  /-- Takes in the field of a name among `names`. -/
  visit : Origin → String → Node → State → Except Problem State
  finish : State → Except Problem α
  /-- The fields in order, without names: `short` is the problem when there are too few. -/
  takeItems : Origin → (Nat → Problem) → Nat → List Node → Except Problem (α × Nat × List Node)

namespace Record

variable {α β : Type}

def field (name : String) (r : Reader α) (default : Option α) : Record α where
  State := Option α
  names := [name]
  start := none
  visit o _ n
    | some _ => .error (.duplicateField name)
    | none => (r o n).map some
  finish
    | some a => .ok a
    | none => match default with
      | some a => .ok a
      | none => .error (.missingField name)
  takeItems o short i
    | n :: rest => do return (← r o n, i + 1, rest)
    | [] => match default with
      | some a => .ok (a, i + 1, [])
      | none => .error (short i)

def both (a : Record α) (b : Record β) : Record (α × β) where
  State := a.State × b.State
  names := a.names ++ b.names
  start := (a.start, b.start)
  visit o name n s :=
    if a.names.contains name then do return (← a.visit o name n s.1, s.2)
    else do return (s.1, ← b.visit o name n s.2)
  finish s := do
    let x ← a.finish s.1
    let y ← b.finish s.2
    return (x, y)
  takeItems o short i xs := do
    let (x, i, xs) ← a.takeItems o short i xs
    let (y, i, xs) ← b.takeItems o short i xs
    return ((x, y), i, xs)

def map (f : α → β) (a : Record α) : Record β where
  State := a.State
  names := a.names
  start := a.start
  visit := a.visit
  finish s := (a.finish s).map f
  takeItems o short i xs := do
    let (x, rest) ← a.takeItems o short i xs
    return (f x, rest)

def pure (a : α) : Record α where
  State := Unit
  names := []
  start := ()
  visit _ _ _ s := .ok s
  finish _ := .ok a
  takeItems _ _ i xs := .ok (a, i, xs)

def and (f : Record (α → β)) (a : Record α) : Record β := (both f a).map fun p => p.1 p.2

def required (name : String) (r : Reader α) : Record α := field name r none

/-- Fields come in as the text has them; those with other names are passed over. -/
def visitFields (r : Record α) (o : Origin) :
    List (Except Fault String × Node) → r.State → Except Problem r.State
  | [], s => .ok s
  | (.error f, _) :: _, _ => .error (.malformed f)
  | (.ok name, n) :: rest, s =>
    if r.names.contains name then do visitFields r o rest (← r.visit o name n s)
    else visitFields r o rest s

def width (r : Record α) : String :=
  toString r.names.length ++ (if r.names.length == 1 then " element" else " elements")

end Record

/-- How a list that is longer than what is read from it is reported: `used` items of `total`. -/
def leftover (used total : Nat) : Origin → Problem
  | .text => .malformed .trailingCharacters
  | .value => .invalidLength total "fewer elements in array"
  | .field =>
    .invalidLength total
      (toString used ++ (if used == 1 then " element" else " elements") ++ " in sequence")

def listEnd : Option Flaw → Except Problem Unit
  | none => .ok ()
  | some ⟨.endInList, _⟩ => .error (.malformed .endInList)
  | some ⟨.trailingComma, _⟩ => .error (.malformed .trailingComma)
  | some _ => .error (.malformed .trailingCharacters)

namespace Reader

variable {α : Type}

/-- A record is an object, or the list of its fields in order. -/
def record (expected : String) (r : Record α) : Reader α
  | o, .object fs flaw => do
    let s ← r.visitFields o fs r.start
    sound flaw
    r.finish s
  | o, .array xs flaw => do
    let short (i : Nat) : Problem :=
      match flaw with
      | some flaw => .malformed flaw.read
      | none => .invalidLength i (expected ++ " with " ++ r.width)
    let (a, used, rest) ← r.takeItems o short 0 xs
    if !rest.isEmpty then throw (leftover used xs.length o)
    if xs.length < used then sound flaw else listEnd flaw
    return a
  | _, n => .error (mismatch expected n)

/-- What a variant carries: nothing, one value, or fields of its own. -/
inductive Payload (α : Type) : Type 1 where
  | nothing (a : α)
  | content (r : Reader α)
  | fields (expected : String) (r : Record α)

def Payload.bare : Payload α → Except Problem α
  | .nothing a => .ok a
  | .content _ => .error (.invalidType .unitVariant "newtype variant")
  | .fields _ _ => .error (.invalidType .unitVariant "struct variant")

def Payload.read : Payload α → Reader α
  | .nothing a => fun o n => (unit o n).map fun _ => a
  | .content r => r
  | .fields expected r => fun o n =>
    match o, n with
    | .text, n => record expected r o n
    | _, .object fs flaw => record expected r o (.object fs flaw)
    | .field, .array xs flaw => record expected r o (.array xs flaw)
    | _, n => .error (mismatch "struct variant" n)

/-- The end of an object whose only field is the name of a variant. -/
def variantEnd (rest : List (Except Fault String × Node)) : Option Flaw → Except Problem Unit
  | none => if rest.isEmpty then .ok () else .error (.malformed .expectedValue)
  | some ⟨.endInObject, _⟩ =>
    if rest.isEmpty then .error (.malformed .endInObject) else .error (.malformed .expectedValue)
  | some _ => .error (.malformed .expectedValue)

/-- A variant is its name, or an object with its name for the only key. -/
def variant (known : List (String × Payload α)) : Reader α
  | _, .string (.ok name) =>
    match known.lookup name with
    | some p => p.bare
    | none => .error (.unknownVariant name (known.map Prod.fst))
  | _, .string (.error f) => .error (.malformed f)
  | _, .missing flaw => .error (.malformed flaw.read)
  | .text, .object [] none => .error (.malformed .expectedValue)
  | .text, .object [] (some flaw) => .error (.malformed flaw.read)
  | .text, .object ((.error f, _) :: _) _ => .error (.malformed f)
  | .text, .object ((.ok name, n) :: rest) flaw =>
    match known.lookup name with
    | some p => do
      let a ← p.read .text n
      variantEnd rest flaw
      return a
    | none => .error (.unknownVariant name (known.map Prod.fst))
  | .text, _ => .error (.malformed .expectedValue)
  | o, .object [(.ok name, n)] _ =>
    match known.lookup name with
    | some p => p.read o n
    | none => .error (.unknownVariant name (known.map Prod.fst))
  | _, .object _ _ => .error (.invalidValue .map "map with a single key")
  | _, n => .error (mismatch "string or map" n)

def choice (known : List (String × α)) : Reader α :=
  variant (known.map fun p => (p.1, .nothing p.2))

def variantName (known : List (String × α)) : Reader α
  | _, .string (.ok name) =>
    match known.lookup name with
    | some a => .ok a
    | none => .error (.unknownVariant name (known.map Prod.fst))
  | _, n => .error (mismatch "variant identifier" n)

/-- What has been met of a value that comes as a tag and a content. -/
inductive Tagged (α : Type) where
  | neither
  | tag (r : Reader α)
  | content (n : Node)
  | done (a : α)

/-- Containers below a field of a message may be this deep. -/
def depthLimit : Nat := 126

/-- A content that comes before its tag is kept until the tag is known. -/
def keep (n : Node) : Except Problem (Tagged α) :=
  match n.fault? depthLimit with
  | some f => .error (.malformed f)
  | none => .ok (.content n)

def takeTag (known : List (String × Reader α)) (o : Origin) (n : Node) :
    Tagged α → Except Problem (Tagged α)
  | .neither => do return .tag (← choice known o n)
  | .content c => do
    let r ← choice known o n
    return .done (← r .field c)
  | _ => .error (.duplicateField "type")

def takeContent (o : Origin) (n : Node) : Tagged α → Except Problem (Tagged α)
  | .neither => keep n
  | .tag r => do return .done (← r o n)
  | _ => .error (.duplicateField "content")

/-- Tag and content come in as the text has them; other fields are passed over. -/
def takeFields (known : List (String × Reader α)) (o : Origin) :
    List (Except Fault String × Node) → Tagged α → Except Problem (Tagged α)
  | [], s => .ok s
  | (.error f, _) :: _, _ => .error (.malformed f)
  | (.ok name, n) :: rest, s =>
    if name == "type" then do takeFields known o rest (← takeTag known o n s)
    else if name == "content" then do takeFields known o rest (← takeContent o n s)
    else takeFields known o rest s

def Tagged.finish : Tagged α → Except Problem α
  | .neither => .error (.missingField "type")
  | .tag _ => .error (.missingField "content")
  | .content _ => .error (.missingField "type")
  | .done a => .ok a

/-- A tag and the content that goes with it, as an object or as a list of two. In a list the tag is
a bare name. -/
def tagged (name : String) (known : List (String × Reader α)) : Reader α
  | o, .object fs flaw => do
    let s ← takeFields known o fs .neither
    sound flaw
    s.finish
  | o, .array xs flaw => do
    let short (i : Nat) : Problem :=
      match flaw with
      | some flaw => .malformed flaw.read
      | none => .invalidLength i ("adjacently tagged enum " ++ name)
    match xs with
    | [] => throw (short 0)
    | [t] => do
      let _ ← variantName known o t
      throw (short 1)
    | t :: c :: rest => do
      let r ← variantName known o t
      let a ← r o c
      if rest.isEmpty then listEnd flaw else throw (leftover 2 xs.length o)
      return a
  | _, n => .error (mismatch ("adjacently tagged enum " ++ name) n)

end Reader

def readText {α : Type} (r : Reader α) (s : List Char) : Except Problem α :=
  match Node.ofChars s with
  | (node, trailing) =>
    match r .text node, trailing with
    | .error p, _ => .error p
    | .ok _, some f => .error (.malformed f)
    | .ok a, none => .ok a

end Phraseology.Json
