import Phraseology.Json.Basic
import Phraseology.Json.Fault
import Phraseology.Number.Literal
import Phraseology.Text.Ascii
import Phraseology.Text.CodePoint

/-! Documents as read from a text: a tree that ends where the text stops being well formed, so that
whoever reads the tree in order meets the first problem first. -/
namespace Phraseology.Json

/-- A flaw shows as one fault to a reader of the value around it, and as another where that value
is passed over. -/
structure Flaw where
  read : Fault
  skip : Fault

def Fault.flaw (f : Fault) : Flaw := ⟨f, f⟩

/-- A tree with `broken` leaves, where the text is no value, and `missing` ones, where it does not
get to a value. Texts and keys can be passed over although they cannot be read. -/
inductive Node where
  | null
  | bool (b : Bool)
  | number (literal : String)
  | string (s : Except Fault String)
  | array (items : List Node) (flaw : Option Flaw)
  | object (fields : List (Except Fault String × Node)) (flaw : Option Flaw)
  | broken (flaw : Flaw)
  | missing (flaw : Flaw)

/-- Where a value ends: what follows it, or the fault that ends everything. -/
abbrev Ending := Except Fault (List Char)

namespace Scan

def isSpace (c : Char) : Bool := c == ' ' || c == '\t' || c == '\n' || c == '\r'

def skipSpaces (s : List Char) : List Char := s.dropWhile isSpace

def hexUnit? (a b c d : Char) : Option Nat := do
  let a ← hexDigit? a
  let b ← hexDigit? b
  let c ← hexDigit? c
  let d ← hexDigit? d
  return ((a * 16 + b) * 16 + c) * 16 + d

/-- Digits of a unit take four bytes. -/
def hexFault (s : List Char) : Fault :=
  if Text.byteCount s < 4 then .endInString else .invalidEscape

def isLeading (n : Nat) : Bool := 0xD800 ≤ n && n ≤ 0xDBFF

def isTrailing (n : Nat) : Bool := 0xDC00 ≤ n && n ≤ 0xDFFF

def simpleEscape? : Char → Option Char
  | '"' => some '"'
  | '\\' => some '\\'
  | '/' => some '/'
  | 'b' => some '\x08'
  | 'f' => some '\x0c'
  | 'n' => some '\n'
  | 'r' => some '\r'
  | 't' => some '\t'
  | _ => none

def pairChar (leading trailing : Nat) : Char :=
  Char.ofNat (0x10000 + (leading - 0xD800) * 0x400 + (trailing - 0xDC00))

/-- A leading unit that has to be followed by a trailing one, but is not. -/
def unpaired (pending : Option Nat) (soft : Option Fault) (f : Fault) : Option Fault :=
  if pending.isSome then soft.or (some f) else soft

/-- A text up to its closing quote. `acc` is what has been read, last character first, `soft` the
first surrogate that stands alone, which spoils the text but does not end it, and `pending` a
leading unit just read. -/
def text (acc : List Char) (soft : Option Fault) (pending : Option Nat) :
    List Char → Except Fault String × Ending
  | [] => (.error (soft.getD .endInString), .error .endInString)
  | '"' :: s =>
    (match unpaired pending soft .endOfPair with
      | some f => .error f
      | none => .ok (String.ofList acc.reverse), .ok s)
  | '\\' :: 'u' :: a :: b :: c :: d :: s =>
    match hexUnit? a b c d, pending with
    | none, _ =>
      let f := hexFault (a :: b :: c :: d :: s)
      (.error (soft.getD f), .error f)
    | some n, some leading =>
      if isTrailing n then text (pairChar leading n :: acc) soft none s
      else text acc (soft.or (some .loneSurrogate)) (if isLeading n then some n else none) s
    | some n, none =>
      if isTrailing n then text acc (soft.or (some .loneSurrogate)) none s
      else if isLeading n then text acc soft (some n) s
      else text (Char.ofNat n :: acc) soft none s
  | '\\' :: 'u' :: s => (.error (soft.getD (hexFault s)), .error (hexFault s))
  | ['\\'] => (.error (soft.getD .endInString), .error .endInString)
  | '\\' :: c :: s =>
    let soft := unpaired pending soft .endOfPair
    match simpleEscape? c with
    | some d => text (d :: acc) soft none s
    | none => (.error (soft.getD .invalidEscape), .error .invalidEscape)
  | c :: s =>
    let soft := unpaired pending soft .endOfPair
    if c.toNat < 32 then (.error (soft.getD .controlCharacter), .error .controlCharacter)
    else text (c :: acc) soft none s

def noDigit : List Char → Flaw
  | [] => ⟨.endInValue, .invalidNumber⟩
  | _ => Fault.flaw .invalidNumber

def digits (s : List Char) : Except Flaw (List Char × List Char) :=
  match s.span Char.isDigit with
  | ([], s) => .error (noDigit s)
  | (ds, s) => .ok (ds, s)

/-- Digits of which the first is zero only if there is no second. -/
def whole : List Char → Except Flaw (List Char × List Char)
  | '0' :: c :: s => if c.isDigit then .error (Fault.flaw .invalidNumber) else .ok (['0'], c :: s)
  | s => digits s

def fraction : List Char → Except Flaw (List Char × List Char)
  | '.' :: s => do
    let (ds, s) ← digits s
    return ('.' :: ds, s)
  | s => .ok ([], s)

def signed : List Char → Except Flaw (List Char × List Char)
  | '+' :: s => do
    let (ds, s) ← digits s
    return ('+' :: ds, s)
  | '-' :: s => do
    let (ds, s) ← digits s
    return ('-' :: ds, s)
  | s => digits s

def exponent : List Char → Except Flaw (List Char × List Char)
  | 'e' :: s => do
    let (ds, s) ← signed s
    return ('e' :: ds, s)
  | 'E' :: s => do
    let (ds, s) ← signed s
    return ('e' :: ds, s)
  | s => .ok ([], s)

def unsigned (s : List Char) : Except Flaw (List Char × List Char) := do
  let (whole, s) ← whole s
  let (fraction, s) ← fraction s
  let (exponent, s) ← exponent s
  return (whole ++ fraction ++ exponent, s)

/-- A number at the start of the text, or the fault that ends everything. -/
def number (sign : List Char) (s : List Char) : Node × Ending :=
  match unsigned s with
  | .ok (literal, s) => (.number (String.ofList (sign ++ literal)), .ok s)
  | .error flaw => (.broken flaw, .error flaw.skip)

/-- The rest of one of the three words, whose value is `v`. -/
def word (v : Node) : List Char → List Char → Node × Ending
  | [], s => (v, .ok s)
  | _ :: _, [] => (.broken (Fault.flaw .endInValue), .error .endInValue)
  | c :: w, d :: s =>
    if c == d then word v w s else (.broken (Fault.flaw .expectedWord), .error .expectedWord)

mutual

/-- The value at the start of a text. No more than three calls go by until a character is taken,
which bounds the fuel. -/
def value (fuel : Nat) (s : List Char) : Node × Ending :=
  match fuel with
  | 0 => (.missing (Fault.flaw .endInValue), .error .endInValue)
  | fuel + 1 =>
    match skipSpaces s with
    | [] => (.missing (Fault.flaw .endInValue), .error .endInValue)
    | 'n' :: s => word .null ['u', 'l', 'l'] s
    | 't' :: s => word (.bool true) ['r', 'u', 'e'] s
    | 'f' :: s => word (.bool false) ['a', 'l', 's', 'e'] s
    | '-' :: s => number ['-'] s
    | '"' :: s =>
      match text [] none none s with
      | (t, .ok s) => (.string t, .ok s)
      | (.error f, .error g) => (.missing ⟨f, g⟩, .error g)
      | (.ok _, .error g) => (.missing (Fault.flaw g), .error g)
    | '[' :: s =>
      let (xs, flaw, ending) := items fuel true s
      (.array xs flaw, ending)
    | '{' :: s =>
      let (fs, flaw, ending) := fields fuel true s
      (.object fs flaw, ending)
    | c :: s =>
      if c.isDigit then number [] (c :: s)
      else (.broken (Fault.flaw .expectedValue), .error .expectedValue)

def items (fuel : Nat) (first : Bool) (s : List Char) : List Node × Option Flaw × Ending :=
  match fuel with
  | 0 => ([], some (Fault.flaw .endInList), .error .endInList)
  | fuel + 1 =>
    let cut (flaw : Flaw) : List Node × Option Flaw × Ending := ([], some flaw, .error flaw.skip)
    match skipSpaces s, first with
    | [], _ => cut (Fault.flaw .endInList)
    | ']' :: s, _ => ([], none, .ok s)
    | s, true => item fuel s
    | ',' :: s, false =>
      match skipSpaces s with
      | [] => cut (Fault.flaw .endInValue)
      | ']' :: _ => cut ⟨.trailingComma, .expectedValue⟩
      | s => item fuel s
    | _, false => cut (Fault.flaw .expectedListEnd)

def item (fuel : Nat) (s : List Char) : List Node × Option Flaw × Ending :=
  match fuel with
  | 0 => ([], some (Fault.flaw .endInList), .error .endInList)
  | fuel + 1 =>
    match value fuel s with
    | (v, .error f) => ([v], some (Fault.flaw f), .error f)
    | (v, .ok s) =>
      let (vs, flaw, ending) := items fuel false s
      (v :: vs, flaw, ending)

def fields (fuel : Nat) (first : Bool) (s : List Char) :
    List (Except Fault String × Node) × Option Flaw × Ending :=
  match fuel with
  | 0 => ([], some (Fault.flaw .endInObject), .error .endInObject)
  | fuel + 1 =>
    let cut (flaw : Flaw) : List (Except Fault String × Node) × Option Flaw × Ending :=
      ([], some flaw, .error flaw.skip)
    match skipSpaces s, first with
    | [], _ => cut (Fault.flaw .endInObject)
    | '}' :: s, _ => ([], none, .ok s)
    | '"' :: s, true => field fuel s
    | _, true => cut (Fault.flaw .keyNotString)
    | ',' :: s, false =>
      match skipSpaces s with
      | [] => cut ⟨.endInValue, .endInObject⟩
      | '}' :: _ => cut ⟨.trailingComma, .keyNotString⟩
      | '"' :: s => field fuel s
      | _ => cut (Fault.flaw .keyNotString)
    | _, false => cut (Fault.flaw .expectedObjectEnd)

/-- One field, from behind the quote that opens its key, and those after it. -/
def field (fuel : Nat) (s : List Char) :
    List (Except Fault String × Node) × Option Flaw × Ending :=
  match fuel with
  | 0 => ([], some (Fault.flaw .endInObject), .error .endInObject)
  | fuel + 1 =>
    match text [] none none s with
    | (.error f, .error g) => ([], some ⟨f, g⟩, .error g)
    | (.ok _, .error g) => ([], some (Fault.flaw g), .error g)
    | (key, .ok s) =>
      match skipSpaces s with
      | [] =>
        ([(key, .missing (Fault.flaw .endInObject))], some (Fault.flaw .endInObject),
          .error .endInObject)
      | ':' :: s =>
        match value fuel s with
        | (v, .error f) => ([(key, v)], some (Fault.flaw f), .error f)
        | (v, .ok s) =>
          let (fs, flaw, ending) := fields fuel false s
          ((key, v) :: fs, flaw, ending)
      | _ =>
        ([(key, .missing (Fault.flaw .expectedColon))], some (Fault.flaw .expectedColon),
          .error .expectedColon)

end

end Scan

/-- The document that a text holds, and the fault of what follows it, if anything does. -/
def Node.ofChars (s : List Char) : Node × Option Fault :=
  match Scan.value (3 * s.length + 3) s with
  | (node, .error _) => (node, none)
  | (node, .ok rest) =>
    (node, if (Scan.skipSpaces rest).isEmpty then none else some .trailingCharacters)

mutual

/-- The tree of a value, which has no faults. -/
def Node.ofJson : Json → Node
  | .null => .null
  | .bool b => .bool b
  | .number literal => .number literal
  | .string s => .string (.ok s)
  | .array xs => .array (Node.ofItems xs) none
  | .object fs => .object (Node.ofFields fs) none

def Node.ofItems : List Json → List Node
  | [] => []
  | v :: rest => Node.ofJson v :: Node.ofItems rest

def Node.ofFields : List (String × Json) → List (Except Fault String × Node)
  | [] => []
  | (k, v) :: rest => (.ok k, Node.ofJson v) :: Node.ofFields rest

end

/-- Puts a field where its key belongs; of two fields with one key the later counts. -/
def insertField (key : Except Fault String) (n : Node) :
    List (Except Fault String × Node) → List (Except Fault String × Node)
  | [] => [(key, n)]
  | (other, m) :: rest =>
    match key, other with
    | .ok a, .ok b =>
      if a < b then (key, n) :: (other, m) :: rest
      else if a = b then (other, m) :: rest
      else (other, m) :: insertField key n rest
    | _, _ => (key, n) :: (other, m) :: rest

mutual

/-- The same tree with the fields of each object in the order of their keys. -/
def Node.ordered : Node → Node
  | .array xs flaw => .array (Node.orderedItems xs) flaw
  | .object fs flaw => .object (Node.orderedFields fs) flaw
  | n => n

def Node.orderedItems : List Node → List Node
  | [] => []
  | n :: rest => Node.ordered n :: Node.orderedItems rest

def Node.orderedFields :
    List (Except Fault String × Node) → List (Except Fault String × Node)
  | [] => []
  | (key, n) :: rest => insertField key (Node.ordered n) (Node.orderedFields rest)

end

mutual

/-- The first fault met when everything is read, in a tree at most `depth` containers deep. -/
def Node.fault? (depth : Nat) : Node → Option Fault
  | .null => none
  | .bool _ => none
  | .number literal =>
    if (Number.Literal.ofChars literal.toList).value?.isSome then none else some .numberOutOfRange
  | .string (.ok _) => none
  | .string (.error f) => some f
  | .array xs flaw =>
    match depth with
    | 0 => some .tooDeep
    | depth + 1 => (Node.itemFault? depth xs).or (flaw.map Flaw.read)
  | .object fs flaw =>
    match depth with
    | 0 => some .tooDeep
    | depth + 1 => (Node.fieldFault? depth fs).or (flaw.map Flaw.read)
  | .broken flaw => some flaw.read
  | .missing flaw => some flaw.read

def Node.itemFault? (depth : Nat) : List Node → Option Fault
  | [] => none
  | v :: rest => (Node.fault? depth v).or (Node.itemFault? depth rest)

def Node.fieldFault? (depth : Nat) : List (Except Fault String × Node) → Option Fault
  | [] => none
  | (.error f, _) :: _ => some f
  | (.ok _, v) :: rest => (Node.fault? depth v).or (Node.fieldFault? depth rest)

end

end Phraseology.Json
