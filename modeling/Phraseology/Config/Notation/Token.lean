import Phraseology.Config.Notation
import Phraseology.Text.NameChar

/-! The tokens of the notation, apart from numbers: what stands between values, names, characters,
and texts with and without escapes. -/
namespace Phraseology.Notation

def spaces : List Char :=
  [' ', '\t', '\n', '\r', '\x0b', '\x0c', '\u0085', '\u200e', '\u200f', '\u2028', '\u2029']

def isSpace (c : Char) : Bool := spaces.contains c

/-- What follows a comment of the second form, in which such comments may nest. -/
def afterBlock? : Nat → List Char → Option (List Char)
  | _, [] => none
  | depth, '/' :: '*' :: s => afterBlock? (depth + 1) s
  | 0, '*' :: '/' :: s => some s
  | depth + 1, '*' :: '/' :: s => afterBlock? depth s
  | depth, _ :: s => afterBlock? depth s

/-- What follows spaces and comments; a slash that begins no comment is refused. Each round takes a
character, which bounds the fuel. -/
def skipWithin? : Nat → List Char → Option (List Char)
  | 0, s => some s
  | fuel + 1, s =>
    match s.dropWhile isSpace with
    | '/' :: '/' :: s => skipWithin? fuel (s.dropWhile (· != '\n'))
    | '/' :: '*' :: s => do skipWithin? fuel (← afterBlock? 0 s)
    | '/' :: _ => none
    | s => some s

def skip? (s : List Char) : Option (List Char) := skipWithin? (s.length + 1) s

/-- The characters of a name that is marked as one, which can look like a number. -/
def isMarkedNameChar (c : Char) : Bool :=
  Text.isNameChar c || c == '.' || c == '+' || c == '-'

def quoteStarts : List (List Char) :=
  ["b\"".toList, "b'".toList, "br#".toList, "br\"".toList, "r\"".toList, "r#\"".toList,
    "r##".toList]

def name? (s : List Char) : Option (String × List Char) :=
  if quoteStarts.any (·.isPrefixOf s) then none
  else match s with
    | 'r' :: '#' :: s =>
      match s.span isMarkedNameChar with
      | ([], _) => none
      | (name, s) => some (String.ofList name, s)
    | c :: t =>
      if c == '_' || Text.isNameStart c then
        match t.span Text.isNameChar with
        | (name, t) => some (String.ofList (c :: name), t)
      else none
    | [] => none

/-- What follows a word that stands here and is not just the start of a longer one. -/
def word? (w : List Char) (s : List Char) : Option (List Char) :=
  match w.isPrefixOf? s with
  | none => none
  | some s => if (s.head?.map Text.isNameChar).getD false then none else some s

def anyWord? (ws : List (List Char)) (s : List Char) : Option (List Char) :=
  ws.findSome? fun w => word? w s

def simpleEscape? : Char → Option Char
  | '\'' => some '\''
  | '"' => some '"'
  | '\\' => some '\\'
  | 'n' => some '\n'
  | 'r' => some '\r'
  | 't' => some '\t'
  | '0' => some '\x00'
  | _ => none

def byte? (a b : Char) : Option UInt8 := do
  let a ← hexDigit? a
  let b ← hexDigit? b
  return (a * 16 + b).toUInt8

/-- The character that up to six hexadecimal digits give, which end with a brace. -/
def codePoint? : Nat → Nat → List Char → Option (Char × List Char)
  | _, n, '}' :: s => if h : n.isValidChar then some (Char.ofNatAux n h, s) else none
  | 0, _, _ => none
  | _, _, [] => none
  | digits + 1, n, c :: s => do codePoint? digits (n * 16 + (← hexDigit? c)) s

def unicodeEscape? : List Char → Option (Char × List Char)
  | '}' :: _ => none
  | s => codePoint? 6 0 s

def encoded? (encoding : List UInt8) : Option Char :=
  match (String.fromUTF8? ⟨encoding.toArray⟩).map String.toList with
  | some [c] => some c
  | _ => none

/-- The character encoded by the bytes `read` and by up to `more` escapes of further bytes. -/
def bytesEscape? (more : Nat) (read : List UInt8) (s : List Char) : Option (Char × List Char) :=
  match encoded? read with
  | some c => some (c, s)
  | none =>
    match more, s with
    | more + 1, '\\' :: 'x' :: a :: b :: s => do bytesEscape? more (read ++ [← byte? a b]) s
    | _, _ => none

/-- The character of an escape, from behind its backslash. It can be encoded by `more` bytes after
the first. -/
def escape? (more : Nat) : List Char → Option (Char × List Char)
  | 'x' :: a :: b :: s => do bytesEscape? more [← byte? a b] s
  | 'u' :: '{' :: s => unicodeEscape? s
  | c :: s => (simpleEscape? c).map fun d => (d, s)
  | [] => none

/-- The bytes of an escape among bytes, where `\x` gives any byte. -/
def byteEscape? : List Char → Option (List UInt8 × List Char)
  | 'x' :: a :: b :: s => do return ([← byte? a b], s)
  | s => (escape? 0 s).map fun p => ((String.ofList [p.1]).toUTF8.toList, p.2)

def character? : List Char → Option (Char × List Char)
  | '\\' :: s => do
    match ← escape? 0 s with
    | (c, '\'' :: s) => some (c, s)
    | _ => none
  | c :: '\'' :: s => some (c, s)
  | _ => none

def byteCharacter? : List Char → Option (UInt8 × List Char)
  | '\\' :: 'u' :: _ => none
  | '\\' :: s => do
    match ← byteEscape? s with
    | ([b], '\'' :: s) => some (b, s)
    | _ => none
  | c :: '\'' :: s => if c.toNat < 128 then some (c.toNat.toUInt8, s) else none
  | _ => none

/-- What stands up to a closing quote, where `escape?` reads what comes after a backslash and
`plain` says what any other character gives. -/
def quoted? {α : Type} (escape? : List Char → Option (List α × List Char)) (plain : Char → List α) :
    Nat → List Char → Option (List α × List Char)
  | 0, _ => none
  | _, [] => none
  | _, '"' :: s => some ([], s)
  | fuel + 1, '\\' :: s => do
    let (xs, s) ← escape? s
    let (ys, s) ← quoted? escape? plain fuel s
    return (xs ++ ys, s)
  | fuel + 1, c :: s => do
    let (ys, s) ← quoted? escape? plain fuel s
    return (plain c ++ ys, s)

def text? (s : List Char) : Option (String × List Char) :=
  (quoted? (fun s => (escape? 3 s).map fun p => ([p.1], p.2)) (fun c => [c]) (s.length + 1) s).map
    fun p => (String.ofList p.1, p.2)

def bytesOf (c : Char) : List UInt8 := (String.ofList [c]).toUTF8.toList

def bytes? (s : List Char) : Option (List UInt8 × List Char) :=
  quoted? byteEscape? bytesOf (s.length + 1) s

/-- A text up to a quote and as many hash signs as `close` has. -/
def rawUpTo? (close : List Char) : List Char → Option (List Char × List Char)
  | [] => none
  | c :: s =>
    match ('"' :: close).isPrefixOf? (c :: s) with
    | some rest => some ([], rest)
    | none => do
      let (t, rest) ← rawUpTo? close s
      return (c :: t, rest)

def raw? (s : List Char) : Option (List Char × List Char) :=
  match s.span (· == '#') with
  | (close, '"' :: s) => rawUpTo? close s
  | _ => none

end Phraseology.Notation
