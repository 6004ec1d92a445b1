import Phraseology.Config.Notation.Number

/-! Reading the notation: records and tuples in parentheses, lists in brackets, maps in braces. -/
namespace Phraseology.Notation

/-- What a file can enable: braces or names that may be left out, and names that may not. -/
inductive Extension where
  | unwrapNewtypes
  | implicitSome
  | unwrapVariantNewtypes
  | explicitStructNames
  deriving DecidableEq, Repr

def Extension.ofName? : String → Option Extension
  | "unwrap_newtypes" => some .unwrapNewtypes
  | "implicit_some" => some .implicitSome
  | "unwrap_variant_newtypes" => some .unwrapVariantNewtypes
  | "explicit_struct_names" => some .explicitStructNames
  | _ => none

/-- What follows a value in a list: a comma, after which there may be another value, or the end. -/
def comma? (close : Char) (s : List Char) : Option (Bool × List Char) := do
  match ← skip? s with
  | [] => none
  | c :: rest =>
    if c == close then some (false, rest)
    else if c == ',' then
      match ← skip? rest with
      | [] => none
      | d :: rest => if d == close then some (false, rest) else some (true, d :: rest)
    else none

def close? (c : Char) (s : List Char) : Option (List Char) := do
  match ← skip? s with
  | d :: s => if c == d then some s else none
  | [] => none

def startsField (s : List Char) : Bool :=
  match name? s with
  | none => false
  | some (_, s) =>
    match skip? s with
    | some (':' :: _) => true
    | _ => false

/-- The value of a word that is not taken for a name. -/
def constant? (s : List Char) : Option (Notation × List Char) :=
  ((word? "true".toList s).map fun s => (.truth true, s)).or <|
  ((word? "false".toList s).map fun s => (.truth false, s)).or <|
  ((word? "None".toList s).map fun s => (.optional none, s)).or <|
  ((anyWord? specialDecimals s).map fun s => (.decimal, s))

def scalar? : List Char → Option (Notation × List Char)
  | '"' :: s => (text? s).map fun p => (.text p.1, p.2)
  | '\'' :: s => (character? s).map fun p => (.character p.1, p.2)
  | 'r' :: s => (raw? s).map fun p => (.text (String.ofList p.1), p.2)
  | 'b' :: '\'' :: s => (byteCharacter? s).map fun p => (.integer (some .byte) p.1.toNat, p.2)
  | 'b' :: '"' :: s => (bytes? s).map fun p => (.bytes p.1, p.2)
  | 'b' :: 'r' :: s => (raw? s).map fun p => (.bytes (p.1.flatMap bytesOf), p.2)
  | c :: s => if c.isDigit || ['+', '-', '.'].contains c then number? (c :: s) else none
  | [] => none

/-- Containers and what they hold may go this deep, each counted once. -/
def depthLimit : Nat := 128

section Values

variable (extensions : List Extension)

mutual

/-- The value at the start of a text, with `depth` levels to go. No more than three calls go by
until a character is taken, which bounds the fuel. -/
def value? (fuel depth : Nat) (s : List Char) : Option (Notation × List Char) :=
  match fuel with
  | 0 => none
  | fuel + 1 =>
    match constant? s, word? "Some".toList s with
    | some v, _ => some v
    | none, some s => some? fuel depth s
    | none, none =>
      match s with
      | '[' :: s => do
        match depth, ← skip? s with
        | 0, _ => none
        | _ + 1, ']' :: s => some (.list [], s)
        | depth + 1, s =>
          let (xs, s) ← items? fuel depth ']' s
          return (.list xs, s)
      | '{' :: s => do
        match depth, ← skip? s with
        | 0, _ => none
        | _ + 1, '}' :: s => some (.map [], s)
        | depth + 1, s =>
          let (es, s) ← entries? fuel depth s
          return (.map es, s)
      | '(' :: ')' :: s => some (.record none [], s)
      | '(' :: s => parentheses? fuel depth none s
      | s =>
        match name? s with
        | none => scalar? s
        | some (name, s) => do
          match ← skip? s with
          | '(' :: s => parentheses? fuel depth (some name) s
          | s => some (.symbol name, s)

/-- What stands in parentheses: fields, if a name and a colon come first, or else values. -/
def parentheses? (fuel depth : Nat) (name : Option String) (s : List Char) :
    Option (Notation × List Char) :=
  match fuel, depth with
  | 0, _ => none
  | _, 0 => none
  | fuel + 1, depth + 1 => do
    match ← skip? s with
    | ')' :: s => some (.record name [], s)
    | s =>
      if startsField s then
        let (fs, s) ← fields? fuel depth s
        return (.record name fs, s)
      else
        let (xs, s) ← items? fuel depth ')' s
        return (.tuple name xs, s)

/-- An optional value, from behind the word that says that there is one. What is in its parentheses
can go without parentheses of its own, or it can go without these, if that is enabled. -/
def some? (fuel depth : Nat) (s : List Char) : Option (Notation × List Char) :=
  match fuel, depth with
  | 0, _ => none
  | _, 0 => none
  | fuel + 1, depth + 1 => do
    let unwraps := extensions.contains .unwrapVariantNewtypes
    match ← skip? s with
    | '(' :: s =>
      let s ← skip? s
      if unwraps && (s.head? == some ')' || startsField s) then
        let (v, s) ← parentheses? fuel depth none s
        return (.optional (some v), s)
      else
        let (v, s) ← value? fuel depth s
        match ← comma? ')' s with
        | (false, s) => return (.optional (some v), s)
        | (true, s) =>
          if unwraps then
            let (vs, s) ← items? fuel (depth - 1) ')' s
            return (.optional (some (.tuple none (v :: vs))), s)
          else none
    | s =>
      if extensions.contains .implicitSome then
        let (v, s) ← value? fuel depth s
        return (.optional (some v), s)
      else none

def items? (fuel depth : Nat) (close : Char) (s : List Char) :
    Option (List Notation × List Char) :=
  match fuel, depth with
  | 0, _ => none
  | _, 0 => none
  | fuel + 1, depth + 1 => do
    let (v, s) ← value? fuel depth s
    match ← comma? close s with
    | (false, s) => return ([v], s)
    | (true, s) =>
      let (vs, s) ← items? fuel (depth + 1) close s
      return (v :: vs, s)

def fields? (fuel depth : Nat) (s : List Char) : Option (List (String × Notation) × List Char) :=
  match fuel, depth with
  | 0, _ => none
  | _, 0 => none
  | fuel + 1, depth + 1 => do
    let (name, s) ← name? s
    let (v, s) ← value? fuel depth (← skip? (← close? ':' s))
    match ← comma? ')' s with
    | (false, s) => return ([(name, v)], s)
    | (true, s) =>
      let (fs, s) ← fields? fuel (depth + 1) s
      return ((name, v) :: fs, s)

def entries? (fuel depth : Nat) (s : List Char) :
    Option (List (Notation × Notation) × List Char) :=
  match fuel, depth with
  | 0, _ => none
  | _, 0 => none
  | fuel + 1, depth + 1 => do
    let (k, s) ← value? fuel depth s
    let (v, s) ← value? fuel depth (← skip? (← close? ':' s))
    match ← comma? '}' s with
    | (false, s) => return ([(k, v)], s)
    | (true, s) =>
      let (es, s) ← entries? fuel (depth + 1) s
      return ((k, v) :: es, s)

end

end Values

def tokens? : List (List Char) → List Char → Option (List Char)
  | [], s => some s
  | t :: rest, s => do tokens? rest (← t.isPrefixOf? (← skip? s))

def extensions? : Nat → List Char → Option (List Extension × List Char)
  | 0, _ => none
  | fuel + 1, s => do
    let (name, s) ← name? s
    let extension ← Extension.ofName? name
    match ← comma? ')' s with
    | (false, s) => return ([extension], s)
    | (true, s) =>
      let (more, s) ← extensions? fuel s
      return (extension :: more, s)

/-- The extensions enabled at the start of a file, and what follows. -/
def header? : Nat → List Char → Option (List Extension × List Char)
  | 0, _ => none
  | fuel + 1, s => do
    match ← skip? s with
    | '#' :: s =>
      let s ← tokens? [['!'], ['['], "enable".toList, ['(']] s
      let (names, s) ← extensions? (s.length + 1) (← skip? s)
      let s ← tokens? [[']']] s
      let (more, s) ← header? fuel s
      return (names ++ more, s)
    | s => return ([], s)

/-- The extensions and the value of a file, which holds nothing else. -/
def ofChars? (s : List Char) : Option (List Extension × Notation) := do
  let (extensions, s) ← header? (s.length + 1) s
  let (v, s) ← value? extensions (3 * s.length + 3) depthLimit s
  match ← skip? s with
  | [] => return (extensions, v)
  | _ => none

end Phraseology.Notation
