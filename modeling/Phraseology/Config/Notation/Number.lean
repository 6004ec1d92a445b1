import Phraseology.Config.Notation.Token

/-! Numbers of the notation. Integers have one of four bases, and can be marked with their type;
what is no integer, or too great to be one, is a decimal number. -/
namespace Phraseology.Notation

def sign : List Char → Bool × List Char
  | '-' :: s => (true, s)
  | '+' :: s => (false, s)
  | s => (false, s)

/-- The characters that an integer is looked for among, whatever its base. -/
def isIntegerChar (c : Char) : Bool := (hexDigit? c).isSome || c == '_'

def baseOf : List Char → Nat × List Char
  | '0' :: 'b' :: s => (2, s)
  | '0' :: 'o' :: s => (8, s)
  | '0' :: 'x' :: s => (16, s)
  | s => (10, s)

/-- The value of digits to a base; underscores may stand behind them. -/
def digitsValue? (base : Nat) (s : List Char) : Option Nat :=
  match s with
  | [] => none
  | '_' :: _ => none
  | s => s.foldlM (fun n c =>
      if c == '_' then some n
      else (hexDigit? c).bind fun d => if d < base then some (n * base + d) else none) 0

def magnitude? (s : List Char) : Option (Nat × List Char) :=
  match baseOf s with
  | (base, s) =>
    match s.span isIntegerChar with
    | (digits, s) => (digitsValue? base digits).map fun n => (n, s)

/-- The type that an integer is marked with, and what follows the mark. -/
def mark? (s : List Char) : Option (IntegerType × List Char) :=
  IntegerType.all.findSome? fun t => (word? t.mark s).map fun s => (t, s)

/-- An integer of its type; without a mark it is one of the longest. -/
def integer? (s : List Char) : Option (Notation × List Char) :=
  match sign s with
  | (negative, s) => do
    let (n, rest) ← magnitude? s
    let v : Int := if negative then -(n : Int) else n
    match mark? (s.dropWhile isIntegerChar) with
    | some (t, s) => if t.holds v then some (.integer (some t) v, s) else none
    | none =>
      let t := if negative then IntegerType.signedLong else IntegerType.unsignedLong
      if t.holds v then some (.integer none v, rest) else none

def isDecimalChar (c : Char) : Bool :=
  c.isDigit || c == 'e' || c == 'E' || c == '.' || c == '+' || c == '-' || c == '_'

/-- Underscores stand behind digits, or behind the letter of an exponent. -/
def underscoresHold (allowed : Bool) : List Char → Bool
  | [] => true
  | c :: s =>
    if c == '_' then allowed && underscoresHold allowed s
    else if c == '.' then underscoresHold false s
    else underscoresHold (allowed || (c != '+' && c != '-')) s

def isDigits (s : List Char) : Bool := !s.isEmpty && s.all Char.isDigit

/-- The text is an exponent, or empty. -/
def isExponent : List Char → Bool
  | [] => true
  | e :: s => (e == 'e' || e == 'E') && isDigits (sign s).2

/-- The text is a decimal number: digits before a point or after it or both, and perhaps an
exponent. -/
def isDecimal (s : List Char) : Bool :=
  match (sign s).2.span Char.isDigit with
  | (whole, '.' :: s) =>
    match s.span Char.isDigit with
    | (places, s) => isDigits (whole ++ places) && isExponent s
  | (whole, s) => isDigits whole && isExponent s

/-- What follows the type of a decimal number, if it is marked with one. -/
def afterDecimalMark (s : List Char) : List Char := (anyWord? ["f32".toList, "f64".toList] s).getD s

/-- The values that have no digits. -/
def specialDecimals : List (List Char) :=
  ["inf", "inff32", "inff64", "NaN", "NaNf32", "NaNf64"].map String.toList

def afterDecimal? (s : List Char) : Option (List Char) :=
  match anyWord? specialDecimals (sign s).2 with
  | some s => some s
  | none =>
    match s.span isDecimalChar with
    | (number, s) =>
      if underscoresHold false number && isDecimal (number.filter (· != '_')) then
        some (afterDecimalMark s)
      else none

/-- More characters of a decimal number stand here than could belong to an integer. -/
def looksDecimal (s : List Char) : Bool :=
  let s := (sign s).2
  (s.takeWhile isIntegerChar).length < (s.takeWhile isDecimalChar).length

def number? (s : List Char) : Option (Notation × List Char) :=
  let decimal? := (afterDecimal? s).map fun s => (Notation.decimal, s)
  if looksDecimal s then decimal? else (integer? s).or decimal?

end Phraseology.Notation
