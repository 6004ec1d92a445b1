/-! Values of the interchange format and their compact text. -/
namespace Phraseology

/-- Objects keep the order of their fields, and numbers the text they are written with. -/
inductive Json where
  | null
  | bool (b : Bool)
  | number (literal : String)
  | string (s : String)
  | array (items : List Json)
  | object (fields : List (String × Json))

namespace Json

def ofNat (n : Nat) : Json := .number (toString n)

def strings (xs : List String) : Json := .array (xs.map .string)

/-- `null` stands for what is absent. -/
def ofOption {α : Type} (f : α → Json) : Option α → Json
  | none => .null
  | some a => f a

/-- The digits of a control character, of which there are 32. -/
def controlDigits (c : Char) : List Char :=
  ['0', '0', if c.toNat < 16 then '0' else '1', Nat.digitChar (c.toNat % 16)]

/-- Quotes, backslashes and controls are escaped, and nothing else. -/
def escapeChar (c : Char) : List Char :=
  if c == '"' then ['\\', '"']
  else if c == '\\' then ['\\', '\\']
  else if c == '\x08' then ['\\', 'b']
  else if c == '\x0c' then ['\\', 'f']
  else if c == '\n' then ['\\', 'n']
  else if c == '\r' then ['\\', 'r']
  else if c == '\t' then ['\\', 't']
  else if c.toNat < 32 then '\\' :: 'u' :: controlDigits c
  else [c]

def quoteChars (s : String) : List Char :=
  '"' :: (s.toList.flatMap escapeChar ++ ['"'])

mutual

def chars : Json → List Char
  | .null => ['n', 'u', 'l', 'l']
  | .bool true => ['t', 'r', 'u', 'e']
  | .bool false => ['f', 'a', 'l', 's', 'e']
  | .number literal => literal.toList
  | .string s => quoteChars s
  | .array items => '[' :: (itemChars items ++ [']'])
  | .object fields => '{' :: (fieldChars fields ++ ['}'])

def itemChars : List Json → List Char
  | [] => []
  | [v] => chars v
  | v :: w :: rest => chars v ++ ',' :: itemChars (w :: rest)

def fieldChars : List (String × Json) → List Char
  | [] => []
  | [(k, v)] => quoteChars k ++ ':' :: chars v
  | (k, v) :: f :: rest => quoteChars k ++ ':' :: (chars v ++ ',' :: fieldChars (f :: rest))

end

def print (v : Json) : String := String.ofList v.chars

end Json

end Phraseology
