import Phraseology.Text.Ascii

/-! The notation of configuration files: values with or without names, in which integers can be
marked with their type. -/
namespace Phraseology

structure IntegerType where
  signed : Bool
  bits : Nat
  deriving DecidableEq, Repr

namespace IntegerType

def all : List IntegerType :=
  ([8, 16, 32, 64] : List Nat).flatMap fun bits => [⟨true, bits⟩, ⟨false, bits⟩]

def byte : IntegerType := ⟨false, 8⟩

def unsignedLong : IntegerType := ⟨false, 64⟩

def signedLong : IntegerType := ⟨true, 64⟩

def mark (t : IntegerType) : List Char :=
  (if t.signed then 'i' else 'u') :: Nat.toDigits 10 t.bits

def holds (t : IntegerType) (v : Int) : Bool :=
  if t.signed then -Int.pow 2 (t.bits - 1) ≤ v && v < Int.pow 2 (t.bits - 1)
  else 0 ≤ v && v < Int.pow 2 t.bits

end IntegerType

/-- A value of the notation. Empty parentheses are a record without fields; of a number that is no
integer only that is known. -/
inductive Notation where
  | integer (type : Option IntegerType) (value : Int)
  | decimal
  | truth (b : Bool)
  | character (c : Char)
  | text (s : String)
  | bytes (content : List UInt8)
  | symbol (name : String)
  | optional (content : Option Notation)
  | record (name : Option String) (fields : List (String × Notation))
  | tuple (name : Option String) (items : List Notation)
  | list (items : List Notation)
  | map (entries : List (Notation × Notation))

end Phraseology
