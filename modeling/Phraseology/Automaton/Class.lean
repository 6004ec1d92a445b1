import Phraseology.Text.Blank
import Phraseology.Text.WordChar

/-! Classes of characters as an automaton over bytes reads them: sequences of byte ranges. -/
namespace Phraseology.Automaton

/-- A text is read from its start, or from its end. -/
inductive Direction where
  | forward
  | backward
  deriving DecidableEq, Repr

def stateRoom : Nat := 32

/-- The room that a transition takes where a state has a list of them. -/
def transitionRoom : Nat := 8

/-- The room that an alternative takes at a state that chooses among some. -/
def alternativeRoom : Nat := 4

/-- The numbers from the first to the second. -/
abbrev Range := Nat × Nat

def insertAscending (n : Nat) : List Nat → List Nat
  | [] => [n]
  | m :: rest => if n ≤ m then n :: m :: rest else m :: insertAscending n rest

/-- Adds a number to ranges, all of which start at it or above. -/
def extend (n : Nat) : List Range → List Range
  | [] => [(n, n)]
  | (lo, hi) :: rest => if lo ≤ n + 1 then (n, hi) :: rest else (n, n) :: (lo, hi) :: rest

def rangesOf (ns : List Nat) : List Range := (ns.foldr insertAscending []).foldr extend []

def bytesOf (n : Nat) : List Nat :=
  let tail (m : Nat) : Nat := 0x80 + m % 0x40
  if n < 0x80 then [n]
  else if n < 0x800 then [0xC0 + n / 0x40, tail n]
  else if n < 0x10000 then [0xE0 + n / 0x1000, tail (n / 0x40), tail n]
  else [0xF0 + n / 0x40000, tail (n / 0x1000), tail (n / 0x40), tail n]

/-- A place at which a range has to be cut, so that all encodings have one length. -/
def lengthCut? (lo hi : Nat) : Option Nat := [0x7F, 0x7FF, 0xFFFF].find? fun m => lo ≤ m && m < hi

/-- A place at which a range has to be cut, so that its last bytes are full ranges wherever an
earlier byte varies. -/
def blockCut? (lo hi : Nat) : Option Nat :=
  if hi < 0x80 then none
  else [0x40, 0x1000, 0x40000].findSome? fun m =>
    if lo / m = hi / m then none
    else if lo % m ≠ 0 then some (lo / m * m + m - 1)
    else if hi % m ≠ m - 1 then some (hi / m * m - 1)
    else none

/-- The sequences of byte ranges that encode a range of code points. A cut makes the range shorter,
which bounds the fuel. -/
def encodings : Nat → Nat → Nat → List (List Range)
  | 0, _, _ => []
  | fuel + 1, lo, hi =>
    match (lengthCut? lo hi).or (blockCut? lo hi) with
    | some m => encodings fuel lo m ++ encodings fuel (m + 1) hi
    | none => [(bytesOf lo).zip (bytesOf hi)]

def sequences (rs : List Range) : List (List Range) :=
  rs.flatMap fun r => encodings (r.2 - r.1 + 1) r.1 r.2

/-- What can follow each first element, where equal ones stand together. -/
def branches {α : Type} [BEq α] : List (List α) → List (α × List (List α))
  | [] => []
  | [] :: rest => branches rest
  | (a :: s) :: rest =>
    match branches rest with
    | (b, tails) :: more =>
      if a == b then (b, s :: tails) :: more else (a, [s]) :: (b, tails) :: more
    | [] => [(a, [s])]

/-- What is left to read at each state on the way, the last one apart. -/
def waysOn : Nat → List (List Range) → List (List (List Range))
  | 0, _ => []
  | fuel + 1, ss =>
    if ss.all List.isEmpty then []
    else ss :: (branches ss).flatMap fun b => waysOn fuel b.2

def forwardRoom (rs : List Range) : Nat :=
  stateRoom + ((waysOn 5 (sequences rs)).eraseDups.map fun ss =>
    stateRoom + transitionRoom * (branches ss).length).foldr (· + ·) 0

/-- The number of byte ranges, those in common counted once. -/
def sharedRanges : Nat → List (List Range) → Nat
  | 0, _ => 0
  | fuel + 1, ss => ((branches ss).map fun b => 1 + sharedRanges fuel b.2).foldr (· + ·) 0

def backwardRoom (rs : List Range) : Nat :=
  let ss := sequences rs
  2 * stateRoom + alternativeRoom * ss.length + stateRoom * sharedRanges 5 ss

/-- The room of a class. A class of ASCII characters is read alike in both directions. -/
def classRoom (d : Direction) (rs : List Range) : Nat :=
  if rs.all fun r => r.2 < 0x80 then 2 * stateRoom + transitionRoom * rs.length
  else match d with
    | .forward => forwardRoom rs
    | .backward => backwardRoom rs

example :
    classRoom .forward Text.blankRanges = 424 ∧ classRoom .backward Text.blankRanges = 680 := by
  decide +kernel

inductive CharClass where
  | blank
  | solid
  | word
  deriving DecidableEq, Repr

/-- What is left between ascending ranges, from a code point on. -/
def gaps (first : Nat) : List Range → List Range
  | [] => [(first, 0x10FFFF)]
  | (lo, hi) :: rest => (first, lo - 1) :: gaps (hi + 1) rest

def wordRanges : List Range :=
  [(0x30, 0x39), (0x41, 0x5A), (0x5F, 0x5F), (0x61, 0x7A)] ++ Text.wordRanges

namespace CharClass

/-- The code points of a class. Surrogates are no characters. -/
def ranges : CharClass → List Range
  | .blank => Text.blankRanges
  | .solid => gaps 0 (Text.blankRanges ++ [(0xD800, 0xDFFF)])
  | .word => wordRanges

def bothRooms (c : CharClass) : Nat × Nat :=
  (classRoom .forward c.ranges, classRoom .backward c.ranges)

-- What a class takes is computed once.

def blankRooms : Nat × Nat := bothRooms .blank

def solidRooms : Nat × Nat := bothRooms .solid

def wordRooms : Nat × Nat := bothRooms .word

def room (d : Direction) (c : CharClass) : Nat :=
  let both := match c with
    | .blank => blankRooms
    | .solid => solidRooms
    | .word => wordRooms
  match d with
  | .forward => both.1
  | .backward => both.2

theorem room_eq (d : Direction) (c : CharClass) : c.room d = classRoom d c.ranges := by
  cases c <;> cases d <;> rfl

end CharClass

end Phraseology.Automaton
