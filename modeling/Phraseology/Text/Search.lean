/-! Places where one text occurs in another, and alternatives in the order in which they are
tried. -/
namespace Phraseology.Text

/-- `p` occurs somewhere in the text; the empty text occurs everywhere. -/
def occursIn (p : List Char) : List Char → Bool
  | [] => p.isEmpty
  | c :: s => p.isPrefixOf (c :: s) || occursIn p s

/-- The number of places at which `p` begins. -/
def occurrences (p : List Char) : List Char → Nat
  | [] => if p.isEmpty then 1 else 0
  | c :: s => (if p.isPrefixOf (c :: s) then 1 else 0) + occurrences p s

def afterFirst? (p : List Char) : List Char → Option (List Char)
  | [] => if p.isEmpty then some [] else none
  | c :: s => (p.isPrefixOf? (c :: s)).or (afterFirst? p s)

/-- Puts an element before the first that is not longer. -/
@[grind] def insertLongest {α : Type} (length : α → Nat) (a : α) : List α → List α
  | [] => [a]
  | b :: rest => if length b ≤ length a then a :: b :: rest else b :: insertLongest length a rest

/-- The longest come first; those of one length keep their order. -/
def longestFirst {α : Type} (length : α → Nat) (xs : List α) : List α :=
  xs.foldr (insertLongest length) []

/-- Words as alternatives, a longer one before those that it begins with. -/
def alternatives (words : List String) : List (List Char) :=
  longestFirst List.length (words.map String.toList)

/-- Among no words there is the empty one. -/
def alternativesOrEmpty (words : List String) : List (List Char) :=
  if words.isEmpty then [[]] else alternatives words

end Phraseology.Text
