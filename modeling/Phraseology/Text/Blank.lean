import Phraseology.Text.CodePoint

/-! Blank characters: trimming, removal, and splitting into words. -/
namespace Phraseology.Text

/-- The code points with the property White_Space. -/
def blankRanges : List (Nat × Nat) :=
    [(0x9, 0xD), (0x20, 0x20), (0x85, 0x85), (0xA0, 0xA0), (0x1680, 0x1680), (0x2000, 0x200A),
    (0x2028, 0x2029), (0x202F, 0x202F), (0x205F, 0x205F), (0x3000, 0x3000)]

/-- A character is blank when it has the property White_Space. -/
def isBlank (c : Char) : Bool := inRanges c.toNat blankRanges

def trimChars (s : List Char) : List Char :=
  ((s.dropWhile isBlank).reverse.dropWhile isBlank).reverse

/-- The maximal runs of characters that are not blank, in order. -/
def wordChars : List Char → List (List Char)
  | [] => []
  | c :: s =>
    if isBlank c then wordChars s
    else match s, wordChars s with
      | d :: _, w :: ws => if isBlank d then [c] :: w :: ws else (c :: w) :: ws
      | _, ws => [c] :: ws

def trim (s : String) : String := String.ofList (trimChars s.toList)

/-- The words of a text, that is, its maximal runs without a blank. -/
def words (s : String) : List String := (wordChars s.toList).map String.ofList

/-- A text is blank when it has no character other than blanks. -/
def isBlankText (s : String) : Bool := s.toList.all isBlank

end Phraseology.Text
