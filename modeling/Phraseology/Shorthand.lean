import Phraseology.Lexicon
import Phraseology.Regex.Flaw
import Phraseology.Source
import Phraseology.Text.Cursor
import Phraseology.Text.Search

/-! Utterances as they are shown: codes for airlines, numerals for digit words, and the letter of a
side right after a numeral. -/
namespace Phraseology

structure Shorthand where
  lexicon : Lexicon
  airlines : List Airline

namespace Shorthand

open Text (Cursor)

/-- The words that are kept together; blank ones do not count. -/
def known (s : Shorthand) : List (List Char) :=
  Text.alternatives
    ((s.airlines.map Airline.name ++ s.lexicon.digits.map DigitWord.word
      ++ s.lexicon.directions.map Spelling.spoken).filter (!Text.isBlankText ·))

/-- How the tokens are written: the words that are kept together, and all else. -/
def render (s : Shorthand) : String :=
  let known := Regex.renderWords s.known
  match s.lexicon.script, s.known.isEmpty with
  | .spaced, false => "(?i)\\b(?:" ++ known ++ ")\\b|\\S+"
  | .ideographic, false => "(?i)(?:" ++ known ++ ")|[A-Za-z0-9]+|\\S"
  | .spaced, true => "\\S+"
  | .ideographic, true => "[A-Za-z0-9]+|\\S"

def flaw? (s : Shorthand) : Option PatternFlaw :=
  Regex.flaw? false s.render (Regex.tooDeep? s.render)

def make (l : Lexicon) (airlines : List Airline) : Except Error Shorthand :=
  let s : Shorthand := ⟨l, airlines⟩
  match s.flaw? with
  | none => .ok s
  | some flaw => .error (.pattern flaw)

/-- ASCII letters and digits; where case does not count, also the two letters that differ from an
ASCII letter in case only. -/
def isLatin (caseless : Bool) (c : Char) : Bool :=
  c.isAlphanum || (caseless && (c == 'ſ' || c == '\u212a'))

/-- What begins at a place: a known word, or else a run of characters other than blanks, which in
an ideographic script is a single one unless it is Latin. -/
def tokenEnd? (script : Script) (known : List (List Char)) (c : Cursor) : Option Cursor :=
  match script with
  | .spaced =>
    let words := if c.atBoundary then (Cursor.anyWord known c).filter Cursor.atBoundary else []
    (words ++ c.run1 (!Text.isBlank ·)).head?
  | .ideographic =>
    (Cursor.anyWord known c ++ c.run1 (isLatin (!known.isEmpty)) ++ c.one (!Text.isBlank ·)).head?

def tokens (s : Shorthand) (text : String) : List String :=
  (Cursor.hits (tokenEnd? s.lexicon.script s.known) id text.toList).map
    fun (c, d) => String.ofList (c.upTo d)

def shorten (s : Shorthand) (word : String) : String :=
  (Airline.codeFor? s.airlines word).getD word

/-- The pieces that are shown; `pending` holds the digits that have not been shown yet, the last
one first. -/
def piecesAfter (s : Shorthand) (pending : List Char) : List String → List String
  | [] => if pending.isEmpty then [] else [String.ofList pending.reverse]
  | word :: rest =>
    match s.lexicon.digitValue? word with
    | some value => piecesAfter s (numeral value :: pending) rest
    | none =>
      let number := String.ofList pending.reverse
      if pending.isEmpty then s.shorten word :: piecesAfter s [] rest
      else
        match s.lexicon.directionCode? word with
        | some code => (number ++ code) :: piecesAfter s [] rest
        | none => number :: s.shorten word :: piecesAfter s [] rest

/-- Two pieces need a space between them if they meet in letters or digits of ASCII. -/
def touching (a b : Option Char) : Bool :=
  ((a.map Char.isAlphanum).getD false) && ((b.map Char.isAlphanum).getD false)

/-- Pieces one after another, `last` being the character before them. -/
def closeUp (last : Option Char) : List String → List Char
  | [] => []
  | piece :: rest =>
    let gap := if touching last piece.toList.head? then [' '] else []
    gap ++ piece.toList ++ closeUp (piece.toList.getLast?.or last) rest

def assemble (s : Shorthand) (pieces : List String) : String :=
  match s.lexicon.script with
  | .spaced => " ".intercalate pieces
  | .ideographic => String.ofList (closeUp none pieces)

def write (s : Shorthand) (text : String) : String :=
  s.assemble (s.piecesAfter [] (s.tokens text))

end Shorthand

end Phraseology
