import Phraseology.Lexicon
import Phraseology.Regex.Flaw
import Phraseology.Text.Cursor
import Phraseology.Text.Search

/-! Numbers in running text: a run of digit words, perhaps with a word before and one after it. What
is looked for is a regular expression, which has to be one that can be used. -/
namespace Phraseology

/-- What to look for. Without a `leading` set the run may stand anywhere, and without a `trailing`
set nothing after it is looked at. -/
structure NumberPhrase where
  script : Script
  digits : List DigitWord
  leading : Option (List Spelling)
  min : Nat
  max : Nat
  trailing : Option (List Spelling)

namespace NumberPhrase

open Text (Cursor)

/-- A place where a number was found. A trailing word without a code counts as part of it. -/
structure Match where
  leading : Option String
  digits : String
  trailing : Option String
  start : Nat
  stop : Nat
  deriving DecidableEq, Repr

/-- The words of a match, before they are looked up. -/
structure Hit where
  leading : Option (List Char)
  run : List Char
  trailing : Option (List Char)
  stop : Cursor

/-- An empty leading set is met nowhere, whatever the bounds are. -/
def neverMet (p : NumberPhrase) : Bool :=
  match p.leading with
  | some [] => true
  | _ => false

/-- The words of a number phrase as alternatives, in the order in which they are tried. -/
structure Words where
  digits : List (List Char)
  leading : Option (List (List Char))
  trailing : Option (List (List Char))

def spokenWords (spellings : List Spelling) : List (List Char) :=
  Text.alternativesOrEmpty (spellings.map Spelling.spoken)

def words (p : NumberPhrase) : Words where
  digits := Text.alternativesOrEmpty (p.digits.map DigitWord.word)
  leading := p.leading.map spokenWords
  trailing := p.trailing.map spokenWords

/-- The places behind one of the words; in a spaced script they have to be whole words. -/
def wholeWord (s : Script) (ws : List (List Char)) (c : Cursor) : List Cursor :=
  match s with
  | .spaced => if c.atBoundary then (Cursor.anyWord ws c).filter Cursor.atBoundary else []
  | .ideographic => Cursor.anyWord ws c

def digitEnds (s : Script) (ws : Words) (c : Cursor) : List Cursor :=
  (wholeWord s ws.digits c).flatMap Cursor.blanks

/-- The leading word, if one is asked for, and the places behind it and blanks. -/
def leadingEnds (s : Script) (ws : Words) (c : Cursor) : List (Option (List Char) × Cursor) :=
  match ws.leading with
  | none => [(none, c)]
  | some leading =>
    (wholeWord s leading c).flatMap fun d => d.blanks.map fun e => (some (c.upTo d), e)

/-- The places behind a word that can follow the run: any word in a spaced script, and otherwise
one of the set or any single character. -/
def trailingWord (s : Script) (trailing : List (List Char)) (c : Cursor) : List Cursor :=
  match s with
  | .spaced =>
    if c.atBoundary then (c.run1 Text.isWordChar).filter Cursor.atBoundary else []
  | .ideographic => Cursor.anyWord trailing c ++ c.one Text.isWordChar

/-- The trailing word, if one is asked for and there is one, and the place behind it. -/
def trailingEnds (s : Script) (ws : Words) (c : Cursor) : List (Option (List Char) × Cursor) :=
  match ws.trailing with
  | none => [(none, c)]
  | some trailing =>
    (c.blanks.flatMap fun d => (trailingWord s trailing d).map fun e => (some (d.upTo e), e))
      ++ [(none, c)]

/-- What is preferred of all that begins at a place. -/
def hitAt? (p : NumberPhrase) (ws : Words) (c : Cursor) : Option Hit :=
  (leadingEnds p.script ws c).findSome? fun (leading, d) => do
    let e ← Cursor.between? (digitEnds p.script ws) p.min p.max d
    let (trailing, f) ← (trailingEnds p.script ws e).head?
    return ⟨leading, d.upTo e, trailing, f⟩

/-- The value of the first digit word equal to the text, up to case. -/
def digitValue? (p : NumberPhrase) (word : List Char) : Option Nat :=
  (p.digits.find? fun d => Text.lowerChars d.word.toList == Text.lowerChars word).map
    DigitWord.value

/-- The numerals of a run, whose words are found once more, without regard to their boundaries. -/
def numerals (p : NumberPhrase) (ws : Words) (run : List Char) : List Char :=
  (Cursor.hits (fun c => (Cursor.anyWord ws.digits c).head?) id run).filterMap
    fun (c, d) => (p.digitValue? (c.upTo d)).map numeral

def codeOf? (spellings : Option (List Spelling)) (word : Option (List Char)) : Option String := do
  Spelling.codeFor? (← spellings) (String.ofList (← word))

/-- The words of a hit looked up; it is dropped if its leading word has no code. -/
def Hit.match? (p : NumberPhrase) (ws : Words) (start : Cursor) (h : Hit) : Option Match :=
  let found (leading : Option String) : Match :=
    ⟨leading, String.ofList (p.numerals ws h.run), codeOf? p.trailing h.trailing, start.offset,
      h.stop.offset⟩
  match h.leading with
  | none => some (found none)
  | some word => (codeOf? p.leading (some word)).map fun code => found (some code)

def find (p : NumberPhrase) (text : List Char) : List Match :=
  if p.neverMet then []
  else
    let ws := p.words
    (Cursor.hits (p.hitAt? ws) Hit.stop text).filterMap fun (c, h) => h.match? p ws c

def first? (p : NumberPhrase) (text : String) : Option Match := (p.find text.toList).head?

def last? (p : NumberPhrase) (text : String) : Option Match := (p.find text.toList).getLast?

open Regex (renderWords)

def renderRun (p : NumberPhrase) : String :=
  let digits := renderWords p.words.digits
  match p.script with
  | .spaced =>
    let leading := p.words.leading.map fun ws => "\\b(?P<lead>" ++ renderWords ws ++ ")\\b\\s*"
    "(?i)" ++ leading.getD "" ++ "(?P<digits>(?:\\b(?:" ++ digits ++ ")\\b\\s*)"
  | .ideographic =>
    let leading := p.words.leading.map fun ws => "(?P<lead>" ++ renderWords ws ++ ")\\s*"
    "(?i)" ++ leading.getD "" ++ "(?P<digits>(?:(?:" ++ digits ++ ")\\s*)"

def renderTrailing (p : NumberPhrase) : String :=
  match p.script, p.words.trailing with
  | _, none => ")"
  | .spaced, some _ => ")(?:\\s*\\b(?P<trail>\\w+)\\b)?"
  | .ideographic, some ws => ")(?:\\s*(?P<trail>" ++ renderWords ws ++ "|\\w))?"

def render (p : NumberPhrase) : String :=
  p.renderRun ++ Repetition.render p.min p.max ++ p.renderTrailing

def renderDigit (p : NumberPhrase) : String := "(?i)" ++ renderWords p.words.digits

/-- What is wrong with a number phrase: with its digits, or unless it is met nowhere with all of
it. -/
def flaw? (p : NumberPhrase) : Option PatternFlaw :=
  (Regex.flaw? false p.renderDigit (Regex.tooDeep? p.renderDigit)).or
    (if p.neverMet then none
    else
      Regex.flaw? false p.render fun r =>
        ((Repetition.flaw? p.min p.max).map (·.within p.renderRun p.renderTrailing)).or
          (r.tooDeep? p.render))

def make (l : Lexicon) (leading : Option (List Spelling)) (min max : Nat)
    (trailing : Option (List Spelling)) : Except Error NumberPhrase :=
  let p : NumberPhrase := ⟨l.script, l.digits, leading, min, max, trailing⟩
  match p.flaw? with
  | none => .ok p
  | some flaw => .error (.pattern flaw)

end NumberPhrase

end Phraseology
