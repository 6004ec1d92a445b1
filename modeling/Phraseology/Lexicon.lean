import Phraseology.Error
import Phraseology.Runway
import Phraseology.Text.Ascii
import Phraseology.Text.Blank
import Phraseology.Text.Lowercase

/-! The vocabulary of a locale: digit words, the phonetic alphabet, and the sides of runways; and
lexicons by locale tag. -/
namespace Phraseology

/-- Words are separated by blanks, or written without any. -/
inductive Script where
  | spaced
  | ideographic
  deriving DecidableEq, Repr

structure DigitWord where
  word : String
  value : Nat
  deriving DecidableEq, Repr

structure Spelling where
  spoken : String
  code : String
  deriving DecidableEq, Repr

/-- The code of the first spelling with that spoken form, up to case. -/
def Spelling.codeFor? (spellings : List Spelling) (word : String) : Option String :=
  (spellings.find? fun s => Text.lowercase s.spoken == Text.lowercase word).map Spelling.code

/-- Of the words for a digit the first is the one that it is spelled with. -/
structure Lexicon where
  locale : String
  script : Script
  digits : List DigitWord
  phonetic : List Spelling
  directions : List Spelling
  runwayKeyword : String
  waypointMarker : String
  deriving DecidableEq, Repr

namespace Lexicon

def canonicalDigit? (l : Lexicon) (value : Nat) : Option String :=
  (l.digits.find? fun d => d.value == value).map DigitWord.word

/-- The value of a digit word, up to case. -/
def digitValue? (l : Lexicon) (word : String) : Option Nat :=
  (l.digits.find? fun d => Text.lowercase d.word == Text.lowercase word).map DigitWord.value

/-- The word of the first direction whose code is that one letter, in either case. -/
def directionWord? (l : Lexicon) (letter : Char) : Option String :=
  (l.directions.find? fun s =>
    match s.code.toList with
    | [c] => c.toLower == letter.toLower
    | _ => false).map Spelling.spoken

/-- The code of a direction word, up to case. -/
def directionCode? (l : Lexicon) (word : String) : Option String :=
  Spelling.codeFor? l.directions word

def separator (l : Lexicon) : String :=
  match l.script with
  | .spaced => " "
  | .ideographic => ""

/-- The words as they are written one after another; blank ones are left out. -/
def join (l : Lexicon) (words : List String) : String :=
  l.separator.intercalate ((words.map Text.trim).filter (!·.isEmpty))

/-- The characters that are looked at where blanks inside do not count. -/
def compactChars (l : Lexicon) (s : List Char) : List Char :=
  match l.script with
  | .spaced => Text.trimChars s
  | .ideographic => s.filter (!Text.isBlank ·)

/-- The text without blanks at its ends or, in an ideographic script, anywhere. -/
def compact (l : Lexicon) (text : String) : String := String.ofList (l.compactChars text.toList)

/-- The words that must not be blank. -/
def vocabulary (l : Lexicon) : List String :=
  l.digits.map DigitWord.word ++ l.phonetic.map Spelling.spoken
    ++ l.directions.map Spelling.spoken

def flaw? (l : Lexicon) : Option LexiconFlaw :=
  if Text.isBlankText l.locale then some .noLocale
  else match l.digits.find? fun d => 9 < d.value with
    | some d => some (.digitTooGreat d.word d.value)
    | none => match (List.range 10).find? fun v => (l.canonicalDigit? v).isNone with
      | some v => some (.noDigit v)
      | none =>
        if l.vocabulary.any Text.isBlankText then some .blankWord
        else if l.phonetic.isEmpty then some .noPhonetics
        else none

def validate (l : Lexicon) : Except Error Unit :=
  match l.flaw? with
  | some flaw => .error (.invalidLexicon l.locale flaw)
  | none => .ok ()

/-- The word for each digit and then the word for the side. -/
def spellRunway (l : Lexicon) (r : Runway) : Except Error String := do
  let unspellable (c : Char) : Error := .unspellableRunway r.name l.locale c
  let digits ← r.digits.mapM fun (d : Fin 10) =>
    match l.canonicalDigit? d.val with
    | some word => .ok word
    | none => .error (unspellable (digitChar d))
  let side ← r.side.toList.mapM fun s =>
    match l.directionWord? s.letter with
    | some word => .ok word
    | none => .error (unspellable s.letter)
  return l.join (l.runwayKeyword :: (digits ++ side))

def english : Lexicon where
  locale := "en-US"
  script := .spaced
  digits :=
    [⟨"zero", 0⟩, ⟨"one", 1⟩, ⟨"two", 2⟩, ⟨"three", 3⟩, ⟨"four", 4⟩, ⟨"five", 5⟩, ⟨"six", 6⟩,
      ⟨"seven", 7⟩, ⟨"eight", 8⟩, ⟨"nine", 9⟩, ⟨"niner", 9⟩]
  phonetic := [⟨"alpha", "A"⟩, ⟨"hotel", "H"⟩, ⟨"lima", "L"⟩, ⟨"tango", "T"⟩]
  directions := [⟨"left", "L"⟩, ⟨"center", "C"⟩, ⟨"right", "R"⟩]
  runwayKeyword := "Runway"
  waypointMarker := "waypoint"

/-- Mandarin with the numerals of radiotelephony; the everyday ones are understood as well. -/
def mandarin : Lexicon where
  locale := "zh-CN"
  script := .ideographic
  digits :=
    [⟨"洞", 0⟩, ⟨"幺", 1⟩, ⟨"两", 2⟩, ⟨"三", 3⟩, ⟨"四", 4⟩, ⟨"五", 5⟩, ⟨"六", 6⟩, ⟨"拐", 7⟩,
      ⟨"八", 8⟩, ⟨"九", 9⟩, ⟨"零", 0⟩, ⟨"一", 1⟩, ⟨"二", 2⟩, ⟨"七", 7⟩]
  phonetic := [⟨"阿尔法", "A"⟩, ⟨"霍特尔", "H"⟩, ⟨"利马", "L"⟩, ⟨"探戈", "T"⟩]
  directions := [⟨"左", "L"⟩, ⟨"中", "C"⟩, ⟨"右", "R"⟩]
  runwayKeyword := "跑道"
  waypointMarker := "航路点"

end Lexicon

/-- The lexicons that can be selected; of two with the same tag the one added last counts. -/
structure Catalogue where
  entries : List (String × Lexicon)

namespace Catalogue

/-- A lexicon is filed under its tag in lowercase. -/
def insert (c : Catalogue) (l : Lexicon) : Catalogue :=
  ⟨(Text.lowercase l.locale, l) :: c.entries⟩

def builtin : Catalogue := (insert (insert ⟨[]⟩ .english) .mandarin)

/-- Adds a lexicon that can be used, or replaces the one with its tag. -/
def register (c : Catalogue) (l : Lexicon) : Except Error Catalogue := do
  l.validate
  return c.insert l

/-- A tag is looked for without its blanks and regardless of case. -/
def get? (c : Catalogue) (tag : String) : Option Lexicon :=
  c.entries.lookup (Text.lowercase (Text.trim tag))

def get (c : Catalogue) (tag : String) : Except Error Lexicon :=
  match c.get? tag with
  | some l => .ok l
  | none => .error (.unsupportedLocale tag)

end Catalogue

end Phraseology
