import Phraseology.Json.Problem
import Phraseology.Text.Excerpt

/-! Causes of failure and their wording. -/
namespace Phraseology

inductive IdentifierError where
  | heading (text : String)
  | runway (text : String)
  | callsign (text : String)
  | airlineCodes (names codes : Nat)
  deriving DecidableEq, Repr

def IdentifierError.message : IdentifierError → String
  | .heading text => "Invalid heading: " ++ text
  | .runway text => "Invalid runway identifier: " ++ text
  | .callsign text => "Invalid callsign: " ++ text
  | .airlineCodes names codes =>
    "Airline names and codes differ in length (" ++ toString names ++ " names, " ++ toString codes
      ++ " codes)"

inductive LexiconFlaw where
  | noLocale
  | digitTooGreat (word : String) (value : Nat)
  | noDigit (value : Nat)
  | blankWord
  | noPhonetics
  deriving DecidableEq, Repr

def LexiconFlaw.message : LexiconFlaw → String
  | .noLocale => "empty locale tag"
  | .digitTooGreat word value => "digit word " ++ word ++ " has value " ++ toString value
  | .noDigit value => "no word for digit " ++ toString value
  | .blankWord => "empty vocabulary word"
  | .noPhonetics => "empty phonetic alphabet"

inductive ConfigFlaw where
  | noDigits
  | boundsInverted (most least : Nat)
  deriving DecidableEq, Repr

def ConfigFlaw.message : ConfigFlaw → String
  | .noDigits => "flight_number_digits must be at least 1"
  | .boundsInverted most least =>
    "flight_number_max_digits (" ++ toString most ++ ") is below flight_number_digits ("
      ++ toString least ++ ")"

/-- Entries of a grammar source that have to be unique. -/
inductive Entry where
  | waypoint (name : String)
  | runway (name : String)
  deriving DecidableEq, Repr

def Entry.message : Entry → String
  | .waypoint name => "waypoint " ++ name
  | .runway name => "runway " ++ name

inductive PatternFlaw where
  | unreadable (written : String)
  | countTooGreat (place : Text.Excerpt)
  | boundsInverted (place : Text.Excerpt)
  | nestedTooDeep (place : Text.Excerpt) (limit : Nat)
  | tooLarge (limit : Nat)
  deriving DecidableEq, Repr

/-- The same flaw where the pattern is part of a longer one. -/
def PatternFlaw.within (left : String) (flaw : PatternFlaw) (right : String) : PatternFlaw :=
  match flaw with
  | .unreadable written => .unreadable (left ++ written ++ right)
  | .countTooGreat place => .countTooGreat (place.within left right)
  | .boundsInverted place => .boundsInverted (place.within left right)
  | .nestedTooDeep place limit => .nestedTooDeep (place.within left right) limit
  | .tooLarge limit => .tooLarge limit

def PatternFlaw.message : PatternFlaw → String
  | .unreadable written => "regex parse error:\n" ++ (Text.Excerpt.mk "" written "").render
  | .countTooGreat place =>
    "regex parse error:\n" ++ place.render ++ "error: decimal literal invalid"
  | .boundsInverted place =>
    "regex parse error:\n" ++ place.render
      ++ "error: invalid repetition count range, the start must be <= the end"
  | .nestedTooDeep place limit =>
    "regex parse error:\n" ++ place.render
      ++ "error: exceed the maximum number of nested parentheses/brackets (" ++ toString limit ++ ")"
  | .tooLarge limit => "Compiled regex exceeds size limit of " ++ toString limit ++ " bytes."

inductive Error where
  | io
  | json (problem : Json.Problem)
  | configText
  | identifier (cause : IdentifierError)
  | pattern (flaw : PatternFlaw)
  | unsupportedLocale (tag : String)
  | invalidLexicon (locale : String) (flaw : LexiconFlaw)
  | duplicateEntry (entry : Entry)
  | unspellableRunway (runway locale : String) (character : Char)
  | invalidConfig (flaw : ConfigFlaw)
  | notConfigured
  deriving DecidableEq, Repr

def Error.message : Error → String
  | .io => "Std Io Error!"
  | .json problem => "Serde Json (de)serialization failed: " ++ problem.message
  | .configText => "Ron config could not be parsed"
  | .identifier cause => "Aviation Helper: " ++ cause.message
  | .pattern flaw => "Regex could not be built: " ++ flaw.message
  | .unsupportedLocale tag => "Unsupported locale: " ++ tag
  | .invalidLexicon locale flaw => "Invalid lexicon for " ++ locale ++ ": " ++ flaw.message
  | .duplicateEntry entry => "Duplicate entry in grammar source: " ++ entry.message
  | .unspellableRunway runway locale character =>
    "Runway " ++ runway ++ " cannot be spelled in " ++ locale ++ ": no word for '"
      ++ String.ofList [character] ++ "'"
  | .invalidConfig flaw => "Invalid configuration: " ++ flaw.message
  | .notConfigured => "Voice control is not configured yet"

end Phraseology
