import Phraseology.Decoded
import Phraseology.Elements
import Phraseology.NumberPhrase
import Phraseology.Shorthand
import Phraseology.Text.Search

/-! Decoding: the grammar's name tells the category, and each field is looked for in the text on
its own. -/
namespace Phraseology

/-- What to look for in the utterances of one locale and one source. -/
structure Decoder where
  lexicon : Lexicon
  airlines : List Airline
  waypoints : List String
  /-- The longest spelling comes first, so that one is preferred to another that it contains. -/
  runwaySpellings : List RunwaySpelling
  flightMaxDigits : Nat
  aircraft : NumberPhrase
  runway : NumberPhrase
  heading : NumberPhrase
  waypointSpelled : NumberPhrase
  shorthand : Shorthand

namespace Decoder

def airlineSpellings (airlines : List Airline) : List Spelling :=
  airlines.map fun a => ⟨a.name, a.code⟩

/-- There is no decoder if the bounds of the flight number are out of order, or one of the
expressions to look for is beyond a limit. -/
def make (l : Lexicon) (s : Source) (e : Elements) (c : Config) : Except Error Decoder := do
  let aircraft ←
    NumberPhrase.make l (some (airlineSpellings s.airlines)) c.flightDigits c.flightMaxDigits none
  let runway ← NumberPhrase.make l (some [⟨l.runwayKeyword, ""⟩]) 1 2 (some l.directions)
  let heading ← NumberPhrase.make l none 3 3 none
  let waypointSpelled ← NumberPhrase.make l (some l.phonetic) 2 2 none
  let shorthand ← Shorthand.make l s.airlines
  return {
    lexicon := l
    airlines := s.airlines
    waypoints := s.waypoints
    runwaySpellings := Text.longestFirst (fun r => r.spoken.length) e.runwayMode.spellings
    flightMaxDigits := c.flightMaxDigits
    aircraft, runway, heading, waypointSpelled, shorthand }

/-- The text in which names are looked for: compact and in lowercase. -/
def plainChars (l : Lexicon) (text : String) : List Char :=
  Text.lowerChars (l.compactChars text.toList)

/-- The text contains the name, blanks and case apart. -/
def mentions (l : Lexicon) (text name : String) : Bool :=
  Text.occursIn (plainChars l name) (plainChars l text)

/-- The first digit word that the text begins with, and what follows it. -/
def leadingDigit? (digits : List DigitWord) (s : List Char) : Option (Nat × List Char) :=
  digits.findSome? fun d =>
    ((Text.lowerChars d.word.toList).isPrefixOf? s).map fun rest => (d.value, rest)

/-- Numerals for the digit words at the start of a text, as long as there is room left; each takes
at least one byte of it. -/
def leadingNumerals (digits : List DigitWord) : Nat → List Char → List Char
  | 0, _ => []
  | room + 1, s =>
    match leadingDigit? digits s with
    | some (value, rest) =>
      numeral value :: leadingNumerals digits (room - ((numeral value).utf8Size - 1)) rest
    | none => []
termination_by room => room

def aircraftOf? (d : Decoder) (text : String) : Option String :=
  match d.lexicon.script with
  | .spaced => do
    let m ← d.aircraft.first? text
    return (← m.leading) ++ " " ++ m.digits
  | .ideographic =>
    d.airlines.findSome? fun a => do
      let rest ← (Text.lowerChars a.name.toList).isPrefixOf? (plainChars d.lexicon text)
      let digits := leadingNumerals d.lexicon.digits d.flightMaxDigits rest
      if digits.isEmpty then none else some (a.code ++ " " ++ String.ofList digits)

/-- The name of a runway: of the listed one whose spelling is mentioned, or else from its digits
and its side. -/
def runwayOf? (d : Decoder) (text : String) : Option String :=
  if d.runwaySpellings.isEmpty then do
    let m ← d.runway.first? text
    return m.digits ++ m.trailing.getD ""
  else
    (d.runwaySpellings.find? fun r => mentions d.lexicon text r.spoken).map fun r => r.runway.name

def headingOf? (d : Decoder) (text : String) : Option String :=
  (d.heading.last? text).map NumberPhrase.Match.digits

def namedWaypointOf? (d : Decoder) (text : String) : Option String :=
  d.waypoints.find? fun w => mentions d.lexicon text w

/-- The letter and the two digits of a waypoint. In an ideographic script they come after the
marker. -/
def spelledWaypointOf? (d : Decoder) (text : String) : Option String :=
  match d.lexicon.script with
  | .spaced => do
    let m ← d.waypointSpelled.first? text
    return (← m.leading) ++ m.digits
  | .ideographic => do
    let after ←
      Text.afterFirst? (Text.lowerChars d.lexicon.waypointMarker.toList) (plainChars d.lexicon text)
    d.lexicon.phonetic.findSome? fun s => do
      let rest ← (Text.lowerChars s.spoken.toList).isPrefixOf? after
      let digits := leadingNumerals d.lexicon.digits 2 rest
      if Text.byteCount digits = 2 then some (s.code ++ String.ofList digits) else none

def waypointOf? (d : Decoder) (c : Category) (text : String) : Option String :=
  match c with
  | .vectorToNamedWaypoint => d.namedWaypointOf? text
  | .vectorToSpelledWaypoint => d.spelledWaypointOf? text
  | _ => none

/-- Nothing is looked for in a text that was rejected or is blank. -/
def decode (d : Decoder) (kind : ResultKind) (grammarName text : String) : Decoded :=
  if kind = .rejected ∨ Text.isBlankText text then .empty kind
  else
    let grammar := Category.ofGrammarName grammarName
    { kind, grammar
      message := text
      normalizedMessage := d.shorthand.write text
      aircraft := (d.aircraftOf? text).getD ""
      waypoint := (d.waypointOf? grammar text).getD ""
      heading := (d.headingOf? text).getD ""
      runway := (d.runwayOf? text).getD "" }

end Decoder

end Phraseology
