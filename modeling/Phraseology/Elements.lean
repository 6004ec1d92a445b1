import Phraseology.Config
import Phraseology.Phrase
import Phraseology.Source

/-! The five elements that templates mention, made from a lexicon and a source. -/
namespace Phraseology

structure RunwaySpelling where
  runway : Runway
  spoken : String
  deriving DecidableEq, Repr

/-- Runways are spoken freely, or are those of a list. -/
inductive RunwayMode where
  | procedural
  | explicit (spellings : List RunwaySpelling)
  deriving DecidableEq, Repr

def RunwayMode.spellings : RunwayMode → List RunwaySpelling
  | .procedural => []
  | .explicit spellings => spellings

structure Elements where
  aircraft : Phrase
  runway : Phrase
  heading : Phrase
  waypointNamed : Phrase
  waypointSpelled : Phrase
  runwayMode : RunwayMode

namespace Elements

def phrase (e : Elements) : ElementKind → Phrase
  | .aircraft => e.aircraft
  | .runway => e.runway
  | .heading => e.heading
  | .waypointNamed => e.waypointNamed
  | .waypointSpelled => e.waypointSpelled

def digit (l : Lexicon) : Phrase := .oneOf (l.digits.map DigitWord.word)

/-- The name of an airline and the digits of a flight number. -/
def aircraftPhrase (l : Lexicon) (s : Source) (c : Config) : Phrase :=
  .sequence
    [.oneOf (s.airlines.map Airline.name), .repeated (digit l) c.flightDigits c.flightDigits]

/-- The runway keyword, one or two digits, and perhaps a side, or else one of the spellings. -/
def runwayPhrase (l : Lexicon) : RunwayMode → Phrase
  | .procedural =>
    .sequence
      [.text l.runwayKeyword, .repeated (digit l) 1 2,
        .optional (.oneOf (l.directions.map Spelling.spoken))]
  | .explicit spellings => .oneOf (spellings.map RunwaySpelling.spoken)

def headingPhrase (l : Lexicon) : Phrase := .repeated (digit l) 3 3

def waypointNamedPhrase (s : Source) : Phrase := .oneOf s.waypoints

def waypointSpelledPhrase (l : Lexicon) : Phrase :=
  .sequence [.oneOf (l.phonetic.map Spelling.spoken), .repeated (digit l) 2 2]

/-- The spellings of the runways, in their order; the first that cannot be spelled is reported. -/
def spellRunways (l : Lexicon) (runways : List Runway) : Except Error (List RunwaySpelling) :=
  runways.mapM fun r => (l.spellRunway r).map (RunwaySpelling.mk r)

/-- A source without runways leaves them to be spoken freely. -/
def modeOf (l : Lexicon) (s : Source) : Except Error RunwayMode :=
  if s.runways.isEmpty then .ok .procedural
  else (spellRunways l s.runways).map .explicit

def build (l : Lexicon) (s : Source) (c : Config) : Except Error Elements := do
  let mode ← modeOf l s
  return {
    aircraft := aircraftPhrase l s c
    runway := runwayPhrase l mode
    heading := headingPhrase l
    waypointNamed := waypointNamedPhrase s
    waypointSpelled := waypointSpelledPhrase l
    runwayMode := mode }

end Elements

end Phraseology
