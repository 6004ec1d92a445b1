import Phraseology.Text.Search

/-! Kinds of commands, and the elements that a template of each kind has to mention. -/
namespace Phraseology

/-- What a placeholder of a template stands for. -/
inductive ElementKind where
  | aircraft
  | runway
  | heading
  | waypointNamed
  | waypointSpelled
  deriving DecidableEq, Repr

namespace ElementKind

def all : List ElementKind := [.aircraft, .runway, .heading, .waypointNamed, .waypointSpelled]

def name : ElementKind → String
  | .aircraft => "Aircraft"
  | .runway => "Runway"
  | .heading => "Heading"
  | .waypointNamed => "WaypointNamed"
  | .waypointSpelled => "WaypointSpelled"

def ofName? (name : String) : Option ElementKind := all.find? fun k => k.name == name

def marker (k : ElementKind) : List Char := '{' :: (k.name.toList ++ ['}'])

end ElementKind

/-- A grammar whose name tells no kind is invalid. -/
inductive Category where
  | status
  | takeoff
  | landing
  | flyHeading
  | vectorToNamedWaypoint
  | vectorToSpelledWaypoint
  | invalid
  deriving DecidableEq, Repr

namespace Category

def all : List Category :=
  [.status, .takeoff, .landing, .flyHeading, .vectorToNamedWaypoint, .vectorToSpelledWaypoint,
    .invalid]

/-- The categories of commands, in the order in which their grammars are compiled. -/
def commands : List Category :=
  [.status, .takeoff, .landing, .vectorToNamedWaypoint, .vectorToSpelledWaypoint, .flyHeading]

def name : Category → String
  | .status => "Status"
  | .takeoff => "Takeoff"
  | .landing => "Landing"
  | .flyHeading => "FlyHeading"
  | .vectorToNamedWaypoint => "VectorToNamedWaypoint"
  | .vectorToSpelledWaypoint => "VectorToSpelledWaypoint"
  | .invalid => "Invalid"

def code? : Category → Option String
  | .status => some "AGS"
  | .takeoff => some "ATO"
  | .landing => some "ALD"
  | .flyHeading => some "AFH"
  | .vectorToNamedWaypoint => some "AVD"
  | .vectorToSpelledWaypoint => some "AVW"
  | .invalid => none

/-- The category of a grammar is told by the first three letters of its name. -/
def ofGrammarName (name : String) : Category :=
  (commands.find? fun c => c.code?.map String.toList == some (name.toList.take 3)).getD .invalid

def required : Category → List ElementKind
  | .status => [.aircraft]
  | .takeoff => [.aircraft, .runway]
  | .landing => [.aircraft, .runway]
  | .flyHeading => [.aircraft, .heading]
  | .vectorToNamedWaypoint => [.aircraft, .waypointNamed]
  | .vectorToSpelledWaypoint => [.aircraft, .waypointSpelled]
  | .invalid => []

/-- A template has to mention each required element exactly once. No marker overlaps itself, so the
places where it begins are counted. -/
def accepts (c : Category) (template : String) : Bool :=
  c != .invalid &&
    c.required.all fun k => Text.occurrences k.marker template.toList == 1

end Category

end Phraseology
