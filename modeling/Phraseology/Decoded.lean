import Phraseology.Category
import Phraseology.Command

/-! What has been understood of an utterance, and the command that it gives. -/
namespace Phraseology

/-- How sure a recognizer is. -/
inductive ResultKind where
  | hypothesized
  | rejected
  | recognized
  deriving DecidableEq, Repr

def ResultKind.all : List ResultKind := [.hypothesized, .rejected, .recognized]

def ResultKind.name : ResultKind → String
  | .hypothesized => "Hypothesized"
  | .rejected => "Rejected"
  | .recognized => "Recognized"

/-- A field that was not found is empty. -/
structure Decoded where
  kind : ResultKind
  grammar : Category
  message : String
  normalizedMessage : String
  aircraft : String
  waypoint : String
  heading : String
  runway : String
  deriving DecidableEq, Repr

namespace Decoded

def empty (kind : ResultKind) : Decoded := ⟨kind, .invalid, "", "", "", "", "", ""⟩

/-- What a vector leads to, unless it is empty. -/
def vector? (make : String → Waypoint) (waypoint : String) : Option Waypoint :=
  if waypoint.isEmpty then none else some (make waypoint)

/-- The command of the category, if the callsign and the field that it needs are there and well
formed. -/
def command? (d : Decoded) : Option Command :=
  if d.kind = .rejected then none
  else do
    let callsign ← (Callsign.parse d.aircraft).toOption
    match d.grammar with
    | .status => return .status callsign
    | .takeoff => return .takeoff callsign (← (Runway.parse d.runway).toOption)
    | .landing => return .landing callsign (← (Runway.parse d.runway).toOption)
    | .flyHeading => return .flyHeading callsign (← (Heading.parse d.heading).toOption)
    | .vectorToNamedWaypoint => return .vectorTo callsign (← vector? .named d.waypoint)
    | .vectorToSpelledWaypoint => return .vectorTo callsign (← vector? .spelled d.waypoint)
    | .invalid => none

end Decoded

end Phraseology
