import Phraseology.Heading
import Phraseology.Runway

/-! Callsigns of aircraft, such as `DLT 123`, and what a controller tells an aircraft to do. -/
namespace Phraseology

structure Callsign where
  airline : String
  flight : String
  deriving DecidableEq, Repr

namespace Callsign

def ofWords? : List (List Char) → Option Callsign
  | [airline, flight] =>
    if Text.isDigits flight then some ⟨String.ofList airline, String.ofList flight⟩ else none
  | _ => none

/-- A callsign may have blanks around its words. -/
def parse (text : String) : Except IdentifierError Callsign :=
  match ofWords? (Text.wordChars text.toList) with
  | some c => .ok c
  | none => .error (.callsign text)

def name (c : Callsign) : String := c.airline ++ " " ++ c.flight

end Callsign

/-- Where a vector leads: to a waypoint with a name, or to one that is spelled, such as `A12`. -/
inductive Waypoint where
  | named (name : String)
  | spelled (name : String)
  deriving DecidableEq, Repr

inductive Command where
  | status (callsign : Callsign)
  | takeoff (callsign : Callsign) (runway : Runway)
  | landing (callsign : Callsign) (runway : Runway)
  | flyHeading (callsign : Callsign) (heading : Heading)
  | vectorTo (callsign : Callsign) (waypoint : Waypoint)
  deriving DecidableEq, Repr

def Command.callsign : Command → Callsign
  | .status callsign => callsign
  | .takeoff callsign _ => callsign
  | .landing callsign _ => callsign
  | .flyHeading callsign _ => callsign
  | .vectorTo callsign _ => callsign

end Phraseology
