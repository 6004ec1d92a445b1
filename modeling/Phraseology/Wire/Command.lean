import Phraseology.Command
import Phraseology.Json.Reader

/-! How identifiers and commands are transmitted. -/
namespace Phraseology

open Json (Reader Record)

/-- Texts that identify something are refused with their own wording. -/
def Json.Reader.identifier {α : Type} (parse : String → Except IdentifierError α) : Reader α :=
  Json.Reader.string.bind fun s => (parse s).mapError fun e => .rejected e.message

def Runway.toJson (r : Runway) : Json := .string r.name

def Runway.reader : Reader Runway := Reader.identifier Runway.parse

def Heading.toJson (h : Heading) : Json := .string h.name

def Heading.reader : Reader Heading := Reader.identifier Heading.parse

def Callsign.toJson (c : Callsign) : Json :=
  .object [("airline_code", .string c.airline), ("flight_number", .string c.flight)]

def Callsign.reader : Reader Callsign :=
  .record "struct Callsign" <| ((Record.pure Callsign.mk).and
    (.required "airline_code" .string)).and (.required "flight_number" .string)

/-- A waypoint is tagged by how it is spoken. -/
def Waypoint.toJson : Waypoint → Json
  | .named name => .object [("Named", .string name)]
  | .spelled name => .object [("Spelled", .string name)]

def Waypoint.reader : Reader Waypoint :=
  .variant
    [("Named", .content (Reader.string.map .named)),
      ("Spelled", .content (Reader.string.map .spelled))]

def Command.fields (tag : String) (c : Callsign) (more : List (String × Json)) : Json :=
  .object [(tag, .object (("callsign", c.toJson) :: more))]

def Command.toJson : Command → Json
  | .status c => fields "Status" c []
  | .takeoff c r => fields "Takeoff" c [("runway", r.toJson)]
  | .landing c r => fields "Landing" c [("runway", r.toJson)]
  | .flyHeading c h => fields "FlyHeading" c [("heading", h.toJson)]
  | .vectorTo c w => fields "VectorToWaypoint" c [("waypoint", w.toJson)]

def Command.reader : Reader Command :=
  let callsign : Record Callsign := .required "callsign" Callsign.reader
  let runway : Record Runway := .required "runway" Runway.reader
  .variant
    [("Status", .fields "struct variant VoiceCommand::Status" (callsign.map .status)),
      ("Takeoff", .fields "struct variant VoiceCommand::Takeoff"
        ((callsign.map .takeoff).and runway)),
      ("Landing", .fields "struct variant VoiceCommand::Landing"
        ((callsign.map .landing).and runway)),
      ("FlyHeading", .fields "struct variant VoiceCommand::FlyHeading"
        ((callsign.map .flyHeading).and (.required "heading" Heading.reader))),
      ("VectorToWaypoint", .fields "struct variant VoiceCommand::VectorToWaypoint"
        ((callsign.map .vectorTo).and (.required "waypoint" Waypoint.reader)))]

end Phraseology
