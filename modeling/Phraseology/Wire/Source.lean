import Phraseology.Json.Reader
import Phraseology.Rules
import Phraseology.Source

/-! How sources and rules are transmitted. -/
namespace Phraseology

open Json (Reader Record)

def Airline.toJson (a : Airline) : Json :=
  .object [("name", .string a.name), ("code", .string a.code)]

def Airline.reader : Reader Airline :=
  .record "struct AirlineEntry" <| ((Record.pure Airline.mk).and
    (.required "name" .string)).and (.required "code" .string)

def Json.Record.texts (name : String) : Record (List String) :=
  .field name (.list .string) (some [])

def SourceLists.toJson (w : SourceLists) : Json :=
  .object
    [("Airlines", .strings w.airlines), ("AirlineCodes", .strings w.airlineCodes),
      ("NamedWaypoints", .strings w.waypoints), ("Runways", .strings w.runways)]

def SourceLists.reader : Reader SourceLists :=
  .record "struct WireGrammarSource" <| ((((Record.pure SourceLists.mk).and
    (.texts "Airlines")).and (.texts "AirlineCodes")).and (.texts "NamedWaypoints")).and
    (.texts "Runways")

def Source.toJson (s : Source) : Json := s.toLists.toJson

/-- Reads a source; lists that make none are refused with their own wording. -/
def Source.reader : Reader Source :=
  SourceLists.reader.bind fun w => w.toSource.mapError fun e => .rejected e.message

def RuleSet.toJson (r : RuleSet) : Json :=
  .object
    [("AircraftStatRules", .strings r.status), ("AircraftTakeoffRules", .strings r.takeoff),
      ("AircraftLandingRules", .strings r.landing),
      ("AircraftFlyHeadingRules", .strings r.flyHeading),
      ("AircraftVectorToDestinationWaypointRules", .strings r.vectorToNamedWaypoint),
      ("AircraftVectorToNormalWaypointRules", .strings r.vectorToSpelledWaypoint)]

def RuleSet.reader : Reader RuleSet :=
  .record "struct RuleSet" <| ((((((Record.pure RuleSet.mk).and
    (.texts "AircraftStatRules")).and
    (.texts "AircraftTakeoffRules")).and
    (.texts "AircraftLandingRules")).and
    (.texts "AircraftFlyHeadingRules")).and
    (.texts "AircraftVectorToDestinationWaypointRules")).and
    (.texts "AircraftVectorToNormalWaypointRules")

end Phraseology
