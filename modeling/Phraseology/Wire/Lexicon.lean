import Phraseology.Config
import Phraseology.Json.Reader

/-! How lexicons and configurations are transmitted. -/
namespace Phraseology

open Json (Reader Record)

def Script.name : Script → String
  | .spaced => "Spaced"
  | .ideographic => "Ideographic"

def Script.reader : Reader Script :=
  .choice [("Spaced", .spaced), ("Ideographic", .ideographic)]

def DigitWord.toJson (d : DigitWord) : Json :=
  .object [("word", .string d.word), ("value", .ofNat d.value)]

def DigitWord.reader : Reader DigitWord :=
  .record "struct DigitWord" <| ((Record.pure DigitWord.mk).and
    (.required "word" .string)).and (.required "value" (.nat "u8" 256))

def Spelling.toJson (s : Spelling) : Json :=
  .object [("spoken", .string s.spoken), ("code", .string s.code)]

def Spelling.reader : Reader Spelling :=
  .record "struct Spelling" <| ((Record.pure Spelling.mk).and
    (.required "spoken" .string)).and (.required "code" .string)

def Lexicon.toJson (l : Lexicon) : Json :=
  .object
    [("locale", .string l.locale), ("script", .string l.script.name),
      ("digits", .array (l.digits.map DigitWord.toJson)),
      ("phonetic", .array (l.phonetic.map Spelling.toJson)),
      ("directions", .array (l.directions.map Spelling.toJson)),
      ("runway_keyword", .string l.runwayKeyword),
      ("waypoint_marker", .string l.waypointMarker)]

def Lexicon.reader : Reader Lexicon :=
  .record "struct Lexicon" <| (((((((Record.pure Lexicon.mk).and
    (.required "locale" .string)).and
    (.required "script" Script.reader)).and
    (.required "digits" (.list DigitWord.reader))).and
    (.required "phonetic" (.list Spelling.reader))).and
    (.required "directions" (.list Spelling.reader))).and
    (.required "runway_keyword" .string)).and
    (.required "waypoint_marker" .string)

def lengthBound : Nat := UInt64.size

def Config.reader : Reader Config :=
  .record "struct VoiceControlConfig" <| (((Record.pure Config.mk).and
    (.field "flight_number_digits" (.nat "usize" lengthBound) (some standard.flightDigits))).and
    (.field "flight_number_max_digits" (.nat "usize" lengthBound)
      (some standard.flightMaxDigits))).and
    (.field "lexicons" (.list Lexicon.reader) (some standard.lexicons))

end Phraseology
