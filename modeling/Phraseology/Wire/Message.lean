import Phraseology.Message
import Phraseology.Wire.Grammar
import Phraseology.Wire.Source

/-! How messages are transmitted: a tag that tells the kind, and the content. -/
namespace Phraseology

open Json (Reader Record)

def ResultKind.reader : Reader ResultKind :=
  .choice (ResultKind.all.map fun k => (k.name, k))

/-- A number that is not finite is absent. -/
def confidenceJson (v : Number.Binary) : Json :=
  .ofOption .number (Number.singleStyle.text? v)

def Recognition.toJson (r : Recognition) : Json :=
  .object
    [("GrammarName", .string r.grammarName), ("Text", .string r.text),
      ("Confidence", confidenceJson r.confidence), ("Type", .string r.kind.name)]

def Recognition.reader : Reader Recognition :=
  .record "struct RecognitionEvent" <| ((((Record.pure Recognition.mk).and
    (.required "GrammarName" .string)).and
    (.required "Text" .string)).and
    (.required "Confidence" .single)).and
    (.required "Type" ResultKind.reader)

def Decoded.toJson (d : Decoded) : Json :=
  .object
    [("Type", .string d.kind.name), ("Grammar", .string d.grammar.name),
      ("Message", .string d.message), ("NormalizedMessage", .string d.normalizedMessage),
      ("Aircraft", .string d.aircraft), ("Waypoint", .string d.waypoint),
      ("Heading", .string d.heading), ("Runway", .string d.runway)]

def Decoded.reader : Reader Decoded :=
  .record "struct DecodedResult" <| ((((((((Record.pure Decoded.mk).and
    (.required "Type" ResultKind.reader)).and
    (.required "Grammar" Category.reader)).and
    (.required "Message" .string)).and
    (.required "NormalizedMessage" .string)).and
    (.required "Aircraft" .string)).and
    (.required "Waypoint" .string)).and
    (.required "Heading" .string)).and
    (.required "Runway" .string)

def Summary.toJson (s : Summary) : Json :=
  .object
    [("Name", .string s.name), ("Category", .string s.category.name),
      ("Definition", .string s.definition)]

def Summary.reader : Reader Summary :=
  .record "struct GrammarSummary" <| (((Record.pure Summary.mk).and
    (.required "Name" .string)).and
    (.required "Category" Category.reader)).and
    (.required "Definition" .string)

def Json.message (tag : String) (content : Json) : Json :=
  .object [("type", .string tag), ("content", content)]

def HostMessage.toJson : HostMessage → Json
  | .source s => .message "GrammarSource" s.toJson
  | .rules r => .message "GrammarStruct" r.toJson
  | .language tag => .message "SREngineLanguage" (.object [("Language", .string tag)])
  | .running b => .message "SREngineRunningState" (.object [("IsRunning", .bool b)])
  | .recognition r => .message "RecognitionResult" r.toJson
  | .transcript text => .message "Transcript" (.object [("Text", .string text)])

def HostMessage.reader : Reader HostMessage :=
  .tagged "HostMessage"
    [("GrammarSource", Source.reader.map .source),
      ("GrammarStruct", RuleSet.reader.map .rules),
      ("SREngineLanguage",
        .record "struct EngineLanguage" ((Record.required "Language" .string).map .language)),
      ("SREngineRunningState",
        .record "struct RunningState" ((Record.required "IsRunning" .bool).map .running)),
      ("RecognitionResult", Recognition.reader.map .recognition),
      ("Transcript",
        .record "struct Transcript" ((Record.required "Text" .string).map .transcript))]

/-- An error that is empty is left out. -/
def languageInitJson (language : String) (isSuccess : Bool) (error : String) : Json :=
  .object
    ([("Language", .string language), ("IsSuccess", .bool isSuccess)]
      ++ (if error.isEmpty then [] else [("ErrorMessage", .string error)]))

def ClientMessage.toJson : ClientMessage → Json
  | .result d => .message "SRResult" d.toJson
  | .languageInit language isSuccess error =>
    .message "LanguageInitResult" (languageInitJson language isSuccess error)
  | .compiled grammars => .message "CompiledGrammars" (.array (grammars.map Summary.toJson))
  | .configurationError message =>
    .message "ConfigurationError" (.object [("Message", .string message)])
  | .running b => .message "SREngineRunningState" (.object [("IsRunning", .bool b)])

def ClientMessage.reader : Reader ClientMessage :=
  .tagged "ClientMessage"
    [("SRResult", Decoded.reader.map .result),
      ("LanguageInitResult",
        .record "struct LanguageInitResult" <| (((Record.pure ClientMessage.languageInit).and
          (.required "Language" .string)).and
          (.required "IsSuccess" .bool)).and
          (.field "ErrorMessage" .string (some ""))),
      ("CompiledGrammars", (Reader.list Summary.reader).map .compiled),
      ("ConfigurationError",
        .record "struct ConfigurationError"
          ((Record.required "Message" .string).map .configurationError)),
      ("SREngineRunningState",
        .record "struct RunningState" ((Record.required "IsRunning" .bool).map .running))]

end Phraseology
