import Phraseology.Decoder
import Phraseology.Message

/-! Sessions: the latest source, rules and locale, and everything that follows from them. -/
namespace Phraseology

/-- What follows from a source, rules and a locale. It is replaced as a whole. -/
structure Setup where
  lexicon : Lexicon
  source : Source
  rules : RuleSet
  elements : Elements
  compiled : GrammarSet
  decoder : Decoder
  recognizer : Recognizer

/-- Everything is made anew; the first failure is reported. -/
def Setup.build (catalogue : Catalogue) (config : Config) (source : Source) (rules : RuleSet)
    (locale : String) : Except Error Setup := do
  let lexicon ← catalogue.get locale
  let elements ← Elements.build lexicon source config
  let compiled := GrammarSet.compile elements lexicon.locale rules
  let decoder ← Decoder.make lexicon source elements config
  let recognizer ← Recognizer.make compiled.grammars
  return { lexicon, source, rules, elements, compiled, decoder, recognizer }

/-- There is a setup as soon as source and rules are known. -/
structure Session where
  config : Config
  catalogue : Catalogue
  locale : String
  source : Option Source
  rules : Option RuleSet
  setup : Option Setup
  running : Bool

namespace Session

def make (config : Config) : Except Error Session := do
  config.validate
  let catalogue ← config.catalogue
  return {
    config, catalogue
    locale := Lexicon.english.locale
    source := none
    rules := none
    setup := none
    running := true }

def withLocale (s : Session) (tag : String) : Except Error Session := do
  let lexicon ← s.catalogue.get tag
  return { s with locale := lexicon.locale }

/-- The session with everything made anew. A failure leaves no new session. -/
def reconfigure (s : Session) (source : Source) (rules : RuleSet) (locale : String) :
    Except Error (Session × GrammarSet) := do
  let setup ← Setup.build s.catalogue s.config source rules locale
  let next : Session :=
    { s with
      locale := setup.lexicon.locale
      source := some source
      rules := some rules
      setup := some setup }
  return (next, setup.compiled)

/-- Until source and rules are both known they are only kept. -/
def apply (s : Session) (source : Option Source) (rules : Option RuleSet) (locale : String) :
    Except Error (Session × Option GrammarSet) :=
  match source, rules with
  | some source, some rules => do
    let (s, compiled) ← s.reconfigure source rules locale
    return (s, some compiled)
  | source, rules => .ok ({ s with source, rules, locale }, none)

def decode (s : Session) (r : Recognition) : Except Error Decoded :=
  match s.setup with
  | none => .error .notConfigured
  | some setup => .ok (setup.decoder.decode r.kind r.grammarName r.text)

def decodeTranscript (s : Session) (text : String) : Except Error Decoded :=
  match s.setup with
  | none => .error .notConfigured
  | some setup =>
    let r := setup.recognizer.recognize text
    .ok (setup.decoder.decode r.kind r.grammarName r.text)

def compiledReplies : Option GrammarSet → List ClientMessage
  | none => []
  | some compiled => [.compiled (compiled.grammars.map Grammar.summary)]

/-- A change takes effect unless it fails, and then nothing changes. -/
def change (s : Session) (applied : Except Error (Session × Option GrammarSet)) :
    Session × List ClientMessage :=
  match applied with
  | .ok (next, compiled) => (next, compiledReplies compiled)
  | .error e => (s, [.ofError e])

def changeLanguage (s : Session) (tag : String) : Session × List ClientMessage :=
  let applied := do
    let lexicon ← s.catalogue.get tag
    s.apply s.source s.rules lexicon.locale
  match applied with
  | .ok (next, compiled) => (next, .languageInit tag true "" :: compiledReplies compiled)
  | .error e => (s, [.languageInit tag false e.message])

def reply (decoded : Except Error Decoded) : List ClientMessage :=
  match decoded with
  | .ok d => [.result d]
  | .error e => [.ofError e]

/-- One message of the host, and the answers to it. Utterances are not answered while the engine
is stopped. -/
def handle (s : Session) : HostMessage → Session × List ClientMessage
  | .source source => s.change (s.apply (some source) s.rules s.locale)
  | .rules rules => s.change (s.apply s.source (some rules) s.locale)
  | .language tag => s.changeLanguage tag
  | .running isRunning => ({ s with running := isRunning }, [.running isRunning])
  | .recognition r => (s, if s.running then reply (s.decode r) else [])
  | .transcript text => (s, if s.running then reply (s.decodeTranscript text) else [])

end Session

end Phraseology
