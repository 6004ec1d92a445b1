import Phraseology.Grammar
import Phraseology.Recognizer

/-! Messages between a host, which knows the names and the rules, and the engine. -/
namespace Phraseology

/-- What a host is told about a grammar. -/
structure Summary where
  name : String
  category : Category
  definition : String
  deriving DecidableEq, Repr

def Grammar.summary (g : Grammar) : Summary := ⟨g.name, g.category, g.phrase.definition⟩

/-- What a host sends. A transcript is typed text, which is matched instead of being heard. -/
inductive HostMessage where
  | source (s : Source)
  | rules (r : RuleSet)
  | language (tag : String)
  | running (isRunning : Bool)
  | recognition (r : Recognition)
  | transcript (text : String)

inductive ClientMessage where
  | result (d : Decoded)
  | languageInit (language : String) (isSuccess : Bool) (error : String)
  | compiled (grammars : List Summary)
  | configurationError (message : String)
  | running (isRunning : Bool)
  deriving DecidableEq, Repr

def ClientMessage.ofError (e : Error) : ClientMessage := .configurationError e.message

end Phraseology
