import Phraseology.Decoded
import Phraseology.Grammar
import Phraseology.Number.Binary

/-! Recognition of typed text: the first grammar whose pattern accepts the text. -/
namespace Phraseology

structure Recognition where
  grammarName : String
  text : String
  confidence : Number.Binary
  kind : ResultKind
  deriving DecidableEq, Repr

structure Recognizer where
  patterns : List (String × Pattern)

namespace Recognizer

def zero : Number.Binary := Number.single.round false 0 1

def one : Number.Binary := Number.single.round false 1 1

/-- Grammars that nothing can match are left out; all others have to be without flaw. -/
def make (grammars : List Grammar) : Except Error Recognizer := do
  let patterns := grammars.filterMap fun g => g.pattern?.map fun p => (g.name, p)
  match patterns.findSome? fun p => p.2.flaw? with
  | some flaw => throw (.pattern flaw)
  | none => return ⟨patterns⟩

def find? (r : Recognizer) (text : String) : Option String :=
  (r.patterns.find? fun p => p.2.accepts text).map Prod.fst

/-- A text that no grammar accepts is rejected. -/
def recognize (r : Recognizer) (text : String) : Recognition :=
  match r.find? text with
  | some name => ⟨name, Text.trim text, one, .recognized⟩
  | none => ⟨"", Text.trim text, zero, .rejected⟩

end Recognizer

end Phraseology
