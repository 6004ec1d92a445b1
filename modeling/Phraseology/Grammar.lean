import Phraseology.Elements
import Phraseology.Phrase.Pattern
import Phraseology.Rules
import Phraseology.Template

/-! Grammars: named phrases compiled from templates. -/
namespace Phraseology

/-- The name is all that comes back when a grammar is recognized, so it tells the category. -/
structure Grammar where
  name : String
  category : Category
  locale : String
  phrase : Phrase
  deriving Repr

/-- The grammars of a locale, in the order in which they are tried. -/
structure GrammarSet where
  locale : String
  grammars : List Grammar
  deriving Repr

namespace Grammar

def pattern? (g : Grammar) : Option Pattern := Pattern.ofPhrase? g.phrase

def phraseOf (e : Elements) : Template.Token → Phrase
  | .literal text => .text text
  | .element kind => .element kind (e.phrase kind)
  | .choice alternatives => .oneOf alternatives
  | .optional text => .optional (.text text)

/-- The name of a grammar is the code of its category and its index. -/
def nameOf (c : Category) (index : Nat) : String := c.code?.getD "INV" ++ toString index

/-- The grammar of a template. Nothing is refused: what is not understood is literal text. -/
def compile (e : Elements) (locale : String) (c : Category) (template : String) (index : Nat) :
    Grammar where
  name := nameOf c index
  category := c
  locale := locale
  phrase := .sequence ((Template.tokens template).map (phraseOf e))

end Grammar

namespace GrammarSet

/-- The grammars of the templates that their category accepts; each category counts from zero. -/
def compile (e : Elements) (locale : String) (rules : RuleSet) : GrammarSet where
  locale := locale
  grammars := Category.commands.flatMap fun c =>
    (rules.filtered.templates c).mapIdx fun i t => Grammar.compile e locale c t i

def get? (s : GrammarSet) (name : String) : Option Grammar :=
  s.grammars.find? fun g => g.name == name

end GrammarSet

end Phraseology
