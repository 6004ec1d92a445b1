import Phraseology.Grammar
import Phraseology.Json.Reader
import Phraseology.Wire.Lexicon

/-! How grammars are transmitted. -/
namespace Phraseology

open Json (Reader Record)

def Category.reader : Reader Category := .choice (Category.all.map fun c => (c.name, c))

def ElementKind.reader : Reader ElementKind :=
  .choice (ElementKind.all.map fun k => (k.name, k))

mutual

/-- A phrase is tagged by its form. -/
def Phrase.toJson : Phrase → Json
  | .text s => .object [("Text", .string s)]
  | .choice alternatives => .object [("Choice", .array (Phrase.toJsons alternatives))]
  | .sequence parts => .object [("Sequence", .array (Phrase.toJsons parts))]
  | .repeated body min max =>
    .object
      [("Repeat", .object
        [("rule", Phrase.toJson body), ("min", .ofNat min), ("max", .ofNat max)])]
  | .element kind body =>
    .object [("Element", .object [("kind", .string kind.name), ("rule", Phrase.toJson body)])]

def Phrase.toJsons : List Phrase → List Json
  | [] => []
  | p :: rest => Phrase.toJson p :: Phrase.toJsons rest

end

def Phrase.elementReader (body : Reader Phrase) : Reader Phrase :=
  .record "struct ElementGrammar" <| ((Record.pure Phrase.element).and
    (.required "kind" ElementKind.reader)).and (.required "rule" body)

def Phrase.repeatedRecord (body : Reader Phrase) : Record Phrase :=
  (((Record.pure Phrase.repeated).and (.required "rule" body)).and
    (.required "min" (.nat "usize" lengthBound))).and
    (.required "max" (.nat "usize" lengthBound))

def Phrase.readerWithin : Nat → Reader Phrase
  | 0 => fun _ _ => .error (.malformed .tooDeep)
  | depth + 1 =>
    let body := readerWithin depth
    .variant
      [("Text", .content (Reader.string.map .text)),
        ("Choice", .content ((Reader.list body).map .choice)),
        ("Sequence", .content ((Reader.list body).map .sequence)),
        ("Repeat", .fields "struct variant GrammarRule::Repeat" (repeatedRecord body)),
        ("Element", .content (elementReader body))]

def Phrase.reader : Reader Phrase := Phrase.readerWithin 128

def Grammar.toJson (g : Grammar) : Json :=
  .object
    [("name", .string g.name), ("category", .string g.category.name),
      ("locale", .string g.locale), ("rule", g.phrase.toJson)]

def Grammar.reader : Reader Grammar :=
  .record "struct CompiledGrammar" <| ((((Record.pure Grammar.mk).and
    (.required "name" .string)).and
    (.required "category" Category.reader)).and
    (.required "locale" .string)).and
    (.required "rule" Phrase.reader)

def GrammarSet.reader : Reader GrammarSet :=
  .record "struct CompiledGrammarSet" <| ((Record.pure GrammarSet.mk).and
    (.required "locale" .string)).and (.required "grammars" (.list Grammar.reader))

end Phraseology
