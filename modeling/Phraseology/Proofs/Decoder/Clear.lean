import Phraseology.Proofs.Decoder.Covers
import Phraseology.Proofs.Recognizer

/-! What a text that is recognized must be like so that the decoder makes out what the recognizer
has heard. -/
namespace Phraseology

open Text

namespace Elements

end Elements

variable {l : Lexicon} {s : Source} {c : Config} {e : Elements} {locale x : String}
  {rules : RuleSet} {g : Grammar} {k : ElementKind} {t : List Char} {ws : List String}

namespace Lexicon.Glyphs

variable (hl : l.Glyphs)

include hl

end Lexicon.Glyphs

end Phraseology
