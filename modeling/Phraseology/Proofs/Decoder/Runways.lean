import Phraseology.Proofs.Decoder.Found
import Phraseology.Proofs.Elements

/-! How listed runways are spelled where words are written without blanks. -/
namespace Phraseology

open Text

namespace Lexicon

variable {l : Lexicon}

end Lexicon

end Phraseology
