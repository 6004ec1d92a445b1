import Phraseology.Proofs.Decoder.English
import Phraseology.Proofs.Decoder.Glyphs
import Phraseology.Proofs.Decoder.Runways
import Phraseology.Proofs.Phrase.Apart

/-! What is spoken for an element has what the decoder looks for to fill its field. -/
namespace Phraseology

open Text

def Decoded.field (d : Decoded) : ElementKind → String
  | .aircraft => d.aircraft
  | .runway => d.runway
  | .heading => d.heading
  | .waypointNamed | .waypointSpelled => d.waypoint

/-- A lexicon whose words are separated by blanks, and each of them is a word of a text. -/
structure Lexicon.Spaced (l : Lexicon) : Prop where
  script_eq : l.script = .spaced
  digits_ne : l.digits ≠ []
  plain : ∀ w ∈ l.runwayKeyword :: l.vocabulary, PlainWord w.toList

theorem Lexicon.Spaced.digits {l : Lexicon} (hl : l.Spaced) :
    ∀ d ∈ l.digits, Unbroken d.word.toList := fun _ hd =>
  (hl.plain _ (List.mem_cons_of_mem _ (word_mem_vocabulary hd))).unbroken

theorem Lexicon.Spaced.kept_eq {l : Lexicon} (hl : l.Spaced) (x : String) :
    l.kept x = trimChars x.toList := by
  rw [kept, compactChars, hl.script_eq]

/-- Whatever is uttered for the phrase begins with what the number phrase looks for. -/
def NumberPhrase.Covers (p : NumberPhrase) (cut : String → List String) (ph : Phrase) : Prop :=
  ∀ ws, ph.Uttered cut ws → ∃ lead ds rest, p.Leads lead ∧ (∀ d ∈ ds, d ∈ p.digits) ∧
    p.min ≤ ds.length ∧ ws.map String.toList = lead ++ ((digitWords ds).map String.toList ++ rest)

namespace NumberPhrase

variable {p : NumberPhrase} {ph : Phrase} {t : List Char}

end NumberPhrase

namespace Decoder

variable {l : Lexicon} {s : Source} {c : Config} {e : Elements} {d : Decoder} {x : String}
  {k : ElementKind} {cut : String → List String}

section Covers

variable (hmade : d.Made l s e c) (helements : e.Built l s c)
  (hcut : ∀ d ∈ l.digits, cut d.word = [d.word])

include hmade helements hcut

end Covers

end Decoder

end Phraseology
