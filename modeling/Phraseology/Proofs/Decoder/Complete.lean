import Phraseology.Proofs.Decoder.Clear

/-! The field of an element is filled when the element is clear in a text that is recognized. -/
namespace Phraseology

open Text

theorem Lexicon.Spaced.usable {l : Lexicon} (hl : l.Spaced) {p : NumberPhrase}
    (hp : p.digits = l.digits) (hmin : 1 ≤ p.min) : p.Usable where
  min_pos := hmin
  digits_ne := hp ▸ hl.digits_ne
  digits := fun d hd => (hl.digits d (hp ▸ hd)).ne_nil

theorem Lexicon.Glyphs.usable {l : Lexicon} (hl : l.Glyphs) {p : NumberPhrase}
    (hp : p.digits = l.digits) (hmin : 1 ≤ p.min) : p.Usable where
  min_pos := hmin
  digits_ne := hp ▸ hl.digits_ne
  digits := by
    rw [hp]
    intro d hd hnil
    have := (hl.digits d hd).1
    rw [hnil] at this
    cases this

/-- Ideographs have no case in which a text could have them. -/
theorem Lexicon.Glyphs.faithful {l : Lexicon} (hl : l.Glyphs) {p : NumberPhrase}
    (hp : p.digits = l.digits)
    (hleading : ∀ y ∈ p.leading.getD [], Ideographic y.spoken.toList) (t : List Char) :
    Faithful p.vocabulary t := by
  intro w hw v _ halike
  have hideograph : Ideographic w.toList := by
    rcases List.mem_append.1 hw with hw | hw
    · obtain ⟨d, hd, rfl⟩ := List.mem_map.1 hw
      rw [hp] at hd
      exact (hl.digits d hd).2.1
    · obtain ⟨y, hy, rfl⟩ := List.mem_map.1 hw
      exact hleading y hy
  rw [hideograph.eq_of_alike halike]

section Edged

variable {l : Lexicon} (hl : l.Spaced)

include hl

end Edged

namespace Decoder

variable {l : Lexicon} {s : Source} {c : Config} {e : Elements} {d : Decoder} {x : String}
  {k : ElementKind} {g : Grammar} {locale : String} {rules : RuleSet}

section Apart

variable (hmade : d.Made l s e c) (hl : l.Spaced) (helements : e.Built l s c)

include hmade hl helements

end Apart

end Decoder

end Phraseology
