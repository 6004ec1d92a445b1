import Phraseology.Proofs.Decoder.Make
import Phraseology.Proofs.NumberPhrase.Present
import Phraseology.Proofs.Text.Search

/-! A field is filled when what it needs stands in the text. What fills it may stand elsewhere. -/
namespace Phraseology

open Text

/-- The characters of a text without the blanks that the lexicon ignores. -/
def Lexicon.kept (l : Lexicon) (x : String) : List Char := l.compactChars x.toList

theorem Lexicon.kept_eq_filter {l : Lexicon} (hscript : l.script = .ideographic) (x : String) :
    l.kept x = x.toList.filter (!isBlank ·) := by
  rw [kept, compactChars, hscript]

/-- A lexicon whose words are ideographs and whose digit words are single ones. -/
structure Lexicon.Glyphs (l : Lexicon) : Prop where
  script_eq : l.script = .ideographic
  digits_ne : l.digits ≠ []
  digits : ∀ d ∈ l.digits, d.word.toList.length = 1 ∧ Ideographic d.word.toList ∧ d.value ≤ 9
  phonetic : ∀ x ∈ l.phonetic, Ideographic x.spoken.toList
  directions : ∀ x ∈ l.directions, Ideographic x.spoken.toList
  keyword : Ideographic l.runwayKeyword.toList ∧ l.runwayKeyword.toList ≠ []
  marker : Ideographic l.waypointMarker.toList ∧ l.waypointMarker.toList ≠ []

theorem Lexicon.Glyphs.kept_eq {l : Lexicon} (hl : l.Glyphs) (x : String) :
    l.kept x = x.toList.filter (!isBlank ·) := kept_eq_filter hl.script_eq x

theorem Lexicon.glyphs_mandarin : Lexicon.mandarin.Glyphs := by
  have hdigits : (mandarin.digits.all fun d => d.word.toList.length == 1 &&
      (d.word.toList.all fun c => decide (Ideograph c)) && Nat.ble d.value 9) = true := by
    decide +kernel
  have hspoken : ((mandarin.phonetic ++ mandarin.directions).all fun x =>
      x.spoken.toList.all fun c => decide (Ideograph c)) = true := by
    decide +kernel
  have hkeyword : (mandarin.runwayKeyword.toList.all fun c => decide (Ideograph c)) = true := by
    decide +kernel
  have hmarker : (mandarin.waypointMarker.toList.all fun c => decide (Ideograph c)) = true := by
    decide +kernel
  refine ⟨rfl, by decide, fun d hd => ?_, fun x hx => ?_, fun x hx => ?_, ?_, ?_⟩
  · have := List.all_eq_true.1 hdigits d hd
    rw [Bool.and_eq_true, Bool.and_eq_true, beq_iff_eq, Nat.ble_eq] at this
    exact ⟨this.1.1, ideographic_of_all this.1.2, this.2⟩
  · exact ideographic_of_all (List.all_eq_true.1 hspoken x (List.mem_append_left _ hx))
  · exact ideographic_of_all (List.all_eq_true.1 hspoken x (List.mem_append_right _ hx))
  · exact ⟨ideographic_of_all hkeyword, by decide⟩
  · exact ⟨ideographic_of_all hmarker, by decide⟩

theorem Lexicon.Glyphs.unbroken {l : Lexicon} (hl : l.Glyphs) :
    ∀ d ∈ l.digits, Unbroken d.word.toList := by
  intro d hd
  obtain ⟨hlength, hword, -⟩ := hl.digits d hd
  exact hword.unbroken (List.ne_nil_of_length_pos (by omega))

namespace Decoder

variable {l : Lexicon} {s : Source} {e : Elements} {c : Config} {d : Decoder} {p : NumberPhrase}
  {x : String} {u t : List Char}

theorem plainChars_eq (l : Lexicon) (x : String) : plainChars l x = lowerChars (l.kept x) := rfl

theorem Runway.name_ne_empty (r : Runway) : r.name ≠ "" := by
  simp [Runway.name, Runway.chars, Runway.digits]

end Decoder

end Phraseology
