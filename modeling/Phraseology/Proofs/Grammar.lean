import Phraseology.Grammar
import Phraseology.Proofs.Phrase.Spoken

/-! What is spoken from the tokens of a template. -/
namespace Phraseology

open Text (Item items)

namespace Template

def Lacks (bad : List Char → Prop) (text : String) : Prop :=
  ∀ r, .run r ∈ items text.toList → ¬ bad r

theorem lacks_iff {bad : List Char → Prop} {text : String} :
    Lacks bad text ↔ ∀ i ∈ items text.toList, match i with
      | .run r => ¬ bad r
      | .other _ => True := by
  constructor
  · intro h i hi
    cases i with
    | run r => exact h r hi
    | other c => trivial
  · exact fun h r hr => h _ hr

instance (bad : List Char → Prop) [DecidablePred bad] (text : String) :
    Decidable (Lacks bad text) :=
  @decidable_of_iff' _ _ lacks_iff <|
    @List.decidableBAll _ _ (fun i => match i with
      | .run r => inferInstanceAs (Decidable (¬ bad r))
      | .other _ => inferInstanceAs (Decidable True)) _

/-- No word of that kind is in the texts of a token, nor in what can be spoken for an element. -/
def Token.Avoids (e : Elements) (bad : List Char → Prop) : Token → Prop
  | .literal text | .optional text => Lacks bad text
  | .choice alternatives => ∀ text ∈ alternatives, Lacks bad text
  | .element kind => ∀ ws, (e.phrase kind).Spoken ws → ∀ w ∈ ws, Lacks bad w

variable {e : Elements} {bad : List Char → Prop} {ws : List String}

theorem Lacks.of_mem_words {text w : String} (h : Lacks bad text) (hw : w ∈ Text.words text) :
    Lacks bad w := by
  obtain ⟨u, hu, rfl⟩ := List.mem_map.1 hw
  intro r hr
  rw [String.toList_ofList] at hr
  exact h r (Text.mem_items_of_mem_wordChars hu hr)

theorem Lacks.of_spoken_text {text : String} (h : Lacks bad text)
    (hws : (Phrase.text text).Spoken ws) : ∀ w ∈ ws, Lacks bad w := by
  cases hws
  exact fun w => h.of_mem_words

theorem Token.Avoids.of_spoken {t : Token} (h : t.Avoids e bad)
    (hws : (Grammar.phraseOf e t).Spoken ws) : ∀ w ∈ ws, Lacks bad w := by
  intro w hw
  cases t with
  | literal text => exact Lacks.of_spoken_text h hws w hw
  | element kind =>
    cases hws with
    | element uttered => exact h ws uttered w hw
  | choice alternatives =>
    cases hws with
    | choice mem uttered =>
      obtain ⟨text, htext, rfl⟩ := List.mem_map.1 mem
      exact (h text htext).of_spoken_text uttered w hw
  | optional text =>
    obtain ⟨us, hus, hw⟩ := Phrase.Uttered.mem_repeated hws hw
    exact Lacks.of_spoken_text h hus w hw

/-- What is spoken from some tokens has no word that all of them avoid. -/
theorem lacks_of_spoken {ts : List Token} (h : ∀ t ∈ ts, t.Avoids e bad)
    (hws : (Phrase.sequence (ts.map (Grammar.phraseOf e))).Spoken ws) : ∀ w ∈ ws, Lacks bad w := by
  intro w hw
  obtain ⟨p, hp, us, hus, hw⟩ := hws.mem_sequence hw
  obtain ⟨t, ht, rfl⟩ := List.mem_map.1 hp
  exact (h t ht).of_spoken hus w hw

/-- None of the words is in their items. -/
theorem not_mem_spacedItems {r : List Char} (h : ∀ w ∈ ws, Lacks bad w)
    (hr : .run r ∈ Text.spacedItems ws) : ¬ bad r := by
  obtain ⟨w, hw, hr⟩ := List.mem_flatMap.1 hr
  rcases List.mem_cons.1 hr with hr | hr
  · cases hr
  · exact h w hw r hr

end Template

end Phraseology
