import Phraseology.Proofs.Elements
import Phraseology.Proofs.Phrase.Apart
import Phraseology.Recognizer

/-! The grammar through which a text is recognized, and where its elements stand in the text. -/
namespace Phraseology

open Text

def Grammar.accepts (g : Grammar) (x : String) : Bool := g.pattern?.any (·.accepts x)

def GrammarSet.recognizing? (s : GrammarSet) (x : String) : Option Grammar :=
  s.grammars.find? (·.accepts x)

/-- The name of the first grammar that accepts the text is what a recognizer reports. -/
theorem Recognizer.find?_eq {grammars : List Grammar} {r : Recognizer} (h : make grammars = .ok r)
    (x : String) : r.find? x = (grammars.find? (·.accepts x)).map Grammar.name := by
  obtain rfl : r = ⟨grammars.filterMap fun g => g.pattern?.map fun p => (g.name, p)⟩ := by
    simp only [make] at h
    split at h
    · cases h
    · exact (Except.ok.inj h).symm
  clear h
  induction grammars with
  | nil => rfl
  | cons g grammars ih =>
    rw [find?] at ih ⊢
    cases hp : g.pattern? with
    | none =>
      have hnot : g.accepts x = false := by simp [Grammar.accepts, hp]
      rw [List.filterMap_cons_none (by simp [hp]), List.find?_cons, hnot]
      exact ih
    | some p =>
      have haccepts : g.accepts x = p.accepts x := by simp [Grammar.accepts, hp]
      rw [List.filterMap_cons_some (by rw [hp]; rfl), List.find?_cons, List.find?_cons, haccepts]
      cases p.accepts x with
      | true => rfl
      | false => exact ih

/-- The first three letters of a grammar's name are the code of its category. -/
theorem Category.ofGrammarName_nameOf {c : Category} (hc : c ∈ commands) (index : Nat) :
    ofGrammarName (Grammar.nameOf c index) = c := by
  have hcodes : ∀ c ∈ commands, (c.code?.getD "INV").toList.length = 3 ∧
      ofGrammarName (c.code?.getD "INV") = c := by decide +kernel
  obtain ⟨hlength, hname⟩ := hcodes c hc
  calc ofGrammarName (Grammar.nameOf c index)
      = ofGrammarName (c.code?.getD "INV") := by
        rw [ofGrammarName, ofGrammarName, Grammar.nameOf, String.toList_append, ← hlength,
          List.take_left, List.take_length]
    _ = c := hname

variable {l : Lexicon} {s : Source} {c : Config} {e : Elements} {locale x : String}
  {rules : RuleSet} {g : Grammar}

theorem Elements.Built.bounded_compile (helements : e.Built l s c) (cat : Category)
    (template : String) (index : Nat) :
    (Grammar.compile e locale cat template index).phrase.Bounded := by
  refine .sequence fun p hp => ?_
  obtain ⟨t, -, rfl⟩ := List.mem_map.1 hp
  cases t with
  | literal text => exact .text text
  | element kind => exact .element (helements.bounded kind)
  | choice alternatives => exact Elements.bounded_oneOf alternatives
  | optional text => exact .repeated (.text text) (Nat.zero_le 1)

theorem Elements.Built.shallow_compile (helements : e.Built l s c) (cat : Category)
    (template : String) (index : Nat) :
    (Grammar.compile e locale cat template index).phrase.Shallow 2 := by
  refine .sequence fun p hp => ?_
  obtain ⟨t, -, rfl⟩ := List.mem_map.1 hp
  cases t with
  | literal text => exact .text text
  | element kind => exact .element (helements.shallow kind)
  | choice alternatives => exact Phrase.shallow_oneOf 1 alternatives
  | optional text => exact .repeated (.text text)

namespace GrammarSet

theorem mem_compile (h : g ∈ (compile e locale rules).grammars) :
    ∃ c ∈ Category.commands, ∃ template index, g = Grammar.compile e locale c template index := by
  obtain ⟨c, hc, h⟩ := List.mem_flatMap.1 h
  obtain ⟨index, hindex, rfl⟩ := List.mem_mapIdx.1 h
  exact ⟨c, hc, _, index, rfl⟩

theorem recognizing?_mem {s : GrammarSet} (h : s.recognizing? x = some g) : g ∈ s.grammars :=
  List.mem_of_find?_eq_some h

end GrammarSet

end Phraseology
