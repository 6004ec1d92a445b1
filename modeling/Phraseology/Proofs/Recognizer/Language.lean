import Phraseology.Proofs.Phrase.Language
import Phraseology.Proofs.Phrase.Limits
import Phraseology.Proofs.Recognizer
import Phraseology.Proofs.Regex.Language

/-! Which texts a recognizer finds a grammar for: those that the phrase of a grammar can be spoken
in, if the patterns can be counted. -/
namespace Phraseology

open Text

/-- A grammar accepts the texts that its phrase can be spoken in. -/
theorem Grammar.accepts_iff {g : Grammar} (hb : g.phrase.Bounded) {text : String} :
    g.accepts text = true ↔ g.phrase.SpokenIn text := by
  rw [accepts, Option.any_eq_true]
  constructor
  · rintro ⟨p, hp, h⟩
    exact (Pattern.accepts_iff_spokenIn hb hp).1 h
  · intro h
    obtain ⟨vs, hvs, -⟩ := id h
    obtain ⟨p, hp, -⟩ := Pattern.exists_spells hvs
    exact ⟨p, hp, (Pattern.accepts_iff_spokenIn hb hp).2 h⟩

namespace Recognizer

variable {grammars : List Grammar} {g : Grammar} {r : Recognizer} {p : Pattern}

/-- A recognizer can be made if the patterns of all grammars stay within the limits. -/
theorem exists_make_iff (hb : ∀ g ∈ grammars, g.phrase.Bounded) :
    (∃ r, make grammars = .ok r) ↔ ∀ g ∈ grammars, ∀ p ∈ g.pattern?, p.WithinLimits := by
  have hmade : (∃ r, make grammars = .ok r) ↔
      ∀ q ∈ grammars.filterMap fun g => g.pattern?.map fun p => (g.name, p), q.2.flaw? = none := by
    rw [← List.findSome?_eq_none_iff]
    simp only [make]
    split
    · rename_i flaw hflaw
      refine iff_of_false ?_ (by simp [hflaw])
      rintro ⟨r, h⟩
      cases h
    · rename_i hnone
      exact iff_of_true ⟨_, rfl⟩ hnone
  rw [hmade]
  constructor
  · intro h g hg p hp
    refine (Pattern.flaw?_eq_none_iff_withinLimits (hb g hg) hp).1 (h (g.name, p) ?_)
    exact List.mem_filterMap.2 ⟨g, hg, by rw [hp]; rfl⟩
  · intro h q hq
    obtain ⟨g, hg, hq⟩ := List.mem_filterMap.1 hq
    obtain ⟨p, hp, rfl⟩ := Option.map_eq_some_iff.1 hq
    exact (Pattern.flaw?_eq_none_iff_withinLimits (hb g hg) hp).2 (h g hg p hp)

theorem find?_eq_some_iff (hb : ∀ g ∈ grammars, g.phrase.Bounded) (h : make grammars = .ok r)
    {text name : String} :
    r.find? text = some name ↔ ∃ before g after, grammars = before ++ g :: after ∧
      g.name = name ∧ g.phrase.SpokenIn text ∧ ∀ g' ∈ before, ¬ g'.phrase.SpokenIn text := by
  rw [find?_eq h, Option.map_eq_some_iff]
  constructor
  · rintro ⟨g, hg, hname⟩
    obtain ⟨haccepts, before, after, rfl, hbefore⟩ := List.find?_eq_some_iff_append.1 hg
    obtain ⟨hbs, hbg⟩ := List.forall_mem_append.1 hb
    refine ⟨before, g, after, rfl, hname, (Grammar.accepts_iff (hbg g (by simp))).1 haccepts, ?_⟩
    intro g' hg' hspoken
    have hnot := hbefore g' hg'
    rw [(Grammar.accepts_iff (hbs g' hg')).2 hspoken] at hnot
    cases hnot
  · rintro ⟨before, g, after, rfl, hname, hspoken, hbefore⟩
    obtain ⟨hbs, hbg⟩ := List.forall_mem_append.1 hb
    refine ⟨g, List.find?_eq_some_iff_append.2 ⟨?_, before, after, rfl, fun g' hg' => ?_⟩, hname⟩
    · exact (Grammar.accepts_iff (hbg g (by simp))).2 hspoken
    · have hnot : g'.accepts text ≠ true :=
        mt (Grammar.accepts_iff (hbs g' hg')).1 (hbefore g' hg')
      rw [Bool.eq_false_iff.2 hnot, Bool.not_false]

/-- A grammar has a pattern if there are words for it, and what the pattern is written as is found
in the texts that the phrase is spoken in. A recognizer can be made if the patterns stay within the
limits. Then what it finds is the first grammar whose phrase the text is spoken in. -/
theorem language (hb : ∀ g ∈ grammars, g.phrase.Bounded) :
    (∀ g ∈ grammars, g.pattern? = none ↔ ∀ ws, ¬ g.phrase.Spoken ws) ∧
      (∀ g ∈ grammars, ∀ p ∈ g.pattern?, ∀ text,
        Regex.Accepts p.renderWhole text ↔ g.phrase.SpokenIn text) ∧
      ((∃ r, make grammars = .ok r) ↔ ∀ g ∈ grammars, ∀ p ∈ g.pattern?, p.WithinLimits) ∧
        ∀ r, make grammars = .ok r → ∀ text name, r.find? text = some name ↔
          ∃ before g after, grammars = before ++ g :: after ∧ g.name = name ∧
            g.phrase.SpokenIn text ∧ ∀ g' ∈ before, ¬ g'.phrase.SpokenIn text := by
  refine ⟨fun g hg => Pattern.ofPhrase?_eq_none_iff (hb g hg), ?_, exists_make_iff hb, ?_⟩
  · intro g hg p hp text
    exact Pattern.renderWhole_accepts_iff (hb g hg) hp
  · intro r hr text name
    exact find?_eq_some_iff hb hr

/-- A word that may be said twice, and one of two words. -/
def sayAgain : Grammar where
  name := "AGS0"
  category := .status
  locale := "en-US"
  phrase := .sequence [.repeated (.text "say") 1 2, .oneOf ["again", "position"]]

def uncountable : Grammar where
  name := "AGS0"
  category := .status
  locale := "en-US"
  phrase := .repeated (.text "a") 0 (2 ^ 32)

theorem language_sayAgain :
    (∀ g ∈ [sayAgain], g.phrase.Bounded) ∧
      ∃ r, make [sayAgain] = .ok r ∧ r.find? " Say SAYagain" = some "AGS0" := by
  have hsay : (Phrase.text "say").Spoken ["say"] := .text "say"
  have hsays : (Phrase.repeated (.text "say") 1 2).Spoken ["say", "say"] :=
    .repeated [["say"], ["say"]] (by simpa using hsay) (by decide) (by decide)
  have hagain : (Phrase.oneOf ["again", "position"]).Spoken ["again"] :=
    .choice (List.mem_cons_self) (.text "again")
  have hspace : ∀ c ∈ [' '], isBlank c = true := List.forall_mem_singleton.2 (by decide)
  have hb : ∀ g ∈ [sayAgain], g.phrase.Bounded := by
    intro g hg
    obtain rfl := List.mem_singleton.1 hg
    refine .sequence (List.forall_mem_cons.2 ⟨.repeated (.text "say") (by decide), ?_⟩)
    exact List.forall_mem_singleton.2 (Elements.bounded_oneOf _)
  have hwithin : ∀ g ∈ [sayAgain], ∀ p ∈ g.pattern?, p.WithinLimits := by
    intro g hg p hp
    obtain rfl := List.mem_singleton.1 hg
    obtain rfl := Option.some.inj hp
    exact Pattern.withinLimits_of_boundFits (by decide +kernel) (by decide +kernel)
  obtain ⟨-, -, hmake, hfind⟩ := language hb
  obtain ⟨r, hr⟩ := hmake.2 hwithin
  refine ⟨hb, r, hr, (hfind r hr " Say SAYagain" "AGS0").2 ⟨[], sayAgain, [], rfl, rfl, ?_, ?_⟩⟩
  · refine ⟨_, .cons hsays (.cons hagain .nil), [' '], _, rfl, hspace, ?_⟩
    refine .cons (v := "Say".toList) (by decide +kernel) hspace ?_
    refine .cons (v := "SAY".toList) (by decide +kernel) (List.forall_mem_nil _) ?_
    exact .cons (v := "again".toList) (by decide +kernel) (List.forall_mem_nil _) .nil
  · simp

theorem make_uncountable :
    uncountable.phrase.Bounded ∧ uncountable.phrase.SpokenIn "a" ∧
      ∀ r, make [uncountable] ≠ .ok r := by
  have ha : (Phrase.text "a").Spoken ["a"] := .text "a"
  have hspoken : uncountable.phrase.Spoken ["a"] :=
    .repeated [["a"]] (by simpa using ha) (by decide) (by decide)
  have hb : uncountable.phrase.Bounded := .repeated (.text "a") (Nat.zero_le _)
  refine ⟨hb, ⟨_, hspoken, Laid.spread ?_⟩, ?_⟩
  · exact .cons (v := ['a']) (by decide +kernel) (List.forall_mem_nil _) .nil
  · intro r hr
    have hwithin := (exists_make_iff (List.forall_mem_singleton.2 hb)).1 ⟨r, hr⟩ uncountable
      (List.mem_singleton_self _) _ rfl
    exact absurd (hwithin.counts (0, 2 ^ 32) (by decide)) (by decide)

end Recognizer

end Phraseology
