import Phraseology.Proofs.Phrase.Compile
import Phraseology.Proofs.Phrase.Reach

/-! The language of a phrase: its pattern accepts the texts that the phrase can be spoken in, and no
others. -/
namespace Phraseology

open Text

/-- The text is made of words that the phrase can be spoken with, up to case, and of any blanks
before, between and behind them. -/
def Phrase.SpokenIn (ph : Phrase) (text : String) : Prop :=
  ∃ ws, ph.Spoken ws ∧ Spread (ws.map String.toList) text.toList

namespace Pattern

variable {ph : Phrase} {p q : Pattern} {ps : List Pattern} {vs : List String}
  {ws : List (List Char)} {min max : Nat} {text : String}

theorem spells_ofText (s : String) : (ofText s).Spells (wordChars s.toList) := by
  rw [ofText]
  induction wordChars s.toList with
  | nil => exact .nil
  | cons w ws ih => exact .cons (.word w) ih

/-- Parts that add nothing need not be spelled. -/
theorem Spells.parts (h : (Pattern.spaced ps).Spells ws) : (ofParts ps).Spells ws := by
  induction ps generalizing ws with
  | nil => exact h
  | cons p ps ih =>
    cases h with
    | cons first others =>
      rw [ofParts]
      by_cases hp : p.isEmpty = true
      · obtain rfl := eq_of_isEmpty hp
        cases first
        rw [List.filter_cons_of_neg (by simpa using hp)]
        exact ih others
      · rw [List.filter_cons_of_pos (by simpa using hp)]
        exact .cons first (ih others)

theorem ofAlternatives?_of_mem (h : p ∈ ps) : ofAlternatives? ps = some (.choice ps) := by
  cases ps with
  | nil => cases h
  | cons q ps => rfl

/-- Copies of what is repeated are spelled by the repetition, if that is kept. -/
theorem exists_spells_repeated {body : Option Pattern} (wss : List (List (List Char)))
    (hwss : ∀ us ∈ wss, ∃ p ∈ body, p.Spells us) (hmin : min ≤ wss.length)
    (hmax : wss.length ≤ max) :
    ∃ q, ofRepeated? body min max = some q ∧ q.Spells wss.flatten := by
  cases body with
  | none =>
    obtain rfl : wss = [] := by
      refine List.eq_nil_iff_forall_not_mem.2 fun us hus => ?_
      obtain ⟨p, hp, -⟩ := hwss us hus
      cases hp
    obtain rfl : min = 0 := by simpa using hmin
    exact ⟨_, rfl, .nil⟩
  | some p =>
    have hp : ∀ us ∈ wss, p.Spells us := by
      intro us hus
      obtain ⟨p', hp', h⟩ := hwss us hus
      rwa [Option.some.inj hp']
    rw [ofRepeated?]
    split_ifs with hempty
    · have hnil : wss.flatten = [] := by
        obtain rfl := eq_of_isEmpty hempty
        refine List.flatten_eq_nil_iff.2 fun us hus => ?_
        cases hp us hus
        rfl
      exact ⟨_, rfl, hnil ▸ .nil⟩
    · exact ⟨_, rfl, .repeated wss hp hmin (by omega)⟩

/-- Words that a phrase can be spoken with are spelled by its pattern. -/
theorem exists_spells (h : ph.Spoken vs) :
    ∃ q, ofPhrase? ph = some q ∧ q.Spells (vs.map String.toList) := by
  induction h with
  | text s => exact ⟨ofText s, rfl, map_toList_words s ▸ spells_ofText s⟩
  | choice mem uttered ih =>
    obtain ⟨q, hq, hspells⟩ := ih
    have hmem := mem_ofSome_iff.2 ⟨_, mem, hq⟩
    exact ⟨_, ofAlternatives?_of_mem hmem, .choice hmem hspells⟩
  | nil => exact ⟨_, rfl, .nil⟩
  | cons first others ih₁ ih₂ =>
    obtain ⟨q, hq, hfirst⟩ := ih₁
    obtain ⟨_, hothers, hspells⟩ := ih₂
    obtain ⟨qs, hqs, rfl⟩ := Option.map_eq_some_iff.1 hothers
    refine ⟨ofParts (q :: qs), by rw [ofPhrase?, ofAll?, hq, hqs]; rfl, ?_⟩
    rw [List.map_append]
    exact Spells.parts (.cons hfirst hspells.of_parts)
  | repeated wss copies lower upper ih =>
    rw [List.map_flatten]
    refine exists_spells_repeated _ (fun us hus => ?_) (by simpa using lower) (by simpa using upper)
    obtain ⟨ws, hws, rfl⟩ := List.mem_map.1 hus
    exact ih ws hws
  | element uttered ih => exact ih

theorem exists_spoken_sequence {phs : List Phrase}
    (hphs : ∀ ph ∈ phs, ∀ {q}, ofPhrase? ph = some q → ∃ vs, ph.Spoken vs)
    (hps : ofAll? phs = some ps) : ∃ vs, (Phrase.sequence phs).Spoken vs := by
  rw [ofAll?_eq_some_iff] at hps
  induction hps with
  | nil => exact ⟨[], .nil⟩
  | cons hp hps ih =>
    obtain ⟨hfirst, hothers⟩ := List.forall_mem_cons.1 hphs
    obtain ⟨us, hus⟩ := hfirst hp
    obtain ⟨vs, hvs⟩ := ih hothers
    exact ⟨us ++ vs, .cons hus hvs⟩

/-- A phrase that has a pattern can be spoken. -/
theorem exists_spoken (hb : ph.Bounded) (hq : ofPhrase? ph = some q) : ∃ vs, ph.Spoken vs := by
  induction hb generalizing q with
  | text s => exact ⟨words s, .text s⟩
  | @choice alternatives each ih =>
    obtain ⟨p, hp⟩ : ∃ p, p ∈ ofSome alternatives := by
      refine List.exists_mem_of_ne_nil _ fun hnil => ?_
      rw [ofPhrase?, hnil] at hq
      cases hq
    obtain ⟨ph, hph, hp⟩ := mem_ofSome_iff.1 hp
    obtain ⟨vs, hvs⟩ := ih ph hph hp
    exact ⟨vs, .choice hph hvs⟩
  | sequence each ih =>
    obtain ⟨ps, hps, -⟩ := Option.map_eq_some_iff.1 hq
    exact exists_spoken_sequence ih hps
  | @repeated body min max bounded le ih =>
    by_cases hmin : min = 0
    · exact ⟨_, .repeated [] (by simp) (by simp [hmin]) (by simp)⟩
    · obtain ⟨p, hp⟩ : ∃ p, ofPhrase? body = some p := by
        refine Option.ne_none_iff_exists'.1 fun hnone => ?_
        rw [ofPhrase?, hnone, ofRepeated?, if_neg hmin] at hq
        cases hq
      obtain ⟨vs, hvs⟩ := ih hp
      refine ⟨_, .repeated (List.replicate min vs) (fun ws hws => ?_) (by simp) (by simpa)⟩
      rw [List.eq_of_mem_replicate hws]
      exact hvs
  | element bounded ih =>
    obtain ⟨vs, hvs⟩ := ih hq
    exact ⟨vs, .element hvs⟩

theorem ofPhrase?_eq_none_iff (hb : ph.Bounded) : ofPhrase? ph = none ↔ ∀ vs, ¬ ph.Spoken vs := by
  constructor
  · intro h vs hvs
    obtain ⟨q, hq, -⟩ := exists_spells hvs
    rw [h] at hq
    cases hq
  · intro h
    by_contra hne
    obtain ⟨q, hq⟩ := Option.ne_none_iff_exists'.1 hne
    obtain ⟨vs, hvs⟩ := exists_spoken hb hq
    exact h vs hvs

theorem spells_of_spoken (hq : ofPhrase? ph = some q) (h : ph.Spoken vs) :
    q.Spells (vs.map String.toList) := by
  obtain ⟨q', hq', hspells⟩ := exists_spells h
  obtain rfl : q' = q := Option.some.inj (hq'.symm.trans hq)
  exact hspells

/-- The words of the pattern are those that the phrase can be spoken with. -/
theorem exists_spread_iff_spokenIn (hb : ph.Bounded) (hq : ofPhrase? ph = some q) :
    (∃ ws, q.Spells ws ∧ Spread ws text.toList) ↔ ph.SpokenIn text := by
  constructor
  · rintro ⟨ws, hws, hspread⟩
    obtain ⟨vs, hvs, rfl⟩ := spoken_of_spells hb hq hws
    exact ⟨vs, hvs, hspread⟩
  · rintro ⟨vs, hvs, hspread⟩
    exact ⟨_, spells_of_spoken hq hvs, hspread⟩

theorem accepts_iff_spokenIn (hb : ph.Bounded) (hq : ofPhrase? ph = some q) :
    q.accepts text = true ↔ ph.SpokenIn text := by
  constructor
  · intro h
    exact (exists_spread_iff_spokenIn hb hq).1 (exists_spread_of_accepts h)
  · rintro ⟨vs, hvs, hspread⟩
    refine accepts_of_spread (spells_of_spoken hq hvs) (fun w hw => ?_) hspread
    obtain ⟨v, hv, rfl⟩ := List.mem_map.1 hw
    exact hvs.unbroken v hv

end Pattern

end Phraseology
