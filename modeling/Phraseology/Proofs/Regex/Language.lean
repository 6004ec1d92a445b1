import Phraseology.Proofs.Phrase.Language
import Phraseology.Proofs.Phrase.Written
import Phraseology.Proofs.Regex.Matching

/-! Where the written form of a pattern is found: in texts that are made of words that the pattern
spells. -/
namespace Phraseology

open Text

namespace Regex

variable {r : Regex} {rs ss : List Regex} {b s u v a : List Char} {n : Nat}

theorem Matches.append (hu : Matches (.sequence rs) b u (v ++ a))
    (hv : Matches (.sequence ss) (b ++ u) v a) : Matches (.sequence (rs ++ ss)) b (u ++ v) a := by
  induction rs generalizing b u with
  | nil =>
    cases hu
    simpa using hv
  | cons r rs ih =>
    cases hu with
    | cons first others =>
      rw [List.append_assoc]
      exact .cons (by simpa using first) (ih others (by simpa using hv))

theorem Matches.of_append (h : Matches (.sequence (rs ++ ss)) b s a) :
    ∃ u v, s = u ++ v ∧ Matches (.sequence rs) b u (v ++ a) ∧
      Matches (.sequence ss) (b ++ u) v a := by
  induction rs generalizing b s with
  | nil => exact ⟨[], s, rfl, .nil b (s ++ a), by simpa using h⟩
  | cons r rs ih =>
    cases h with
    | @cons _ _ _ t _ _ first others =>
      obtain ⟨u, v, rfl, hu, hv⟩ := ih others
      refine ⟨t ++ u, v, by simp, ?_, by simpa using hv⟩
      exact .cons (by simpa using first) hu

theorem matches_singleton : Matches (.sequence [r]) b u a ↔ Matches r b u a := by
  constructor
  · intro h
    cases h with
    | cons first others =>
      cases others
      simpa using first
  · intro h
    simpa using Matches.cons (v := []) h (.nil (b ++ u) a)

theorem matches_chars {w : List Char} : Matches (.sequence (w.map .char)) b u a ↔ Alike w u := by
  constructor
  · intro h
    induction w generalizing b u with
    | nil =>
      cases h
      exact .refl []
    | cons c w ih =>
      cases h with
      | cons first others =>
        cases first with
        | char same => exact alike_cons_iff.2 ⟨same, ih others⟩
  · intro h
    induction w generalizing b u with
    | nil =>
      obtain rfl := h.eq_nil_iff.1 rfl
      exact .nil b a
    | cons c w ih =>
      cases u with
      | nil => simpa using h.length_eq
      | cons d u =>
        obtain ⟨same, h⟩ := alike_cons_iff.1 h
        exact .cons (u := [d]) (.char same) (ih h)

theorem matches_blanks : Matches (.star .blank) b u a ↔ ∀ c ∈ u, isBlank c = true := by
  constructor
  · intro h
    cases h with
    | star n copies =>
      induction n generalizing b u with
      | zero =>
        cases copies
        simp
      | succ n ih =>
        cases copies with
        | cons first others =>
          cases first with
          | blank white => exact List.forall_mem_cons.2 ⟨white, ih others⟩
  · intro h
    refine .star u.length ?_
    induction u generalizing b with
    | nil => exact .nil b a
    | cons c u ih =>
      obtain ⟨white, h⟩ := List.forall_mem_cons.1 h
      exact .cons (u := [c]) (.blank white) (ih h)

/-- Something and blanks behind it, in a group. -/
theorem matches_copy : Matches (.choice [.sequence (rs ++ [.star .blank])]) b s a ↔
    ∃ u bl, s = u ++ bl ∧ (∀ c ∈ bl, isBlank c = true) ∧ Matches (.sequence rs) b u (bl ++ a) := by
  constructor
  · intro h
    cases h with
    | choice mem one =>
      obtain rfl := List.mem_singleton.1 mem
      obtain ⟨u, bl, rfl, hu, hbl⟩ := one.of_append
      exact ⟨u, bl, rfl, matches_blanks.1 (matches_singleton.1 hbl), hu⟩
  · rintro ⟨u, bl, rfl, hbl, hu⟩
    exact .choice (List.mem_singleton_self _)
      (hu.append (matches_singleton.2 (matches_blanks.2 hbl)))

end Regex

namespace Pattern

open Regex (Matches matches_singleton matches_chars matches_blanks matches_copy)

variable {p body : Pattern} {ps : List Pattern} {ws : List (List Char)}
  {wss : List (List (List Char))} {b s u v a : List Char} {min max n : Nat} {text : String}

/-- The parts of a pattern match the words that it spells. Blanks behind the last word are left
over, since no parts end with blanks. -/
structure Faithful (p : Pattern) : Prop where
  spells : ∀ {b u a}, Matches (.sequence p.parts) b u a → ∃ ws, p.Spells ws ∧ Spread ws u
  matched : ∀ {ws v}, p.Spells ws → Laid ws v → ∃ u bl, v = u ++ bl ∧
    (∀ c ∈ bl, isBlank c = true) ∧ ∀ b a, Matches (.sequence p.parts) b u a

theorem Faithful.word (w : List Char) : Faithful (.word w) where
  spells := by
    intro b u a h
    rw [parts, matches_chars] at h
    have hlaid : Laid [w] u := by simpa using Laid.cons h (List.forall_mem_nil _) .nil
    exact ⟨[w], .word w, hlaid.spread⟩
  matched := by
    intro ws v hws h
    cases hws
    cases h with
    | @cons _ u bl _ _ alike blank rest =>
      cases rest
      refine ⟨u, bl, by simp, blank, fun b a => ?_⟩
      rw [parts]
      exact matches_chars.2 alike

theorem spells_among (h : ∀ p ∈ ps, p.Faithful) (hu : Matches (.sequence (partsAmong ps)) b u a) :
    ∃ ws, (Pattern.spaced ps).Spells ws ∧ Spread ws u := by
  induction ps generalizing b u with
  | nil =>
    cases hu
    exact ⟨[], .nil, Laid.nil.spread⟩
  | cons p ps ih =>
    obtain ⟨hp, hps⟩ := List.forall_mem_cons.1 h
    cases ps with
    | nil =>
      obtain ⟨ws, hws, hspread⟩ := hp.spells hu
      exact ⟨ws ++ [], .cons hws .nil, by simpa using hspread⟩
    | cons q ps =>
      obtain ⟨u, v, rfl, hu, hv⟩ := hu.of_append
      cases hv with
      | cons first others =>
        obtain ⟨us, hus, hu⟩ := hp.spells hu
        obtain ⟨ws, hws, hv⟩ := ih hps others
        exact ⟨us ++ ws, .cons hus hws, hu.append (hv.blanks_append (matches_blanks.1 first))⟩

theorem matched_among (h : ∀ p ∈ ps, p.Faithful) (hws : (Pattern.spaced ps).Spells ws)
    (hv : Laid ws v) : ∃ u bl, v = u ++ bl ∧ (∀ c ∈ bl, isBlank c = true) ∧
      ∀ b a, Matches (.sequence (partsAmong ps)) b u a := by
  induction ps generalizing ws v with
  | nil =>
    cases hws
    cases hv
    exact ⟨[], [], rfl, by simp, .nil⟩
  | cons p ps ih =>
    obtain ⟨hp, hps⟩ := List.forall_mem_cons.1 h
    cases hws with
    | cons first others =>
      obtain ⟨v, w, rfl, hv, hw⟩ := hv.of_append
      obtain ⟨u, bl, rfl, hbl, hu⟩ := hp.matched first hv
      cases ps with
      | nil =>
        cases others
        cases hw
        exact ⟨u, bl, by simp, hbl, hu⟩
      | cons q ps =>
        obtain ⟨u', bl', rfl, hbl', hu'⟩ := ih hps others hw
        refine ⟨u ++ (bl ++ u'), bl', by simp, hbl', fun b a => ?_⟩
        exact (hu b _).append (.cons (matches_blanks.2 hbl) (hu' _ a))

theorem Faithful.spaced (h : ∀ p ∈ ps, p.Faithful) : Faithful (.spaced ps) :=
  ⟨spells_among h, matched_among h⟩

theorem mem_bodies {r : Regex} (hps : ps ≠ []) :
    r ∈ bodies ps ↔ ∃ p ∈ ps, r = .sequence p.parts := by
  induction ps with
  | nil => exact absurd rfl hps
  | cons p ps ih =>
    cases ps with
    | nil => simp [bodies]
    | cons q ps =>
      rw [bodies, List.mem_cons, ih (by simp)]
      · simp
      · simp

theorem Faithful.choice (hps : ps ≠ []) (h : ∀ p ∈ ps, p.Faithful) : Faithful (.choice ps) where
  spells := by
    intro b u a hu
    cases matches_singleton.1 hu with
    | choice mem one =>
      obtain ⟨p, hp, rfl⟩ := (mem_bodies hps).1 mem
      obtain ⟨ws, hws, hspread⟩ := (h p hp).spells one
      exact ⟨ws, .choice hp hws, hspread⟩
  matched := by
    intro ws v hws hv
    cases hws with
    | choice mem spells =>
      obtain ⟨u, bl, hv, hbl, hu⟩ := (h _ mem).matched spells hv
      refine ⟨u, bl, hv, hbl, fun b a => matches_singleton.2 ?_⟩
      exact .choice ((mem_bodies hps).2 ⟨_, mem, rfl⟩) (hu b a)

theorem Faithful.spells_copies (h : body.Faithful)
    (hu : Matches (.sequence (.replicate n (.choice [.sequence (body.parts ++ [.star .blank])])))
      b u a) :
    ∃ wss : List (List (List Char)), wss.length = n ∧ (∀ ws ∈ wss, body.Spells ws) ∧
      Spread wss.flatten u := by
  induction n generalizing b u with
  | zero =>
    cases hu
    exact ⟨[], rfl, by simp, Laid.nil.spread⟩
  | succ n ih =>
    cases hu with
    | cons first others =>
      obtain ⟨u, bl, rfl, hbl, hu⟩ := matches_copy.1 first
      obtain ⟨ws, hws, hu⟩ := h.spells hu
      obtain ⟨wss, rfl, hwss, hv⟩ := ih others
      exact ⟨ws :: wss, rfl, List.forall_mem_cons.2 ⟨hws, hwss⟩, (hu.append_blanks hbl).append hv⟩

theorem Faithful.matched_copies (h : body.Faithful) (hwss : ∀ ws ∈ wss, body.Spells ws)
    (hv : Laid wss.flatten v) :
    Matches (.sequence (.replicate wss.length (.choice [.sequence (body.parts ++ [.star .blank])])))
      b v a := by
  induction wss generalizing b v with
  | nil =>
    cases hv
    exact .nil b a
  | cons ws wss ih =>
    obtain ⟨hws, hwss⟩ := List.forall_mem_cons.1 hwss
    obtain ⟨v, w, rfl, hv, hw⟩ := hv.of_append
    obtain ⟨u, bl, rfl, hbl, hu⟩ := h.matched hws hv
    exact .cons (matches_copy.2 ⟨u, bl, rfl, hbl, hu b _⟩) (ih hwss hw)

theorem Faithful.repeated (h : body.Faithful) (hle : min ≤ max) :
    Faithful (.repeated body min max) where
  spells := by
    intro b u a hu
    rw [parts, matches_singleton] at hu
    cases hu with
    | counted n lower upper copies =>
      obtain ⟨wss, rfl, hwss, hspread⟩ := h.spells_copies copies
      exact ⟨_, .repeated wss hwss lower (by omega), hspread⟩
  matched := by
    intro ws v hws hv
    cases hws with
    | repeated wss copies lower upper =>
      refine ⟨v, [], by simp, by simp, fun b a => ?_⟩
      rw [parts, matches_singleton]
      exact .counted wss.length lower (by omega) (h.matched_copies copies hv)

theorem Proper.faithful (h : p.Proper) : p.Faithful := by
  induction h with
  | @word w ne_nil => exact .word w
  | spaced each kept ih => exact .spaced ih
  | choice ne_nil each ih => exact .choice ne_nil ih
  | repeated proper le ih => exact ih.repeated le

theorem matches_whole_iff : Matches p.whole b s a ↔ b = [] ∧ a = [] ∧
    ∃ bl u bl', s = bl ++ (u ++ bl') ∧ (∀ c ∈ bl, isBlank c = true) ∧
      (∀ c ∈ bl', isBlank c = true) ∧ Matches (.sequence p.parts) bl u bl' := by
  constructor
  · intro h
    cases h with
    | choice mem one =>
      obtain rfl := List.mem_singleton.1 mem
      cases one with
      | cons start others =>
        cases start
        cases others with
        | @cons _ _ _ bl _ _ blanks others =>
          obtain ⟨u, v, rfl, hu, hv⟩ := others.of_append
          cases hv with
          | @cons _ _ _ bl' _ _ blanks' stop =>
            cases matches_singleton.1 stop
            rw [List.append_nil] at hu
            have hbl := matches_blanks.1 blanks
            have hbl' := matches_blanks.1 blanks'
            exact ⟨rfl, rfl, bl, u, bl', by simp, hbl, hbl', by simpa using hu⟩
  · rintro ⟨rfl, rfl, bl, u, bl', rfl, hbl, hbl', hu⟩
    have hstop : Matches (.sequence [.star .blank, .stop]) (bl ++ u) bl' [] := by
      simpa using Matches.cons (v := []) (matches_blanks.2 hbl') (matches_singleton.2 (.stop _))
    have hparts := Matches.append (a := []) (by simpa using hu) hstop
    refine .choice (List.mem_singleton_self _) ?_
    exact .cons (u := []) (.start _) (.cons (matches_blanks.2 hbl) (by simpa using hparts))

theorem foundIn_whole_iff (hp : p.Proper) :
    p.whole.FoundIn s ↔ ∃ ws, p.Spells ws ∧ Spread ws s := by
  constructor
  · rintro ⟨b, u, a, rfl, h⟩
    obtain ⟨rfl, rfl, bl, u, bl', rfl, hbl, hbl', hu⟩ := matches_whole_iff.1 h
    obtain ⟨ws, hws, hspread⟩ := hp.faithful.spells hu
    refine ⟨ws, hws, ?_⟩
    simpa using (hspread.append_blanks hbl').blanks_append hbl
  · rintro ⟨ws, hws, bl, v, rfl, hbl, hv⟩
    obtain ⟨u, bl', rfl, hbl', hu⟩ := hp.faithful.matched hws hv
    refine ⟨[], bl ++ (u ++ bl'), [], by simp, ?_⟩
    exact matches_whole_iff.2 ⟨rfl, rfl, bl, u, bl', rfl, hbl, hbl', hu bl bl'⟩

/-- The written form of the pattern of a phrase, read and searched for as an expression, is found in
the texts that the phrase can be spoken in. -/
theorem renderWhole_accepts_iff {ph : Phrase} (hb : ph.Bounded) (hp : ofPhrase? ph = some p) :
    Regex.Accepts p.renderWhole text ↔ ph.SpokenIn text := by
  rw [← exists_spread_iff_spokenIn hb hp, ← foundIn_whole_iff (proper_of_ofPhrase? hb hp),
    Regex.Accepts, read?_renderWhole]
  simp

end Pattern

end Phraseology
