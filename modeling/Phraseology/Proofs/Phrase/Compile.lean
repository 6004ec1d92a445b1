import Phraseology.Proofs.Phrase.Accepts
import Phraseology.Proofs.Phrase.Spoken

/-! A text that the pattern of a phrase accepts is made of words that the phrase can be spoken
with. -/
namespace Phraseology

open Text

/-- Nothing in the phrase has to be repeated more often than it may be. -/
inductive Phrase.Bounded : Phrase → Prop where
  | text (s : String) : Bounded (.text s)
  | choice {alternatives : List Phrase} (each : ∀ p ∈ alternatives, Bounded p) :
      Bounded (.choice alternatives)
  | sequence {parts : List Phrase} (each : ∀ p ∈ parts, Bounded p) : Bounded (.sequence parts)
  | repeated {body : Phrase} {min max : Nat} (bounded : Bounded body) (le : min ≤ max) :
      Bounded (.repeated body min max)
  | element {kind : ElementKind} {body : Phrase} (bounded : Bounded body) :
      Bounded (.element kind body)

namespace Pattern

variable {ph : Phrase} {phs : List Phrase} {p q : Pattern} {ps qs : List Pattern}
  {ws : List (List Char)}

theorem mem_ofSome_iff : q ∈ ofSome phs ↔ ∃ ph ∈ phs, ofPhrase? ph = some q := by
  induction phs with
  | nil => simp [ofSome]
  | cons ph phs ih => simp [ofSome, ih]

theorem ofAll?_eq_some_iff :
    ofAll? phs = some qs ↔ List.Forall₂ (fun ph q => ofPhrase? ph = some q) phs qs := by
  induction phs generalizing qs with
  | nil => simp [ofAll?, eq_comm]
  | cons ph phs ih =>
    rw [List.forall₂_cons_left_iff]
    simp only [← ih, ofAll?, Option.bind_eq_bind, Option.bind_eq_some_iff, Option.pure_def,
      Option.some.injEq]
    constructor
    · rintro ⟨q, hq, qs, hqs, rfl⟩
      exact ⟨q, qs, hq, hqs, rfl⟩
    · rintro ⟨q, qs, hq, hqs, rfl⟩
      exact ⟨q, hq, qs, hqs, rfl⟩

theorem exists_of_mem_ofAll? (hqs : ofAll? phs = some qs) (hq : q ∈ qs) :
    ∃ ph ∈ phs, ofPhrase? ph = some q := by
  rw [ofAll?_eq_some_iff] at hqs
  induction hqs with
  | nil => cases hq
  | @cons ph p phs ps hp hps ih =>
    rcases List.mem_cons.1 hq with rfl | hq
    · exact ⟨ph, List.mem_cons_self, hp⟩
    · obtain ⟨ph', hph', hq⟩ := ih hq
      exact ⟨ph', List.mem_cons_of_mem ph hph', hq⟩

theorem Spells.eq_words {s : String} (h : (ofText s).Spells ws) : ws = wordChars s.toList := by
  rw [ofText] at h
  generalize wordChars s.toList = us at h
  induction us generalizing ws with
  | nil =>
    cases h
    rfl
  | cons u us ih =>
    cases h with
    | cons first others =>
      cases first
      rw [ih others]
      rfl

theorem eq_of_isEmpty (h : p.isEmpty = true) : p = .spaced [] := by
  unfold isEmpty at h
  split at h
  · rfl
  · cases h

/-- Parts that add nothing can be put back. -/
theorem Spells.of_parts (h : (ofParts ps).Spells ws) : (Pattern.spaced ps).Spells ws := by
  induction ps generalizing ws with
  | nil => exact h
  | cons p ps ih =>
    rw [ofParts] at h
    by_cases hp : p.isEmpty = true
    · rw [List.filter_cons_of_neg (by simpa using hp)] at h
      obtain rfl := eq_of_isEmpty hp
      exact .cons .nil (ih h)
    · rw [List.filter_cons_of_pos (by simpa using hp)] at h
      cases h with
      | cons first others => exact .cons first (ih others)

theorem eq_of_ofAlternatives? (h : ofAlternatives? ps = some q) : q = .choice ps := by
  unfold ofAlternatives? at h
  split at h
  · cases h
  · exact (Option.some.inj h).symm

/-- A repetition spells copies of what is repeated, if only of nothing. -/
theorem Spells.of_repeated {body : Option Pattern} {min max : Nat} (hle : min ≤ max)
    (hq : ofRepeated? body min max = some q) (h : q.Spells ws) :
    ∃ wss : List (List (List Char)), ws = wss.flatten ∧ min ≤ wss.length ∧ wss.length ≤ max ∧
      ∀ us ∈ wss, ∃ p ∈ body, p.Spells us := by
  cases body with
  | none =>
    simp only [ofRepeated?] at hq
    split_ifs at hq with hmin
    obtain rfl := Option.some.inj hq
    cases h
    exact ⟨[], rfl, by simp [hmin], by simp, by simp⟩
  | some p =>
    simp only [ofRepeated?] at hq
    split_ifs at hq with hp
    · obtain rfl := Option.some.inj hq
      cases h
      obtain rfl := eq_of_isEmpty hp
      refine ⟨List.replicate min [], by simp, by simp, by simpa using hle, fun us hus => ?_⟩
      rw [List.eq_of_mem_replicate hus]
      exact ⟨_, rfl, .nil⟩
    · obtain rfl := Option.some.inj hq
      cases h with
      | repeated wss copies lower upper =>
        exact ⟨wss, rfl, lower, by omega, fun us hus => ⟨p, rfl, copies us hus⟩⟩

/-- The words of a pattern are those of a phrase. -/
def SpokenAs (ph : Phrase) (ws : List (List Char)) : Prop :=
  ∃ vs, ph.Spoken vs ∧ vs.map String.toList = ws

theorem SpokenAs.repeated {body : Phrase} {min max : Nat} (wss : List (List (List Char)))
    (hwss : ∀ us ∈ wss, SpokenAs body us) (hmin : min ≤ wss.length) (hmax : wss.length ≤ max) :
    SpokenAs (.repeated body min max) wss.flatten := by
  obtain ⟨vss, hvss, rfl⟩ : ∃ vss : List (List String), (∀ vs ∈ vss, body.Spoken vs) ∧
      vss.map (List.map String.toList) = wss := by
    clear hmin hmax
    induction wss with
    | nil => exact ⟨[], by simp, rfl⟩
    | cons us wss ih =>
      obtain ⟨vs, hvs, hmap⟩ := hwss us (by simp)
      obtain ⟨vss, hvss, rfl⟩ := ih fun us hus => hwss us (List.mem_cons_of_mem _ hus)
      exact ⟨vs :: vss, List.forall_mem_cons.2 ⟨hvs, hvss⟩, by rw [List.map_cons, hmap]⟩
  refine ⟨vss.flatten, .repeated vss hvss (by simpa using hmin) (by simpa using hmax), ?_⟩
  rw [List.map_flatten]

theorem SpokenAs.sequence
    (hphs : ∀ ph ∈ phs, ∀ {q ws}, ofPhrase? ph = some q → q.Spells ws → SpokenAs ph ws)
    (hqs : ofAll? phs = some qs) (h : (Pattern.spaced qs).Spells ws) :
    SpokenAs (.sequence phs) ws := by
  rw [ofAll?_eq_some_iff] at hqs
  induction hqs generalizing ws with
  | nil =>
    cases h
    exact ⟨[], .nil, rfl⟩
  | cons hq hqs ih =>
    obtain ⟨hfirst, hothers⟩ := List.forall_mem_cons.1 hphs
    cases h with
    | cons first others =>
      obtain ⟨us, hus, rfl⟩ := hfirst hq first
      obtain ⟨vs, hvs, rfl⟩ := ih hothers others
      exact ⟨us ++ vs, .cons hus hvs, List.map_append⟩

/-- Words that the pattern of a phrase spells are words that the phrase can be spoken with. -/
theorem spoken_of_spells (hb : ph.Bounded) (hq : ofPhrase? ph = some q) (h : q.Spells ws) :
    SpokenAs ph ws := by
  induction hb generalizing q ws with
  | text s =>
    obtain rfl := Option.some.inj hq
    rw [h.eq_words]
    exact ⟨words s, .text s, map_toList_words s⟩
  | choice each ih =>
    obtain rfl := eq_of_ofAlternatives? hq
    cases h with
    | choice mem spells =>
      obtain ⟨ph, hph, hp⟩ := mem_ofSome_iff.1 mem
      obtain ⟨vs, hvs, hws⟩ := ih ph hph hp spells
      exact ⟨vs, .choice hph hvs, hws⟩
  | sequence each ih =>
    obtain ⟨qs, hqs, rfl⟩ := Option.map_eq_some_iff.1 hq
    exact .sequence ih hqs h.of_parts
  | repeated bounded le ih =>
    obtain ⟨wss, rfl, hmin, hmax, hwss⟩ := h.of_repeated le hq
    refine .repeated wss (fun us hus => ?_) hmin hmax
    obtain ⟨p, hp, hpus⟩ := hwss us hus
    exact ih hp hpus
  | element bounded ih =>
    obtain ⟨vs, hvs, hws⟩ := ih hq h
    exact ⟨vs, .element hvs, hws⟩

/-- There is something to choose from, no part adds nothing, and nothing has to be repeated more
often than it may be. -/
inductive Proper : Pattern → Prop where
  | word {w : List Char} (ne_nil : w ≠ []) : Proper (.word w)
  | spaced {parts : List Pattern} (each : ∀ p ∈ parts, Proper p)
      (kept : ∀ p ∈ parts, p.isEmpty = false) : Proper (.spaced parts)
  | choice {alternatives : List Pattern} (ne_nil : alternatives ≠ [])
      (each : ∀ p ∈ alternatives, Proper p) : Proper (.choice alternatives)
  | repeated {body : Pattern} {min max : Nat} (proper : Proper body) (le : min ≤ max) :
      Proper (.repeated body min max)

theorem proper_ofText (s : String) : (ofText s).Proper := by
  refine .spaced (fun p hp => ?_) fun p hp => ?_
  · obtain ⟨w, hw, rfl⟩ := List.mem_map.1 hp
    exact .word (unbroken_of_mem_wordChars hw).ne_nil
  · obtain ⟨w, -, rfl⟩ := List.mem_map.1 hp
    rfl

theorem proper_of_ofRepeated? {body : Option Pattern} {min max : Nat} (hle : min ≤ max)
    (hbody : ∀ p ∈ body, p.Proper) (hq : ofRepeated? body min max = some q) : q.Proper := by
  have hnothing : (Pattern.spaced []).Proper := .spaced (by simp) (by simp)
  cases body with
  | none =>
    simp only [ofRepeated?] at hq
    split_ifs at hq
    obtain rfl := Option.some.inj hq
    exact hnothing
  | some p =>
    simp only [ofRepeated?] at hq
    split_ifs at hq
    · obtain rfl := Option.some.inj hq
      exact hnothing
    · obtain rfl := Option.some.inj hq
      exact .repeated (hbody p rfl) hle

theorem proper_of_ofPhrase? (hb : ph.Bounded) (hq : ofPhrase? ph = some q) : q.Proper := by
  induction hb generalizing q with
  | text s =>
    obtain rfl := Option.some.inj hq
    exact proper_ofText s
  | choice each ih =>
    obtain rfl := eq_of_ofAlternatives? hq
    refine .choice (fun hnil => ?_) fun p hp => ?_
    · rw [ofPhrase?, hnil] at hq
      cases hq
    · obtain ⟨ph, hph, hp⟩ := mem_ofSome_iff.1 hp
      exact ih ph hph hp
  | sequence each ih =>
    obtain ⟨qs, hqs, rfl⟩ := Option.map_eq_some_iff.1 hq
    refine .spaced (fun p hp => ?_) fun p hp => by simpa using List.of_mem_filter hp
    obtain ⟨ph, hph, hp⟩ := exists_of_mem_ofAll? hqs (List.mem_of_mem_filter hp)
    exact ih ph hph hp
  | repeated bounded le ih => exact proper_of_ofRepeated? le (fun p hp => ih hp) hq
  | element bounded ih => exact ih hq

end Pattern

end Phraseology
