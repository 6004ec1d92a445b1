import Phraseology.Elements
import Phraseology.Proofs.Catalogue
import Phraseology.Proofs.Phrase.Nesting

/-! What the elements are spoken with. -/
namespace Phraseology

open Phrase (Uttered shallow_oneOf)

def digitWords (ds : List DigitWord) : List String := ds.map DigitWord.word

@[simp] theorem length_digitWords (ds : List DigitWord) : (digitWords ds).length = ds.length :=
  List.length_map _

namespace Elements

variable {l : Lexicon} {s : Source} {c : Config} {e : Elements} {cut : String → List String}
  {ws : List String} {min max : Nat}

section Uttered

variable (hcut : ∀ d ∈ l.digits, cut d.word = [d.word])

include hcut

/-- Digit words that are not cut come one for each digit. -/
theorem uttered_digits_iff : Uttered cut (.repeated (digit l) min max) ws ↔
    ∃ ds, (∀ d ∈ ds, d ∈ l.digits) ∧ ws = digitWords ds ∧ min ≤ ds.length ∧ ds.length ≤ max := by
  constructor
  · intro h
    cases h with
    | repeated wss copies lower upper =>
      obtain ⟨ds, hds, hws, hlength⟩ : ∃ ds : List DigitWord, (∀ d ∈ ds, d ∈ l.digits) ∧
          wss.flatten = digitWords ds ∧ ds.length = wss.length := by
        clear lower upper
        induction wss with
        | nil => exact ⟨[], by simp, rfl, rfl⟩
        | cons us wss ih =>
          obtain ⟨hus, hwss⟩ := List.forall_mem_cons.1 copies
          obtain ⟨w, hw, rfl⟩ := Uttered.oneOf_iff.1 hus
          obtain ⟨d, hd, rfl⟩ := List.mem_map.1 hw
          obtain ⟨ds, hds, hws, hlength⟩ := ih hwss
          refine ⟨d :: ds, List.forall_mem_cons.2 ⟨hd, hds⟩, ?_, by simp [hlength]⟩
          rw [List.flatten_cons, hws, hcut d hd]
          rfl
      exact ⟨ds, hds, hws, by omega, by omega⟩
  · rintro ⟨ds, hds, rfl, hmin, hmax⟩
    have hflatten : digitWords ds = (ds.map fun d => [d.word]).flatten := List.map_eq_flatMap
    rw [hflatten]
    refine .repeated _ (fun ws hws => ?_) (by simpa using hmin) (by simpa using hmax)
    obtain ⟨d, hd, rfl⟩ := List.mem_map.1 hws
    exact Uttered.oneOf_iff.2 ⟨d.word, List.mem_map_of_mem (hds d hd), (hcut d (hds d hd)).symm⟩

/-- A word and so many digits. -/
theorem uttered_number_iff {names : List String} {n : Nat} :
    Uttered cut (.sequence [.oneOf names, .repeated (digit l) n n]) ws ↔
      ∃ name ∈ names, ∃ ds, (∀ d ∈ ds, d ∈ l.digits) ∧ ws = cut name ++ digitWords ds ∧
        ds.length = n := by
  constructor
  · intro h
    cases h with
    | cons first others =>
      cases others with
      | cons second others =>
        cases others
        obtain ⟨name, hname, rfl⟩ := Uttered.oneOf_iff.1 first
        obtain ⟨ds, hds, rfl, hmin, hmax⟩ := (uttered_digits_iff hcut).1 second
        exact ⟨name, hname, ds, hds, by rw [List.append_nil], by omega⟩
  · rintro ⟨name, hname, ds, hds, rfl, hlength⟩
    rw [← List.append_nil (digitWords ds)]
    exact .cons (Uttered.oneOf_iff.2 ⟨name, hname, rfl⟩)
      (.cons ((uttered_digits_iff hcut).2 ⟨ds, hds, rfl, hlength.ge, hlength.le⟩) .nil)

theorem uttered_aircraft_iff : Uttered cut (aircraftPhrase l s c) ws ↔
    ∃ a ∈ s.airlines, ∃ ds, (∀ d ∈ ds, d ∈ l.digits) ∧ ws = cut a.name ++ digitWords ds ∧
      ds.length = c.flightDigits := by
  rw [aircraftPhrase, uttered_number_iff hcut]
  simp only [List.mem_map, exists_exists_and_eq_and]

theorem uttered_waypointSpelled_iff : Uttered cut (waypointSpelledPhrase l) ws ↔
    ∃ x ∈ l.phonetic, ∃ ds, (∀ d ∈ ds, d ∈ l.digits) ∧ ws = cut x.spoken ++ digitWords ds ∧
      ds.length = 2 := by
  rw [waypointSpelledPhrase, uttered_number_iff hcut]
  simp only [List.mem_map, exists_exists_and_eq_and]

theorem uttered_runway_iff : Uttered cut (runwayPhrase l .procedural) ws ↔
    ∃ ds, ∃ side : Option Spelling, (∀ d ∈ ds, d ∈ l.digits) ∧ (∀ x ∈ side, x ∈ l.directions) ∧
      ws = cut l.runwayKeyword ++ (digitWords ds ++ side.toList.flatMap (cut ·.spoken)) ∧
        1 ≤ ds.length ∧ ds.length ≤ 2 := by
  constructor
  · intro h
    cases h with
    | cons first others =>
      cases first
      cases others with
      | cons second others =>
        obtain ⟨ds, hds, rfl, hmin, hmax⟩ := (uttered_digits_iff hcut).1 second
        cases others with
        | cons third others =>
          cases others
          rcases Uttered.optional_oneOf_iff.1 third with rfl | ⟨word, hword, rfl⟩
          · exact ⟨ds, none, hds, by simp, by simp, hmin, hmax⟩
          · obtain ⟨x, hx, rfl⟩ := List.mem_map.1 hword
            exact ⟨ds, some x, hds, by simpa using hx, by simp, hmin, hmax⟩
  · rintro ⟨ds, side, hds, hside, rfl, hmin, hmax⟩
    refine .cons (.text _) (.cons ((uttered_digits_iff hcut).2 ⟨ds, hds, rfl, hmin, hmax⟩) ?_)
    rw [← List.append_nil (List.flatMap _ _)]
    refine .cons (Uttered.optional_oneOf_iff.2 ?_) .nil
    cases side with
    | none => exact .inl rfl
    | some x => exact .inr ⟨x.spoken, List.mem_map_of_mem (hside x rfl), by simp⟩

end Uttered

structure Built (l : Lexicon) (s : Source) (c : Config) (e : Elements) : Prop where
  mode : modeOf l s = .ok e.runwayMode
  aircraft_eq : e.aircraft = aircraftPhrase l s c
  runway_eq : e.runway = runwayPhrase l e.runwayMode
  heading_eq : e.heading = headingPhrase l
  waypointNamed_eq : e.waypointNamed = waypointNamedPhrase s
  waypointSpelled_eq : e.waypointSpelled = waypointSpelledPhrase l

theorem built_of_build (h : build l s c = .ok e) : e.Built l s c := by
  obtain ⟨mode, hmode, h⟩ := bind_eq_ok_iff.1 h
  obtain rfl := Except.ok.inj h
  exact ⟨hmode, rfl, rfl, rfl, rfl, rfl⟩

/-- The elements of a source that leaves every runway to be spoken. -/
def procedural (l : Lexicon) (s : Source) (c : Config) : Elements where
  aircraft := aircraftPhrase l s c
  runway := runwayPhrase l .procedural
  heading := headingPhrase l
  waypointNamed := waypointNamedPhrase s
  waypointSpelled := waypointSpelledPhrase l
  runwayMode := .procedural

theorem bounded_oneOf (texts : List String) : (Phrase.oneOf texts).Bounded := by
  refine .choice fun p hp => ?_
  obtain ⟨text, -, rfl⟩ := List.mem_map.1 hp
  exact .text text

/-- What holds of texts, of choices among texts and of their repetitions, and of a sequence if it
holds of the parts, holds of each element. -/
theorem Built.phrase_induction {P : Phrase → Prop} (h : e.Built l s c)
    (text : ∀ text, P (.text text)) (oneOf : ∀ texts, P (.oneOf texts))
    (repeated : ∀ texts min max, min ≤ max → P (.repeated (.oneOf texts) min max))
    (sequence : ∀ parts, (∀ p ∈ parts, P p) → P (.sequence parts)) (k : ElementKind) :
    P (e.phrase k) := by
  cases k with
  | aircraft =>
    change P e.aircraft
    rw [h.aircraft_eq]
    exact sequence _ (by simpa using ⟨oneOf _, repeated _ _ _ le_rfl⟩)
  | runway =>
    change P e.runway
    rw [h.runway_eq]
    cases e.runwayMode with
    | procedural =>
      exact sequence _
        (by simpa using ⟨text _, repeated _ 1 2 (by omega), repeated _ 0 1 (by omega)⟩)
    | explicit spellings => exact oneOf _
  | heading =>
    change P e.heading
    rw [h.heading_eq]
    exact repeated _ _ _ le_rfl
  | waypointNamed =>
    change P e.waypointNamed
    rw [h.waypointNamed_eq]
    exact oneOf _
  | waypointSpelled =>
    change P e.waypointSpelled
    rw [h.waypointSpelled_eq]
    exact sequence _ (by simpa using ⟨oneOf _, repeated _ _ _ le_rfl⟩)

theorem Built.bounded (h : e.Built l s c) (k : ElementKind) : (e.phrase k).Bounded :=
  h.phrase_induction .text bounded_oneOf (fun _ _ _ => .repeated (bounded_oneOf _))
    (fun _ => .sequence) k

theorem Built.shallow (h : e.Built l s c) (k : ElementKind) : (e.phrase k).Shallow 2 :=
  h.phrase_induction .text (shallow_oneOf 1) (fun texts _ _ _ => .repeated (shallow_oneOf 0 texts))
    (fun _ => .sequence) k

end Elements

end Phraseology
