import Phraseology.Proofs.Catalogue
import Phraseology.Proofs.Json.Reads
import Phraseology.Proofs.Text.Blank
import Phraseology.Wire.Source

/-! Sources and rules are read as they are written. -/
namespace Phraseology

open Json (Reader Record)

namespace Runway

theorem not_blank_of_mem_chars (r : Runway) {c : Char} (h : c ∈ r.chars) :
    Text.isBlank c = false := by
  have hdigit : ∀ d : Fin 10, Text.isBlank (digitChar d) = false := by decide
  have hletter : ∀ s : Side, Text.isBlank s.letter = false := by
    intro s
    cases s <;> decide
  rcases List.mem_append.1 h with h | h
  · obtain ⟨d, -, rfl⟩ := List.mem_map.1 h
    exact hdigit d
  · obtain ⟨s, -, rfl⟩ := Option.map_eq_some_iff.1 (Option.mem_toList.1 h)
    exact hletter s

@[simp] theorem ofChars?_chars (r : Runway) : ofChars? r.chars = some r := by
  obtain ⟨first, second, side⟩ := r
  have hletter (s : Side) : digit? s.letter = none := by cases s <;> decide
  cases second <;> cases side <;>
    simp [chars, digits, ofChars?, hletter]

/-- A runway is read as it is named. -/
@[simp] theorem parse_name (r : Runway) : parse r.name = .ok r := by
  have htrim : Text.trimChars r.chars = r.chars :=
    Text.Trimmed.trimChars_eq
      ⟨fun c hc => r.not_blank_of_mem_chars (List.mem_of_mem_head? hc),
        fun c hc => r.not_blank_of_mem_chars (List.mem_of_mem_getLast? hc)⟩
  rw [parse, name, String.toList_ofList, htrim, ofChars?_chars]

/-- Runways can be told by their names. -/
theorem name_injective : Function.Injective name := by
  intro r r' h
  have hparse := parse_name r
  rw [h, parse_name] at hparse
  exact (Except.ok.inj hparse).symm

@[simp] theorem mapM_parse_name (rs : List Runway) : (rs.map name).mapM parse = .ok rs := by
  simp [mapM_eq_ok_iff]

end Runway

@[simp] theorem Airline.ofParallel_map (airlines : List Airline) :
    ofParallel (airlines.map name) (airlines.map code) = .ok airlines := by
  rw [ofParallel, if_pos (by simp), List.zipWith_map, List.zipWith_self]
  simp

theorem repeatedAfter?_of_nodup {α : Type} [DecidableEq α] {seen xs : List α} (h : xs.Nodup)
    (hseen : ∀ a ∈ xs, a ∉ seen) : repeatedAfter? seen xs = none := by
  induction xs generalizing seen with
  | nil => rfl
  | cons a xs ih => grind

@[simp] theorem repeated?_eq_none_iff {α : Type} [DecidableEq α] {xs : List α} :
    repeated? xs = none ↔ xs.Nodup :=
  ⟨nodup_of_repeated?, fun h => repeatedAfter?_of_nodup h (by simp)⟩

theorem repeatedAfter?_map {α β : Type} [DecidableEq α] [DecidableEq β] {f : α → β}
    (hf : Function.Injective f) (seen xs : List α) :
    repeatedAfter? (seen.map f) (xs.map f) = (repeatedAfter? seen xs).map f := by
  induction xs generalizing seen with
  | nil => rfl
  | cons a xs ih =>
    rw [List.map_cons, repeatedAfter?, repeatedAfter?, ← List.map_cons, ih]
    simp only [List.mem_map_of_injective hf, apply_ite (Option.map f), Option.map_some]

/-- What can be told by a name may be compared by it. -/
theorem repeated?_map {α β : Type} [DecidableEq α] [DecidableEq β] {f : α → β}
    (hf : Function.Injective f) (xs : List α) : repeated? (xs.map f) = (repeated? xs).map f :=
  repeatedAfter?_map hf [] xs

namespace Source

@[simp] theorem make_eq_ok (s : Source) : make s.airlines s.waypoints s.runways = .ok s := by
  unfold make
  split
  · rename_i w hw
    rw [repeated?_eq_none_iff.2 s.waypoints_nodup] at hw
    cases hw
  · split
    · rename_i r hr
      rw [repeated?_map Runway.name_injective, repeated?_eq_none_iff.2 s.runways_nodup] at hr
      cases hr
    · rfl

/-- The lists of a source make the source again. -/
@[simp] theorem toSource_toLists (s : Source) : s.toLists.toSource = .ok s := by
  have hairlines := Airline.ofParallel_map s.airlines
  have hrunways := Runway.mapM_parse_name s.runways
  refine bind_eq_ok_iff.2 ⟨s.airlines, ?_, bind_eq_ok_iff.2 ⟨s.runways, ?_, s.make_eq_ok⟩⟩
  · exact congrArg _ hairlines
  · exact congrArg _ hrunways

end Source

theorem Json.Record.holds_texts (name : String) (ts : List String) :
    (Record.texts name).Holds [(name, .strings ts)] ts :=
  Record.holds_field (Reader.reads_strings ts)

theorem SourceLists.reads (w : SourceLists) : SourceLists.reader.Reads w.toJson w := by
  have h := ((((Record.holds_pure (a := SourceLists.mk)).and
    (Record.holds_texts "Airlines" w.airlines) (by decide)).and
    (Record.holds_texts "AirlineCodes" w.airlineCodes) (by decide)).and
    (Record.holds_texts "NamedWaypoints" w.waypoints) (by decide)).and
    (Record.holds_texts "Runways" w.runways) (by decide)
  exact Reader.reads_record _ h

theorem Source.reads (s : Source) : Source.reader.Reads s.toJson s :=
  (SourceLists.reads s.toLists).bind (by rw [Source.toSource_toLists]; rfl)

theorem RuleSet.reads (r : RuleSet) : RuleSet.reader.Reads r.toJson r := by
  have h := ((((((Record.holds_pure (a := RuleSet.mk)).and
    (Record.holds_texts "AircraftStatRules" r.status) (by decide)).and
    (Record.holds_texts "AircraftTakeoffRules" r.takeoff) (by decide)).and
    (Record.holds_texts "AircraftLandingRules" r.landing) (by decide)).and
    (Record.holds_texts "AircraftFlyHeadingRules" r.flyHeading) (by decide)).and
    (Record.holds_texts "AircraftVectorToDestinationWaypointRules" r.vectorToNamedWaypoint)
      (by decide)).and
    (Record.holds_texts "AircraftVectorToNormalWaypointRules" r.vectorToSpelledWaypoint)
      (by decide)
  exact Reader.reads_record _ h

end Phraseology
