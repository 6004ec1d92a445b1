import Phraseology.Error
import Phraseology.Runway
import Phraseology.Text.Ascii

/-! The names that are spoken at the moment: airlines, waypoints and runways. -/
namespace Phraseology

/-- An airline; where one is looked for, the first in the list is taken. -/
structure Airline where
  name : String
  code : String
  deriving DecidableEq, Repr

namespace Airline

def ofParallel (names codes : List String) : Except IdentifierError (List Airline) :=
  if names.length = codes.length then .ok (List.zipWith Airline.mk names codes)
  else .error (.airlineCodes names.length codes.length)

/-- The code of the first airline with that name, up to the case of ASCII letters. -/
def codeFor? (airlines : List Airline) (name : String) : Option String :=
  (airlines.find? fun a => Text.sameIgnoringAsciiCase a.name name).map Airline.code

end Airline

section Repeated

variable {α : Type} [DecidableEq α]

/-- The first element that occurs among `seen` or before itself. -/
@[grind] def repeatedAfter? (seen : List α) : List α → Option α
  | [] => none
  | a :: rest => if a ∈ seen then some a else repeatedAfter? (a :: seen) rest

def repeated? (xs : List α) : Option α := repeatedAfter? [] xs

theorem repeatedAfter?_eq_none {seen xs : List α} (h : repeatedAfter? seen xs = none) :
    xs.Nodup ∧ ∀ a ∈ xs, a ∉ seen := by
  induction xs generalizing seen with
  | nil => simp
  | cons a rest ih =>
    simp only [repeatedAfter?] at h
    split at h
    · cases h
    · rename_i ha
      obtain ⟨hn, hs⟩ := ih h
      refine ⟨List.nodup_cons.2 ⟨fun hm => hs a hm (by simp), hn⟩, ?_⟩
      intro b hb
      rcases List.mem_cons.1 hb with rfl | hb
      · exact ha
      · exact fun hm => hs b hb (List.mem_cons_of_mem a hm)

theorem nodup_of_repeated? {xs : List α} (h : repeated? xs = none) : xs.Nodup :=
  (repeatedAfter?_eq_none h).1

end Repeated

/-- Without runways of its own a source leaves every runway to be spoken. -/
structure Source where
  airlines : List Airline
  waypoints : List String
  runways : List Runway
  waypoints_nodup : waypoints.Nodup
  runways_nodup : runways.Nodup

namespace Source

def empty : Source := ⟨[], [], [], List.nodup_nil, List.nodup_nil⟩

/-- Neither a waypoint nor a runway may occur twice; runways are compared by their names. -/
def make (airlines : List Airline) (waypoints : List String) (runways : List Runway) :
    Except Error Source :=
  match hw : repeated? waypoints with
  | some w => .error (.duplicateEntry (.waypoint w))
  | none =>
    match hr : repeated? (runways.map Runway.name) with
    | some name => .error (.duplicateEntry (.runway name))
    | none =>
      .ok ⟨airlines, waypoints, runways, nodup_of_repeated? hw,
        List.Pairwise.of_map Runway.name (fun _ _ => ne_of_apply_ne Runway.name)
          (nodup_of_repeated? hr)⟩

end Source

/-- A source as it is transmitted: four lists of texts, of which the first two go together. -/
structure SourceLists where
  airlines : List String
  airlineCodes : List String
  waypoints : List String
  runways : List String
  deriving DecidableEq, Repr

namespace SourceLists

/-- Codes are matched with names before runways are read, and both before anything is compared. -/
def toSource (w : SourceLists) : Except Error Source := do
  let airlines ← (Airline.ofParallel w.airlines w.airlineCodes).mapError .identifier
  let runways ← (w.runways.mapM Runway.parse).mapError .identifier
  Source.make airlines w.waypoints runways

end SourceLists

def Source.toLists (s : Source) : SourceLists :=
  ⟨s.airlines.map Airline.name, s.airlines.map Airline.code, s.waypoints, s.runways.map Runway.name⟩

end Phraseology
