import Phraseology.Category

/-! Templates by category. -/
namespace Phraseology

structure RuleSet where
  status : List String
  takeoff : List String
  landing : List String
  flyHeading : List String
  vectorToNamedWaypoint : List String
  vectorToSpelledWaypoint : List String
  deriving DecidableEq, Repr

namespace RuleSet

def empty : RuleSet := ⟨[], [], [], [], [], []⟩

/-- The templates of a category, of which the invalid one has none. -/
def templates (r : RuleSet) : Category → List String
  | .status => r.status
  | .takeoff => r.takeoff
  | .landing => r.landing
  | .flyHeading => r.flyHeading
  | .vectorToNamedWaypoint => r.vectorToNamedWaypoint
  | .vectorToSpelledWaypoint => r.vectorToSpelledWaypoint
  | .invalid => []

/-- Adds a template at the end of its category; there is no place for invalid ones. -/
def push (r : RuleSet) (c : Category) (template : String) : RuleSet :=
  match c with
  | .status => { r with status := r.status ++ [template] }
  | .takeoff => { r with takeoff := r.takeoff ++ [template] }
  | .landing => { r with landing := r.landing ++ [template] }
  | .flyHeading => { r with flyHeading := r.flyHeading ++ [template] }
  | .vectorToNamedWaypoint =>
    { r with vectorToNamedWaypoint := r.vectorToNamedWaypoint ++ [template] }
  | .vectorToSpelledWaypoint =>
    { r with vectorToSpelledWaypoint := r.vectorToSpelledWaypoint ++ [template] }
  | .invalid => r

def toList (r : RuleSet) : List (Category × String) :=
  Category.commands.flatMap fun c => (r.templates c).map fun t => (c, t)

def filtered (r : RuleSet) : RuleSet where
  status := r.status.filter Category.status.accepts
  takeoff := r.takeoff.filter Category.takeoff.accepts
  landing := r.landing.filter Category.landing.accepts
  flyHeading := r.flyHeading.filter Category.flyHeading.accepts
  vectorToNamedWaypoint := r.vectorToNamedWaypoint.filter Category.vectorToNamedWaypoint.accepts
  vectorToSpelledWaypoint :=
    r.vectorToSpelledWaypoint.filter Category.vectorToSpelledWaypoint.accepts

end RuleSet

end Phraseology
