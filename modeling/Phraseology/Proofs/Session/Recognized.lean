import Phraseology.Proofs.Decoder.Complete
import Phraseology.Proofs.Session.Refused

/-! A recognized transcript gives all fields that its category requires, when it is clear which
words were spoken. -/
namespace Phraseology

open Text

namespace Session

variable {config : Config} {tag : Option String} {s : Session} {u : Setup} {x : String}
  {g : Grammar}

def ofTemplate (source : Source) (c : Category) (template locale : String) : Session :=
  blank.run [.configure source (RuleSet.empty.push c template) locale]

def direct (source : Source) : Session :=
  ofTemplate source .vectorToNamedWaypoint "\x7bAircraft\x7d direct \x7bWaypointNamed\x7d" "en-US"

end Session

end Phraseology
