import Phraseology.Main
import Phraseology.Wire.Command
import Phraseology.Proofs.Automaton.Bound
import Phraseology.Proofs.Catalogue.Selection
import Phraseology.Proofs.Decoder.AirlineCode
import Phraseology.Proofs.Decoder.Callsign
import Phraseology.Proofs.Decoder.FlyHeading
import Phraseology.Proofs.Decoder.Mandarin
import Phraseology.Proofs.Decoder.NamedWaypoint
import Phraseology.Proofs.Decoder.Numerals
import Phraseology.Proofs.Decoder.SpelledWaypoint
import Phraseology.Proofs.Identifier
import Phraseology.Proofs.Recognizer
import Phraseology.Proofs.Session.Commands
import Phraseology.Proofs.Session.Invariant
import Phraseology.Proofs.Session.Orders
import Phraseology.Proofs.Session.Recognized
import Phraseology.Proofs.Session.Refused
import Phraseology.Proofs.Session.Traffic
import Phraseology.Proofs.Shorthand.Words
import Phraseology.Proofs.Stream.Lines
import Phraseology.Proofs.Stream.RoundTrip
import Phraseology.Proofs.Template.Kept
