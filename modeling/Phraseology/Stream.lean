import Phraseology.Session
import Phraseology.Wire.Message

/-! Messages as lines of text in a stream of bytes. -/
namespace Phraseology.Stream

open Json (Reader)

/-- The lines of a stream; the last need not end in a newline. -/
def lines : List UInt8 → List (List UInt8)
  | [] => []
  | b :: rest =>
    if b == 10 then [] :: lines rest
    else match lines rest with
      | [] => [[b]]
      | line :: more => (b :: line) :: more

/-- What a line is: blank, a message, a text that is no message, or no text at all. -/
inductive Line (α : Type) where
  | blank
  | message (a : α)
  | refused (problem : Json.Problem)
  | garbled

/-- Blanks around a message do not count. -/
def readLine {α : Type} (r : Reader α) (line : List UInt8) : Line α :=
  match String.fromUTF8? ⟨line.toArray⟩ with
  | none => .garbled
  | some s =>
    let text := Text.trimChars s.toList
    if text.isEmpty then .blank
    else match Json.readText r text with
      | .ok a => .message a
      | .error p => .refused p

/-- The messages in lines, as they are read one after another: reading goes on behind a text that
is no message, but ends where there is no text. -/
def readLines {α : Type} (r : Reader α) : List (List UInt8) → List (Except Error α)
  | [] => []
  | line :: rest =>
    match readLine r line with
    | .blank => readLines r rest
    | .message a => .ok a :: readLines r rest
    | .refused p => .error (.json p) :: readLines r rest
    | .garbled => [.error .io]

def read {α : Type} (r : Reader α) (bytes : List UInt8) : List (Except Error α) :=
  readLines r (lines bytes)

def writeLine (message : Json) : String := message.print ++ "\n"

/-- What has been answered, and where the session stands; `garbled` once the input could not be
read. -/
structure Served where
  session : Session
  output : List ClientMessage
  garbled : Bool

/-- The answers to one line. A text that is no message is answered and otherwise ignored. -/
def serveLine (s : Session) (line : List UInt8) : Served :=
  match readLine HostMessage.reader line with
  | .blank => ⟨s, [], false⟩
  | .message m =>
    let (next, replies) := s.handle m
    ⟨next, replies, false⟩
  | .refused p => ⟨s, [.ofError (.json p)], false⟩
  | .garbled => ⟨s, [], true⟩

/-- The answers to lines, up to the first that is no text. -/
def serveLines (s : Session) : List (List UInt8) → Served
  | [] => ⟨s, [], false⟩
  | line :: rest =>
    let first := serveLine s line
    if first.garbled then first
    else
      let more := serveLines first.session rest
      { more with output := first.output ++ more.output }

def serve (s : Session) (bytes : List UInt8) : Served := serveLines s (lines bytes)

end Phraseology.Stream
