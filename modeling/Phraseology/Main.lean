import Phraseology.Config.File
import Phraseology.Stream

/-! The command line: messages come in on standard input, and answers go to standard output. -/
namespace Phraseology

/-- The configuration of the file that the environment names, or the standard one. -/
def loadConfig : IO (Except Error Config) := do
  match ← IO.getEnv "VOICE_CONTROL_CONFIG" with
  | none => return .ok .standard
  | some path =>
    match ← (IO.FS.readBinFile path).toBaseIO with
    | .ok bytes => return Config.ofFile bytes
    | .error _ => return .error .io

/-- Answers the lines that come in, until there is no more or one is no text. `pending` is what
has come in of a line that is not complete. -/
partial def serveInput (input output : IO.FS.Stream) (session : Session) (pending : List UInt8) :
    IO UInt32 := do
  let bytes := (← input.read 65536).toList
  let all := pending ++ bytes
  let whole := if bytes.isEmpty then all else (all.reverse.dropWhile (· != 10)).reverse
  let served := Stream.serve session whole
  for reply in served.output do
    output.putStr (Stream.writeLine reply.toJson)
  output.flush
  if served.garbled then
    IO.eprintln (Error.message .io)
    return 1
  else if bytes.isEmpty then return 0
  else serveInput input output served.session (all.drop whole.length)

def openSession (config : Config) (tag : String) : Except Error Session := do
  let session ← Session.make config
  session.withLocale tag

end Phraseology

open Phraseology in
def main : IO UInt32 := do
  let locale := (← IO.getEnv "VOICE_CONTROL_LOCALE").getD Lexicon.english.locale
  let config ← loadConfig
  match config.bind (openSession · locale) with
  | .ok session => serveInput (← IO.getStdin) (← IO.getStdout) session []
  | .error e =>
    IO.eprintln e.message
    return 1
