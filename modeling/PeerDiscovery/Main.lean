import PeerDiscovery.CommandLine.Console
import PeerDiscovery.CommandLine.Help

/-!
# The program

Reads the command line, runs a session on the lines of the standard input, and writes datagrams to
the standard output and records to the standard error. The end of the input ends the session.
-/

open PeerDiscovery PeerDiscovery.CommandLine

namespace PeerDiscovery.Program

/-- Writes what is new. -/
def write (before session : Session) : IO Unit := do
  for record in Session.freshRecords before session do
    IO.eprintln record
  for line in Session.freshLines before session do
    IO.println line

/-- Takes events until the session is over. -/
partial def serve (setup : Setup) (input : IO.FS.Stream) (session : Session) : IO Session := do
  let line ← input.getLine
  let event := if line.isEmpty then some .interrupt else Event.parse? line.trimAscii.toString
  match event with
  | none =>
    IO.eprintln (LogRecord.line ⟨.warn, "Unreadable line"⟩)
    serve setup input session
  | some event =>
    let next := session.take setup event
    write session next
    match next.stage with
    | .over _ => return next
    | _ => if line.isEmpty then return next else serve setup input next

/-- What the program says on its way out, and the code that it leaves. -/
def leave (causes : List String) : IO UInt32 := do
  if causes.isEmpty then return 0
  IO.eprintln (failureText causes)
  return 1

/-- Runs a session with the identifier and the seed drawn for it. -/
def run (arguments : Arguments) (randomId : Identifier) (seed : UInt16) : IO UInt32 := do
  let setup : Setup := ⟨arguments.settings randomId, .ofSeed seed⟩
  match Session.start arguments setup 0 false with
  | .error causes =>
    IO.eprintln Session.greeting.line
    leave causes
  | .ok session =>
    for record in session.log do
      IO.eprintln record.line
    let settled := session.settle setup .literal Session.Turn.all
    write session settled
    let last ← serve setup (← IO.getStdin) settled
    match last.stage with
    | .over causes => leave causes
    | _ => return 0

end PeerDiscovery.Program

def main (words : List String) : IO UInt32 := do
  match Arguments.parse words with
  | .error rejection =>
    if rejection.isFault then
      IO.eprint rejection.text
      return 2
    else
      IO.print rejection.text
      return 0
  | .ok arguments =>
    let octets ← IO.getRandomBytes 20
    let seed ← IO.rand 0 65535
    match Identifier.ofBytes octets.toList with
    | .ok randomId => Program.run arguments randomId (UInt16.ofNat seed)
    | .error fault => Program.leave [fault.message]
