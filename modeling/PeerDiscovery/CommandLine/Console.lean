import PeerDiscovery.CommandLine.Session

/-!
# The console

The program is a filter: it reads what comes in from the network line by line, and writes what goes
out to it. A line that comes in is a datagram, the passing of time, or the signal to end:

* `packet ADDRESS OCTETS`
* `wait MILLISECONDS`
* `interrupt`

A line that goes out is a destination and the octets for it. Octets are hexadecimal.
-/

namespace PeerDiscovery.CommandLine

/-- Something from outside. -/
inductive Event where
  | packet (packet : Packet)
  | wait (span : Span)
  | interrupt
deriving DecidableEq

/-- Reads the line of an event. -/
def Event.parse? (line : String) : Option Event :=
  match line.splitOn " " with
  | ["packet", sender, octets] => do
    let sender ← Address.parse? sender
    let payload ← Hex.decode? octets.toList
    return .packet ⟨payload, sender⟩
  | ["wait", count] =>
    (Numeral.readNat Numeral.max64 count.toList).toOption.map fun count =>
      .wait (count * Span.millisecond)
  | ["interrupt"] => some .interrupt
  | _ => none

/-- The line of a datagram. -/
def datagramLine (datagram : Datagram) : String :=
  datagram.destination.text ++ " " ++ Hex.text datagram.message.print

/-- What is printed when the program fails: what went wrong, and its causes. -/
def failureText : List String → String
  | [] => ""
  | [context] => "Error: " ++ context
  | [context, cause] => "Error: " ++ context ++ "\n\nCaused by:\n    " ++ cause
  | context :: causes =>
    let numbered := causes.mapIdx fun place cause => "\n    " ++ toString place ++ ": " ++ cause
    "Error: " ++ context ++ "\n\nCaused by:" ++ String.join numbered

namespace Session

/-- Every turn, those of the engine first. -/
def Turn.all : List Turn :=
  [.service .bootstrap, .service (.publish []), .service .takeHint, .service .takeRequest,
    .service (.takePacket []), .service .stop, .service .forward, .service .read, .addNode,
    .request, .takeBatch, .report, .repeatRequest, .notice, .finish]

/-- The session after an event and everything that follows from it. -/
def take (setup : Setup) (event : Event) (session : Session) : Session :=
  let session := match event with
    | .packet packet => { session with service := session.service.arrive (.packet packet) }
    | .wait span => { session with service := session.service.wait span }
    | .interrupt => session.interrupt?.getD session
  session.settle setup .literal Turn.all

/-- The lines that a session has written more than it had before. -/
def freshLines (before session : Session) : List String :=
  (session.service.sent.drop before.service.sent.length).map fun sent => datagramLine sent.1

/-- The records that a session has made more than it had before. -/
def freshRecords (before session : Session) : List String :=
  (session.log.drop before.log.length).map LogRecord.line

end Session

end PeerDiscovery.CommandLine
