import PeerDiscovery.CommandLine.Arguments
import PeerDiscovery.Service.Turn

/-!
# A session of the program

The program sets up a service for the given arguments, hints at the given nodes, requests peers for
the given contents, and then waits: for batches, which it reports peer by peer, for the next report
of the counters, after which it repeats its requests, and for the signal to end. It runs beside the
two tasks of the service and waits wherever a queue is full.
-/

namespace PeerDiscovery.CommandLine

/-- How grave a record of the log is. -/
inductive Level where
  | info
  | warn
deriving DecidableEq, Repr

/-- A record of the log. -/
structure LogRecord where
  level : Level
  text : String
deriving DecidableEq, Repr

/-- The line of a record. -/
def LogRecord.line (record : LogRecord) : String :=
  match record.level with
  | .info => "INFO " ++ record.text
  | .warn => "WARN " ++ record.text

/-- What the program does. -/
inductive Stage where
  /-- It hints at nodes. -/
  | adding (nodes : List Contact)
  /-- It requests peers for the first time. -/
  | requesting (infoHashes : List InfoHash)
  /-- It waits for what comes. -/
  | waiting
  /-- It repeats its requests. -/
  | repeating (infoHashes : List InfoHash)
  /-- It has let go of the service and waits for the engine to end. -/
  | leaving
  /-- It is over: without a cause, or with what went wrong and its causes. -/
  | over (causes : List String)
deriving DecidableEq

/-- The program beside its service. -/
structure Session where
  arguments : Arguments
  service : Service
  stage : Stage
  /-- When the next report is due. -/
  nextReport : Moment
  log : List LogRecord

/-- The settings that the arguments ask for; `randomId` serves where no identifier is given. -/
def Arguments.settings (arguments : Arguments) (randomId : Identifier) : Settings where
  ourId := arguments.nodeId.getD randomId
  port := arguments.port
  router := if arguments.noBootstrap then none else some arguments.router
  fanOut := arguments.fanOut.getD Default.fanOut
  wantedPeers := arguments.minPeers.getD Default.wantedPeers

/-- The span between reports, at least a second. -/
def Arguments.reportSpan (arguments : Arguments) : Span :=
  max arguments.statsInterval 1 * Span.second

/-- The text of an address on which a service listens. -/
def listenText (port : UInt16) : String := (Address.v4 ⟨0, 0, 0, 0⟩ port).text

/-- The text of a report of the counters. -/
def reportText (stats : Stats) : String :=
  s!"dht stats nodes={stats.nodesCreated.toNat} duplicate_nodes={stats.duplicateNodes.toNat}"
    ++ s!" peers={stats.peersFound.toNat} get_peers_sent={stats.getPeersSent.toNat}"
    ++ s!" pings_sent={stats.pingsSent.toNat} responses={stats.responsesMatched.toNat}"
    ++ s!" stale={stats.staleResponses.toNat}"

namespace Session

/-- The first record of every log. -/
def greeting : LogRecord := ⟨.info, Default.userAgent ++ " starting"⟩

/-- What the program says when its service cannot be set up. -/
def bindFailure (port : UInt16) (error : BindError) : List String :=
  s!"failed to bind DHT port {port.toNat}" :: error.message ::
    match error with
    | .addressInUse => [BindError.inUse]
    | .settings _ => []

/-- What the program says when the engine is gone while it still needs it. -/
def engineFailure : List String := ["DHT engine stopped", Service.stoppedMessage]

/-- Writes a record. -/
def record (session : Session) (level : Level) (text : String) : Session :=
  { session with log := session.log ++ [⟨level, text⟩] }

/-- Starts on the first requests, announcing the first of them. -/
def announce (session : Session) (infoHashes : List InfoHash) : Session :=
  let session := { session with stage := .requesting infoHashes }
  match infoHashes with
  | [] => session
  | infoHash :: _ => session.record .info ("Searching peers for " ++ infoHash.text)

/-- The program right after its service is set up, or what went wrong. -/
def start (arguments : Arguments) (setup : Setup) (now : Moment) (portTaken : Bool) :
    Except (List String) Session :=
  match Service.bind setup.settings now portTaken with
  | .error error => .error (bindFailure setup.settings.port error)
  | .ok service =>
    .ok {
      arguments
      service
      stage := .adding arguments.nodes
      nextReport := now
      log := [
        greeting,
        ⟨.info, "Node id: " ++ setup.settings.ourId.text⟩,
        ⟨.info, "Listening on " ++ listenText setup.settings.port⟩] }

/-- Lets go of the service. -/
def leave (session : Session) : Session :=
  { session with stage := .leaving, service := session.service.dropHandle.stopListening }

/-! ## Turns -/

/-- A turn of the program or of its service. -/
inductive Turn where
  /-- A task of the service takes a turn. -/
  | service (turn : PeerDiscovery.Turn)
  /-- The program hints at its next node, or has done with them. -/
  | addNode
  /-- The program makes its next first request, or has done with them. -/
  | request
  /-- The program takes a batch. -/
  | takeBatch
  /-- The program reports the counters. -/
  | report
  /-- The program repeats its next request, or has done with them. -/
  | repeatRequest
  /-- The program finds the engine gone. -/
  | notice
  /-- The program ends after the engine. -/
  | finish
deriving DecidableEq, Repr

/-- Hints at the first of the nodes left. -/
def addNode? (settings : Settings) (nodes : List Contact) (session : Session) : Option Session :=
  match nodes with
  | [] => some (session.announce session.arguments.infoHashes)
  | contact :: rest =>
    match session.service.offerHint settings contact with
    | .ok service => some { session with service, stage := .adding rest }
    | .error .full => none
    | .error .stopped => some { session with stage := .over engineFailure }

/-- Makes the first of the first requests left. -/
def request? (settings : Settings) (infoHashes : List InfoHash) (session : Session) :
    Option Session :=
  match infoHashes with
  | [] => some { session with
      stage := .waiting
      nextReport := session.service.now + session.arguments.reportSpan }
  | infoHash :: rest =>
    match session.service.offerRequest settings infoHash with
    | .ok service => some ({ session with service }.announce rest)
    | .error .full => none
    | .error .stopped => some { session with stage := .over engineFailure }

/-- Repeats the first of the requests left. -/
def repeatRequest? (settings : Settings) (infoHashes : List InfoHash) (session : Session) :
    Option Session :=
  match infoHashes with
  | [] => some { session with stage := .waiting }
  | infoHash :: rest =>
    match session.service.offerRequest settings infoHash with
    | .ok service => some { session with service, stage := .repeating rest }
    | .error .full => none
    | .error .stopped =>
      some ({ session with stage := .repeating rest }.record .warn
        ("Peer request failed error=" ++ Service.stoppedMessage))

/-- The record of a peer that was found. -/
def peerRecord (infoHash : InfoHash) (peer : Address) : LogRecord :=
  ⟨.info, "peer found info_hash=" ++ infoHash.text ++ " peer=" ++ peer.text⟩

/-- One turn, if it is possible. -/
def turn? (setup : Setup) (resolve : Resolver) (turn : Turn) (session : Session) : Option Session :=
  match turn, session.stage with
  | .service turn, _ => do
    let service ← session.service.turn? setup resolve turn
    return { session with service }
  | .addNode, .adding nodes => session.addNode? setup.settings nodes
  | .request, .requesting infoHashes => session.request? setup.settings infoHashes
  | .takeBatch, .waiting =>
    match session.service.takeResult with
    | .ok (batch, service) => some { session with
        service
        log := session.log ++ batch.peers.map (peerRecord batch.infoHash) }
    | .error _ => none
  | .report, .waiting =>
    if session.nextReport ≤ session.service.now then
      some ({ session with
        stage := .repeating session.arguments.infoHashes
        nextReport := session.nextReport + session.arguments.reportSpan }.record .info
          (reportText session.service.search.stats))
    else none
  | .repeatRequest, .repeating infoHashes => session.repeatRequest? setup.settings infoHashes
  | .notice, .waiting =>
    match session.service.takeResult with
    | .error .disconnected => some (session.record .warn "DHT engine stopped").leave
    | _ => none
  | .finish, .leaving =>
    if session.service.engineEnded then some { session with stage := .over [] } else none
  | _, _ => none

/-- The signal to end, which the program heeds while it waits. -/
def interrupt? (session : Session) : Option Session :=
  match session.stage with
  | .waiting => some (session.record .info "Received shutdown signal, exiting gracefully").leave
  | _ => none

/-! ## Settling -/

/-- How many turns the program itself has left before its next report, with those that its commands
cost the service. -/
def stageLoad (session : Session) : Nat :=
  match session.stage with
  | .adding nodes => 3 * nodes.length + 3 * session.arguments.infoHashes.length + 5
  | .requesting infoHashes => 3 * infoHashes.length + 4
  | .waiting => 2
  | .repeating infoHashes => 3 * infoHashes.length + 3
  | .leaving => 1
  | .over _ => 0

/-- How many reports are due. -/
def dueReports (session : Session) : Nat :=
  (session.service.now + session.arguments.reportSpan - session.nextReport)
    / session.arguments.reportSpan

/-- How many turns are possible at most, if nothing comes from outside. -/
def load (session : Session) : Nat :=
  session.stageLoad + 2 * session.service.load + session.service.results.length
    + session.dueReports * (3 * session.arguments.infoHashes.length + 4)

/-- Takes up to `count` turns, the first possible one of `turns` each time. -/
def turns (setup : Setup) (resolve : Resolver) (turns : List Turn) :
    (count : Nat) → Session → Session
  | 0, session => session
  | count + 1, session =>
    match turns.findSome? fun turn => session.turn? setup resolve turn with
    | none => session
    | some next => Session.turns setup resolve turns count next

/-- Takes turns of the list until none is possible. -/
def settle (setup : Setup) (resolve : Resolver) (turns : List Turn) (session : Session) : Session :=
  session.turns setup resolve turns session.load

/-! ## Schedules -/

/-- Everything that can happen to a session. -/
inductive Step (setup : Setup) (resolve : Resolver) : Session → Session → Prop
  | turn {session next : Session} (turn : Turn) :
    session.turn? setup resolve turn = some next → Step setup resolve session next
  | interrupt {session next : Session} :
    session.interrupt? = some next → Step setup resolve session next
  | wait {session : Session} (span : Span) :
    Step setup resolve session { session with service := session.service.wait span }
  | arrive {session : Session} (arrival : Arrival) :
    Step setup resolve session { session with service := session.service.arrive arrival }
  | sending {session : Session} (fails : Bool) :
    Step setup resolve session
      { session with service := { session.service with sendFails := fails } }

end Session

end PeerDiscovery.CommandLine
