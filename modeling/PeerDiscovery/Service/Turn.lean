import PeerDiscovery.Service

/-!
# Turns of the tasks

Which turns are possible depends on the queues; where several are, any of them may be next.
`Service.settle` lets the tasks take turns, the first possible one of a list at a time, until none
of the list is possible. Every turn lightens the load of the service, so this ends.
-/

namespace PeerDiscovery

/-- A turn of a task. -/
inductive Turn where
  /-- The engine pings the router. -/
  | bootstrap
  /-- The engine handles a hint. -/
  | takeHint
  /-- The engine handles a request. -/
  | takeRequest
  /-- The engine handles a packet, up to the point where new peers have to be published. Following
  references takes time: the next span of `pace` passes before each. -/
  | takePacket (pace : List Span)
  /-- The engine publishes new peers and finishes the packet that brought them, at some pace. -/
  | publish (pace : List Span)
  /-- The engine finds that no handle is left and ends, and the reader with it. -/
  | stop
  /-- The reader takes something from the socket. -/
  | read
  /-- The reader passes a packet on. -/
  | forward
deriving DecidableEq, Repr

namespace Service

/-- The service after the engine is done with something. -/
def finish (setup : Setup) (service : Service) (outcome : Outcome) : Service :=
  { service with
    search := outcome.search
    phase := .serving
    sent := service.sent ++
      (outcome.datagrams setup.settings.ourId).map fun datagram => (datagram, service.sendFails) }

/-- The service after the references of a delivery are followed at some pace. -/
def followDelivery? (setup : Setup) (pace : List Span) (delivery : Delivery) (service : Service) :
    Option Service := do
  let outcome ← service.search.followAll? setup (.paced service.now pace) delivery.infoHash
    (Search.references delivery.nodes)
  return { service with now := service.now.after pace }.finish setup outcome

/-- One turn, if it is possible. -/
def turn? (setup : Setup) (resolve : Resolver) (turn : Turn) (service : Service) :
    Option Service :=
  match turn, service.phase with
  | .bootstrap, .starting => do
    let (_, outcome) ← service.search.bootstrap? setup resolve service.sendFails
    return service.finish setup outcome
  | .takeHint, .serving =>
    match service.hints with
    | [] => none
    | contact :: rest => do
      let outcome ← service.search.hint? setup contact
      return { service with hints := rest }.finish setup outcome
  | .takeRequest, .serving =>
    match service.requests with
    | [] => none
    | infoHash :: rest => do
      let outcome ← service.search.request? setup service.now infoHash
      return { service with requests := rest }.finish setup outcome
  | .takePacket pace, .serving =>
    match service.packets with
    | [] => none
    | packet :: rest =>
      match service.search.receive service.now packet with
      | (search, none) => some { service with packets := rest, search }
      | (search, some delivery) =>
        let service := { service with packets := rest, search }
        if delivery.fresh.isEmpty then service.followDelivery? setup pace delivery
        else some { service with phase := .publishing delivery }
  | .publish pace, .publishing delivery =>
    let published := service.published ++ delivery.batch?.toList
    if !service.listening then
      { service with published }.followDelivery? setup pace delivery
    else if service.results.length < setup.settings.resultCapacity then
      { service with published, results := service.results ++ delivery.batch?.toList }
        |>.followDelivery? setup pace delivery
    else none
  | .stop, .serving =>
    if service.handles = 0 ∧ service.requests = [] then
      some { service with phase := .ended, reader := .ended }
    else none
  | .read, _ =>
    match service.reader, service.arrivals with
    | .reading, .packet packet :: rest =>
      some { service with reader := .holding packet, arrivals := rest }
    | .reading, .error error :: rest =>
      let reader := if error.isTransient then .reading else .ended
      some { service with reader, arrivals := rest }
    | _, _ => none
  | .forward, phase =>
    match service.reader with
    | .holding packet =>
      if phase = .ended then some { service with reader := .ended }
      else if service.packets.length < Default.packetCapacity then
        some { service with reader := .reading, packets := service.packets ++ [packet] }
      else none
    | _ => none
  | _, _ => none

/-! ## Settling -/

/-- How much the engine still has to do before it ends, whatever the queues hold. -/
def phaseLoad : Phase → Nat
  | .starting => 2
  | .publishing _ => 2
  | .serving => 1
  | .ended => 0

/-- How many turns are possible at most, if nothing comes from outside. -/
def load (service : Service) : Nat :=
  phaseLoad service.phase + service.hints.length + service.requests.length
    + 2 * service.packets.length + (if service.reader matches .holding _ then 3 else 0)
    + 4 * service.arrivals.length

/-- Takes up to `count` turns, the first possible one of `turns` each time. -/
def turns (setup : Setup) (resolve : Resolver) (turns : List Turn) :
    (count : Nat) → Service → Service
  | 0, service => service
  | count + 1, service =>
    match turns.findSome? fun turn => service.turn? setup resolve turn with
    | none => service
    | some next => Service.turns setup resolve turns count next

/-- Takes turns of the list until none is possible. -/
def settle (setup : Setup) (resolve : Resolver) (turns : List Turn) (service : Service) : Service :=
  service.turns setup resolve turns service.load

/-! ## Schedules -/

/-- Everything that can happen to a service. -/
inductive Step (setup : Setup) (resolve : Resolver) : Service → Service → Prop
  | turn {service next : Service} (turn : Turn) :
    service.turn? setup resolve turn = some next → Step setup resolve service next
  | hint {service next : Service} (contact : Contact) : 0 < service.handles →
    service.offerHint setup.settings contact = .ok next → Step setup resolve service next
  | request {service next : Service} (infoHash : InfoHash) : 0 < service.handles →
    service.offerRequest setup.settings infoHash = .ok next → Step setup resolve service next
  | take {service next : Service} (batch : Batch) :
    service.takeResult = .ok (batch, next) → Step setup resolve service next
  | stopListening {service : Service} : Step setup resolve service service.stopListening
  | cloneHandle {service : Service} :
    0 < service.handles → Step setup resolve service service.cloneHandle
  | dropHandle {service : Service} :
    0 < service.handles → Step setup resolve service service.dropHandle
  | cancel {service : Service} : Step setup resolve service service.cancel
  | wait {service : Service} (span : Span) : Step setup resolve service (service.wait span)
  | arrive {service : Service} (arrival : Arrival) :
    Step setup resolve service (service.arrive arrival)
  | sending {service : Service} (fails : Bool) :
    Step setup resolve service { service with sendFails := fails }

end Service

end PeerDiscovery
