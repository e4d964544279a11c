import PeerDiscovery.Service.Turn

/-!
# What can have been done to a service

`Service.Taken` lists what a turn of a task can come to, with everything that it needs. The things
that clients do have one lemma each.
-/

namespace PeerDiscovery

namespace Service

variable {setup : Setup} {resolve : Resolver} {settings : Settings} {service next : Service}
  {turn : Turn}

/-! ## Clients -/

/-- A service that is about to ping the router, and has done nothing yet. -/
def unused (now : Moment) : Service where
  search := .start
  now
  phase := .starting
  reader := .reading
  arrivals := []
  packets := []
  hints := []
  requests := []
  results := []
  handles := 1
  listening := true
  sendFails := false
  sent := []
  published := []

/-- A service that was bound is still to be used for the first time. -/
theorem bind_eq_ok {now : Moment} {portTaken : Bool}
    (bound : bind settings now portTaken = .ok service) : service = unused now := by
  unfold bind at bound
  cases check : settings.check with
  | error cause =>
    rw [check] at bound
    cases portTaken <;> cases bound
  | ok =>
    rw [check] at bound
    cases portTaken with
    | true => cases bound
    | false => exact (Except.ok.inj bound).symm

/-- A hint is accepted by a live engine with room in the queue, and then waits behind the others. -/
theorem offerHint_eq_ok {contact : Contact}
    (offered : service.offerHint settings contact = .ok next) :
    service.phase ≠ .ended ∧ service.hints.length < settings.commandCapacity ∧
      next = { service with hints := service.hints ++ [contact] } := by
  unfold offerHint at offered
  split at offered
  · cases offered
  split at offered
  · cases offered
  · rename_i alive room
    exact ⟨alive, Nat.lt_of_not_le room, (Except.ok.inj offered).symm⟩

/-- A request is accepted by a live engine with room in its own queue, and then waits behind the
others. -/
theorem offerRequest_eq_ok {infoHash : InfoHash}
    (offered : service.offerRequest settings infoHash = .ok next) :
    service.phase ≠ .ended ∧ service.requests.length < settings.commandCapacity ∧
      next = { service with requests := service.requests ++ [infoHash] } := by
  unfold offerRequest at offered
  split at offered
  · cases offered
  split at offered
  · cases offered
  · rename_i alive room
    exact ⟨alive, Nat.lt_of_not_le room, (Except.ok.inj offered).symm⟩

/-- A live engine turns a hint away exactly if as many wait as may. -/
theorem offerHint_eq_full_iff {contact : Contact} :
    service.offerHint settings contact = .error .full ↔
      service.phase ≠ .ended ∧ settings.commandCapacity ≤ service.hints.length := by
  unfold offerHint
  split
  · rename_i ended
    simp [ended]
  split
  · rename_i alive full
    simp [alive, full]
  · rename_i alive room
    simp [room]

/-- A live engine turns a request away exactly if as many wait as may. -/
theorem offerRequest_eq_full_iff {infoHash : InfoHash} :
    service.offerRequest settings infoHash = .error .full ↔
      service.phase ≠ .ended ∧ settings.commandCapacity ≤ service.requests.length := by
  unfold offerRequest
  split
  · rename_i ended
    simp [ended]
  split
  · rename_i alive full
    simp [alive, full]
  · rename_i alive room
    simp [room]

/-- Only an engine that has ended answers a hint with its end. -/
theorem ended_of_offerHint {contact : Contact}
    (stopped : service.offerHint settings contact = .error .stopped) : service.phase = .ended := by
  unfold offerHint at stopped
  split at stopped
  · assumption
  · split at stopped <;> cases stopped

/-- Only an engine that has ended answers a request with its end. -/
theorem ended_of_offerRequest {infoHash : InfoHash}
    (stopped : service.offerRequest settings infoHash = .error .stopped) :
    service.phase = .ended := by
  unfold offerRequest at stopped
  split at stopped
  · assumption
  · split at stopped <;> cases stopped

/-- The client takes the oldest batch that waits for it, and nothing else changes. -/
theorem takeResult_eq_ok {batch : Batch} (taken : service.takeResult = .ok (batch, next)) :
    ∃ rest, service.results = batch :: rest ∧ next = { service with results := rest } := by
  unfold takeResult at taken
  split at taken
  · rename_i first rest results
    obtain ⟨rfl, rfl⟩ := Prod.mk.inj (Except.ok.inj taken)
    exact ⟨rest, results, rfl⟩
  · split at taken <;> cases taken

/-! ## What a turn can have done -/

/-- What a turn makes of a service. -/
inductive Taken (setup : Setup) (resolve : Resolver) (service : Service) : Turn → Service → Prop
  | joined {result : Except BootstrapError Unit} {outcome : Outcome} :
    service.phase = .starting →
    service.search.bootstrap? setup resolve service.sendFails = some (result, outcome) →
    Taken setup resolve service .bootstrap (service.finish setup outcome)
  | hinted {contact : Contact} {rest : List Contact} {outcome : Outcome} :
    service.phase = .serving → service.hints = contact :: rest →
    service.search.hint? setup contact = some outcome →
    Taken setup resolve service .takeHint ({ service with hints := rest }.finish setup outcome)
  | requested {infoHash : InfoHash} {rest : List InfoHash} {outcome : Outcome} :
    service.phase = .serving → service.requests = infoHash :: rest →
    service.search.request? setup service.now infoHash = some outcome →
    Taken setup resolve service .takeRequest
      ({ service with requests := rest }.finish setup outcome)
  /-- The packet brings nothing to deliver. -/
  | received {packet : Packet} {rest : List Packet} {search : Search} {pace : List Span} :
    service.phase = .serving → service.packets = packet :: rest →
    service.search.receive service.now packet = (search, none) →
    Taken setup resolve service (.takePacket pace) { service with packets := rest, search }
  /-- The packet brings references at most. -/
  | followed {packet : Packet} {rest : List Packet} {search : Search} {delivery : Delivery}
    {outcome : Outcome} {pace : List Span} :
    service.phase = .serving → service.packets = packet :: rest →
    service.search.receive service.now packet = (search, some delivery) → delivery.fresh = [] →
    search.followAll? setup (.paced service.now pace) delivery.infoHash
      (Search.references delivery.nodes) = some outcome →
    Taken setup resolve service (.takePacket pace)
      ({ service with packets := rest, search, now := service.now.after pace }.finish setup outcome)
  /-- The packet brings new peers. -/
  | held {packet : Packet} {rest : List Packet} {search : Search} {delivery : Delivery}
    {pace : List Span} :
    service.phase = .serving → service.packets = packet :: rest →
    service.search.receive service.now packet = (search, some delivery) → delivery.fresh ≠ [] →
    Taken setup resolve service (.takePacket pace)
      { service with packets := rest, search, phase := .publishing delivery }
  /-- Nobody takes the new peers. -/
  | lost {delivery : Delivery} {outcome : Outcome} {pace : List Span} :
    service.phase = .publishing delivery → service.listening = false →
    service.search.followAll? setup (.paced service.now pace) delivery.infoHash
      (Search.references delivery.nodes) = some outcome →
    Taken setup resolve service (.publish pace)
      ({ service with
        now := service.now.after pace
        published := service.published ++ delivery.batch?.toList }.finish setup outcome)
  | published {delivery : Delivery} {outcome : Outcome} {pace : List Span} :
    service.phase = .publishing delivery → service.listening = true →
    service.results.length < setup.settings.resultCapacity →
    service.search.followAll? setup (.paced service.now pace) delivery.infoHash
      (Search.references delivery.nodes) = some outcome →
    Taken setup resolve service (.publish pace)
      ({ service with
        now := service.now.after pace
        published := service.published ++ delivery.batch?.toList
        results := service.results ++ delivery.batch?.toList }.finish setup outcome)
  | stopped : service.phase = .serving → service.handles = 0 → service.requests = [] →
    Taken setup resolve service .stop { service with phase := .ended, reader := .ended }
  | read {packet : Packet} {rest : List Arrival} :
    service.reader = .reading → service.arrivals = .packet packet :: rest →
    Taken setup resolve service .read { service with reader := .holding packet, arrivals := rest }
  | failed {error : ReceiveError} {rest : List Arrival} :
    service.reader = .reading → service.arrivals = .error error :: rest →
    Taken setup resolve service .read { service with
      reader := if error.isTransient then .reading else .ended
      arrivals := rest }
  | forwarded {packet : Packet} :
    service.reader = .holding packet → service.phase ≠ .ended →
    service.packets.length < Default.packetCapacity →
    Taken setup resolve service .forward
      { service with reader := .reading, packets := service.packets ++ [packet] }
  /-- There is no engine to pass the packet on to. -/
  | dropped {packet : Packet} : service.reader = .holding packet → service.phase = .ended →
    Taken setup resolve service .forward { service with reader := .ended }

/-- The references of a delivery are followed from the present on, at the pace of the turn, and then
the engine serves again. -/
theorem followDelivery?_eq_some {pace : List Span} {delivery : Delivery}
    (followed : service.followDelivery? setup pace delivery = some next) :
    ∃ outcome, service.search.followAll? setup (.paced service.now pace) delivery.infoHash
        (Search.references delivery.nodes) = some outcome ∧
      next = { service with now := service.now.after pace }.finish setup outcome := by
  obtain ⟨outcome, following, same⟩ := Option.bind_eq_some_iff.mp followed
  exact ⟨outcome, following, (Option.some.inj same).symm⟩

/-- A turn that was possible is one of those that `Taken` lists. -/
theorem turn?_taken (done : service.turn? setup resolve turn = some next) :
    Taken setup resolve service turn next := by
  unfold turn? at done
  split at done
  · rename_i phase
    obtain ⟨⟨result, outcome⟩, joined, same⟩ := Option.bind_eq_some_iff.mp done
    obtain rfl := Option.some.inj same
    exact .joined phase joined
  · rename_i phase
    split at done
    · cases done
    · rename_i contact rest hints
      obtain ⟨outcome, taken, same⟩ := Option.bind_eq_some_iff.mp done
      obtain rfl := Option.some.inj same
      exact .hinted phase hints taken
  · rename_i phase
    split at done
    · cases done
    · rename_i infoHash rest requests
      obtain ⟨outcome, taken, same⟩ := Option.bind_eq_some_iff.mp done
      obtain rfl := Option.some.inj same
      exact .requested phase requests taken
  · rename_i phase
    split at done
    · cases done
    rename_i packet rest packets
    split at done
    · rename_i search received
      obtain rfl := Option.some.inj done
      exact .received phase packets received
    · rename_i search delivery received
      dsimp only at done
      split at done
      · rename_i nothing
        obtain ⟨outcome, following, rfl⟩ := followDelivery?_eq_some done
        exact .followed phase packets received (List.isEmpty_iff.mp nothing) following
      · rename_i something
        obtain rfl := Option.some.inj done
        exact .held phase packets received fun nothing => something (List.isEmpty_iff.mpr nothing)
  · rename_i delivery phase
    dsimp only at done
    split at done
    · rename_i gone
      obtain ⟨outcome, following, rfl⟩ := followDelivery?_eq_some done
      exact .lost phase (by simpa using gone) following
    split at done
    · rename_i there room
      obtain ⟨outcome, following, rfl⟩ := followDelivery?_eq_some done
      exact .published phase (by simpa using there) room following
    · cases done
  · rename_i phase
    split at done
    · rename_i alone
      obtain rfl := Option.some.inj done
      exact .stopped phase alone.1 alone.2
    · cases done
  · split at done
    · rename_i packet rest reader arrivals
      obtain rfl := Option.some.inj done
      exact .read reader arrivals
    · rename_i error rest reader arrivals
      obtain rfl := Option.some.inj done
      exact .failed reader arrivals
    · cases done
  · split at done
    · rename_i packet reader
      split at done
      · rename_i ended
        obtain rfl := Option.some.inj done
        exact .dropped reader ended
      split at done
      · rename_i alive room
        obtain rfl := Option.some.inj done
        exact .forwarded reader alive room
      · cases done
    · cases done
  · cases done

end Service

end PeerDiscovery
