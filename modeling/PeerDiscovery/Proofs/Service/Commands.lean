import PeerDiscovery.Proofs.Search.Growth
import PeerDiscovery.Proofs.Service.Sequential

/-!
# What becomes of commands

Clients queue hints and requests, and the engine takes them off the front of their queues
(`Service.Heeds`). It ends when it finds that no handle is left and no request waits. It does not
look for hints then: all requests were handled, each once, but the hints that still wait are lost
(`Service.handled_or_lost`, `Service.exists_lost`). -/

namespace PeerDiscovery

/-- The node of a hint is known once the hint is handled. -/
theorem Search.contains_of_hint? {setup : Setup} {search : Search} {contact : Contact}
    {outcome : Outcome} (taken : search.hint? setup contact = some outcome) :
    outcome.search.table.contains contact.address = true := by
  unfold hint? at taken
  split at taken
  · rename_i known
    obtain rfl := Option.some.inj taken
    exact known
  · have kept := NodeTable.Retains.ping taken
    exact kept.contains (NodeTable.contains_add search.table _)

namespace Service

variable {setup : Setup} {resolve : Resolver} {service next : Service} {turn : Turn}

/-! ## Turns -/

/-- What a turn does to commands: it takes them off the front of their queues at most, and the node
of a hint that it took is known. -/
structure Heeds (service next : Service) : Prop where
  hints : ∃ taken, service.hints = taken ++ next.hints ∧
    ∀ contact ∈ taken, next.search.table.contains contact.address = true
  requests : next.requests <:+ service.requests
  retains : service.search.table.Retains next.search.table
  alive : next.phase ≠ .ended → service.phase ≠ .ended

namespace Heeds

theorem of_queues (hints : next.hints = service.hints) (requests : next.requests = service.requests)
    (retains : service.search.table.Retains next.search.table)
    (alive : next.phase ≠ .ended → service.phase ≠ .ended) : Heeds service next :=
  ⟨⟨[], hints.symm, List.forall_mem_nil _⟩, requests ▸ List.suffix_refl _, retains, alive⟩

theorem length_hints_le (heeds : Heeds service next) :
    next.hints.length ≤ service.hints.length := by
  obtain ⟨taken, hints, -⟩ := heeds.hints
  rw [hints, List.length_append]
  exact Nat.le_add_left _ _

end Heeds

theorem Taken.heeds (taken : Taken setup resolve service turn next) : Heeds service next := by
  have waking {phase : Phase} (here : service.phase = phase) (other : phase ≠ .ended) :
      next.phase ≠ .ended → service.phase ≠ .ended := fun _ => here ▸ other
  have retains_of {packet : Packet} {search : Search} {due : Option Delivery}
      (received : service.search.receive service.now packet = (search, due)) :
      service.search.table.Retains search.table := by
    have kept := NodeTable.Retains.receive service.search service.now packet
    rwa [received] at kept
  cases taken with
  | joined phase joined =>
    exact .of_queues rfl rfl (.bootstrap joined) (waking phase Phase.noConfusion)
  | @hinted contact rest outcome phase hints taken =>
    refine ⟨⟨[contact], hints, List.forall_mem_singleton.mpr ?_⟩, List.suffix_refl _, .hint taken,
      waking phase Phase.noConfusion⟩
    exact Search.contains_of_hint? taken
  | @requested infoHash rest outcome phase requests taken =>
    refine ⟨⟨[], rfl, List.forall_mem_nil _⟩, ?_, .request taken, waking phase Phase.noConfusion⟩
    rw [requests]
    exact List.suffix_cons infoHash rest
  | received phase packets received =>
    exact .of_queues rfl rfl (retains_of received) (waking phase Phase.noConfusion)
  | followed phase packets received quiet following =>
    have kept := NodeTable.Retains.followAll following
    exact .of_queues rfl rfl ((retains_of received).trans kept) (waking phase Phase.noConfusion)
  | held phase packets received something =>
    exact .of_queues rfl rfl (retains_of received) (waking phase Phase.noConfusion)
  | lost phase gone following =>
    exact .of_queues rfl rfl (.followAll following) (waking phase Phase.noConfusion)
  | published phase there room following =>
    exact .of_queues rfl rfl (.followAll following) (waking phase Phase.noConfusion)
  | stopped phase => exact .of_queues rfl rfl (.refl _) (waking phase Phase.noConfusion)
  | read | failed | forwarded | dropped => exact .of_queues rfl rfl (.refl _) id

/-! ## The end -/

/-- An engine that is gone while no client is left, with what is left of its work. -/
structure Gone (search : Search) (hints : List Contact) (service : Service) : Prop where
  ended : service.phase = .ended
  handles : service.handles = 0
  search_eq : service.search = search
  hints_eq : service.hints = hints

/-- Nothing becomes of what an engine leaves undone. -/
theorem Gone.acted {search : Search} {hints : List Contact} {act : Act}
    (gone : Gone search hints service) (acted : Acted setup resolve service act next) :
    Gone search hints next := by
  obtain ⟨ended, handles, same, left⟩ := gone
  have alone : ¬ 0 < service.handles := by
    rw [handles]
    exact Nat.lt_irrefl 0
  cases acted with
  | turn done =>
    cases turn?_taken done with
    | joined phase | hinted phase | requested phase | received phase | followed phase | held phase
      | lost phase | published phase | stopped phase =>
      rw [ended] at phase
      cases phase
    | read | failed | forwarded | dropped => exact ⟨ended, handles, same, left⟩
  | hint held | request held | cloneHandle held | dropHandle held => exact absurd held alone
  | take taken =>
    obtain ⟨rest, -, rfl⟩ := takeResult_eq_ok taken
    exact ⟨ended, handles, same, left⟩
  | cancel => exact ⟨rfl, handles, same, left⟩
  | stopListening | wait | arrive | sending => exact ⟨ended, handles, same, left⟩

/-- A queue of hints never holds more than it has room for. -/
theorem length_hints_le_of_acted {act : Act} (acted : Acted setup resolve service act next)
    (room : service.hints.length ≤ setup.settings.commandCapacity) :
    next.hints.length ≤ setup.settings.commandCapacity := by
  cases acted with
  | turn done => exact Nat.le_trans (turn?_taken done).heeds.length_hints_le room
  | hint held offered =>
    obtain ⟨-, less, rfl⟩ := offerHint_eq_ok offered
    rw [List.length_append]
    exact less
  | request held offered =>
    obtain ⟨-, -, rfl⟩ := offerRequest_eq_ok offered
    exact room
  | take taken =>
    obtain ⟨rest, -, rfl⟩ := takeResult_eq_ok taken
    exact room
  | stopListening | cloneHandle | dropHandle | cancel | wait | arrive | sending => exact room

/-- When the engine ends for want of handles, every request that was queued was handled, once and in
its turn, and so were the hints except for those that wait, which are lost for good. -/
theorem handled_or_lost {now : Moment} {portTaken : Bool} {first : Service} {acts : List Act}
    (bound : bind setup.settings now portTaken = .ok first)
    (course : first.acts? setup resolve acts = some service)
    (stopped : service.turn? setup resolve .stop = some next) :
    ∃ journal, Run setup resolve journal next.search ∧
      requestsOf journal = queuedRequests acts ∧
      hintsOf journal ++ next.hints = queuedHints acts ∧
      next.hints.length ≤ setup.settings.commandCapacity ∧
      ∀ more last, next.acts? setup resolve more = some last → Gone next.search next.hints last := by
  obtain rfl := bind_eq_ok bound
  obtain ⟨midway, room⟩ : Midway setup resolve acts service ∧
      service.hints.length ≤ setup.settings.commandCapacity := by
    refine acts?_induction course ⟨.of_unused now, Nat.zero_le _⟩ ?_
    exact fun _ _ _ _ both acted =>
      ⟨both.1.acted acted, length_hints_le_of_acted acted both.2⟩
  -- the engine was serving, so all it did is in a journal, and no request was left to it
  cases turn?_taken stopped with
  | stopped phase handles requests =>
    obtain ⟨journal, sequential⟩ := midway.serving phase
    refine ⟨journal, sequential.run, ?_, sequential.hints.symm, room, fun more last course => ?_⟩
    · rw [sequential.requests, requests, List.append_nil]
    · refine acts?_induction course ⟨rfl, handles, rfl, rfl⟩ ?_
      exact fun _ _ _ _ gone acted => gone.acted acted

end Service

/-! ### A sample

A hint and a request are queued and handled. Then the client queues another hint and drops its
handle, and the engine finds the handle gone before it looks at the hint.
-/

namespace Sample

def departure : List Act :=
  [.turn .bootstrap, .hint ⟨identifier 2, node⟩, .turn .takeHint, .request content,
    .turn .takeRequest, .hint ⟨identifier 3, peer 1⟩, .dropHandle]

theorem departure_comesTo :
    ∃ first service next, Service.bind setup.settings 0 false = .ok first ∧
      first.acts? setup .literal departure = some service ∧
      service.turn? setup .literal .stop = some next ∧
      next.hints = [⟨identifier 3, peer 1⟩] ∧ next.search.table.addresses = [node] := by
  have told : ((Service.unused 0).acts? setup .literal departure).bind (fun service =>
      (service.turn? setup .literal .stop).map fun next =>
        (next.hints, next.search.table.addresses)) = some ([⟨identifier 3, peer 1⟩], [node]) := by
    decide +kernel
  obtain ⟨service, course, told⟩ := Option.bind_eq_some_iff.mp told
  obtain ⟨next, stopped, same⟩ := Option.map_eq_some_iff.mp told
  obtain ⟨hints, addresses⟩ := Prod.mk.inj same
  exact ⟨_, service, next, rfl, course, stopped, hints, addresses⟩

end Sample

namespace Service

/-- The engine can end without ever knowing a node that was hinted at. -/
theorem exists_lost :
    ∃ first service next, bind Sample.setup.settings 0 false = .ok first ∧
      first.acts? Sample.setup .literal Sample.departure = some service ∧
      service.turn? Sample.setup .literal .stop = some next ∧
      ∃ contact ∈ queuedHints Sample.departure,
        next.search.table.contains contact.address = false := by
  obtain ⟨first, service, next, bound, course, stopped, -, addresses⟩ := Sample.departure_comesTo
  refine ⟨first, service, next, bound, course, stopped, ⟨Sample.identifier 3, Sample.peer 1⟩,
    by decide, ?_⟩
  rw [NodeTable.contains, addresses]
  decide

/-- In the sample the first hint and the request were handled, and the second hint is lost. -/
theorem handled_or_lost_sample :
    ∃ first service next, bind Sample.setup.settings 0 false = .ok first ∧
      first.acts? Sample.setup .literal Sample.departure = some service ∧
      service.turn? Sample.setup .literal .stop = some next ∧
      ∃ journal, Run Sample.setup .literal journal next.search ∧
        requestsOf journal = [Sample.content] ∧
        hintsOf journal ++ [⟨Sample.identifier 3, Sample.peer 1⟩] =
          [⟨Sample.identifier 2, Sample.node⟩, ⟨Sample.identifier 3, Sample.peer 1⟩] := by
  obtain ⟨first, service, next, bound, course, ends, hints, -⟩ := Sample.departure_comesTo
  obtain ⟨journal, run, requests, account, -⟩ := handled_or_lost bound course ends
  rw [hints] at account
  exact ⟨first, service, next, bound, course, ends, journal, run, requests, account⟩

end Service

end PeerDiscovery
