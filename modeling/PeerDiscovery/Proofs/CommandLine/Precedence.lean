import PeerDiscovery.Proofs.CommandLine.Standstill
import PeerDiscovery.Proofs.Service.Commands

/-!
# Hints before requests

The program hints at all its nodes before it makes its first request. But hints and requests wait in
two queues, and the engine takes from either, so it may take a request while hints still wait that
were queued before it (`Session.exists_overtaken`).

What holds on every schedule is `Session.Introduced`: the given nodes are, in their order, those
whose hints were taken, those whose hints wait and those still to be hinted at, and a node whose
hint was taken is in the table for good. So when a request is taken, only nodes whose hints wait can
be missing from its round (`Session.introduced_or_waiting`). -/

namespace PeerDiscovery.CommandLine.Session

section Schedules

variable {setup : Setup} {resolve : Resolver} {settings : Settings} {taken : List Contact}
  {session next : Session}

/-- The nodes that the program has yet to hint at. -/
def ahead (session : Session) : List Contact :=
  match session.stage with
  | .adding nodes => nodes
  | _ => []

theorem ahead_eq_nil (other : ∀ nodes, session.stage ≠ .adding nodes) : session.ahead = [] := by
  unfold ahead
  split
  · rename_i nodes stage
    exact absurd stage (other nodes)
  · rfl

/-- The given nodes are those whose hints were taken, which the engine knows, then those whose hints
wait, then those that the program has yet to hint at. Only after them it makes requests. -/
structure Introduced (settings : Settings) (taken : List Contact) (session : Session) : Prop where
  given : session.arguments.nodes = taken ++ session.service.hints ++ session.ahead
  known : ∀ contact ∈ taken, session.service.search.table.contains contact.address = true
  room : session.service.hints.length ≤ settings.commandCapacity
  first : ∀ nodes, session.stage = .adding nodes → session.service.requests = []

namespace Introduced

theorem of_start {arguments : Arguments} {now : Moment} {portTaken : Bool}
    (started : start arguments setup now portTaken = .ok session) :
    Introduced setup.settings [] session := by
  obtain ⟨same, service, stage⟩ := start_eq_ok started
  refine ⟨?_, List.forall_mem_nil _, ?_, fun _ _ => ?_⟩
  · rw [same, service, ahead, stage]
    rfl
  · rw [service]
    exact Nat.zero_le _
  · rw [service]
    rfl

/-- Where hints and the table stay, it matters only which nodes are ahead. -/
theorem idle (introduced : Introduced settings taken session)
    (arguments : next.arguments = session.arguments)
    (hints : next.service.hints = session.service.hints)
    (search : next.service.search = session.service.search) (ahead : next.ahead = session.ahead)
    (first : ∀ nodes, next.stage = .adding nodes → next.service.requests = []) :
    Introduced settings taken next where
  given := by
    rw [arguments, hints, ahead]
    exact introduced.given
  known := by
    rw [search]
    exact introduced.known
  room := by
    rw [hints]
    exact introduced.room
  first := first

theorem served (introduced : Introduced settings taken session) {service : Service}
    (heeds : session.service.Heeds service) :
    ∃ taken, Introduced settings taken { session with service } := by
  obtain ⟨more, hints, known⟩ := heeds.hints
  refine ⟨taken ++ more, ?_, ?_, ?_, ?_⟩
  · have given := introduced.given
    rw [hints, ← List.append_assoc] at given
    exact given
  · rw [List.forall_mem_append]
    refine ⟨fun contact member => ?_, known⟩
    exact heeds.retains.contains (introduced.known contact member)
  · have room := introduced.room
    rw [hints, List.length_append] at room
    exact Nat.le_trans (Nat.le_add_left _ _) room
  · intro nodes stage
    have none := heeds.requests
    rw [introduced.first nodes stage] at none
    exact List.suffix_nil.mp none

theorem moved (introduced : Introduced setup.settings taken session)
    (moved : Moved setup resolve session next) (alive : next.service.phase ≠ .ended) :
    ∃ taken, Introduced setup.settings taken next := by
  -- the program is done with its hints, and goes on to another stage
  have idle {next : Session} (arguments : next.arguments = session.arguments)
      (hints : next.service.hints = session.service.hints)
      (search : next.service.search = session.service.search) (done : session.ahead = [])
      (other : ∀ nodes, next.stage ≠ .adding nodes) :
      ∃ taken, Introduced setup.settings taken next := by
    have ahead : next.ahead = session.ahead := (ahead_eq_nil other).trans done.symm
    exact ⟨taken, introduced.idle arguments hints search ahead fun nodes stage =>
      absurd stage (other nodes)⟩
  cases moved with
  | service taken => exact introduced.served (Service.turn?_taken taken).heeds
  | @hinted contact rest service stage offered =>
    obtain ⟨-, room, rfl⟩ := Service.offerHint_eq_ok offered
    have given := introduced.given
    rw [ahead, stage, List.append_cons, List.append_assoc taken] at given
    refine ⟨taken, given, introduced.known, ?_, fun _ _ => introduced.first _ stage⟩
    rw [List.length_append]
    exact room
  | added stage =>
    refine idle (arguments_announce ..) ?_ ?_ (by rw [ahead, stage]) fun nodes other => ?_
    · rw [service_announce]
    · rw [service_announce]
    · rw [stage_announce] at other
      cases other
  | requested stage offered =>
    obtain ⟨-, -, rfl⟩ := Service.offerRequest_eq_ok offered
    refine idle (arguments_announce ..) ?_ ?_ (by rw [ahead, stage]) fun nodes other => ?_
    · rw [service_announce]
    · rw [service_announce]
    · rw [stage_announce] at other
      cases other
  | repeated stage offered =>
    obtain ⟨-, -, rfl⟩ := Service.offerRequest_eq_ok offered
    exact idle rfl rfl rfl (by rw [ahead, stage]) fun _ => Stage.noConfusion
  | took stage taken =>
    obtain ⟨rest, -, rfl⟩ := Service.takeResult_eq_ok taken
    refine idle rfl rfl rfl (by rw [ahead, stage]) fun nodes other => ?_
    exact Stage.noConfusion (stage.symm.trans other)
  | begun stage | reported stage | warned stage | resumed stage | noticed stage =>
    exact idle rfl rfl rfl (by rw [ahead, stage]) fun _ => Stage.noConfusion
  -- nodes are left out only for want of an engine
  | failed ended => exact absurd ended alive
  | finished stage ended => exact absurd (of_decide_eq_true ended) alive

theorem step (introduced : Introduced setup.settings taken session)
    (step : Step setup resolve session next) (alive : next.service.phase ≠ .ended) :
    ∃ taken, Introduced setup.settings taken next := by
  cases step with
  | turn turn done => exact introduced.moved (turn?_moved done) alive
  | interrupt left =>
    obtain ⟨stage, rfl⟩ := interrupt?_eq_some left
    have done : session.ahead = [] := by rw [ahead, stage]
    exact ⟨taken, introduced.idle rfl rfl rfl done.symm fun _ => Stage.noConfusion⟩
  | wait | arrive | sending => exact ⟨taken, introduced.idle rfl rfl rfl rfl introduced.first⟩

end Introduced

/-- An engine that is gone stays so. -/
theorem Step.alive (step : Step setup resolve session next)
    (alive : next.service.phase ≠ .ended) : session.service.phase ≠ .ended := by
  cases step with
  | turn turn done =>
    cases turn?_moved done with
    | service taken => exact (Service.turn?_taken taken).heeds.alive alive
    | hinted stage offered => exact (Service.offerHint_eq_ok offered).1
    | requested stage offered => exact (Service.offerRequest_eq_ok offered).1
    | repeated stage offered => exact (Service.offerRequest_eq_ok offered).1
    | took stage taken =>
      obtain ⟨rest, -, rfl⟩ := Service.takeResult_eq_ok taken
      exact alive
    | added =>
      rw [service_announce] at alive
      exact alive
    | begun | failed | reported | warned | resumed | noticed | finished => exact alive
  | interrupt left =>
    obtain ⟨-, rfl⟩ := interrupt?_eq_some left
    exact alive
  | wait | arrive | sending => exact alive

/-- As long as the engine lives, the nodes of the program are accounted for. -/
theorem exists_introduced {arguments : Arguments} {now : Moment} {portTaken : Bool}
    {first : Session} (started : start arguments setup now portTaken = .ok first)
    (later : Leads setup resolve first session) (alive : session.service.phase ≠ .ended) :
    session.arguments = arguments ∧ ∃ taken, Introduced setup.settings taken session := by
  obtain ⟨-, -, same⟩ := exists_accounted started later
  refine ⟨same, ?_⟩
  clear same
  induction later with
  | refl => exact ⟨[], Introduced.of_start started⟩
  | tail _ step ih =>
    obtain ⟨taken, introduced⟩ := ih (step.alive alive)
    exact introduced.step step alive

/-- When the engine takes a request, the given nodes are, in their order, those that the selection
of its round goes over and those whose hints still wait, which are no more than the queue holds. -/
theorem introduced_or_waiting {arguments : Arguments} {now : Moment} {portTaken : Bool}
    {first : Session} (started : start arguments setup now portTaken = .ok first)
    (later : Leads setup resolve first session)
    (handled : session.turn? setup resolve (.service .takeRequest) = some next) :
    ∃ taken, arguments.nodes = taken ++ session.service.hints ∧
      session.service.hints.length ≤ setup.settings.commandCapacity ∧
      ∀ contact ∈ taken, ∃ node ∈ session.service.search.table.walk setup.chance,
        node.address = contact.address := by
  obtain ⟨service, turned, -⟩ := Option.bind_eq_some_iff.mp handled
  cases Service.turn?_taken turned with
  | @requested infoHash rest outcome phase requests _ =>
    have alive : session.service.phase ≠ .ended := phase ▸ Phase.noConfusion
    obtain ⟨same, taken, introduced⟩ := exists_introduced started later alive
    have done : session.ahead = [] := by
      refine ahead_eq_nil fun nodes stage => ?_
      have none := introduced.first nodes stage
      rw [requests] at none
      cases none
    refine ⟨taken, ?_, introduced.room, fun contact member => ?_⟩
    · rw [← same, introduced.given, done, List.append_nil]
    · exact NodeTable.exists_mem_walk setup.chance (introduced.known contact member)

end Schedules

/-! ### A sample

Two nodes and a content are given, and the engine does not start before all three are queued. Then
it takes one of the hints, and the request before the other. -/

namespace Overtaking

open Sample

def arguments : Arguments where
  nodeId := some (identifier 1)
  noBootstrap := true
  infoHashes := [content]
  nodes := [⟨identifier 2, node⟩, ⟨identifier 3, peer 1⟩]

def setup : Setup := ⟨arguments.settings (identifier 1), Sample.setup.chance⟩

def scenes : List Scene :=
  [.turns [.addNode] 3, .turns [.request] 2, .turns [.service .bootstrap] 1,
    .turns [.service .takeHint] 1]

/-- The request can be taken while the second hint waits and its node is unknown. -/
theorem comesTo :
    ∃ first session next, start arguments setup 0 false = .ok first ∧
      Leads setup .literal first session ∧
      session.turn? setup .literal (.service .takeRequest) = some next ∧
      session.service.hints = [⟨identifier 3, peer 1⟩] ∧
      session.service.search.table.addresses = [node] := by
  have told : ((start arguments setup 0 false).toOption.bind fun first =>
      let session := first.play setup .literal scenes
      (session.turn? setup .literal (.service .takeRequest)).map fun _ =>
        (session.service.hints, session.service.search.table.addresses)) =
          some ([⟨identifier 3, peer 1⟩], [node]) := by
    decide +kernel
  obtain ⟨first, started, told⟩ := Option.bind_eq_some_iff.mp told
  obtain ⟨next, handled, same⟩ := Option.map_eq_some_iff.mp told
  obtain ⟨hints, addresses⟩ := Prod.mk.inj same
  exact ⟨first, _, next, Service.eq_ok_of_toOption started, leads_play scenes first, handled, hints,
    addresses⟩

end Overtaking

/-- A request can be taken before a hint that was queued earlier, and then the node of the hint is
no candidate for its round. -/
theorem exists_overtaken :
    ∃ first session next, start Overtaking.arguments Overtaking.setup 0 false = .ok first ∧
      Leads Overtaking.setup .literal first session ∧
      session.turn? Overtaking.setup .literal (.service .takeRequest) = some next ∧
      ∃ contact ∈ Overtaking.arguments.nodes,
        ∀ node ∈ session.service.search.table.walk Overtaking.setup.chance,
          node.address ≠ contact.address := by
  obtain ⟨first, session, next, started, later, handled, -, addresses⟩ := Overtaking.comesTo
  refine ⟨first, session, next, started, later, handled, _, List.mem_cons_of_mem _ (.head _), ?_⟩
  intro node member same
  have known : node.address ∈ session.service.search.table.addresses :=
    List.mem_map_of_mem ((NodeTable.walk_perm _ _).mem_iff.mp member)
  rw [addresses, same] at known
  revert known
  decide

/-- Of two given nodes one is a candidate, and the hint of the other waits. -/
theorem introduced_or_waiting_sample :
    ∃ first session next, start Overtaking.arguments Overtaking.setup 0 false = .ok first ∧
      Leads Overtaking.setup .literal first session ∧
      session.turn? Overtaking.setup .literal (.service .takeRequest) = some next ∧
      ∃ taken, Overtaking.arguments.nodes = taken ++ [⟨Sample.identifier 3, Sample.peer 1⟩] ∧
        ∀ contact ∈ taken, ∃ node ∈ session.service.search.table.walk Overtaking.setup.chance,
          node.address = contact.address := by
  obtain ⟨first, session, next, started, later, handled, hints, -⟩ := Overtaking.comesTo
  obtain ⟨taken, given, -, known⟩ := introduced_or_waiting started later handled
  rw [hints] at given
  exact ⟨first, session, next, started, later, handled, taken, given, known⟩

end PeerDiscovery.CommandLine.Session
