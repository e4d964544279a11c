import PeerDiscovery.Proofs.Search.Journal
import PeerDiscovery.Proofs.Service.Inversion

/-!
# Services and runs

The tasks of a service take turns in any order, but only the engine touches the search, and it does
one thing at a time. So the search of a service always has a journal (`Service.Recorded`), in which
the requests stand in the order in which they were queued (`Service.Recorded.step`): what holds of
every run holds of every service.
-/

namespace PeerDiscovery

/-! ## The journal of a service -/

/-- The content that an entry handled a request for. -/
def Entry.request? (entry : Entry) : Option InfoHash :=
  match entry.stimulus with
  | some (.request infoHash) => some infoHash
  | _ => none

/-- The requests that a journal handled, in their order. -/
def requestsOf (journal : List Entry) : List InfoHash := journal.filterMap Entry.request?

theorem requestsOf_append (first second : List Entry) :
    requestsOf (first ++ second) = requestsOf first ++ requestsOf second :=
  List.filterMap_append

theorem mem_requestsOf {journal : List Entry} {infoHash : InfoHash} :
    infoHash ∈ requestsOf journal ↔
      ∃ entry ∈ journal, entry.stimulus = some (.request infoHash) := by
  have same (entry : Entry) :
      entry.request? = some infoHash ↔ entry.stimulus = some (.request infoHash) := by
    obtain ⟨heard, clock, stimulus, before, outcome⟩ := entry
    rcases stimulus with - | contact | content | packet <;> simp [Entry.request?]
  simp only [requestsOf, List.mem_filterMap, same]

namespace Search

variable {setup : Setup} {search received : Search} {heard : Moment} {clock : Clock}
  {packet : Packet}

theorem handle?_of_none (taken : search.receive heard packet = (received, none)) :
    search.handle? setup heard clock (.packet packet) = some { search := received } := by
  rw [handle?, packet?, taken]

theorem handle?_of_delivery {delivery : Delivery} {outcome : Outcome}
    (taken : search.receive heard packet = (received, some delivery))
    (followed : received.followAll? setup clock delivery.infoHash (references delivery.nodes) =
      some outcome) :
    search.handle? setup heard clock (.packet packet) =
      some { outcome with batch := delivery.batch? } := by
  rw [handle?, packet?, taken]
  dsimp only
  rw [followed]
  rfl

end Search

namespace Service

variable {setup : Setup} {resolve : Resolver} {journal : List Entry} {service next : Service}
  {turn : Turn}

/-- The journal leads to the search of a service. In the middle of a datagram it leads to the search
before that datagram. -/
def Recorded (setup : Setup) (resolve : Resolver) (journal : List Entry) (service : Service) :
    Prop :=
  match service.phase with
  | .starting => journal = [] ∧ service.search = .start
  | .serving => Run setup resolve journal service.search
  | .publishing delivery => ∃ before heard packet, Run setup resolve journal before ∧
    before.receive heard packet = (service.search, some delivery)
  | .ended => ∃ last, Run setup resolve journal last

namespace Recorded

theorem of_eq (recorded : Recorded setup resolve journal service)
    (phase : next.phase = service.phase) (search : next.search = service.search) :
    Recorded setup resolve journal next := by
  unfold Recorded at recorded ⊢
  rwa [phase, search]

theorem starting (recorded : Recorded setup resolve journal service)
    (phase : service.phase = .starting) : journal = [] ∧ service.search = .start := by
  unfold Recorded at recorded
  rwa [phase] at recorded

theorem serving (recorded : Recorded setup resolve journal service)
    (phase : service.phase = .serving) : Run setup resolve journal service.search := by
  unfold Recorded at recorded
  rwa [phase] at recorded

theorem publishing (recorded : Recorded setup resolve journal service) {delivery : Delivery}
    (phase : service.phase = .publishing delivery) :
    ∃ before heard packet, Run setup resolve journal before ∧
      before.receive heard packet = (service.search, some delivery) := by
  unfold Recorded at recorded
  rwa [phase] at recorded

/-- The engine is done with a stimulus. -/
theorem handled {before : Search} {heard : Moment} {clock : Clock} {stimulus : Stimulus}
    {outcome : Outcome} (run : Run setup resolve journal before)
    (handled : before.handle? setup heard clock stimulus = some outcome)
    (phase : next.phase = .serving) (search : next.search = outcome.search) :
    Recorded setup resolve (journal ++ [⟨heard, clock, some stimulus, before, outcome⟩]) next := by
  unfold Recorded
  rw [phase, search]
  exact run.handled heard clock handled

/-- A turn adds at most one entry, and takes a request off the front of the queue if that is what
the entry handled. -/
theorem step (recorded : Recorded setup resolve journal service)
    (taken : Taken setup resolve service turn next) :
    ∃ entries, Recorded setup resolve (journal ++ entries) next ∧
      service.requests = requestsOf entries ++ next.requests := by
  -- where nothing is handled, nothing is added
  have idle {next : Service} (kept : Recorded setup resolve journal next)
      (requests : next.requests = service.requests) :
      ∃ entries, Recorded setup resolve (journal ++ entries) next ∧
        service.requests = requestsOf entries ++ next.requests :=
    ⟨[], (List.append_nil journal).symm ▸ kept, requests.symm⟩
  cases taken with
  | joined phase joined =>
    obtain ⟨rfl, start⟩ := recorded.starting phase
    rw [start] at joined
    exact ⟨[_], Run.joined service.now (.still service.now) _ joined, rfl⟩
  | @hinted contact rest outcome phase hints taken =>
    exact ⟨[⟨service.now, .still service.now, some (.hint contact), service.search, outcome⟩],
      handled (recorded.serving phase) taken rfl rfl, rfl⟩
  | @requested infoHash rest outcome phase requests taken =>
    exact ⟨[⟨service.now, .still service.now, some (.request infoHash), service.search, outcome⟩],
      handled (recorded.serving phase) taken rfl rfl, requests⟩
  | @received packet rest search pace phase packets received =>
    exact ⟨[⟨service.now, .still service.now, some (.packet packet), service.search, { search }⟩],
      handled (recorded.serving phase) (Search.handle?_of_none received) phase rfl, rfl⟩
  | @followed packet rest search delivery outcome pace phase packets received _ following =>
    exact ⟨[⟨service.now, .paced service.now pace, some (.packet packet), service.search,
        { outcome with batch := delivery.batch? }⟩],
      handled (recorded.serving phase) (Search.handle?_of_delivery received following) rfl rfl,
      rfl⟩
  | held phase packets received _ =>
    exact idle ⟨service.search, service.now, _, recorded.serving phase, received⟩ rfl
  | @lost delivery outcome pace phase _ following
  | @published delivery outcome pace phase _ _ following =>
    obtain ⟨before, heard, packet, run, received⟩ := recorded.publishing phase
    exact ⟨[⟨heard, .paced service.now pace, some (.packet packet), before,
        { outcome with batch := delivery.batch? }⟩],
      handled run (Search.handle?_of_delivery received following) rfl rfl, rfl⟩
  | stopped phase _ _ => exact idle ⟨service.search, recorded.serving phase⟩ rfl
  | read | failed | forwarded | dropped => exact idle (recorded.of_eq rfl rfl) rfl

end Recorded

end Service

end PeerDiscovery
