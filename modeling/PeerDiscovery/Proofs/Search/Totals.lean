import PeerDiscovery.Proofs.Search.Conservation
import PeerDiscovery.Proofs.Search.Correlation
import PeerDiscovery.Proofs.Search.Footprint

/-!
# What the counters count

A counter wraps, so what it shows is not how much was counted. `total` counts the same things
without a bound, entry by entry, and `Run.shows_eq` says that a counter shows its total up to a
multiple of 2^64. So a counter that did not wrap never goes back (`Run.shows_le`). -/

namespace PeerDiscovery

/-- The counters of a search. -/
inductive Counter where
  | nodesCreated
  | duplicateNodes
  | peersFound
  | getPeersSent
  | pingsSent
  | responsesMatched
  | staleResponses
deriving DecidableEq

/-- What a counter shows. -/
def Stats.shows (stats : Stats) : Counter → UInt64
  | .nodesCreated => stats.nodesCreated
  | .duplicateNodes => stats.duplicateNodes
  | .peersFound => stats.peersFound
  | .getPeersSent => stats.getPeersSent
  | .pingsSent => stats.pingsSent
  | .responsesMatched => stats.responsesMatched
  | .staleResponses => stats.staleResponses

/-- How many queries of a method an outcome records. -/
def Outcome.count (method : Method) (outcome : Outcome) : Nat :=
  outcome.queries.countP fun recorded => recorded.2.method = method

namespace Entry

/-- How many nodes joined the table. -/
def joined (entry : Entry) : Nat :=
  entry.outcome.search.table.size - entry.before.table.size

/-- How many pings were sent. Of the ping at the router only the count tells whether it was. -/
def pings (entry : Entry) : Nat :=
  match entry.stimulus with
  | none => entry.outcome.search.stats.pingsSent.toNat
  | some _ => entry.outcome.count .ping

/-- How much an entry adds to a counter. -/
def gain (entry : Entry) : Counter → Nat
  | .nodesCreated => entry.joined
  | .duplicateNodes => entry.referred - entry.joined
  | .peersFound => (entry.outcome.batch.map fun batch => batch.peers.length).getD 0
  | .getPeersSent => entry.outcome.count .getPeers
  | .pingsSent => entry.pings
  | .responsesMatched => if entry.answered?.isSome then 1 else 0
  | .staleResponses => if entry.hears && entry.answered?.isNone then 1 else 0

end Entry

/-- How much a journal adds to a counter. -/
def total (counter : Counter) (journal : List Entry) : Nat :=
  (journal.map fun entry => entry.gain counter).sum

@[simp] theorem total_append (counter : Counter) (first second : List Entry) :
    total counter (first ++ second) = total counter first + total counter second := by
  rw [total, List.map_append, List.sum_append]
  rfl

theorem total_singleton (counter : Counter) (entry : Entry) :
    total counter [entry] = entry.gain counter :=
  Nat.add_zero _

/-! ## Queries by method -/

namespace Outcome

variable {outcome : Outcome} {method other : Method}

/-- If all queries are of one method, all of them count for it. -/
theorem count_eq_length (all : ∀ recorded ∈ outcome.queries, recorded.2.method = method) :
    outcome.count method = outcome.queries.length :=
  List.countP_eq_length.mpr fun recorded member => decide_eq_true (all recorded member)

theorem count_eq_zero (all : ∀ recorded ∈ outcome.queries, recorded.2.method = method)
    (different : method ≠ other) : outcome.count other = 0 := by
  refine List.countP_eq_zero.mpr fun recorded member => ?_
  rw [decide_eq_true_eq, all recorded member]
  exact different

end Outcome

/-! ## Entries -/

section Entries

variable {setup : Setup} {resolve : Resolver} {journal : List Entry} {search : Search}
  {heard : Moment} {clock : Clock} {outcome : Outcome}

/-- The entry counts what the search counted. -/
def Entry.Tells (entry : Entry) : Prop :=
  ∀ counter, entry.outcome.search.stats.shows counter =
    entry.before.stats.shows counter + .ofNat (entry.gain counter)

/-- As many nodes joined as the table has more. -/
theorem Entry.joined_of_size_eq {entry : Entry} {created : Nat}
    (size : entry.outcome.search.table.size = entry.before.table.size + created) :
    entry.joined = created := by
  rw [joined, size, Nat.add_sub_cancel_left]

/-- What is no datagram is told by the queries that it leads to. -/
theorem Entry.tells_of_counted {stimulus : Stimulus} {created pings questions : Nat}
    (counted : Counted search outcome.search created 0 pings questions)
    (sent : outcome.count .ping = pings) (asked : outcome.count .getPeers = questions)
    (same : SameFindings search outcome.search) (quiet : outcome.batch = none)
    (other : ∀ packet, stimulus ≠ .packet packet) :
    Entry.Tells ⟨heard, clock, some stimulus, search, outcome⟩ := by
  obtain ⟨unanswered, deaf, none⟩ :
      Entry.answered? ⟨heard, clock, some stimulus, search, outcome⟩ = none ∧
        Entry.hears ⟨heard, clock, some stimulus, search, outcome⟩ = false ∧
        Entry.referred ⟨heard, clock, some stimulus, search, outcome⟩ = 0 := by
    cases stimulus with
    | hint | request => exact ⟨rfl, rfl, rfl⟩
    | packet packet => exact absurd rfl (other packet)
  intro counter
  cases counter with
  | nodesCreated =>
    rw [Entry.gain, Entry.joined_of_size_eq counted.size_eq]
    exact counted.nodesCreated_eq
  | duplicateNodes =>
    rw [Entry.gain, none, Nat.zero_sub]
    exact counted.duplicateNodes_eq
  | peersFound =>
    simp only [Entry.gain, quiet]
    exact same.peersFound.trans (UInt64.add_zero _).symm
  | getPeersSent =>
    rw [Entry.gain, asked]
    exact counted.getPeersSent_eq
  | pingsSent =>
    rw [Entry.gain, Entry.pings, sent]
    exact counted.pingsSent_eq
  | responsesMatched =>
    rw [Entry.gain, unanswered]
    exact same.responsesMatched.trans (UInt64.add_zero _).symm
  | staleResponses =>
    rw [Entry.gain, deaf]
    exact same.staleResponses.trans (UInt64.add_zero _).symm

/-- What a hint counts is what it did. -/
theorem Entry.tells_of_hint {contact : Contact}
    (taken : search.hint? setup contact = some outcome) :
    Entry.Tells ⟨heard, clock, some (.hint contact), search, outcome⟩ := by
  have pings : ∀ recorded ∈ outcome.queries, recorded.2.method = .ping := by
    rcases Search.hint?_cases taken with rfl | ⟨-, pinged⟩
    · exact List.forall_mem_nil _
    · obtain ⟨transaction, opened, -, rfl⟩ := Search.ping?_eq_some_iff.mp pinged
      exact List.forall_mem_singleton.mpr rfl
  exact tells_of_counted (Counted.hint taken) (Outcome.count_eq_length pings)
    (Outcome.count_eq_zero pings (by decide)) (.hint taken) (Search.batch_of_hint? taken) (by simp)

theorem Entry.tells_of_request {infoHash : InfoHash}
    (taken : search.request? setup heard infoHash = some outcome) :
    Entry.Tells ⟨heard, clock, some (.request infoHash), search, outcome⟩ := by
  have questions : ∀ recorded ∈ outcome.queries, recorded.2.method = .getPeers := by
    obtain ⟨asked, last, -, rfl⟩ := Search.round?_eq_some_iff.mp taken
    intro recorded member
    rw [Outcome.queries, List.flatMap_singleton] at member
    obtain ⟨query, -, rfl⟩ := List.mem_map.mp member
    rfl
  exact tells_of_counted (Counted.request taken) (Outcome.count_eq_zero questions (by decide))
    (Outcome.count_eq_length questions) (.request taken) (Search.batch_of_request? taken) (by simp)

/-- Taking in a datagram counts the peers that it delivers. -/
theorem Search.receive_peersFound (search : Search) (now : Moment) (packet : Packet) :
    (search.receive now packet).1.stats.peersFound = search.stats.peersFound +
      .ofNat (((search.receive now packet).2.map fun delivery =>
        delivery.fresh.length).getD 0) := by
  have reception := search.receive_reception now packet
  generalize search.receive now packet = received at reception ⊢
  cases reception with
  | ignored | stale | closed => exact (UInt64.add_zero _).symm
  | delivered =>
    unfold takePeers
    split
    · exact (UInt64.add_zero _).symm
    · rfl

/-- A batch has as many peers as the delivery has fresh ones. -/
theorem Delivery.length_batch? (delivery : Delivery) :
    (delivery.batch?.map fun batch => batch.peers.length).getD 0 = delivery.fresh.length := by
  rw [batch?]
  split
  · rename_i none
    rw [List.isEmpty_iff.mp none]
    rfl
  · rfl

/-- What a datagram counts is what it did, and what its references did. -/
theorem Entry.tells_of_packet (restrained : Restrained setup (history journal) search)
    {packet : Packet}
    (handled : search.handle? setup heard clock (.packet packet) = some outcome) :
    Entry.Tells ⟨heard, clock, some (.packet packet), search, outcome⟩ := by
  have received := search.receive_received heard packet
  obtain ⟨created, duplicates, referred, counted, same⟩ := Counted.packet restrained handled
  have size : outcome.search.table.size = search.table.size + created :=
    counted.size_eq.trans (congrArg (· + created) received.size_eq)
  have joined : Entry.joined ⟨heard, clock, some (.packet packet), search, outcome⟩ = created :=
    Entry.joined_of_size_eq size
  have peers : outcome.search.stats.peersFound = search.stats.peersFound +
        .ofNat ((outcome.batch.map fun batch => batch.peers.length).getD 0) ∧
      ∀ recorded ∈ outcome.queries, recorded.2.method = .getPeers := by
    rw [same.peersFound, Search.receive_peersFound]
    rcases Search.handle?_packet_cases handled with
      ⟨quiet, rfl⟩ | ⟨delivery, followed, brought, following, rfl⟩
    · rw [quiet]
      exact ⟨rfl, List.forall_mem_nil _⟩
    · rw [brought, Delivery.length_batch?]
      exact ⟨rfl, fun recorded member => ((Explores.followAll following).about recorded member).1⟩
  have pings : outcome.count .ping = 0 := Outcome.count_eq_zero peers.2 (by decide)
  have asked : outcome.count .getPeers = outcome.queries.length := Outcome.count_eq_length peers.2
  have answered : (Entry.answered? ⟨heard, clock, some (.packet packet), search, outcome⟩) =
      (search.matched? heard packet).map fun query => (packet.sender, query) := rfl
  intro counter
  cases counter with
  | nodesCreated =>
    rw [Entry.gain, joined]
    exact counted.nodesCreated_eq.trans (congrArg (· + _) received.nodesCreated_eq)
  | duplicateNodes =>
    rw [Entry.gain, joined, referred, Nat.add_sub_cancel_left]
    exact counted.duplicateNodes_eq.trans (congrArg (· + _) received.duplicateNodes_eq)
  | peersFound => exact peers.1
  | getPeersSent =>
    rw [Entry.gain, asked]
    exact counted.getPeersSent_eq.trans (congrArg (· + _) received.getPeersSent_eq)
  | pingsSent =>
    rw [Entry.gain, Entry.pings, pings]
    exact counted.pingsSent_eq.trans (congrArg (· + _) received.pingsSent_eq)
  | responsesMatched =>
    rw [Entry.gain, answered, Option.isSome_map]
    refine same.responsesMatched.trans (received.matched_eq.trans ?_)
    split <;> rfl
  | staleResponses =>
    rw [Entry.gain, answered, Option.isNone_map]
    refine same.staleResponses.trans (received.stale_eq.trans ?_)
    rw [Entry.hears]
    split <;> rfl

/-- What joining the network counts is what it did: a ping that could not be sent is not counted. -/
theorem Entry.tells_of_bootstrap {sendFails : Bool} {result : Except BootstrapError Unit}
    (joined : Search.start.bootstrap? setup resolve sendFails = some (result, outcome)) :
    Entry.Tells ⟨heard, clock, none, .start, outcome⟩ := by
  have same := SameFindings.bootstrap joined
  intro counter
  cases counter with
  | peersFound =>
    simp only [Entry.gain, Search.batch_of_bootstrap? joined]
    exact same.peersFound.trans (UInt64.add_zero _).symm
  | responsesMatched => exact same.responsesMatched.trans (UInt64.add_zero _).symm
  | staleResponses => exact same.staleResponses.trans (UInt64.add_zero _).symm
  | pingsSent =>
    rw [Entry.gain, Entry.pings, UInt64.ofNat_toNat]
    exact (UInt64.zero_add _).symm
  | nodesCreated | duplicateNodes | getPeersSent =>
    rcases Search.bootstrap?_cases joined with
      ⟨rfl, -⟩ | ⟨address, transaction, opened, opening, rfl, -⟩
    · rfl
    · obtain ⟨size, -, stats⟩ := Search.openQuery?_counts opening
      have one : opened.table.size = 1 := size.trans (NodeTable.size_add rfl)
      simp only [Stats.shows, stats, Entry.gain, Entry.joined, one]
      rfl

/-- Every entry of a run tells what was counted. -/
theorem Entry.Done.tells {entry : Entry} (run : Run setup resolve journal entry.before)
    (done : entry.Done setup resolve) : entry.Tells := by
  obtain ⟨heard, clock, stimulus, before, outcome⟩ := entry
  cases stimulus with
  | none =>
    obtain ⟨start, sendFails, result, joined⟩ := done
    obtain rfl : before = .start := start
    exact tells_of_bootstrap joined
  | some stimulus =>
    cases stimulus with
    | hint contact => exact tells_of_hint done
    | request infoHash => exact tells_of_request done
    | packet packet => exact tells_of_packet run.restrained done

end Entries

/-! ## Runs -/

section Runs

variable {setup : Setup} {resolve : Resolver} {journal entries : List Entry}
  {search later : Search}

/-- A counter shows its total up to a multiple of 2^64. -/
theorem Run.shows_eq (run : Run setup resolve journal search) (counter : Counter) :
    search.stats.shows counter = .ofNat (total counter journal) := by
  refine run.entrywise ?_ ?_
  · cases counter <;> rfl
  · intro journal entry run ih done
    rw [done.tells run counter, ih, total_append, total_singleton, UInt64.ofNat_add]

/-- A counter whose total did not reach 2^64 never went back. -/
theorem Run.shows_le (first : Run setup resolve journal search)
    (second : Run setup resolve (journal ++ entries) later) {counter : Counter}
    (short : total counter (journal ++ entries) < UInt64.size) :
    search.stats.shows counter ≤ later.stats.shows counter := by
  have less : total counter journal ≤ total counter (journal ++ entries) := by
    rw [total_append]
    exact Nat.le_add_right _ _
  rw [first.shows_eq, second.shows_eq, UInt64.le_iff_toNat_le,
    UInt64.toNat_ofNat_of_lt' (Nat.lt_of_le_of_lt less short), UInt64.toNat_ofNat_of_lt' short]
  exact less

end Runs

end PeerDiscovery
