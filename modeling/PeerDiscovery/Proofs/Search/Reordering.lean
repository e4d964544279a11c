import Mathlib
import PeerDiscovery.Proofs.Search.Exchange

/-!
# The order of answers

Answers that refer to no nodes can be taken in any order: two neighbours can be exchanged, and
`receiveAll_perm` goes on by induction over a permutation. Only the batches depend on the order, as
a peer that two answers list is handed over with the first one. All batches together are what the
search found meanwhile (`Run.mem_published_iff`), so a client gets the same peers in any case.
-/

namespace PeerDiscovery

/-! ## Any number of datagrams -/

/-- Datagrams of which the order does not matter to a search. -/
structure Independent (search : Search) (packets : List Packet) : Prop where
  /-- No response refers to nodes. -/
  nodes : ∀ packet ∈ packets, ∀ response ∈ packet.response?, response.2.nodes = none
  /-- No two responses of one sender are under the same transaction identifier. -/
  distinct : (packets.filterMap Packet.ticket?).Nodup
  /-- The identifier of every sender that is known at all is known. -/
  identified : ∀ packet ∈ packets, ∀ node ∈ search.table.get? packet.sender, node.id.isSome = true

namespace Independent

variable {search : Search} {packet other : Packet} {packets others rest : List Packet}
  {now : Moment}

theorem perm (independent : Independent search packets) (same : packets.Perm others) :
    Independent search others where
  nodes packet member := independent.nodes packet (same.mem_iff.mpr member)
  distinct := (same.filterMap Packet.ticket?).nodup_iff.mp independent.distinct
  identified packet member := independent.identified packet (same.mem_iff.mpr member)

/-- What remains behind the first datagram is independent of what that changed. -/
theorem tail (independent : Independent search (packet :: rest)) (now : Moment) :
    Independent (search.receive now packet).1 rest where
  nodes other member := independent.nodes other (List.mem_cons_of_mem _ member)
  distinct := independent.distinct.sublist ((List.sublist_cons_self _ _).filterMap _)
  identified other member node found := by
    have before := independent.identified other (List.mem_cons_of_mem _ member)
    rw [Search.get?_receive] at found
    split at found
    · obtain ⟨old, foundOld, rfl⟩ := Option.map_eq_some_iff.mp found
      exact (old.hearing_keeps now packet).2 (before old foundOld)
    · exact before node found

theorem apart (independent : Independent search (packet :: other :: rest)) :
    packet.Apart other := by
  intro ticket mine theirs
  have distinct := independent.distinct
  rw [List.filterMap_cons_some mine, List.filterMap_cons_some theirs, List.nodup_cons] at distinct
  exact distinct.1 List.mem_cons_self

end Independent

namespace Search

variable {setup : Setup} {search : Search} {now : Moment} {packets others : List Packet}

/-- The search after taking in datagrams one after another. -/
def receiveAll (now : Moment) (packets : List Packet) (search : Search) : Search :=
  packets.foldl (fun search packet => (search.receive now packet).1) search

/-- Independent datagrams come to the same in any order. -/
theorem receiveAll_perm (independent : Independent search packets) (same : packets.Perm others) :
    search.receiveAll now packets = search.receiveAll now others := by
  induction same generalizing search with
  | nil => rfl
  | cons packet _ ih => exact ih (independent.tail now)
  | swap packet other rest =>
    have known := independent.identified other List.mem_cons_self
    exact congrArg (receiveAll now rest) (receive_comm independent.apart known)
  | trans first _ ih ih' => exact (ih independent).trans (ih' (independent.perm first))

/-- Without references a datagram is done with once it is taken in. -/
theorem handle?_of_no_references (setup : Setup) (search : Search) (now : Moment) (clock : Clock)
    {packet : Packet}
    (nobody : ∀ response, packet.response? = some response → response.2.nodes = none) :
    ∃ batch, search.handle? setup now clock (.packet packet) =
      some { search := (search.receive now packet).1, batch } := by
  change ∃ batch, search.packet? setup now clock packet = _
  rcases received : search.receive now packet with ⟨next, due⟩
  rw [packet?, received]
  cases due with
  | none => exact ⟨none, rfl⟩
  | some delivery =>
    obtain ⟨transaction, sender, reply, query, parsed, -, -, nodes⟩ :=
      matched_of_delivery (congrArg Prod.snd received)
    rw [nobody _ (Packet.response?_eq_some_iff.mpr ⟨sender, parsed⟩)] at nodes
    simp only [nodes, references, followAll?]
    exact ⟨delivery.batch?, rfl⟩

/-- Independent datagrams are all handled, and nothing is sent. -/
theorem exists_journal?_of_independent (setup : Setup) (independent : Independent search packets) :
    ∃ entries,
      search.journal? setup (packets.map fun packet => .undisturbed now (.packet packet)) =
          some (entries, search.receiveAll now packets) ∧
        ∀ entry ∈ entries, entry.outcome.activities = [] := by
  induction packets generalizing search with
  | nil => exact ⟨[], rfl, List.forall_mem_nil _⟩
  | cons packet rest ih =>
    obtain ⟨batch, handled⟩ := handle?_of_no_references setup search now (.still now)
      (independent.nodes packet List.mem_cons_self)
    obtain ⟨entries, recorded, quiet⟩ := ih (independent.tail now)
    refine ⟨⟨now, .still now, some (.packet packet), search,
      { search := (search.receive now packet).1, batch }⟩ :: entries, ?_,
      List.forall_mem_cons.mpr ⟨rfl, quiet⟩⟩
    rw [List.map_cons, journal?_cons, Event.undisturbed, handled, Option.bind_some, recorded]
    rfl

end Search

/-! ## Runs -/

section Runs

variable {setup : Setup} {resolve : Resolver} {journal entries : List Entry} {search last : Search}

/-- What is handed over in the course of the last part of a journal is what was found in it. -/
theorem Run.mem_published_iff (run : Run setup resolve journal search)
    (runs : Run setup resolve (journal ++ entries) last) {infoHash : InfoHash} {peer : Address} :
    peer ∈ published infoHash entries ↔
      peer ∈ last.peersOf infoHash ∧ peer ∉ search.peersOf infoHash := by
  have once := runs.tallied.nodup infoHash
  rw [published_append, List.nodup_append] at once
  rw [← run.tallied.mem_iff, ← runs.tallied.mem_iff, published_append, List.mem_append]
  constructor
  · intro new
    exact ⟨Or.inr new, fun old => once.2.2 peer old peer new rfl⟩
  · rintro ⟨old | new, unknown⟩
    · exact absurd old unknown
    · exact new

/-- Datagrams of which the order does not matter lead to the same search in any order, nothing is
sent, and every content gets the same peers. -/
theorem Run.reordered {packets others : List Packet} (run : Run setup resolve journal search)
    (independent : Independent search packets) (same : packets.Perm others) (now : Moment) :
    ∃ entries entries' last,
      search.journal? setup (packets.map fun packet => .undisturbed now (.packet packet)) =
          some (entries, last) ∧
        search.journal? setup (others.map fun packet => .undisturbed now (.packet packet)) =
          some (entries', last) ∧
        (∀ entry ∈ entries ++ entries', entry.outcome.activities = []) ∧
        ∀ infoHash peer,
          peer ∈ published infoHash entries ↔ peer ∈ published infoHash entries' := by
  obtain ⟨entries, recorded, quiet⟩ := Search.exists_journal?_of_independent setup independent
  obtain ⟨entries', recorded', quiet'⟩ :=
    Search.exists_journal?_of_independent setup (independent.perm same)
  rw [← Search.receiveAll_perm independent same] at recorded'
  refine ⟨entries, entries', _, recorded, recorded', List.forall_mem_append.mpr ⟨quiet, quiet'⟩, ?_⟩
  intro infoHash peer
  rw [run.mem_published_iff (run.journal? recorded), run.mem_published_iff (run.journal? recorded')]

namespace Sample

/-- A second node. -/
def companion : Address := .v4 ⟨10, 0, 0, 2⟩ 6881

/-- Both nodes are hinted at and asked. -/
def questions : List Search.Event :=
  [.undisturbed 0 (.hint ⟨identifier 2, node⟩), .undisturbed 0 (.hint ⟨identifier 3, companion⟩),
    .undisturbed 0 (.request content)]

/-- Two answers that have a peer in common, a response to nothing, and something unreadable. -/
def responses : List Packet :=
  [response node 0 [peer 1, peer 2], response companion 0 [peer 2, peer 3],
    response node 5 [peer 4], ⟨[0], node⟩]

/-- The events of datagrams that come in at 1. -/
def arrivals (packets : List Packet) : List Search.Event :=
  packets.map fun packet => .undisturbed 1 (.packet packet)

end Sample

/-- In the sample the batches depend on the order. -/
theorem Run.reordered_sample :
    ∃ journal search entries entries' last, Run Sample.setup .literal journal search ∧
      Independent search Sample.responses ∧
      Sample.responses.Perm Sample.responses.reverse ∧
      search.journal? Sample.setup (Sample.arrivals Sample.responses) = some (entries, last) ∧
      search.journal? Sample.setup (Sample.arrivals Sample.responses.reverse) =
        some (entries', last) ∧
      batches entries = [⟨Sample.content, [Sample.peer 1, Sample.peer 2]⟩,
        ⟨Sample.content, [Sample.peer 3]⟩] ∧
      batches entries' = [⟨Sample.content, [Sample.peer 2, Sample.peer 3]⟩,
        ⟨Sample.content, [Sample.peer 1]⟩] ∧
      (∀ entry ∈ entries ++ entries', entry.outcome.activities = []) ∧
      ∀ infoHash peer, peer ∈ published infoHash entries ↔ peer ∈ published infoHash entries' := by
  -- the kernel does not run the merge sort of a selection, and `cbv`, which does, takes equations
  -- from all over the library
  have told : (Search.start.journal? Sample.setup Sample.questions).map (fun recorded =>
      (Sample.responses.all fun packet =>
          (recorded.2.table.get? packet.sender).all fun node => node.id.isSome,
        (recorded.2.journal? Sample.setup (Sample.arrivals Sample.responses)).map
          fun recorded => batches recorded.1,
        (recorded.2.journal? Sample.setup (Sample.arrivals Sample.responses.reverse)).map
          fun recorded => batches recorded.1)) =
      some (true,
        some [⟨Sample.content, [Sample.peer 1, Sample.peer 2]⟩, ⟨Sample.content, [Sample.peer 3]⟩],
        some [⟨Sample.content, [Sample.peer 2, Sample.peer 3]⟩,
          ⟨Sample.content, [Sample.peer 1]⟩]) := by cbv
  obtain ⟨journal, search, run, same⟩ := Run.of_map_journal? told
  simp only [Prod.mk.injEq, List.all_eq_true, Option.all_eq_true] at same
  obtain ⟨identified, handed, handed'⟩ := same
  have independent : Independent search Sample.responses :=
    ⟨by decide +kernel, by decide +kernel, identified⟩
  have reversed := Sample.responses.reverse_perm.symm
  obtain ⟨entries, entries', last, recorded, recorded', quiet, sets⟩ :=
    run.reordered independent reversed 1
  rw [Sample.arrivals, recorded, Option.map_some, Option.some.injEq] at handed
  rw [Sample.arrivals, recorded', Option.map_some, Option.some.injEq] at handed'
  exact ⟨journal, search, entries, entries', last, run, independent, reversed, recorded, recorded',
    handed, handed', quiet, sets⟩

end Runs

end PeerDiscovery
