import PeerDiscovery.Proofs.KnownNode.Numbering
import PeerDiscovery.Proofs.Search.Exchange
import PeerDiscovery.Proofs.Search.Growth

/-!
# Datagrams that come again

A network may deliver a datagram twice. The first time a response closes its query; by the second
time the number of that query may have been used again, since following the references of an answer
may ask its sender once more. Among the first 65536 queries of a node no number comes twice
(`Dealings.pending_of_answered`), so until then the second time finds nothing to close, and all that
it does is to be counted as stale (`Run.harmless`).
-/

namespace PeerDiscovery

/-! ## Taking in what closes nothing -/

theorem NodeTable.replace_self {table : NodeTable} {address : Address} {node : KnownNode}
    (found : table.get? address = some node) : table.replace node = table := by
  refine NodeTable.ext_get? (map_replace_addresses _ _) fun other => ?_
  have own := get?_address found
  rw [get?_replace]
  split
  · rename_i here
    rw [← here, own]
    rfl
  · rfl

namespace Search

variable {setup : Setup} {search : Search} {now heard : Moment} {clock : Clock} {packet : Packet}
  {outcome : Outcome}

/-- What is no response of a known node changes nothing. -/
theorem receive_of_deaf (deaf : search.hears packet = false) (now : Moment) :
    search.receive now packet = (search, none) := by
  have reception := search.receive_reception now packet
  generalize search.receive now packet = received at reception ⊢
  cases reception with
  | ignored => rfl
  | stale parsed found | closed parsed found | delivered parsed found =>
    rw [hears_of_parse parsed, found] at deaf
    cases deaf

/-- A response that closes nothing is only counted, where its sender's identifier is known. -/
theorem receive_of_unmatched (heard : search.hears packet = true)
    (unmatched : search.matched? now packet = none)
    (identified : ∃ node, search.table.get? packet.sender = some node ∧ node.id.isSome = true) :
    search.receive now packet =
      ({ search with stats.staleResponses := search.stats.staleResponses + 1 }, none) := by
  obtain ⟨node, own, known⟩ := identified
  have reception := search.receive_reception now packet
  generalize search.receive now packet = received at reception ⊢
  cases reception with
  | ignored silent =>
    rw [hears_eq, Bool.and_eq_true, Option.isSome_iff_exists] at heard
    obtain ⟨⟨response, answers⟩, -⟩ := heard
    obtain ⟨sender, parsed⟩ := Packet.response?_eq_some_iff.mp answers
    rw [silent _ _ _ parsed] at own
    cases own
  | stale _ found =>
    obtain rfl := Option.some.inj (own.symm.trans found)
    rw [KnownNode.identified_of_isSome known, NodeTable.replace_self found]
  | closed _ _ _ matched | delivered _ _ _ matched =>
    rw [unmatched] at matched
    cases matched

/-- Once a response of a known node was handled, the identifier of the node is known. -/
theorem identified_of_handle? (hears : search.hears packet = true)
    (handled : search.handle? setup heard clock (.packet packet) = some outcome) :
    ∃ node, outcome.search.table.get? packet.sender = some node ∧ node.id.isSome = true := by
  rw [hears_eq, Bool.and_eq_true, Option.isSome_iff_exists, NodeTable.contains_eq_isSome,
    Option.isSome_iff_exists] at hears
  obtain ⟨⟨⟨transaction, reply⟩, answers⟩, node, found⟩ := hears
  have told : (search.receive heard packet).1.table.get? packet.sender =
      some (node.hearing heard packet) := by
    rw [get?_receive, if_pos rfl, found]
    rfl
  have known : (node.hearing heard packet).id = some (node.id.getD reply.id) := by
    rw [KnownNode.hearing, answers]
    exact ((node.identified reply.id).address_settled heard transaction).2
  obtain ⟨later, foundLater, kept⟩ := NodeTable.Retains.packet handled _ _ told
  exact ⟨later, foundLater, by rw [kept _ known]; rfl⟩

/-- A datagram that closed nothing would close nothing if it came again at once. -/
theorem matched?_of_unmatched (unmatched : search.matched? heard packet = none)
    (handled : search.handle? setup heard clock (.packet packet) = some outcome) :
    outcome.search.matched? now packet = none := by
  rcases handle?_packet_cases handled with ⟨-, rfl⟩ | ⟨delivery, followed, brought, -, -⟩
  · rw [matched?_eq] at unmatched ⊢
    cases answers : packet.response? with
    | none => rfl
    | some response =>
      rw [answers, Option.bind_some] at unmatched
      rw [Option.bind_some, get?_receive, if_pos rfl]
      cases found : search.table.get? packet.sender with
      | none => rfl
      | some node =>
        rw [found] at unmatched
        have nothing : (node.identified response.2.id).owed? response.1 = none := unmatched
        rw [Option.map_some, Option.bind_some, KnownNode.hearing, answers]
        dsimp only
        rw [KnownNode.settled_of_owed?_eq_none nothing]
        exact nothing
  · obtain ⟨_, _, _, query, -, matched, -⟩ := matched_of_delivery brought
    rw [unmatched] at matched
    cases matched

end Search

/-! ## Tickets -/

theorem Packet.sender_of_ticket? {packet : Packet} {address : Address} {transaction : Bytes}
    (ticket : packet.ticket? = some (address, transaction)) : packet.sender = address := by
  obtain ⟨response, -, same⟩ := Option.map_eq_some_iff.mp ticket
  exact (Prod.mk.inj same).1

/-- A datagram closes the query that waits at its sender under the number that it names. -/
theorem Search.waiting_of_matched? {search : Search} {now : Moment} {packet : Packet}
    {query : Query} (matched : search.matched? now packet = some query) :
    ∃ number, packet.ticket? = some (packet.sender, Bytes.ofWord number) ∧
      search.waiting packet.sender number = some query := by
  obtain ⟨number, sender, reply, node, parsed, found, waiting⟩ := matched?_eq_some_iff.mp matched
  refine ⟨number, ?_, ?_⟩
  · rw [Packet.ticket?, Packet.response?_eq_some_iff.mpr ⟨sender, parsed⟩]
    rfl
  · rw [Search.waiting, found]
    exact waiting

theorem Bytes.ofWord_inj {one other : UInt16} (same : Bytes.ofWord one = Bytes.ofWord other) :
    one = other := by
  have read := Bytes.toWord?_ofWord one
  rw [same, Bytes.toWord?_ofWord] at read
  exact (Option.some.inj read).symm

namespace Explains

variable {setup : Setup} {history : List Occurrence} {search : Search}

/-- What waits under a number has that number. -/
theorem transaction_of_waiting (explained : Explains setup history search.table)
    {address : Address} {number : UInt16} {query : Query}
    (waiting : search.waiting address number = some query) : query.transaction = number := by
  obtain ⟨node, found, pending⟩ := Option.bind_eq_some_iff.mp waiting
  exact (explained.life found).dealings.transaction_eq pending

/-- Until the numbers of a node are used again, no response closes a query under the number of one
that was answered. -/
theorem matched?_of_answered (explained : Explains setup history search.table)
    {address : Address} (few : (queriesAt address history).length ≤ KnownNode.transactionCount)
    {query : Query} (answered : query ∈ answersAt address history) {packet : Packet}
    (ticket : packet.ticket? = some (address, Bytes.ofWord query.transaction)) (now : Moment) :
    search.matched? now packet = none := by
  cases matched : search.matched? now packet with
  | none => rfl
  | some other =>
    obtain ⟨number, named, waiting⟩ := Search.waiting_of_matched? matched
    obtain ⟨rfl, words⟩ := Prod.mk.inj (Option.some.inj (named.symm.trans ticket))
    obtain rfl := Bytes.ofWord_inj words
    obtain ⟨node, found, pending⟩ := Option.bind_eq_some_iff.mp waiting
    obtain ⟨time, member⟩ := mem_answersAt.mp answered
    have here : query ∈ answersAt packet.sender (occurrencesAt packet.sender history) :=
      mem_answersAt.mpr ⟨time, mem_occurrencesAt.mpr ⟨member, rfl⟩⟩
    rw [← queriesAt_occurrencesAt] at few
    rw [(explained.life found).dealings.pending_of_answered few here] at pending
    cases pending

end Explains

/-! ## Runs -/

/-- What a search promises about datagrams that come again, as long as no more than 65536 queries
were recorded at their sender. -/
structure Harmless (setup : Setup) (journal : List Entry) (search : Search) : Prop where
  /-- The second time in a row a datagram neither asks nor hands over anything, and leaves the
  search as it is, but that a response of a known node is counted as stale. -/
  again : ∀ {heard clock packet outcome},
    search.handle? setup heard clock (.packet packet) = some outcome →
    (queriesAt packet.sender (history
      (journal ++ [⟨heard, clock, some (.packet packet), search, outcome⟩]))).length ≤
        KnownNode.transactionCount →
    ∀ heardAgain clockAgain,
      outcome.search.handle? setup heardAgain clockAgain (.packet packet) =
        some { search := { outcome.search with stats.staleResponses :=
          outcome.search.stats.staleResponses + if search.hears packet then 1 else 0 } }
  /-- Of two responses of one sender under one transaction identifier, the same response or not, at
  most one closes a query, whatever lies between them. -/
  once : ∀ {before between after first second packet other},
    journal = before ++ first :: (between ++ second :: after) →
    first.stimulus = some (.packet packet) → second.stimulus = some (.packet other) →
    packet.ticket? = other.ticket? →
    (queriesAt packet.sender (history (before ++ first :: between))).length ≤
      KnownNode.transactionCount →
    first.answered? = none ∨ second.answered? = none

section Runs

variable {setup : Setup} {resolve : Resolver} {journal : List Entry} {search : Search}

/-- An entry that answered a query took in a response under the number of the query. -/
theorem Run.ticket_of_answered {entry : Entry} (run : Run setup resolve journal entry.before)
    {packet : Packet} (shown : entry.stimulus = some (.packet packet)) {address : Address}
    {query : Query} (answered : entry.answered? = some (address, query)) :
    packet.ticket? = some (address, Bytes.ofWord query.transaction) := by
  obtain ⟨payload, shownToo, matched⟩ := Entry.answered?_eq_some_iff.mp answered
  obtain rfl : packet = ⟨payload, address⟩ := by simpa using shown.symm.trans shownToo
  obtain ⟨number, ticket, waiting⟩ := Search.waiting_of_matched? matched
  rw [run.explains.transaction_of_waiting waiting]
  exact ticket

theorem Entry.answered?_of_packet {entry : Entry} {packet : Packet}
    (shown : entry.stimulus = some (.packet packet)) :
    entry.answered? = (entry.before.matched? entry.heard packet).map fun query =>
      (packet.sender, query) := by
  rw [answered?, shown]

theorem Entry.mem_answersAt {entry : Entry} {address : Address} {query : Query}
    (answered : entry.answered? = some (address, query)) :
    query ∈ answersAt address entry.occurrences := by
  refine PeerDiscovery.mem_answersAt.mpr ⟨entry.heard, ?_⟩
  rw [occurrences, answered]
  exact List.mem_append_left _ List.mem_cons_self

theorem Run.answered_once (run : Run setup resolve journal search)
    {before between after : List Entry} {first second : Entry} {packet other : Packet}
    (split : journal = before ++ first :: (between ++ second :: after))
    (shown : first.stimulus = some (.packet packet))
    (shownToo : second.stimulus = some (.packet other)) (same : packet.ticket? = other.ticket?)
    (few : (queriesAt packet.sender (history (before ++ first :: between))).length ≤
      KnownNode.transactionCount) :
    first.answered? = none ∨ second.answered? = none := by
  cases answered : first.answered? with
  | none => exact Or.inl rfl
  | some answer =>
    refine Or.inr ?_
    obtain ⟨address, query⟩ := answer
    have ticket := (run.before_entry split).1.ticket_of_answered shown answered
    rw [Packet.sender_of_ticket? ticket] at few
    have again : journal = (before ++ first :: between) ++ second :: after := by
      rw [split, List.append_assoc, List.cons_append]
    have member : query ∈ answersAt address (history (before ++ first :: between)) := by
      rw [history_append, answersAt_append]
      refine List.mem_append_right _ ?_
      rw [← List.singleton_append, history_append, answersAt_append, history_singleton]
      exact List.mem_append_left _ (Entry.mem_answersAt answered)
    have unmatched := (run.before_entry again).1.explains.matched?_of_answered few member
      (same.symm.trans ticket) second.heard
    rw [Entry.answered?_of_packet shownToo, unmatched]
    rfl

theorem Run.handled_again (run : Run setup resolve journal search) {heard : Moment} {clock : Clock}
    {packet : Packet} {outcome : Outcome}
    (handled : search.handle? setup heard clock (.packet packet) = some outcome)
    (few : (queriesAt packet.sender (history
      (journal ++ [⟨heard, clock, some (.packet packet), search, outcome⟩]))).length ≤
        KnownNode.transactionCount) (heardAgain : Moment) (clockAgain : Clock) :
    outcome.search.handle? setup heardAgain clockAgain (.packet packet) =
      some { search := { outcome.search with stats.staleResponses :=
        outcome.search.stats.staleResponses + if search.hears packet then 1 else 0 } } := by
  cases hears : search.hears packet with
  | false =>
    obtain rfl : outcome = { search } := by
      rw [Search.handle?, Search.packet?, Search.receive_of_deaf hears] at handled
      exact (Option.some.inj handled).symm
    rw [Search.handle?, Search.packet?, Search.receive_of_deaf hears, if_neg Bool.false_ne_true,
      UInt64.add_zero]
  | true =>
    have identified := Search.identified_of_handle? hears handled
    have unmatched : outcome.search.matched? heardAgain packet = none := by
      cases matched : search.matched? heard packet with
      | none => exact Search.matched?_of_unmatched matched handled
      | some query =>
        have answered : Entry.answered? ⟨heard, clock, some (.packet packet), search, outcome⟩ =
            some (packet.sender, query) :=
          Entry.answered?_eq_some_iff.mpr ⟨packet.payload, rfl, matched⟩
        have ticket := run.ticket_of_answered rfl answered
        refine (run.handled heard clock handled).explains.matched?_of_answered few ?_ ticket _
        rw [history_append, answersAt_append, history_singleton]
        exact List.mem_append_right _ (Entry.mem_answersAt answered)
    have heardStill : outcome.search.hears packet = true := by
      obtain ⟨node, found, -⟩ := identified
      rw [Search.hears_eq, Bool.and_eq_true] at hears ⊢
      rw [NodeTable.contains_eq_isSome, found]
      exact ⟨hears.1, rfl⟩
    rw [Search.handle?, Search.packet?,
      Search.receive_of_unmatched heardStill unmatched identified]
    rfl

/-- In every run a datagram that comes again does no harm. -/
theorem Run.harmless (run : Run setup resolve journal search) : Harmless setup journal search where
  again := run.handled_again
  once := run.answered_once

/-- In the sample the first question is answered with a new peer, after two queries to the node. -/
theorem Run.harmless_sample :
    ∃ journal search outcome, Run Sample.setup .literal journal search ∧
      search.handle? Sample.setup 2 (.still 2)
        (.packet (Sample.response Sample.node 0 [Sample.peer 1])) = some outcome ∧
      outcome.batch = some ⟨Sample.content, [Sample.peer 1]⟩ ∧
      (queriesAt Sample.node (history (journal ++ [⟨2, .still 2,
        some (.packet (Sample.response Sample.node 0 [Sample.peer 1])), search, outcome⟩]))).length ≤
          KnownNode.transactionCount ∧
      Harmless Sample.setup journal search := by
  have told : ((Search.start.journal? Sample.setup (Sample.events.take 4)).bind fun recorded =>
      (recorded.2.handle? Sample.setup 2 (.still 2)
        (.packet (Sample.response Sample.node 0 [Sample.peer 1]))).map fun outcome =>
          (outcome.batch, (queriesAt Sample.node (history (recorded.1 ++ [⟨2, .still 2,
            some (.packet (Sample.response Sample.node 0 [Sample.peer 1])), recorded.2,
              outcome⟩]))).length)) =
        some (some ⟨Sample.content, [Sample.peer 1]⟩, 2) := by
    decide +kernel
  obtain ⟨⟨journal, search⟩, recorded, told⟩ := Option.bind_eq_some_iff.mp told
  obtain ⟨outcome, handled, same⟩ := Option.map_eq_some_iff.mp told
  obtain ⟨batch, count⟩ := Prod.mk.inj same
  have run : Run Sample.setup .literal journal search := Run.start.journal? recorded
  have few : 2 ≤ KnownNode.transactionCount := by decide
  exact ⟨journal, search, outcome, run, handled, batch,
    Nat.le_trans (Nat.le_of_eq count) few, run.harmless⟩

end Runs

end PeerDiscovery
