import PeerDiscovery.Proofs.Search.Explains

/-!
# No node is flooded

A search records queries when it joins the network, on a hint, on a request, and in automatic
rounds, but only a selection looks at what is already open at a node. That is enough: a ping is
recorded before anything else at a node, and then every question for peers goes through a selection.
`Life.pendingCount_le`, `Life.awaits_unique` and `Life.pings_le` are the bounds for one node, and
`Run.restrained` collects them for all nodes of all runs.
-/

namespace PeerDiscovery

/-! ## One node -/

namespace Life

variable {limits : SelectionLimits} {first : UInt16} {address : Address} {node : KnownNode}
  {history : List Occurrence}

/-- Nothing is open at a node that nothing happened to. -/
theorem pending_eq_empty (life : Life limits first address node []) : node.pending = ∅ := by
  apply Std.ExtTreeMap.ext_getElem?
  intro transaction
  have nothing := life.dealings.outstanding_eq transaction
  rw [outstanding_nil] at nothing
  rw [Std.ExtTreeMap.getElem?_empty]
  exact Option.toList_eq_nil_iff.mp nothing.symm

theorem pendingCount_eq_zero (life : Life limits first address node []) :
    node.pendingCount = 0 := by
  rw [KnownNode.pendingCount, life.pending_eq_empty]
  exact Std.ExtTreeMap.size_empty

/-- The bound of a selection is exceeded by at most the query that the selection led to. -/
theorem pendingCount_le (life : Life limits first address node history) :
    node.pendingCount ≤ limits.maxPending + 1 := by
  induction life with
  | listed => exact Nat.zero_le _
  | pinged _ life asked _ =>
    have none := life.pendingCount_eq_zero
    have grown := KnownNode.pendingCount_of_ask? asked
    omega
  | asked _ _ eligible asked _ =>
    have room := (Selection.isEligible_iff.mp eligible).1
    have grown := KnownNode.pendingCount_of_ask? asked
    omega
  | identified _ _ ih => exact ih
  | answered _ answered ih =>
    have shrunk := KnownNode.pendingCount_of_answer? answered
    omega

/-- At most one open query asks for the peers of a content. -/
theorem awaits_unique (life : Life limits first address node history) {infoHash : InfoHash}
    {one other : UInt16} {query second : Query} (waiting : node.pending[one]? = some query)
    (waitingToo : node.pending[other]? = some second) (asks : query.asksPeersOf infoHash = true)
    (asksToo : second.asksPeersOf infoHash = true) : one = other := by
  induction life with
  | listed => simp [KnownNode.new] at waiting
  | @pinged node next number now life asked ih =>
    -- the ping is the only open query, and it asks for no peers
    rcases KnownNode.waiting_of_ask? asked waiting with ⟨-, rfl⟩ | ⟨-, earlier⟩
    · simp [Query.asksPeersOf] at asks
    · rw [life.pending_eq_empty] at earlier
      simp at earlier
  | @asked node next history number content now life eligible asked ih =>
    have none := (Selection.isEligible_iff.mp eligible).2.1
    -- the new query asks for the peers of a content that no older query asks for
    have old : ∀ {number : UInt16} {query : Query}, node.pending[number]? = some query →
        query.asksPeersOf content = false := by
      intro number query waiting
      rw [← Bool.not_eq_true] at none ⊢
      exact fun asks => none (KnownNode.awaitsPeersOf_iff.mpr ⟨number, query, waiting, asks⟩)
    rcases KnownNode.waiting_of_ask? asked waiting with ⟨here, rfl⟩ | ⟨-, earlier⟩
    · rcases KnownNode.waiting_of_ask? asked waitingToo with ⟨there, rfl⟩ | ⟨-, earlierToo⟩
      · exact here.symm.trans there
      · obtain rfl : content = infoHash := by simpa [Query.asksPeersOf] using asks
        rw [old earlierToo] at asksToo
        cases asksToo
    · rcases KnownNode.waiting_of_ask? asked waitingToo with ⟨-, rfl⟩ | ⟨-, earlierToo⟩
      · obtain rfl : content = infoHash := by simpa [Query.asksPeersOf] using asksToo
        rw [old earlier] at asks
        cases asks
      · exact ih earlier earlierToo
  | identified _ _ ih => exact ih waiting waitingToo
  | answered _ answered ih =>
    exact ih (KnownNode.waiting_of_answer? answered waiting).2
      (KnownNode.waiting_of_answer? answered waitingToo).2

/-- Only the first thing that happens to a node can be that it is pinged. -/
theorem pings_le (life : Life limits first address node history) :
    (queriesAt address history).countP (·.method = .ping) ≤ 1 := by
  induction life with
  | listed => exact Nat.zero_le _
  | pinged =>
    rw [queriesAt_asked]
    exact List.countP_le_length
  | asked _ _ _ _ ih =>
    rw [queriesAt_append, queriesAt_asked, List.countP_append]
    simpa using ih
  | identified _ _ ih => exact ih
  | answered _ _ ih =>
    rw [queriesAt_append, queriesAt_answered, List.append_nil]
    exact ih

end Life

/-! ## All nodes -/

/-- What keeps a search from flooding the nodes it knows, and from asking what it would not know how
to use the answer of. -/
structure Restrained (setup : Setup) (history : List Occurrence) (search : Search) : Prop where
  pendingCount_le : ∀ {address node}, search.table.get? address = some node →
    node.pendingCount ≤ setup.settings.maxPending + 1
  /-- At most one open query of a node asks for the peers of a content. -/
  awaits_unique : ∀ {address node}, search.table.get? address = some node →
    ∀ {infoHash : InfoHash} {one other : UInt16} {query second : Query},
      node.pending[one]? = some query → node.pending[other]? = some second →
      query.asksPeersOf infoHash = true → second.asksPeersOf infoHash = true → one = other
  /-- Every query ever recorded is a ping without content or a question for the peers of one. -/
  proper_of_asked : ∀ {now address query}, .asked now address query ∈ history → query.Proper
  proper_of_mem : ∀ {address node}, search.table.get? address = some node →
    ∀ {transaction : UInt16} {query : Query},
      node.pending[transaction]? = some query ∨ node.past[transaction]? = some query →
      query.Proper
  /-- A response closes a ping, and is used up, or closes a question for the peers of a content, and
  brings a delivery for it. There is no third way. -/
  closes : ∀ {now packet query}, search.matched? now packet = some query →
    query.method = .ping ∧ query.infoHash = none ∧ (search.receive now packet).2 = none ∨
      ∃ infoHash, query.method = .getPeers ∧ query.infoHash = some infoHash ∧
        ∃ delivery, (search.receive now packet).2 = some delivery ∧ delivery.infoHash = infoHash
  /-- No node is pinged twice. -/
  pings_le : ∀ address, (queriesAt address history).countP (·.method = .ping) ≤ 1

/-- Taking in a datagram that closes a proper query has one of two results. -/
theorem Search.receive_of_matched {search : Search} {now : Moment} {packet : Packet}
    {query : Query} (matched : search.matched? now packet = some query) (proper : query.Proper) :
    query.method = .ping ∧ query.infoHash = none ∧ (search.receive now packet).2 = none ∨
      ∃ infoHash, query.method = .getPeers ∧ query.infoHash = some infoHash ∧
        ∃ delivery, (search.receive now packet).2 = some delivery ∧
          delivery.infoHash = infoHash := by
  have reception := search.receive_reception now packet
  generalize search.receive now packet = received at reception ⊢
  cases reception with
  | ignored _ unmatched =>
    rw [matched] at unmatched
    cases unmatched
  | stale _ _ _ unmatched =>
    rw [matched] at unmatched
    cases unmatched
  | closed _ _ _ same never =>
    obtain rfl := Option.some.inj (matched.symm.trans same)
    rcases proper with ⟨ping, noContent⟩ | ⟨infoHash, getPeers, content⟩
    · exact Or.inl ⟨ping, noContent, rfl⟩
    · have asks := never infoHash
      simp [Query.asksPeersOf, getPeers, content] at asks
  | @delivered _ _ _ _ _ other infoHash _ _ _ same asks =>
    obtain rfl := Option.some.inj (matched.symm.trans same)
    simp only [Query.asksPeersOf, Bool.and_eq_true, decide_eq_true_eq] at asks
    exact Or.inr ⟨infoHash, asks.1, asks.2, _, rfl, takePeers_infoHash ..⟩

variable {setup : Setup} {resolve : Resolver} {journal : List Entry} {search : Search}

/-- Every run restrains itself at every node. -/
theorem Run.restrained (run : Run setup resolve journal search) :
    Restrained setup (history journal) search where
  pendingCount_le found := (run.explains.life found).pendingCount_le
  awaits_unique found := by
    intro infoHash one other query second waiting waitingToo asks asksToo
    exact (run.explains.life found).awaits_unique waiting waitingToo asks asksToo
  proper_of_asked := by
    intro now address query member
    obtain ⟨node, found⟩ := run.explains.exists_node member
    exact (run.explains.life found).proper_of_asked (mem_occurrencesAt.mpr ⟨member, rfl⟩)
  proper_of_mem found := by
    intro transaction query recorded
    exact (run.explains.life found).proper_of_mem recorded
  closes := by
    intro now packet query matched
    obtain ⟨number, sender, reply, node, -, found, waiting⟩ :=
      Search.matched?_eq_some_iff.mp matched
    have proper := (run.explains.life found).proper_of_mem (Or.inl waiting)
    exact Search.receive_of_matched matched proper
  pings_le := by
    intro address
    rw [← queriesAt_occurrencesAt]
    cases found : search.table.get? address with
    | none =>
      rw [run.explains.occurrencesAt_of_unknown found]
      exact Nat.zero_le _
    | some node => exact (run.explains.life found).pings_le

/-- The sample comes to an end, with five occurrences. -/
theorem Run.restrained_sample :
    ∃ journal search, Run Sample.setup .literal journal search ∧
      history journal = Sample.occurrences ∧ Restrained Sample.setup Sample.occurrences search := by
  have told : (Search.start.journal? Sample.setup Sample.events).map
      (fun recorded => history recorded.1) = some Sample.occurrences := by decide +kernel
  obtain ⟨journal, search, run, story⟩ := Run.of_map_journal? told
  exact ⟨journal, search, run, story, story ▸ run.restrained⟩

end PeerDiscovery
