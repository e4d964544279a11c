import PeerDiscovery.Proofs.Search.Frame

/-!
# What is handed to the client

A client gets the peers of a content in batches. `published` is everything that it got for a content
in the course of a journal, in order. It names no peer twice and is the set of peers that the search
counts for the content, and each batch is what one answer adds to the batches before
(`Run.publishes`). One pass over an answer filters its peers against a set that grows with every
peer let through; `freshPeers_eq` gives the pass as a filter against the set as it was.
-/

namespace PeerDiscovery

/-! ## Fresh peers -/

/-- Once its repetitions are erased, a list has none. -/
theorem nodup_eraseDups (peers : List Address) : peers.eraseDups.Nodup := by
  induction size : peers.length using Nat.strongRecOn generalizing peers with
  | ind count ih =>
    cases peers with
    | nil => exact List.nodup_nil
    | cons peer rest =>
      rw [List.eraseDups_cons, List.nodup_cons]
      have shorter := List.length_filter_le (fun other => !other == peer) rest
      rw [List.length_cons] at size
      refine ⟨fun again => ?_, ih _ (by omega) _ rfl⟩
      simpa using (List.mem_filter.mp (List.mem_eraseDups.mp again)).2

namespace Search

theorem mem_insert_iff {seen : AddressSet} {peer other : Address} :
    other ∈ seen.insert peer ↔ other = peer ∨ other ∈ seen := by
  rw [Std.ExtTreeSet.mem_insert, Std.compare_eq_iff_eq]
  exact or_congr_left ⟨Eq.symm, Eq.symm⟩

/-- The peers let through are those outside the set, each at its first place. -/
theorem freshPeers_eq (seen : AddressSet) (values : List Address) :
    (freshPeers seen values).1 = (values.filter fun peer => peer ∉ seen).eraseDups := by
  induction values generalizing seen with
  | nil => rfl
  | cons peer rest ih =>
    rw [freshPeers]
    by_cases known : peer ∈ seen
    · rw [if_pos (Std.ExtTreeSet.contains_iff_mem.mpr known), ih,
        List.filter_cons_of_neg (by simpa using known)]
    · have others : (rest.filter fun other => other ∉ seen.insert peer) =
          (rest.filter fun other => other ∉ seen).filter fun other => !other == peer := by
        rw [List.filter_filter]
        congr 1
        funext other
        rw [Bool.eq_iff_iff]
        simp only [Bool.and_eq_true, decide_eq_true_eq, mem_insert_iff, not_or,
          Bool.not_eq_true', beq_eq_false_iff_ne, ne_eq]
      rw [if_neg (mt Std.ExtTreeSet.contains_iff_mem.mp known),
        List.filter_cons_of_pos (by simpa using known), List.eraseDups_cons, ← others, ← ih]

/-- The fresh peers are those that are listed and were not known. -/
theorem mem_freshPeers {seen : AddressSet} {values : List Address} {peer : Address} :
    peer ∈ (freshPeers seen values).1 ↔ peer ∈ values ∧ peer ∉ seen := by
  rw [freshPeers_eq, List.mem_eraseDups, List.mem_filter, decide_eq_true_eq]

/-- Afterwards the listed peers are known as well. -/
theorem mem_seen_freshPeers {seen : AddressSet} {values : List Address} {peer : Address} :
    peer ∈ (freshPeers seen values).2 ↔ peer ∈ seen ∨ peer ∈ values := by
  induction values generalizing seen with
  | nil => simp [freshPeers]
  | cons first rest ih =>
    rw [freshPeers, List.mem_cons]
    split
    · rename_i known
      rw [ih]
      constructor
      · intro given
        rcases given with old | new
        · exact Or.inl old
        · exact Or.inr (Or.inr new)
      · intro given
        rcases given with old | rfl | new
        · exact Or.inl old
        · exact Or.inl (Std.ExtTreeSet.contains_iff_mem.mp known)
        · exact Or.inr new
    · change peer ∈ (freshPeers (seen.insert first) rest).2 ↔ _
      rw [ih, mem_insert_iff, or_comm (a := peer = first), or_assoc]

/-- Each fresh peer makes the known peers one more. -/
theorem size_seen_freshPeers (seen : AddressSet) (values : List Address) :
    (freshPeers seen values).2.size = seen.size + (freshPeers seen values).1.length := by
  induction values generalizing seen with
  | nil => rfl
  | cons first rest ih =>
    rw [freshPeers]
    split
    · exact ih seen
    · rename_i unknown
      change (freshPeers (seen.insert first) rest).2.size =
        seen.size + ((freshPeers (seen.insert first) rest).1.length + 1)
      rw [ih, Std.ExtTreeSet.size_insert, if_neg unknown]
      omega

/-! ## Answers -/

/-- A datagram lists peers of a content: it is a response matched to a question for them, and it has
values, which decode to these peers. -/
def Lists (search : Search) (now : Moment) (packet : Packet) (infoHash : InfoHash)
    (values : List Address) : Prop :=
  ∃ transaction sender reply query,
    Message.parse packet.payload = .ok ⟨transaction, sender, .response reply⟩ ∧
      search.matched? now packet = some query ∧ query.asksPeersOf infoHash = true ∧
      reply.values = some values

/-- A datagram lists peers for one content at most. -/
theorem Lists.unique {search : Search} {now : Moment} {packet : Packet}
    {infoHash other : InfoHash} {values others : List Address}
    (lists : search.Lists now packet infoHash values)
    (listsToo : search.Lists now packet other others) : other = infoHash ∧ others = values := by
  obtain ⟨transaction, sender, reply, query, parsed, matched, asks, listed⟩ := lists
  obtain ⟨transaction', sender', reply', query', parsed', matched', asks', listed'⟩ := listsToo
  obtain rfl := Option.some.inj (matched.symm.trans matched')
  rw [parsed] at parsed'
  injection parsed' with same
  injection same with _ _ bodies
  injection bodies with replies
  subst replies
  simp only [Query.asksPeersOf, Bool.and_eq_true, decide_eq_true_eq] at asks asks'
  exact ⟨Option.some.inj (asks'.2.symm.trans asks.2), Option.some.inj (listed'.symm.trans listed)⟩

/-- The peers of a content are read off what was found. -/
theorem peersOf_of_found_eq {search next : Search} (same : next.found = search.found)
    (infoHash : InfoHash) : next.peersOf infoHash = search.peersOf infoHash := by
  rw [peersOf, peersOf, same]

/-- Peers that are found for a content are those of no other. -/
theorem peersOf_insert {search next : Search} {infoHash : InfoHash} {peers : AddressSet}
    (inserted : next.found = search.found.insert infoHash peers) (other : InfoHash) :
    next.peersOf other = if infoHash = other then peers else search.peersOf other := by
  rw [peersOf, peersOf, inserted, Std.ExtTreeMap.getElem?_insert]
  simp only [Std.compare_eq_iff_eq]
  split <;> rfl

/-- A datagram that lists no peers leaves the peers alone and brings none. Any other adds its peers
to those of its content, and brings the fresh ones. -/
theorem receive_findings (search : Search) (now : Moment) (packet : Packet) :
    (∀ infoHash values, ¬ search.Lists now packet infoHash values) ∧
        (search.receive now packet).1.found = search.found ∧
        (∀ delivery, (search.receive now packet).2 = some delivery → delivery.fresh = []) ∨
      ∃ infoHash values nodes, search.Lists now packet infoHash values ∧
        (search.receive now packet).1.found =
          search.found.insert infoHash (freshPeers (search.peersOf infoHash) values).2 ∧
        (search.receive now packet).2 =
          some ⟨infoHash, (freshPeers (search.peersOf infoHash) values).1, nodes⟩ := by
  have reception := search.receive_reception now packet
  generalize search.receive now packet = received at reception ⊢
  cases reception with
  | ignored _ unmatched =>
    refine Or.inl ⟨?_, rfl, by simp⟩
    intro infoHash values given
    rcases given with ⟨_, _, _, query, -, matched, -, -⟩
    rw [unmatched] at matched
    cases matched
  | stale _ _ _ unmatched =>
    refine Or.inl ⟨?_, rfl, by simp⟩
    intro infoHash values given
    rcases given with ⟨_, _, _, query, -, matched, -, -⟩
    rw [unmatched] at matched
    cases matched
  | closed _ _ _ matched never =>
    refine Or.inl ⟨?_, rfl, by simp⟩
    intro infoHash values given
    rcases given with ⟨_, _, _, query, -, same, asks, -⟩
    obtain rfl := Option.some.inj (matched.symm.trans same)
    rw [never infoHash] at asks
    cases asks
  | @delivered transaction sender reply node answered query infoHash parsed _ _ matched asks =>
    cases listed : reply.values with
    | none =>
      rw [takePeers, listed]
      refine Or.inl ⟨?_, rfl, by rintro delivery ⟨⟩; rfl⟩
      intro content values given
      rcases given with ⟨_, _, other, _, parsed', -, -, listed'⟩
      rw [parsed] at parsed'
      injection parsed' with same
      injection same with _ _ bodies
      injection bodies with replies
      rw [← replies, listed] at listed'
      cases listed'
    | some values =>
      rw [takePeers, listed]
      exact Or.inr ⟨infoHash, values, reply.nodes,
        ⟨transaction, sender, reply, query, parsed, matched, asks, listed⟩, rfl, rfl⟩

variable {setup : Setup} {search : Search} {heard : Moment} {clock : Clock} {stimulus : Stimulus}
  {outcome : Outcome}

/-- Handling hands over what a datagram that lists peers brings, and nothing else. -/
theorem handle?_findings
    (handled : search.handle? setup heard clock stimulus = some outcome) :
    (∀ packet infoHash values, stimulus = .packet packet →
          ¬ search.Lists heard packet infoHash values) ∧
        outcome.search.found = search.found ∧ outcome.batch = none ∨
      ∃ packet infoHash values nodes, stimulus = .packet packet ∧
        search.Lists heard packet infoHash values ∧
        outcome.search.found =
          search.found.insert infoHash (freshPeers (search.peersOf infoHash) values).2 ∧
        outcome.batch =
          Delivery.batch? ⟨infoHash, (freshPeers (search.peersOf infoHash) values).1, nodes⟩ := by
  cases stimulus with
  | hint contact =>
    exact Or.inl ⟨by simp, (SameFindings.hint handled).found, batch_of_hint? handled⟩
  | request infoHash =>
    exact Or.inl ⟨by simp, (SameFindings.request handled).found, batch_of_request? handled⟩
  | packet packet =>
    rcases search.receive_findings heard packet with
      ⟨lists, kept, nothing⟩ | ⟨infoHash, values, nodes, lists, grown, due⟩
    · refine Or.inl ⟨by rintro _ infoHash values ⟨⟩; exact lists infoHash values, ?_⟩
      rcases handle?_packet_cases handled with
        ⟨-, rfl⟩ | ⟨delivery, followed, brought, following, rfl⟩
      · exact ⟨kept, rfl⟩
      · refine ⟨(SameFindings.followAll following).found.trans kept, ?_⟩
        simp only [Delivery.batch?, nothing delivery brought, List.isEmpty_nil, if_true]
    · refine Or.inr ⟨packet, infoHash, values, nodes, rfl, lists, ?_⟩
      rcases handle?_packet_cases handled with
        ⟨none, -⟩ | ⟨delivery, followed, brought, following, rfl⟩
      · rw [due] at none
        cases none
      · obtain rfl := Option.some.inj (due.symm.trans brought)
        exact ⟨(SameFindings.followAll following).found.trans grown, rfl⟩

end Search

/-! ## Batches -/

/-- The batches handed over in the course of a journal, in order. -/
def batches (journal : List Entry) : List Batch :=
  journal.filterMap fun entry => entry.outcome.batch

/-- The peers of a content that were handed over in the course of a journal, in order. -/
def published (infoHash : InfoHash) (journal : List Entry) : List Address :=
  ((batches journal).filter fun batch => batch.infoHash = infoHash).flatMap Batch.peers

@[simp] theorem batches_append (first second : List Entry) :
    batches (first ++ second) = batches first ++ batches second :=
  List.filterMap_append

@[simp] theorem published_append (infoHash : InfoHash) (first second : List Entry) :
    published infoHash (first ++ second) =
      published infoHash first ++ published infoHash second := by
  rw [published, batches_append, List.filter_append, List.flatMap_append]
  rfl

/-- An entry without a batch publishes nothing. -/
theorem published_singleton_of_none {infoHash : InfoHash} {entry : Entry}
    (none : entry.outcome.batch = none) : published infoHash [entry] = [] := by
  simp [published, batches, none]

/-- Peers of a content are handed over under that content only. -/
theorem published_singleton {infoHash : InfoHash} {fresh : List Address} {nodes : Option Bytes}
    {entry : Entry} (brought : entry.outcome.batch = Delivery.batch? ⟨infoHash, fresh, nodes⟩)
    (other : InfoHash) :
    published other [entry] = if infoHash = other then fresh else [] := by
  cases fresh with
  | nil => simp [published, batches, brought, Delivery.batch?]
  | cons peer rest =>
    by_cases same : infoHash = other
    · simp [published, batches, brought, Delivery.batch?, same]
    · simp [published, batches, brought, Delivery.batch?, same]

/-- The stimulus of an entry lists peers of a content. -/
def Entry.Lists (entry : Entry) (infoHash : InfoHash) (values : List Address) : Prop :=
  ∃ packet, entry.stimulus = some (.packet packet) ∧
    entry.before.Lists entry.heard packet infoHash values

/-- What was handed over is what the search found, each peer of a content once. -/
structure Tallied (journal : List Entry) (search : Search) : Prop where
  nodup : ∀ infoHash, (published infoHash journal).Nodup
  mem_iff : ∀ infoHash peer, peer ∈ published infoHash journal ↔ peer ∈ search.peersOf infoHash
  length_eq : ∀ infoHash, (published infoHash journal).length = search.knownPeers infoHash

/-- What a client is promised about the peers it gets, which come in batches of one content each. -/
structure Publishes (journal : List Entry) (search : Search) : Prop extends
    Tallied journal search where
  nonempty : ∀ batch ∈ batches journal, batch.peers ≠ []
  /-- A batch holds the peers that an answer lists and that were not handed over before, each at its
  first place in the answer. There is one unless there are no such peers. -/
  batch_iff : ∀ {before entry after}, journal = before ++ entry :: after →
    ∀ batch, entry.outcome.batch = some batch ↔
      ∃ values, entry.Lists batch.infoHash values ∧ batch.peers ≠ [] ∧
        batch.peers =
          (values.filter fun peer => peer ∉ published batch.infoHash before).eraseDups

/-! ## Entries -/

variable {setup : Setup} {resolve : Resolver} {journal : List Entry} {search : Search}
  {entry : Entry}

/-- An entry that lists no peers leaves the peers alone and hands over none. Any other adds its
peers to those of its content, and hands over the fresh ones. -/
theorem Entry.Done.findings (done : entry.Done setup resolve) :
    (∀ infoHash values, ¬ entry.Lists infoHash values) ∧
        entry.outcome.search.found = entry.before.found ∧ entry.outcome.batch = none ∨
      ∃ infoHash values nodes, entry.Lists infoHash values ∧
        entry.outcome.search.found = entry.before.found.insert infoHash
          (Search.freshPeers (entry.before.peersOf infoHash) values).2 ∧
        entry.outcome.batch = Delivery.batch?
          ⟨infoHash, (Search.freshPeers (entry.before.peersOf infoHash) values).1, nodes⟩ := by
  cases shown : entry.stimulus with
  | none =>
    rw [Done, shown] at done
    obtain ⟨start, sendFails, result, joined⟩ := done
    rw [start]
    refine Or.inl ⟨?_, (SameFindings.bootstrap joined).found, Search.batch_of_bootstrap? joined⟩
    intro infoHash values given
    rcases given with ⟨packet, other, -⟩
    rw [shown] at other
    cases other
  | some stimulus =>
    rw [Done, shown] at done
    rcases Search.handle?_findings done with
      ⟨lists, same, none⟩ | ⟨packet, infoHash, values, nodes, rfl, lists, grown, brought⟩
    · refine Or.inl ⟨?_, same, none⟩
      intro infoHash values given
      rcases given with ⟨packet, other, listed⟩
      exact lists packet infoHash values (Option.some.inj (shown.symm.trans other)) listed
    · exact Or.inr ⟨infoHash, values, nodes, ⟨packet, shown, lists⟩, grown, brought⟩

/-- An entry lists peers for one content at most. -/
theorem Entry.Lists.unique {infoHash other : InfoHash} {values others : List Address}
    (lists : entry.Lists infoHash values) (listsToo : entry.Lists other others) :
    other = infoHash ∧ others = values := by
  obtain ⟨packet, shown, listed⟩ := lists
  obtain ⟨packet', shown', listed'⟩ := listsToo
  obtain rfl : packet = packet' := by simpa using shown.symm.trans shown'
  exact listed.unique listed'

/-! ## Runs -/

namespace Tallied

/-- Nothing is published and nothing is found at the start. -/
theorem start : Tallied [] .start where
  nodup _ := List.nodup_nil
  mem_iff infoHash peer := by simp [published, batches, Search.peersOf, Search.start]
  length_eq infoHash := by
    simp [published, batches, Search.knownPeers, Search.peersOf, Search.start]

/-- The accounts stay even while nothing is found. -/
theorem append_of_none (tallied : Tallied journal search) {next : Search}
    (none : entry.outcome.batch = none) (same : next.found = search.found) :
    Tallied (journal ++ [entry]) next where
  nodup infoHash := by
    rw [published_append, published_singleton_of_none none, List.append_nil]
    exact tallied.nodup infoHash
  mem_iff infoHash peer := by
    rw [published_append, published_singleton_of_none none, List.append_nil,
      Search.peersOf_of_found_eq same]
    exact tallied.mem_iff infoHash peer
  length_eq infoHash := by
    rw [published_append, published_singleton_of_none none, List.append_nil, Search.knownPeers,
      Search.peersOf_of_found_eq same]
    exact tallied.length_eq infoHash

/-- The accounts stay even when the fresh peers of an answer are handed over. -/
theorem append_of_fresh (tallied : Tallied journal search) {next : Search}
    {infoHash : InfoHash} {values : List Address} {nodes : Option Bytes}
    (grown : next.found =
      search.found.insert infoHash (Search.freshPeers (search.peersOf infoHash) values).2)
    (brought : entry.outcome.batch = Delivery.batch?
      ⟨infoHash, (Search.freshPeers (search.peersOf infoHash) values).1, nodes⟩) :
    Tallied (journal ++ [entry]) next where
  nodup other := by
    rw [published_append, published_singleton brought, List.nodup_append]
    refine ⟨tallied.nodup other, ?_, ?_⟩
    · split
      · rw [Search.freshPeers_eq]
        exact nodup_eraseDups _
      · exact List.nodup_nil
    · intro peer old new fresh same
      split at fresh
      · rename_i here
        rw [← same, Search.mem_freshPeers, here] at fresh
        exact fresh.2 ((tallied.mem_iff other peer).mp old)
      · cases fresh
  mem_iff other peer := by
    rw [published_append, published_singleton brought, List.mem_append,
      Search.peersOf_insert grown, tallied.mem_iff]
    split
    · rename_i here
      subst here
      rw [Search.mem_seen_freshPeers, Search.mem_freshPeers]
      by_cases known : peer ∈ search.peersOf infoHash
      · simp [known]
      · simp [known]
    · simp
  length_eq other := by
    rw [published_append, published_singleton brought, List.length_append,
      tallied.length_eq, Search.knownPeers, Search.knownPeers, Search.peersOf_insert grown]
    split
    · rename_i here
      subst here
      exact (Search.size_seen_freshPeers ..).symm
    · rfl

/-- So they stay even whatever is handled. -/
theorem append (tallied : Tallied journal entry.before) (done : entry.Done setup resolve) :
    Tallied (journal ++ [entry]) entry.outcome.search := by
  rcases done.findings with ⟨-, same, none⟩ | ⟨infoHash, values, nodes, -, grown, brought⟩
  · exact tallied.append_of_none none same
  · exact tallied.append_of_fresh grown brought

end Tallied

/-- What was published, in every run, is what was found. -/
theorem Run.tallied (run : Run setup resolve journal search) : Tallied journal search := by
  induction run with
  | start => exact Tallied.start
  | joined heard clock sendFails joined =>
    have done : Entry.Done setup resolve ⟨heard, clock, none, .start, _⟩ :=
      ⟨rfl, sendFails, _, joined⟩
    exact Tallied.start.append done
  | handled heard clock _ handled ih =>
    have done : Entry.Done setup resolve ⟨heard, clock, some _, _, _⟩ := handled
    exact ih.append done

/-- In a run a batch holds the peers that an answer lists for the first time, in the order of their
first places. -/
theorem Run.batch_iff (run : Run setup resolve journal search) {before after : List Entry}
    (split : journal = before ++ entry :: after) (batch : Batch) :
    entry.outcome.batch = some batch ↔
      ∃ values, entry.Lists batch.infoHash values ∧ batch.peers ≠ [] ∧
        batch.peers =
          (values.filter fun peer => peer ∉ published batch.infoHash before).eraseDups := by
  obtain ⟨earlier, done⟩ := run.before_entry split
  rcases done.findings with
    ⟨lists, -, none⟩ | ⟨infoHash, values, nodes, lists, -, brought⟩
  · rw [none]
    constructor
    · rintro ⟨⟩
    · intro given
      rcases given with ⟨values, listed, -⟩
      exact absurd listed (lists _ _)
  · have fresh : (values.filter fun peer => peer ∉ published infoHash before).eraseDups =
        (Search.freshPeers (entry.before.peersOf infoHash) values).1 := by
      rw [Search.freshPeers_eq]
      simp only [earlier.tallied.mem_iff]
    rw [brought, ← fresh]
    constructor
    · intro handed
      rw [Delivery.batch?] at handed
      split at handed
      · cases handed
      · rename_i some
        obtain rfl := Option.some.inj handed
        exact ⟨values, lists, by simpa using some, rfl⟩
    · intro given
      rcases given with ⟨others, listed, some, exactly⟩
      obtain ⟨content, rfl⟩ := lists.unique listed
      rw [content] at exactly
      rw [Delivery.batch?, ← exactly, if_neg (by simpa using some), ← content]

/-- Every peer of a content reaches the client exactly once, with the first answer that lists it. -/
theorem Run.publishes (run : Run setup resolve journal search) : Publishes journal search where
  toTallied := run.tallied
  nonempty batch member := by
    obtain ⟨entry, here, handed⟩ := List.mem_filterMap.mp member
    obtain ⟨before, after, split⟩ := List.append_of_mem here
    obtain ⟨values, -, some, -⟩ := (run.batch_iff split batch).mp handed
    exact some
  batch_iff := run.batch_iff

/-- In the sample two answers and a repetition list six peers, three of them for the first time. -/
theorem Run.publishes_sample :
    ∃ journal search, Run Sample.setup .literal journal search ∧
      batches journal = [⟨Sample.content, [Sample.peer 1, Sample.peer 2]⟩,
        ⟨Sample.content, [Sample.peer 3]⟩] ∧
      Publishes journal search := by
  have told : (Search.start.journal? Sample.setup Sample.events).map
      (fun recorded => batches recorded.1) =
        some [⟨Sample.content, [Sample.peer 1, Sample.peer 2]⟩,
          ⟨Sample.content, [Sample.peer 3]⟩] := by decide +kernel
  obtain ⟨journal, search, run, handed⟩ := Run.of_map_journal? told
  exact ⟨journal, search, run, handed, run.publishes⟩

end PeerDiscovery
