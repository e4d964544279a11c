import PeerDiscovery.Proofs.Search.Footprint

/-!
# Two datagrams in either order

Two responses that are not from the same node under the same transaction identifier have nothing to
do with each other: each closes a query of its own, so they change different things at a node, and
what a content gains from both is a union of sets. `receive_comm` exchanges them. What a datagram
does is taken apart for that: to its sender (`KnownNode.hearing`), to the peers found
(`Search.learn`), and to the counters (`Search.Received`).
-/

namespace PeerDiscovery

/-! ## Responses -/

namespace Packet

/-- The transaction identifier and the fields of a response. -/
def response? (packet : Packet) : Option (Bytes × Reply) :=
  match Message.parse packet.payload with
  | .ok ⟨transaction, _, .response reply⟩ => some (transaction, reply)
  | _ => none

/-- The sender and the transaction identifier of a response. -/
def ticket? (packet : Packet) : Option (Address × Bytes) :=
  packet.response?.map fun response => (packet.sender, response.1)

/-- A datagram is a response exactly if it parses as one. -/
theorem response?_eq_some_iff {packet : Packet} {transaction : Bytes} {reply : Reply} :
    packet.response? = some (transaction, reply) ↔
      ∃ sender, Message.parse packet.payload = .ok ⟨transaction, sender, .response reply⟩ := by
  unfold response?
  constructor
  · intro given
    split at given
    · rename_i sender _ parsed
      obtain ⟨rfl, rfl⟩ := Prod.mk.inj (Option.some.inj given)
      exact ⟨sender, parsed⟩
    · cases given
  · intro given
    obtain ⟨sender, parsed⟩ := given
    rw [parsed]

end Packet

/-! ## Maps -/

section Maps

variable {α β : Type} [Ord α] [Std.TransOrd α] [Std.LawfulEqOrd α]
  (map : Std.ExtTreeMap α β compare) {one other : α}

/-- Entries of different keys can be made in either order. -/
theorem insert_comm_of_ne (different : one ≠ other) (value value' : β) :
    (map.insert one value).insert other value' = (map.insert other value').insert one value := by
  apply Std.ExtTreeMap.ext_getElem?
  intro key
  rw [Std.ExtTreeMap.getElem?_insert, Std.ExtTreeMap.getElem?_insert,
    Std.ExtTreeMap.getElem?_insert, Std.ExtTreeMap.getElem?_insert]
  split
  · rename_i here
    rw [if_neg]
    intro same
    rw [Std.compare_eq_iff_eq] at here same
    exact different (same.trans here.symm)
  · rfl

/-- The later of two entries under one key is the one that counts. -/
theorem insert_insert_self (key : α) (value value' : β) :
    (map.insert key value).insert key value' = map.insert key value' := by
  apply Std.ExtTreeMap.ext_getElem?
  intro other
  rw [Std.ExtTreeMap.getElem?_insert, Std.ExtTreeMap.getElem?_insert,
    Std.ExtTreeMap.getElem?_insert]
  split <;> rfl

/-- Entries can be removed in either order. -/
theorem erase_comm : (map.erase one).erase other = (map.erase other).erase one := by
  apply Std.ExtTreeMap.ext_getElem?
  intro key
  rw [Std.ExtTreeMap.getElem?_erase, Std.ExtTreeMap.getElem?_erase,
    Std.ExtTreeMap.getElem?_erase, Std.ExtTreeMap.getElem?_erase]
  split <;> split <;> rfl

end Maps

/-! ## One node -/

namespace KnownNode

variable {node : KnownNode} {transaction other : Bytes} {now : Moment}

/-- The open query that a transaction identifier off the wire names. -/
def owed? (node : KnownNode) (transaction : Bytes) : Option Query :=
  (Bytes.toWord? transaction).bind fun number => node.pending[number]?

/-- The node after its open query of a transaction identifier, if there is one, was closed. -/
def settled (node : KnownNode) (now : Moment) (transaction : Bytes) : KnownNode :=
  ((node.resolve? transaction now).map Prod.snd).getD node

/-- What a node resolves is the query that it owes an answer to. -/
theorem map_fst_resolve? (node : KnownNode) (transaction : Bytes) (now : Moment) :
    (node.resolve? transaction now).map Prod.fst = node.owed? transaction := by
  unfold resolve? owed? answer?
  cases Bytes.toWord? transaction with
  | none => rfl
  | some number =>
    simp only [Option.bind_some, Option.map_map]
    exact Option.map_id'

/-- Under a number a node owes what is pending under it. -/
theorem owed?_ofWord (node : KnownNode) (number : UInt16) :
    node.owed? (Bytes.ofWord number) = node.pending[number]? := by
  rw [owed?, Bytes.toWord?_ofWord]
  rfl

/-- Whatever a node owes is pending under some number. -/
theorem exists_of_owed? {query : Query} (owed : node.owed? transaction = some query) :
    ∃ number, transaction = Bytes.ofWord number ∧ node.pending[number]? = some query := by
  obtain ⟨number, read, waiting⟩ := Option.bind_eq_some_iff.mp owed
  exact ⟨number, Bytes.toWord?_eq_some_iff.mp read, waiting⟩

/-- Nothing happens to a node that owes nothing under the number. -/
theorem settled_of_owed?_eq_none (nothing : node.owed? transaction = none) :
    node.settled now transaction = node := by
  rw [← map_fst_resolve? node transaction now, Option.map_eq_none_iff] at nothing
  rw [settled, nothing]
  rfl

/-- A node that answers what is pending is reachable from then on, and remembers the query as
answered. -/
theorem settled_of_waiting {number : UInt16} {query : Query}
    (waiting : node.pending[number]? = some query) (now : Moment) :
    node.settled now (Bytes.ofWord number) = { node with
      reachable := true
      lastContact := some now
      pending := node.pending.erase number
      past := node.past.insert number query } := by
  have resolved : node.resolve? (Bytes.ofWord number) now = some (query, _) :=
    resolve?_eq_some_iff.mpr ⟨number, rfl, answer?_eq_some_iff.mpr ⟨waiting, rfl⟩⟩
  rw [settled, resolved]
  rfl

/-- Settling a query leaves the address and the identifier. -/
theorem address_settled (node : KnownNode) (now : Moment) (transaction : Bytes) :
    (node.settled now transaction).address = node.address ∧
      (node.settled now transaction).id = node.id := by
  cases owed : node.owed? transaction with
  | none => rw [settled_of_owed?_eq_none owed]; exact ⟨rfl, rfl⟩
  | some query =>
    obtain ⟨number, rfl, waiting⟩ := exists_of_owed? owed
    rw [settled_of_waiting waiting]
    exact ⟨rfl, rfl⟩

/-- Closing one query leaves the others open. -/
theorem owed?_settled (different : transaction ≠ other) :
    (node.settled now transaction).owed? other = node.owed? other := by
  cases owed : node.owed? transaction with
  | none => rw [settled_of_owed?_eq_none owed]
  | some query =>
    obtain ⟨number, rfl, waiting⟩ := exists_of_owed? owed
    rw [settled_of_waiting waiting, owed?, owed?]
    cases read : Bytes.toWord? other with
    | none => rfl
    | some elsewhere =>
      have apart : number ≠ elsewhere := by
        rintro rfl
        exact different (Bytes.toWord?_eq_some_iff.mp read).symm
      simp only [Option.bind_some, Std.ExtTreeMap.getElem?_erase, Std.compare_eq_iff_eq, apart,
        if_false]

/-- Two queries can be closed in either order. -/
theorem settled_comm (different : transaction ≠ other) :
    (node.settled now transaction).settled now other =
      (node.settled now other).settled now transaction := by
  have kept : (node.settled now transaction).owed? other = node.owed? other :=
    owed?_settled different
  have keptToo : (node.settled now other).owed? transaction = node.owed? transaction :=
    owed?_settled (Ne.symm different)
  cases owed : node.owed? transaction with
  | none => rw [settled_of_owed?_eq_none owed, settled_of_owed?_eq_none (keptToo.trans owed)]
  | some query =>
    cases owedToo : node.owed? other with
    | none => rw [settled_of_owed?_eq_none owedToo, settled_of_owed?_eq_none (kept.trans owedToo)]
    | some query' =>
      obtain ⟨number, rfl, waiting⟩ := exists_of_owed? owed
      obtain ⟨elsewhere, rfl, waitingToo⟩ := exists_of_owed? owedToo
      have apart : number ≠ elsewhere := fun same => different (same ▸ rfl)
      rw [owed?_ofWord] at kept keptToo
      rw [settled_of_waiting (kept.trans owedToo), settled_of_waiting (keptToo.trans owed),
        settled_of_waiting waiting, settled_of_waiting waitingToo]
      simp only [erase_comm node.pending, insert_comm_of_ne node.past apart]

/-- A node after a datagram that it sent. -/
def hearing (node : KnownNode) (now : Moment) (packet : Packet) : KnownNode :=
  match packet.response? with
  | none => node
  | some (transaction, reply) => (node.identified reply.id).settled now transaction

/-- An identifier, once known, stays. -/
theorem identified_of_isSome (known : node.id.isSome = true) (id : Identifier) :
    node.identified id = node := by
  obtain ⟨own, same⟩ := Option.isSome_iff_exists.mp known
  rw [identified, same, Option.getD_some, ← same]

/-- A node that hears a datagram keeps its address, and its identifier if it had one. -/
theorem hearing_keeps (node : KnownNode) (now : Moment) (packet : Packet) :
    (node.hearing now packet).address = node.address ∧
      (node.id.isSome = true → (node.hearing now packet).id.isSome = true) := by
  unfold hearing
  split
  · exact ⟨rfl, fun known => known⟩
  · rename_i transaction reply _
    obtain ⟨address, id⟩ := (node.identified reply.id).address_settled now transaction
    exact ⟨address, fun _ => by rw [id]; rfl⟩

end KnownNode

/-- Two datagrams are not both responses of one sender under the same transaction identifier. -/
def Packet.Apart (packet other : Packet) : Prop :=
  ∀ ticket, packet.ticket? = some ticket → other.ticket? ≠ some ticket

/-- Two responses of one sender that are apart name different numbers. -/
theorem Packet.Apart.transaction_ne {packet other : Packet} (apart : packet.Apart other)
    (sender : packet.sender = other.sender) {one two : Bytes × Reply}
    (first : packet.response? = some one) (second : other.response? = some two) :
    one.1 ≠ two.1 := by
  intro same
  refine apart (packet.sender, one.1) ?_ ?_
  · rw [ticket?, first]
    rfl
  · rw [ticket?, second, sender, same]
    rfl

/-- A response does not change what a response of the same node with another transaction identifier
would close. -/
theorem KnownNode.owed?_hearing {node : KnownNode} {now : Moment} {packet other : Packet}
    (apart : packet.Apart other) (sender : packet.sender = other.sender) {response : Bytes × Reply}
    (answers : other.response? = some response) :
    (node.hearing now packet).owed? response.1 = node.owed? response.1 := by
  unfold hearing
  split
  · rfl
  · rename_i transaction reply first
    exact owed?_settled (apart.transaction_ne sender first answers)

/-- A node with a known identifier can hear two responses in either order. -/
theorem KnownNode.hearing_comm {node : KnownNode} {now : Moment} {packet other : Packet}
    (known : node.id.isSome = true) (apart : packet.Apart other)
    (sender : packet.sender = other.sender) :
    (node.hearing now packet).hearing now other = (node.hearing now other).hearing now packet := by
  cases first : packet.response? with
  | none => simp only [hearing, first]
  | some one =>
    cases second : other.response? with
    | none => simp only [hearing, second]
    | some two =>
      have different := apart.transaction_ne sender first second
      have settledKnown (transaction : Bytes) :
          (node.settled now transaction).id.isSome = true := by
        rw [(node.address_settled now transaction).2]
        exact known
      simp only [hearing, first, second, identified_of_isSome known,
        identified_of_isSome (settledKnown _), settled_comm different]

/-! ## The peers of a content -/

namespace Search

/-- The peers found with those that an answer lists for a content, if it lists any. -/
def learn (found : Std.ExtTreeMap InfoHash AddressSet compare) :
    Option (InfoHash × List Address) → Std.ExtTreeMap InfoHash AddressSet compare
  | none => found
  | some (infoHash, values) =>
    found.insert infoHash (freshPeers (found[infoHash]?.getD ∅) values).2

/-- How many of the listed peers were not found before. -/
def gain (found : Std.ExtTreeMap InfoHash AddressSet compare) :
    Option (InfoHash × List Address) → Nat
  | none => 0
  | some (infoHash, values) => (freshPeers (found[infoHash]?.getD ∅) values).1.length

/-- Which of two answers is taken first does not change which peers are known after both. -/
theorem seen_freshPeers_comm (seen : AddressSet) (values others : List Address) :
    (freshPeers (freshPeers seen values).2 others).2 =
      (freshPeers (freshPeers seen others).2 values).2 := by
  apply Std.ExtTreeSet.ext_mem
  intro peer
  simp only [mem_seen_freshPeers, or_assoc, or_comm (a := peer ∈ values)]

/-- Two lists of peers can be learnt in either order, and bring as many new peers together. -/
theorem learn_comm (found : Std.ExtTreeMap InfoHash AddressSet compare)
    (lesson other : Option (InfoHash × List Address)) :
    learn (learn found lesson) other = learn (learn found other) lesson ∧
      gain found lesson + gain (learn found lesson) other =
        gain found other + gain (learn found other) lesson := by
  match lesson, other with
  | none, _ => exact ⟨rfl, Nat.add_comm _ _⟩
  | some _, none => exact ⟨rfl, Nat.add_comm _ _⟩
  | some (infoHash, values), some (content, others) =>
    simp only [learn, gain]
    by_cases same : content = infoHash
    · subst same
      simp only [Std.ExtTreeMap.getElem?_insert_self, Option.getD_some]
      have together := seen_freshPeers_comm (found[content]?.getD ∅) values others
      constructor
      · rw [insert_insert_self, insert_insert_self, together]
      · have sizes := congrArg Std.ExtTreeSet.size together
        simp only [size_seen_freshPeers] at sizes
        omega
    · rw [getElem?_insert_of_ne same, getElem?_insert_of_ne (Ne.symm same)]
      exact ⟨insert_comm_of_ne found (Ne.symm same) _ _, Nat.add_comm _ _⟩

/-! ## Taking in -/

variable {search : Search} {now : Moment} {packet other : Packet}

/-- The content that a datagram lists peers of, and these peers. -/
def lesson? (search : Search) (now : Moment) (packet : Packet) :
    Option (InfoHash × List Address) :=
  packet.response?.bind fun response =>
    (search.matched? now packet).bind fun query =>
      match query.method, query.infoHash, response.2.values with
      | .getPeers, some infoHash, some values => some (infoHash, values)
      | _, _, _ => none

/-- What a datagram closes, in terms of its response and of what its sender owes. -/
theorem matched?_eq (search : Search) (now : Moment) (packet : Packet) :
    search.matched? now packet =
      packet.response?.bind fun response =>
        (search.table.get? packet.sender).bind fun node => node.owed? response.1 := by
  unfold matched? Packet.response?
  cases Message.parse packet.payload with
  | error cause => rfl
  | ok message =>
    obtain ⟨transaction, sender, body⟩ := message
    cases body with
    | query request => rfl
    | error code text => rfl
    | response reply =>
      cases search.table.get? packet.sender with
      | none => rfl
      | some node => exact (node.identified reply.id).map_fst_resolve? transaction now

/-- Exactly the responses of known nodes are heard. -/
theorem hears_eq (search : Search) (packet : Packet) :
    search.hears packet = (packet.response?.isSome && search.table.contains packet.sender) := by
  unfold hears Packet.response?
  cases Message.parse packet.payload with
  | error cause => rfl
  | ok message =>
    obtain ⟨transaction, sender, body⟩ := message
    cases body <;> rfl

/-- Taking in a datagram leaves the addresses of the table, and their order. -/
theorem receive_addresses (search : Search) (now : Moment) (packet : Packet) :
    (search.receive now packet).1.table.addresses = search.table.addresses := by
  have reception := search.receive_reception now packet
  generalize search.receive now packet = received at reception ⊢
  cases reception with
  | ignored => rfl
  | stale | closed => exact NodeTable.map_replace_addresses _ _
  | delivered =>
    rw [Explains.takePeers_table]
    exact NodeTable.map_replace_addresses _ _

/-- A datagram changes its sender alone. -/
theorem get?_receive (search : Search) (now : Moment) (packet : Packet) (address : Address) :
    (search.receive now packet).1.table.get? address =
      if packet.sender = address then
        (search.table.get? address).map fun node => node.hearing now packet
      else search.table.get? address := by
  have replaced {transaction : Bytes} {reply : Reply} {node : KnownNode}
      (response : packet.response? = some (transaction, reply))
      (found : search.table.get? packet.sender = some node) :
      (search.table.replace ((node.identified reply.id).settled now transaction)).get? address =
        if packet.sender = address then
          (search.table.get? address).map fun node => node.hearing now packet
        else search.table.get? address := by
    have own := (NodeTable.get?_eq_some_iff.mp found).2
    rw [NodeTable.get?_replace, (KnownNode.address_settled _ _ _).1]
    change (if node.address = address then _ else _) = _
    rw [own]
    split
    · rename_i here
      subst here
      rw [found, Option.map_some, Option.map_some, KnownNode.hearing, response]
    · rfl
  have reception := search.receive_reception now packet
  generalize search.receive now packet = received at reception ⊢
  cases reception with
  | ignored silent =>
    cases response : packet.response? with
    | none =>
      have same (node : KnownNode) : node.hearing now packet = node := by
        rw [KnownNode.hearing, response]
      simp only [same, Option.map_id', ite_self]
    | some answer =>
      obtain ⟨sender, parsed⟩ := Packet.response?_eq_some_iff.mp response
      split
      · rename_i here
        subst here
        rw [silent _ _ _ parsed]
        rfl
      · rfl
  | stale parsed found resolved =>
    rw [← replaced (Packet.response?_eq_some_iff.mpr ⟨_, parsed⟩) found, KnownNode.settled,
      resolved]
    rfl
  | closed parsed found resolved =>
    rw [← replaced (Packet.response?_eq_some_iff.mpr ⟨_, parsed⟩) found, KnownNode.settled,
      resolved]
    rfl
  | delivered parsed found resolved =>
    rw [Explains.takePeers_table, ← replaced (Packet.response?_eq_some_iff.mpr ⟨_, parsed⟩) found,
      KnownNode.settled, resolved]
    rfl

/-- A datagram adds what it lists to the peers found. -/
theorem receive_learn (search : Search) (now : Moment) (packet : Packet) :
    (search.receive now packet).1.found = learn search.found (search.lesson? now packet) ∧
      (search.receive now packet).1.stats.peersFound = search.stats.peersFound +
        .ofNat (gain search.found (search.lesson? now packet)) := by
  have none {next : Search} (found : next.found = search.found)
      (count : next.stats.peersFound = search.stats.peersFound)
      (nothing : search.lesson? now packet = none) :
      next.found = learn search.found (search.lesson? now packet) ∧
        next.stats.peersFound = search.stats.peersFound +
          .ofNat (gain search.found (search.lesson? now packet)) := by
    rw [nothing]
    exact ⟨found, count.trans (UInt64.add_zero _).symm⟩
  have reception := search.receive_reception now packet
  generalize search.receive now packet = received at reception ⊢
  cases reception with
  | ignored _ unmatched | stale _ _ _ unmatched =>
    refine none rfl rfl ?_
    rw [lesson?, unmatched]
    cases packet.response? <;> rfl
  | closed parsed _ _ matched never =>
    refine none rfl rfl ?_
    rw [lesson?, Packet.response?_eq_some_iff.mpr ⟨_, parsed⟩, matched]
    simp only [Option.bind_some]
    split
    · rename_i infoHash values getPeers content listed
      have asks := never infoHash
      simp [Query.asksPeersOf, getPeers, content] at asks
    · rfl
  | @delivered transaction sender reply node answered query infoHash parsed _ _ matched asks =>
    simp only [Query.asksPeersOf, Bool.and_eq_true, decide_eq_true_eq] at asks
    have taught : search.lesson? now packet =
        reply.values.map fun values => (infoHash, values) := by
      rw [lesson?, Packet.response?_eq_some_iff.mpr ⟨_, parsed⟩, matched]
      simp only [Option.bind_some, asks.1, asks.2]
      cases reply.values <;> rfl
    rw [takePeers]
    cases listed : reply.values with
    | none => exact none rfl rfl (by rw [taught, listed]; rfl)
    | some values =>
      rw [taught, listed]
      exact ⟨rfl, rfl⟩

end Search

/-! ## Two datagrams -/

attribute [ext] NodeTable Stats Search

/-- A table is its addresses and what is found under them. -/
theorem NodeTable.ext_get? {table other : NodeTable} (addresses : table.addresses = other.addresses)
    (same : ∀ address, table.get? address = other.get? address) : table = other := by
  have nodes_eq (table : NodeTable) : table.addresses.filterMap table.get? = table.nodes :=
    filterMap_get? fun _ member => member
  refine NodeTable.ext ?_
  rw [← nodes_eq table, ← nodes_eq other, addresses, funext same]

/-- Which of two datagrams comes first does not matter. -/
theorem Packet.Apart.symm {packet other : Packet} (apart : packet.Apart other) :
    other.Apart packet :=
  fun ticket mine theirs => apart ticket theirs mine

namespace Search

variable {search : Search} {now : Moment} {packet other : Packet}

/-- A datagram does not change what another response answers. -/
theorem matched?_receive (apart : packet.Apart other) :
    (search.receive now packet).1.matched? now other = search.matched? now other := by
  rw [matched?_eq, matched?_eq]
  cases answers : other.response? with
  | none => rfl
  | some response =>
    rw [Option.bind_some, Option.bind_some, get?_receive]
    split
    · rename_i sender
      cases search.table.get? other.sender with
      | none => rfl
      | some node => exact KnownNode.owed?_hearing apart sender answers
    · rfl

/-- Datagrams that are apart teach the same in either order. -/
theorem lesson?_receive (apart : packet.Apart other) :
    (search.receive now packet).1.lesson? now other = search.lesson? now other := by
  rw [lesson?, lesson?, matched?_receive apart]

/-- What is heard does not depend on the datagrams before. -/
theorem hears_receive (search : Search) (now : Moment) (packet other : Packet) :
    (search.receive now packet).1.hears other = search.hears other := by
  rw [hears_eq, hears_eq, NodeTable.contains, NodeTable.contains, receive_addresses]

/-- The second of two datagrams adds what it would have added alone. -/
theorem receive_receive_learn (search : Search) (now : Moment) (apart : packet.Apart other) :
    ((search.receive now packet).1.receive now other).1.found =
        learn (learn search.found (search.lesson? now packet)) (search.lesson? now other) ∧
      ((search.receive now packet).1.receive now other).1.stats.peersFound =
        search.stats.peersFound + .ofNat (gain search.found (search.lesson? now packet) +
          gain (learn search.found (search.lesson? now packet)) (search.lesson? now other)) := by
  obtain ⟨found, count⟩ := search.receive_learn now packet
  obtain ⟨foundToo, countToo⟩ := (search.receive now packet).1.receive_learn now other
  rw [foundToo, countToo, found, count, lesson?_receive apart, UInt64.ofNat_add, UInt64.add_assoc]
  exact ⟨rfl, rfl⟩

/-- Two datagrams that are apart can be taken in either order. -/
theorem receive_comm (apart : packet.Apart other)
    (known : ∀ node, search.table.get? packet.sender = some node → node.id.isSome = true) :
    ((search.receive now packet).1.receive now other).1 =
      ((search.receive now other).1.receive now packet).1 := by
  have table : ((search.receive now packet).1.receive now other).1.table =
      ((search.receive now other).1.receive now packet).1.table := by
    refine NodeTable.ext_get? ?_ fun address => ?_
    · simp only [receive_addresses]
    · simp only [get?_receive]
      split <;> split
      · rename_i theirs mine
        subst mine
        cases found : search.table.get? packet.sender with
        | none => rfl
        | some node =>
          simp only [Option.map_some, KnownNode.hearing_comm (known node found) apart theirs.symm]
      all_goals rfl
  obtain ⟨learnt, more⟩ := learn_comm search.found (search.lesson? now packet)
    (search.lesson? now other)
  obtain ⟨found, count⟩ := receive_receive_learn search now apart
  obtain ⟨found', count'⟩ := receive_receive_learn search now apart.symm
  have one := search.receive_received now packet
  have two := search.receive_received now other
  have oneTwo := (search.receive now packet).1.receive_received now other
  have twoOne := (search.receive now other).1.receive_received now packet
  refine Search.ext table ?_ ?_ (Stats.ext ?_ ?_ ?_ ?_ ?_ ?_ ?_)
  · rw [found, found', learnt]
  · simp only [receive_budgets]
  · rw [oneTwo.nodesCreated_eq, one.nodesCreated_eq, twoOne.nodesCreated_eq, two.nodesCreated_eq]
  · rw [oneTwo.duplicateNodes_eq, one.duplicateNodes_eq, twoOne.duplicateNodes_eq,
      two.duplicateNodes_eq]
  · rw [count, count', more]
  · rw [oneTwo.getPeersSent_eq, one.getPeersSent_eq, twoOne.getPeersSent_eq, two.getPeersSent_eq]
  · rw [oneTwo.pingsSent_eq, one.pingsSent_eq, twoOne.pingsSent_eq, two.pingsSent_eq]
  · rw [oneTwo.matched_eq, one.matched_eq, twoOne.matched_eq, two.matched_eq,
      matched?_receive apart, matched?_receive apart.symm]
    ac_rfl
  · rw [oneTwo.stale_eq, one.stale_eq, twoOne.stale_eq, two.stale_eq, matched?_receive apart,
      matched?_receive apart.symm, hears_receive, hears_receive]
    ac_rfl

end Search

end PeerDiscovery
