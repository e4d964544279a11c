import PeerDiscovery.Proofs.Search.Correlation
import PeerDiscovery.Proofs.Search.Restraint

/-!
# What a datagram may touch

Whoever sends a datagram chooses every octet of it, so what it can change matters more than what it
is meant to. `Run.confined` says it by cases: nothing, if it is no response of a known node; a
count, if it is out of date; the record of its sender, if it answers a ping; and if it answers a
question for the peers of a content, what is kept for that content, the nodes that it refers to, and
at most one new question at each node. A node is not asked twice because from the first time on it
owes an answer about the content, and a selection leaves out such nodes. -/

namespace PeerDiscovery

/-! ## Nodes before and after -/

namespace KnownNode

/-- The node after a question was recorded under a number. -/
def asking (node : KnownNode) (number : UInt16) (infoHash : InfoHash) : KnownNode :=
  { node with
    nextTransaction := number + 1
    pending := node.pending.insert number ⟨number, .getPeers, some infoHash⟩ }

/-- The node after its query of a number was answered by a response that names an identifier. -/
def answering (node : KnownNode) (id : Identifier) (now : Moment) (number : UInt16)
    (query : Query) : KnownNode :=
  { node with
    id := some (node.id.getD id)
    reachable := true
    lastContact := some now
    pending := node.pending.erase number
    past := node.past.insert number query }

variable {node : KnownNode} {infoHash : InfoHash} {number : UInt16}

/-- A node that is asked has the question pending, and nothing else is new about it. -/
theorem eq_asking_of_ask? {next : KnownNode}
    (asked : node.ask? .getPeers (some infoHash) = some (number, next)) :
    next = node.asking number infoHash :=
  (ask?_eq_some_iff.mp asked).2

/-- A node that was asked owes the answer. -/
theorem awaitsPeersOf_asking : (node.asking number infoHash).awaitsPeersOf infoHash = true := by
  refine awaitsPeersOf_iff.mpr ⟨number, ⟨number, .getPeers, some infoHash⟩, ?_, ?_⟩
  · exact Std.ExtTreeMap.getElem?_insert_self
  · simp [Query.asksPeersOf]

end KnownNode

/-- Two tables hold nodes of the same addresses, and the same nodes but for one, which is another
now. -/
structure NodeTable.Exchanged (table next : NodeTable) (node : KnownNode) : Prop where
  addresses_eq : next.addresses = table.addresses
  get?_eq : ∀ address, next.get? address =
    if node.address = address then some node else table.get? address

/-- Replacing a node leaves all others. -/
theorem NodeTable.exchanged {table : NodeTable} {node old : KnownNode}
    (found : table.get? node.address = some old) : table.Exchanged (table.replace node) node where
  addresses_eq := map_replace_addresses _ _
  get?_eq address := by
    rw [get?_replace]
    split
    · rename_i here
      rw [← here, found]
      rfl
    · rfl

/-! ## Following references -/

/-- The node of an address once contacts have joined a table: the one that was known, or else the
one of the first contact with the address. -/
def NodeTable.joined? (setup : Setup) (table : NodeTable) (contacts : List Contact)
    (address : Address) : Option KnownNode :=
  (table.get? address).or <|
    (contacts.find? fun contact => contact.address = address).map fun contact =>
      .new (some contact.id) address (setup.chance.firstTransaction address)

/-- What following contacts about a content does to the table: each node of it and of the contacts
is as it was, or was asked about the content, once. -/
structure Explores (setup : Setup) (infoHash : InfoHash) (contacts : List Contact)
    (table : NodeTable) (outcome : Outcome) : Prop where
  nodes : ∀ address,
    (address ∉ outcome.queries.map Prod.fst ∧
        outcome.search.table.get? address = table.joined? setup contacts address) ∨
      ∃ node number, table.joined? setup contacts address = some node ∧
        node.awaitsPeersOf infoHash = false ∧ node.pending[number]? = none ∧
        (address, ⟨number, .getPeers, some infoHash⟩) ∈ outcome.queries ∧
        outcome.search.table.get? address = some (node.asking number infoHash)
  nodup : (outcome.queries.map Prod.fst).Nodup
  about : ∀ recorded ∈ outcome.queries,
    recorded.2.method = .getPeers ∧ recorded.2.infoHash = some infoHash

namespace NodeTable

variable {setup : Setup} {table : NodeTable}

theorem joined?_nil (address : Address) : table.joined? setup [] address = table.get? address :=
  Option.or_none

/-- A known node is not replaced by a reference to it. -/
theorem joined?_of_get? {contacts : List Contact} {address : Address} {node : KnownNode}
    (found : table.get? address = some node) :
    table.joined? setup contacts address = some node := by
  rw [joined?, found, Option.some_or]

/-- A node that joins is found, and the others are found as before. -/
theorem get?_addContact {contact : Contact} (unknown : table.get? contact.address = none)
    (address : Address) :
    (table.addContact setup.chance contact).get? address =
      table.joined? setup [contact] address := by
  rw [addContact, get?_add unknown, joined?]
  by_cases same : contact.address = address
  · subst same
    simp [unknown, KnownNode.new]
  · simp [same, KnownNode.new]

end NodeTable

namespace Search

variable {setup : Setup} {search next : Search} {infoHash : InfoHash}

/-- Asking distinct nodes of the table that owe no answer. -/
theorem get?_of_askAll? {targets : List Address} {asked : List (Address × UInt16)}
    (distinct : targets.Nodup)
    (idle : ∀ address ∈ targets, ∃ node, search.table.get? address = some node ∧
      node.awaitsPeersOf infoHash = false)
    (result : askAll? setup infoHash targets search = some (asked, next)) (address : Address) :
    (address ∉ targets ∧ next.table.get? address = search.table.get? address) ∨
      ∃ node number, search.table.get? address = some node ∧
        node.awaitsPeersOf infoHash = false ∧ node.pending[number]? = none ∧
        (address, number) ∈ asked ∧
        next.table.get? address = some (node.asking number infoHash) := by
  induction targets generalizing search asked with
  | nil =>
    obtain ⟨-, rfl⟩ := Prod.mk.inj (Option.some.inj result)
    exact Or.inl ⟨List.not_mem_nil, rfl⟩
  | cons target rest ih =>
    obtain ⟨number, opened, others, opening, remaining, rfl⟩ :=
      askAll?_cons_eq_some_iff.mp result
    obtain ⟨fresh, distinct⟩ := List.nodup_cons.mp distinct
    obtain ⟨node, found, free⟩ := idle target List.mem_cons_self
    have kept : ∀ other, target ≠ other →
        opened.table.get? other = search.table.get? other := fun other different =>
      get?_of_openQuery? opening found different
    have still : ∀ other ∈ rest, ∃ node, opened.table.get? other = some node ∧
        node.awaitsPeersOf infoHash = false := by
      intro other member
      rw [kept other fun same => fresh (same ▸ member)]
      exact idle other (List.mem_cons_of_mem _ member)
    have here : node.pending[number]? = none ∧
        opened.table.get? target = some (node.asking number infoHash) := by
      obtain ⟨old, asked, foundToo, recorded, rfl⟩ := openQuery?_eq_some_iff.mp opening
      rw [addAddress_of_known found] at foundToo ⊢
      obtain rfl : node = old := Option.some.inj (found.symm.trans foundToo)
      refine ⟨KnownNode.pending_of_ask? recorded, ?_⟩
      obtain rfl := KnownNode.eq_asking_of_ask? recorded
      have own : (node.asking number infoHash).address = target :=
        (NodeTable.get?_eq_some_iff.mp found).2
      rw [NodeTable.get?_replace, if_pos own, found]
      rfl
    rcases ih distinct (by exact still) remaining with
      ⟨absent, same⟩ | ⟨other, again, foundToo, idleToo, free', member, after⟩
    · by_cases equal : target = address
      · subst equal
        exact Or.inr ⟨node, number, found, free, here.1, List.mem_cons_self, same.trans here.2⟩
      · refine Or.inl ⟨?_, same.trans (kept address equal)⟩
        rw [List.mem_cons, not_or]
        exact ⟨Ne.symm equal, absent⟩
    · have elsewhere : target ≠ address := by
        rintro rfl
        obtain rfl := Option.some.inj (here.2.symm.trans foundToo)
        rw [KnownNode.awaitsPeersOf_asking] at idleToo
        cases idleToo
      exact Or.inr ⟨other, again, (kept address elsewhere).symm.trans foundToo, idleToo, free',
        List.mem_cons_of_mem _ member, after⟩

end Search

namespace Explores

variable {setup : Setup} {search middle : Search} {table : NodeTable} {infoHash : InfoHash}
  {now : Moment} {outcome : Outcome} {contacts : List Contact}

/-- Nodes may join without a round. -/
theorem quiet (none : outcome.queries = [])
    (same : ∀ address, outcome.search.table.get? address = table.joined? setup contacts address) :
    Explores setup infoHash contacts table outcome where
  nodes address := Or.inl ⟨by rw [none]; exact List.not_mem_nil, same address⟩
  nodup := by rw [none]; exact List.nodup_nil
  about := by rw [none]; exact List.forall_mem_nil _

/-- A round once nodes have joined. -/
theorem round
    (same : ∀ address, middle.table.get? address = table.joined? setup contacts address)
    (held : middle.round? setup now infoHash = some outcome) :
    Explores setup infoHash contacts table outcome := by
  obtain ⟨asked, last, asking, rfl⟩ := Search.round?_eq_some_iff.mp held
  obtain ⟨distinct, eligible⟩ := Selection.getD_select?_walk_spec setup.chance middle.table
  obtain ⟨addresses, -⟩ := Search.askAll?_spec asking
  have queries : Outcome.queries { search := last, activities := [.round now infoHash asked] } =
      asked.map fun query => (query.1, ⟨query.2, .getPeers, some infoHash⟩) := by
    rw [Outcome.queries, List.flatMap_singleton]
    rfl
  have targets : (Outcome.queries
      { search := last, activities := [.round now infoHash asked] }).map Prod.fst =
        asked.map Prod.fst := by
    rw [queries, List.map_map]
    rfl
  constructor
  · intro address
    rw [targets, addresses, queries, ← same]
    rcases Search.get?_of_askAll? distinct (fun target member =>
        (eligible target member).imp fun node found =>
          ⟨found.1, (Selection.isEligible_iff.mp found.2).2.1⟩) asking address with
      untouched | ⟨node, number, found, idle, free, member, after⟩
    · exact Or.inl untouched
    · exact Or.inr ⟨node, number, found, idle, free, List.mem_map.mpr ⟨_, member, rfl⟩, after⟩
  · rw [targets, addresses]
    exact distinct
  · intro recorded member
    rw [queries] at member
    obtain ⟨query, -, rfl⟩ := List.mem_map.mp member
    exact ⟨rfl, rfl⟩

/-- Following a reference touches the node that joins, and those that a round asks. -/
theorem follow {contact : Contact}
    (followed : Search.follow? setup now infoHash contact search = some outcome) :
    Explores setup infoHash [contact] search.table outcome := by
  rcases Search.follow?_cases followed with ⟨known, rfl⟩ | ⟨unknown, joined⟩
  · refine quiet rfl fun address => ?_
    rw [NodeTable.contains_eq_isSome] at known
    obtain ⟨node, found⟩ := Option.isSome_iff_exists.mp known
    rw [NodeTable.joined?]
    by_cases same : contact.address = address
    · subst same
      change search.table.get? _ = _
      rw [found, Option.some_or]
    · simp [same]
  · have added : ∀ address, (search.table.addContact setup.chance contact).get? address =
        search.table.joined? setup [contact] address :=
      NodeTable.get?_addContact (NodeTable.contains_eq_false_iff.mp unknown)
    rcases joined with ⟨-, rfl⟩ | ⟨left, -, -, held⟩
    · exact quiet rfl added
    · exact round (by exact added) held

/-- One thing after another. A node asked in the first is left alone in the second. -/
theorem append {first others : Outcome} {more : List Contact}
    (one : Explores setup infoHash contacts table first)
    (two : Explores setup infoHash more first.search.table others) :
    Explores setup infoHash (contacts ++ more) table
      { others with activities := first.activities ++ others.activities } := by
  have queries : Outcome.queries
      { others with activities := first.activities ++ others.activities } =
        first.queries ++ others.queries := List.flatMap_append
  -- what was known after the first contacts, and what was asked then
  have asked : ∀ {address node}, table.joined? setup contacts address = some node →
      table.joined? setup (contacts ++ more) address = some node := by
    intro address node here
    rw [NodeTable.joined?, List.find?_append, Option.map_or, ← Option.or_assoc,
      ← NodeTable.joined?, here, Option.some_or]
  have untouched : ∀ {address},
      first.search.table.get? address = table.joined? setup contacts address →
      first.search.table.joined? setup more address =
        table.joined? setup (contacts ++ more) address := by
    intro address same
    rw [NodeTable.joined?, same, NodeTable.joined?, NodeTable.joined?, List.find?_append,
      Option.map_or, Option.or_assoc]
  have apart : ∀ address ∈ first.queries.map Prod.fst, address ∉ others.queries.map Prod.fst := by
    intro address asked
    rcases one.nodes address with ⟨absent, -⟩ | ⟨node, number, -, -, -, -, after⟩
    · exact absurd asked absent
    rcases two.nodes address with ⟨absent, -⟩ | ⟨other, again, found, idle, -⟩
    · exact absent
    · rw [NodeTable.joined?_of_get? after] at found
      obtain rfl := Option.some.inj found
      rw [KnownNode.awaitsPeersOf_asking] at idle
      cases idle
  constructor
  · intro address
    rw [queries, List.map_append, List.mem_append]
    rcases one.nodes address with ⟨absent, same⟩ | ⟨node, number, found, idle, free, member, after⟩
    · rw [← untouched same]
      rcases two.nodes address with ⟨absentToo, kept⟩ | ⟨node, number, rest⟩
      · exact Or.inl ⟨not_or.mpr ⟨absent, absentToo⟩, kept⟩
      · obtain ⟨found, idle, free, member, after⟩ := rest
        exact Or.inr ⟨node, number, found, idle, free, List.mem_append_right _ member, after⟩
    · have here : address ∈ first.queries.map Prod.fst := List.mem_map_of_mem member
      rcases two.nodes address with ⟨-, kept⟩ | ⟨other, again, -, -, -, memberToo, -⟩
      · rw [NodeTable.joined?_of_get? after] at kept
        exact Or.inr ⟨node, number, asked found, idle, free, List.mem_append_left _ member, kept⟩
      · exact absurd (List.mem_map_of_mem memberToo) (apart address here)
  · rw [queries, List.map_append, List.nodup_append]
    refine ⟨one.nodup, two.nodup, ?_⟩
    rintro address here _ there rfl
    exact apart address here there
  · intro recorded member
    rw [queries] at member
    rcases List.mem_append.mp member with here | there
    · exact one.about recorded here
    · exact two.about recorded there

/-- Following references touches the nodes that join, and those that their rounds ask. -/
theorem followAll {clock : Clock}
    (followed : Search.followAll? setup clock infoHash contacts search = some outcome) :
    Explores setup infoHash contacts search.table outcome := by
  induction contacts generalizing clock search outcome with
  | nil =>
    obtain rfl := Option.some.inj followed
    exact quiet rfl fun address => (NodeTable.joined?_nil address).symm
  | cons contact rest ih =>
    obtain ⟨first, others, one, remaining, rfl⟩ := Search.followAll?_cons_eq_some_iff.mp followed
    exact (follow one).append (ih remaining)

end Explores

/-- What is kept for other contents stays where something is put under one. -/
theorem getElem?_insert_of_ne {α : Type} {kept : Std.ExtTreeMap InfoHash α compare}
    {infoHash other : InfoHash} {value : α} (different : other ≠ infoHash) :
    (kept.insert infoHash value)[other]? = kept[other]? := by
  rw [Std.ExtTreeMap.getElem?_insert, if_neg]
  rw [Std.compare_eq_iff_eq]
  exact Ne.symm different

/-- References that an answer about one content makes cost no other content anything. -/
theorem Search.budgets_of_followAll? {setup : Setup} {search : Search} {infoHash : InfoHash}
    {clock : Clock} {outcome : Outcome} {contacts : List Contact}
    (followed : followAll? setup clock infoHash contacts search = some outcome) {other : InfoHash}
    (different : other ≠ infoHash) :
    outcome.search.budgets[other]? = search.budgets[other]? := by
  induction contacts generalizing clock search outcome with
  | nil =>
    obtain rfl := Option.some.inj followed
    rfl
  | cons contact rest ih =>
    obtain ⟨first, others, one, remaining, rfl⟩ := followAll?_cons_eq_some_iff.mp followed
    refine (ih remaining).trans ?_
    rcases follow?_cases one with ⟨-, rfl⟩ | ⟨-, ⟨-, rfl⟩ | ⟨left, -, -, held⟩⟩
    · rfl
    · rfl
    · obtain ⟨asked, last, asking, rfl⟩ := round?_eq_some_iff.mp held
      rw [(askAll?_spec asking).2, getElem?_insert_of_ne different]

/-! ## Taking in responses -/

section Responses

variable {search : Search} {now : Moment} {packet : Packet} {transaction : Bytes}
  {sender : Option Identifier} {reply : Reply} {node : KnownNode} {number : UInt16} {query : Query}

/-- The identifier that comes with an answer does not matter for what it closes. -/
theorem KnownNode.resolve?_identified (waiting : node.pending[number]? = some query)
    (id : Identifier) (now : Moment) :
    (node.identified id).resolve? (Bytes.ofWord number) now =
      some (query, node.answering id now number query) :=
  resolve?_eq_some_iff.mpr ⟨number, rfl, answer?_eq_some_iff.mpr ⟨waiting, rfl⟩⟩

/-- A number under which nothing is pending closes nothing. -/
theorem KnownNode.resolve?_eq_none
    (none : ∀ number, transaction = Bytes.ofWord number → node.pending[number]? = Option.none) :
    node.resolve? transaction now = Option.none := by
  refine Option.eq_none_iff_forall_not_mem.mpr fun closed resolved => ?_
  obtain ⟨number, spelled, answered⟩ := resolve?_eq_some_iff.mp resolved
  have waiting := (answer?_eq_some_iff.mp answered).1
  rw [none number spelled] at waiting
  cases waiting

namespace Search

/-- The response of a known node is taken as a reply of that node. -/
theorem receive_of_response
    (parsed : Message.parse packet.payload = .ok ⟨transaction, sender, .response reply⟩)
    (found : search.table.get? packet.sender = some node) :
    search.receive now packet = search.takeReply now node transaction reply := by
  rw [receive, parsed, found]

/-- A response under the number of an open question for the peers of a content closes it, and its
peers are taken. -/
theorem receive_of_question (now : Moment) {infoHash : InfoHash}
    (parsed : Message.parse packet.payload = .ok ⟨Bytes.ofWord number, sender, .response reply⟩)
    (found : search.table.get? packet.sender = some node)
    (waiting : node.pending[number]? = some query) (getPeers : query.method = .getPeers)
    (content : query.infoHash = some infoHash) :
    search.receive now packet =
      (((search.closing (node.answering reply.id now number query)).takePeers infoHash reply).1,
        some ((search.closing (node.answering reply.id now number query)).takePeers
          infoHash reply).2) := by
  rw [receive_of_response parsed found, takeReply, KnownNode.resolve?_identified waiting]
  simp only [getPeers, content]
  rfl

/-- A datagram that delivers nothing is handled once it is taken in. -/
theorem handle?_of_receive {setup : Setup} {heard : Moment} {clock : Clock} {next : Search}
    (received : search.receive heard packet = (next, none)) :
    search.handle? setup heard clock (.packet packet) = some { search := next } := by
  rw [handle?, packet?]
  simp only [received]

end Search

end Responses

/-! ## What a datagram may touch -/

/-- What the answer to a question for the peers of a content may touch: the peers and the budget of
the content, the record of its sender, the nodes it refers to, and at most one question at each
node. -/
structure Expands (setup : Setup) (infoHash : InfoHash) (reply : Reply) (answering : KnownNode)
    (search : Search) (outcome : Outcome) : Prop where
  table : ∃ table, search.table.Exchanged table answering ∧
    Explores setup infoHash (Search.references reply.nodes) table outcome
  /-- One datagram goes out for each question. -/
  datagrams : List.Forall₂ (Spells setup.settings.ourId)
    (outcome.datagrams setup.settings.ourId) outcome.queries
  found : ∀ other, other ≠ infoHash → outcome.search.found[other]? = search.found[other]?
  budgets : ∀ other, other ≠ infoHash → outcome.search.budgets[other]? = search.budgets[other]?
  batch : ∀ batch, outcome.batch = some batch → batch.infoHash = infoHash
  /-- Each reference is to a node that joins or to one that was there, and is counted as such. -/
  references : ∃ created duplicates,
    created + duplicates = (Search.references reply.nodes).length ∧
      outcome.search.table.size = search.table.size + created ∧
      outcome.search.stats.nodesCreated = search.stats.nodesCreated + .ofNat created ∧
      outcome.search.stats.duplicateNodes = search.stats.duplicateNodes + .ofNat duplicates
  getPeersSent_eq : outcome.search.stats.getPeersSent =
    search.stats.getPeersSent + .ofNat outcome.queries.length
  peersFound_eq : outcome.search.stats.peersFound =
    search.stats.peersFound + .ofNat (outcome.batch.elim [] Batch.peers).length
  responsesMatched_eq : outcome.search.stats.responsesMatched = search.stats.responsesMatched + 1
  pingsSent_eq : outcome.search.stats.pingsSent = search.stats.pingsSent
  staleResponses_eq : outcome.search.stats.staleResponses = search.stats.staleResponses

/-- What a datagram that is heard at some moment, and followed up by a clock, may touch, by what it
is. -/
structure Confined (setup : Setup) (heard : Moment) (clock : Clock) (packet : Packet)
    (search : Search) : Prop where
  /-- It is no response of a known node. -/
  ignored :
    (∀ transaction sender reply,
      Message.parse packet.payload = .ok ⟨transaction, sender, .response reply⟩ →
        search.table.get? packet.sender = none) →
      search.handle? setup heard clock (.packet packet) = some { search }
  /-- It is a response of a known node to nothing that the node owes. -/
  stale : ∀ {transaction sender reply node},
    Message.parse packet.payload = .ok ⟨transaction, sender, .response reply⟩ →
      search.table.get? packet.sender = some node →
      (∀ number, transaction = Bytes.ofWord number → node.pending[number]? = none) →
      ∃ table, search.table.Exchanged table (node.identified reply.id) ∧
        search.handle? setup heard clock (.packet packet) = some { search := { search with
          table, stats.staleResponses := search.stats.staleResponses + 1 } }
  /-- It answers a ping. -/
  pinged : ∀ {number sender reply node query},
    Message.parse packet.payload = .ok ⟨Bytes.ofWord number, sender, .response reply⟩ →
      search.table.get? packet.sender = some node → node.pending[number]? = some query →
      query.method = .ping →
      ∃ table, search.table.Exchanged table (node.answering reply.id heard number query) ∧
        search.handle? setup heard clock (.packet packet) = some { search := { search with
          table, stats.responsesMatched := search.stats.responsesMatched + 1 } }
  /-- It answers anything else, and that is a question for the peers of a content. -/
  asked : ∀ {number sender reply node query},
    Message.parse packet.payload = .ok ⟨Bytes.ofWord number, sender, .response reply⟩ →
      search.table.get? packet.sender = some node → node.pending[number]? = some query →
      query.method ≠ .ping →
      ∃ infoHash, query.method = .getPeers ∧ query.infoHash = some infoHash ∧
        ∀ outcome, search.handle? setup heard clock (.packet packet) = some outcome →
          Expands setup infoHash reply (node.answering reply.id heard number query) search outcome

section Confined

variable {setup : Setup} {search : Search} {infoHash : InfoHash} {packet : Packet}
  {heard : Moment} {clock : Clock} {sender : Option Identifier} {reply : Reply} {node : KnownNode}
  {number : UInt16} {query : Query} {outcome : Outcome}

/-- The peers of an answer are counted, and only those of its content change. -/
theorem Search.takePeers_spec (search : Search) (infoHash : InfoHash) (reply : Reply) :
    (∀ other, other ≠ infoHash →
        (search.takePeers infoHash reply).1.found[other]? = search.found[other]?) ∧
      (search.takePeers infoHash reply).1.stats =
        { search.stats with
          peersFound := search.stats.peersFound +
            .ofNat (search.takePeers infoHash reply).2.fresh.length } ∧
      (search.takePeers infoHash reply).2.nodes = reply.nodes := by
  unfold takePeers
  split
  · exact ⟨fun _ _ => rfl, congrArg (fun count => { search.stats with peersFound := count })
      (UInt64.add_zero _).symm, rfl⟩
  · exact ⟨fun other different => getElem?_insert_of_ne different, rfl, rfl⟩

/-- The batch of a delivery holds its fresh peers, and without any there is no batch. -/
theorem Delivery.peers_batch? (delivery : Delivery) :
    delivery.batch?.elim [] Batch.peers = delivery.fresh := by
  rw [batch?]
  split
  · rename_i none
    exact (List.isEmpty_iff.mp none).symm
  · rfl

/-- So an answer to a question for peers expands the search as `Expands` says. -/
theorem Expands.of_handle?
    (parsed : Message.parse packet.payload = .ok ⟨Bytes.ofWord number, sender, .response reply⟩)
    (found : search.table.get? packet.sender = some node)
    (waiting : node.pending[number]? = some query) (getPeers : query.method = .getPeers)
    (content : query.infoHash = some infoHash)
    (handled : search.handle? setup heard clock (.packet packet) = some outcome) :
    Expands setup infoHash reply (node.answering reply.id heard number query) search outcome := by
  have here : search.table.get? (node.answering reply.id heard number query).address = some node :=
    NodeTable.get?_address found
  have received := Search.receive_of_question heard parsed found waiting getPeers content
  generalize node.answering reply.id heard number query = answering at here received ⊢
  obtain ⟨foundToo, stats, nodes⟩ := (search.closing answering).takePeers_spec infoHash reply
  have about := (search.closing answering).takePeers_infoHash infoHash reply
  have table := Explains.takePeers_table (search.closing answering) infoHash reply
  have budgets := search.receive_budgets heard packet
  rcases Search.handle?_packet_cases handled with
    ⟨none, -⟩ | ⟨delivery, followed, brought, following, rfl⟩
  · rw [received] at none
    cases none
  rw [received] at brought following budgets
  obtain rfl := Option.some.inj brought
  rw [about, nodes] at following
  dsimp only at following budgets
  generalize ((search.closing answering).takePeers infoHash reply).1 = taken
    at following foundToo stats table budgets
  generalize ((search.closing answering).takePeers infoHash reply).2 = delivery at stats about
  obtain ⟨created, duplicates, all, counted⟩ := Counted.followAll following
  have findings := SameFindings.followAll following
  have explores := Explores.followAll following
  rw [table] at explores
  constructor
  · exact ⟨_, NodeTable.exchanged here, explores.nodes, explores.nodup, explores.about⟩
  · exact Spells.outcome _
  · intro other different
    change followed.search.found[other]? = _
    rw [findings.found, foundToo other different]
    rfl
  · intro other different
    change followed.search.budgets[other]? = _
    rw [Search.budgets_of_followAll? following different, budgets]
  · intro batch handed
    change delivery.batch? = some batch at handed
    rw [Delivery.batch?] at handed
    split at handed
    · cases handed
    · rw [← Option.some.inj handed]
      exact about
  · refine ⟨created, duplicates, all, ?_, ?_, ?_⟩
    · rw [counted.size_eq, table]
      exact congrArg (· + created) (NodeTable.size_replace _ _)
    · rw [counted.nodesCreated_eq, stats]
      rfl
    · rw [counted.duplicateNodes_eq, stats]
      rfl
  · rw [counted.getPeersSent_eq, stats]
    rfl
  · rw [findings.peersFound, stats, Delivery.peers_batch?]
    rfl
  · rw [findings.responsesMatched, stats]
    rfl
  · rw [counted.pingsSent_eq, stats]
    exact UInt64.add_zero _
  · rw [findings.staleResponses, stats]
    rfl

/-- Whatever a datagram holds and whoever sent it, what it may touch is confined. -/
theorem Run.confined {resolve : Resolver} {journal : List Entry}
    (run : Run setup resolve journal search) (heard : Moment) (clock : Clock) (packet : Packet) :
    Confined setup heard clock packet search where
  ignored silent := by
    refine Search.handle?_of_receive ?_
    have reception := search.receive_reception heard packet
    generalize search.receive heard packet = received at reception ⊢
    cases reception with
    | ignored => rfl
    | stale parsed found | closed parsed found | delivered parsed found =>
      rw [silent _ _ _ parsed] at found
      cases found
  stale := by
    intro transaction sender reply node parsed found none
    have here : search.table.get? (node.identified reply.id).address = some node :=
      NodeTable.get?_address found
    refine ⟨_, NodeTable.exchanged here, Search.handle?_of_receive ?_⟩
    have unresolved : (node.identified reply.id).resolve? transaction heard = Option.none :=
      KnownNode.resolve?_eq_none none
    rw [Search.receive_of_response parsed found, Search.takeReply, unresolved]
  pinged := by
    intro number sender reply node query parsed found waiting ping
    have here :
        search.table.get? (node.answering reply.id heard number query).address = some node :=
      NodeTable.get?_address found
    refine ⟨_, NodeTable.exchanged here, Search.handle?_of_receive ?_⟩
    rw [Search.receive_of_response parsed found, Search.takeReply,
      KnownNode.resolve?_identified waiting]
    simp only [ping]
  asked := by
    intro number sender reply node query parsed found waiting other
    rcases run.restrained.proper_of_mem found (Or.inl waiting) with
      ⟨ping, -⟩ | ⟨infoHash, getPeers, content⟩
    · exact absurd ping other
    · exact ⟨infoHash, getPeers, content, fun outcome handled =>
        .of_handle? parsed found waiting getPeers content handled⟩

/-- An answer to the first question of the sample. It lists a peer and refers to its own sender. -/
def Sample.selfReferral : Packet where
  payload := (Message.response (Bytes.ofWord 0)
    { id := Sample.identifier 2, token := none, values := some [Sample.peer 1],
      nodes := some ((Sample.identifier 2).bytes ++ Sample.node.compact) }).print
  sender := Sample.node

/-- In the sample, once the node was asked, it may answer and be referred to. -/
theorem Run.confined_sample :
    ∃ journal search outcome, Run Sample.setup .literal journal search ∧
      search.handle? Sample.setup 2 (.still 3) (.packet Sample.selfReferral) = some outcome ∧
      outcome.batch = some ⟨Sample.content, [Sample.peer 1]⟩ ∧
      ∃ reply answering, Expands Sample.setup Sample.content reply answering search outcome := by
  have told : (Search.start.journal? Sample.setup (Sample.events.take 3)).map (fun recorded =>
      (recorded.2.matched? 2 Sample.selfReferral,
        (recorded.2.handle? Sample.setup 2 (.still 3) (.packet Sample.selfReferral)).map
          Outcome.batch)) =
        some (some ⟨0, .getPeers, some Sample.content⟩,
          some (some ⟨Sample.content, [Sample.peer 1]⟩)) := by decide +kernel
  obtain ⟨journal, search, run, same⟩ := Run.of_map_journal? told
  obtain ⟨matched, handed⟩ := Prod.mk.inj same
  obtain ⟨outcome, handled, batch⟩ := Option.map_eq_some_iff.mp handed
  obtain ⟨number, sender, reply, node, parsed, found, waiting⟩ :=
    Search.matched?_eq_some_iff.mp matched
  obtain ⟨infoHash, -, content, expands⟩ :=
    (run.confined 2 (.still 3) Sample.selfReferral).asked parsed found waiting (by decide)
  obtain rfl := Option.some.inj content
  exact ⟨journal, search, outcome, run, handled, batch, reply, _, expands outcome handled⟩

end Confined

end PeerDiscovery
