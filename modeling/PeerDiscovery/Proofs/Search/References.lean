import PeerDiscovery.Proofs.Search.Conservation
import PeerDiscovery.Proofs.Search.Exchange
import PeerDiscovery.Proofs.Search.Publication
import PeerDiscovery.Proofs.Search.Sweep

/-!
# What the references of an answer come to

An answer may refer to nodes that are known, to unknown ones, and to one node several times, and
following a reference may start a round, so the search changes while the list is read. None of that
changes who joins or how many rounds there are: `newcomers` reads the first off the list and the
table as they were, and the second is bounded by the newcomers and by the budget alone, since the
number of known peers stays as it is once the peers of the answer itself are taken
(`follows_of_followAll?`). Each round asks the nodes that are selected when the reference that
starts it is followed (`startedBy_of_followAll?`). `Search.refers` puts this together for a whole
answer. -/

namespace PeerDiscovery

/-! ## Who joins -/

namespace NodeTable

/-- The addresses that contacts bring to a table: the unknown ones, each at its first place. -/
def newcomers (table : NodeTable) (contacts : List Contact) : List Address :=
  ((contacts.map Contact.address).filter fun address => !table.contains address).eraseDups

variable {table next : NodeTable} {contact : Contact} {contacts : List Contact}

/-- A reference to a known node brings nobody. -/
theorem newcomers_of_contains (known : table.contains contact.address = true) :
    table.newcomers (contact :: contacts) = table.newcomers contacts := by
  rw [newcomers, List.map_cons, List.filter_cons_of_neg (by rw [known]; exact Bool.false_ne_true)]
  rfl

/-- A reference to an unknown node brings it, and further references to it bring nobody. -/
theorem newcomers_of_not_contains (unknown : table.contains contact.address = false)
    (joined : next.addresses = table.addresses ++ [contact.address]) :
    table.newcomers (contact :: contacts) = contact.address :: next.newcomers contacts := by
  have others : ((contacts.map Contact.address).filter fun address => !next.contains address) =
      ((contacts.map Contact.address).filter fun address => !table.contains address).filter
        fun address => !address == contact.address := by
    rw [List.filter_filter]
    congr 1
    funext address
    rw [Bool.eq_iff_iff]
    simp only [contains, joined, Bool.and_eq_true, Bool.not_eq_true', List.contains_eq_mem,
      decide_eq_false_iff_not, List.mem_append, List.mem_singleton, not_or, beq_eq_false_iff_ne]
    exact and_comm
  rw [newcomers, List.map_cons, List.filter_cons_of_pos (by rw [unknown]; rfl),
    List.eraseDups_cons, ← others]
  rfl

theorem length_addresses (table : NodeTable) : table.addresses.length = table.size :=
  List.length_map _

/-- The newcomers are the nodes that are referred to and not known. -/
theorem mem_newcomers {address : Address} :
    address ∈ table.newcomers contacts ↔
      (∃ contact ∈ contacts, contact.address = address) ∧ table.contains address = false := by
  rw [newcomers, List.mem_eraseDups, List.mem_filter, List.mem_map, Bool.not_eq_true']

/-- Who is new depends on the addresses of the table alone. -/
theorem newcomers_congr (same : next.addresses = table.addresses) (contacts : List Contact) :
    next.newcomers contacts = table.newcomers contacts := by
  unfold newcomers contains
  rw [same]

/-- An unknown node goes behind those that are known. -/
theorem addresses_addContact (chance : Chance)
    (unknown : table.contains contact.address = false) :
    (table.addContact chance contact).addresses = table.addresses ++ [contact.address] := by
  rw [addresses, addContact, nodes_add (contains_eq_false_iff.mp unknown), List.map_append]
  rfl

end NodeTable

namespace Search

variable {setup : Setup} {search : Search} {now : Moment} {clock : Clock} {infoHash : InfoHash}
  {outcome : Outcome} {contact : Contact} {contacts : List Contact}

/-! ## One reference -/

/-- As long as nothing is found, as many peers are known. -/
theorem knownPeers_of_sameFindings (infoHash : InfoHash) {next : Search}
    (same : SameFindings search next) :
    next.knownPeers infoHash = search.knownPeers infoHash := by
  rw [knownPeers, peersOf_of_found_eq same.found, ← knownPeers]

/-- Following a reference is at most one round, about the content. -/
theorem isRoundOf_of_follow? (followed : follow? setup now infoHash contact search = some outcome) :
    ∀ activity ∈ outcome.activities, activity.isRoundOf infoHash = true := by
  rcases follow?_cases followed with ⟨-, rfl⟩ | ⟨-, ⟨-, rfl⟩ | ⟨left, -, -, held⟩⟩
  · exact List.forall_mem_nil _
  · exact List.forall_mem_nil _
  · obtain ⟨asked, next, -, rfl⟩ := round?_eq_some_iff.mp held
    exact List.forall_mem_singleton.mpr (decide_eq_true rfl)

/-- A reference to a known node neither adds nor asks anybody. -/
theorem follow?_of_contains
    (followed : follow? setup now infoHash contact search = some outcome)
    (known : search.table.contains contact.address = true) :
    outcome.search.table = search.table ∧ outcome.activities = [] := by
  rcases follow?_cases followed with ⟨-, rfl⟩ | ⟨unknown, -⟩
  · exact ⟨rfl, rfl⟩
  · rw [known] at unknown
    cases unknown

/-- A reference to an unknown node puts it at the end of the table and holds a round exactly if the
content has too few peers and a round left. -/
theorem follow?_of_not_contains
    (followed : follow? setup now infoHash contact search = some outcome)
    (unknown : search.table.contains contact.address = false) :
    outcome.search.table.addresses = search.table.addresses ++ [contact.address] ∧
      outcome.activities.length =
        if search.knownPeers infoHash < setup.settings.wantedPeers ∧ 0 < search.budget infoHash
        then 1 else 0 := by
  have joined := NodeTable.addresses_addContact setup.chance unknown
  rcases follow?_cases followed with ⟨known, -⟩ | ⟨-, ⟨idle, rfl⟩ | ⟨left, few, more, held⟩⟩
  · rw [unknown] at known
    cases known
  · refine ⟨joined, ?_⟩
    rw [if_neg]
    · rfl
    · omega
  · refine ⟨(addresses_of_round? held).trans joined, ?_⟩
    obtain ⟨asked, next, -, rfl⟩ := round?_eq_some_iff.mp held
    rw [if_pos ⟨few, by omega⟩]
    rfl

/-! ## All references -/

/-- What following references comes to: the newcomers stand behind the others, and each round is
about the content. There are as many as there are newcomers, if the budget allows and the content
has too few peers. -/
structure Follows (setup : Setup) (infoHash : InfoHash) (contacts : List Contact)
    (search : Search) (outcome : Outcome) : Prop where
  addresses_eq : outcome.search.table.addresses =
    search.table.addresses ++ search.table.newcomers contacts
  about : ∀ activity ∈ outcome.activities, activity.isRoundOf infoHash = true
  length_eq : outcome.activities.length =
    if search.knownPeers infoHash < setup.settings.wantedPeers
    then min (search.table.newcomers contacts).length (search.budget infoHash) else 0

/-- If all activities are rounds for the content, all of them are its rounds. -/
theorem rounds_eq_activities
    (about : ∀ activity ∈ outcome.activities, activity.isRoundOf infoHash = true) :
    outcome.rounds infoHash = outcome.activities :=
  List.filter_eq_self.mpr about

/-- One reference and then the others, together. -/
theorem Follows.cons {first others : Outcome}
    (one : follow? setup now infoHash contact search = some first)
    (more : Follows setup infoHash contacts first.search others) :
    Follows setup infoHash (contact :: contacts) search
      { others with activities := first.activities ++ others.activities } := by
  have about := isRoundOf_of_follow? one
  have peers := knownPeers_of_sameFindings infoHash (SameFindings.follow one)
  have spent : first.search.budget infoHash + first.activities.length =
      search.budget infoHash := by
    rw [← rounds_eq_activities about]
    exact (Spends.follow one).budget_eq
  have length := more.length_eq
  rw [peers] at length
  refine ⟨?_, List.forall_mem_append.mpr ⟨about, more.about⟩, ?_⟩
  · change others.search.table.addresses = _
    rw [more.addresses_eq]
    cases known : search.table.contains contact.address with
    | true => rw [(follow?_of_contains one known).1, NodeTable.newcomers_of_contains known]
    | false =>
      obtain ⟨joined, -⟩ := follow?_of_not_contains one known
      rw [joined, NodeTable.newcomers_of_not_contains known joined, List.append_assoc,
        List.singleton_append]
  · change (first.activities ++ others.activities).length = _
    rw [List.length_append, length]
    cases known : search.table.contains contact.address with
    | true =>
      obtain ⟨same, none⟩ := follow?_of_contains one known
      rw [none, List.length_nil, Nat.add_zero] at spent
      rw [none, same, spent, NodeTable.newcomers_of_contains known, List.length_nil, Nat.zero_add]
    | false =>
      obtain ⟨joined, held⟩ := follow?_of_not_contains one known
      rw [NodeTable.newcomers_of_not_contains known joined, List.length_cons]
      split at held <;> split <;> omega

/-- By induction on the references: what they admit, ask and spend, in terms of the newcomers alone.
-/
theorem follows_of_followAll?
    (followed : followAll? setup clock infoHash contacts search = some outcome) :
    Follows setup infoHash contacts search outcome := by
  induction contacts generalizing clock search outcome with
  | nil =>
    obtain rfl := Option.some.inj followed
    refine ⟨(List.append_nil _).symm, List.forall_mem_nil _, ?_⟩
    have nobody : (search.table.newcomers []).length = 0 := rfl
    rw [nobody, Nat.zero_min, ite_self]
    rfl
  | cons contact rest ih =>
    obtain ⟨first, others, one, remaining, rfl⟩ := followAll?_cons_eq_some_iff.mp followed
    exact .cons one (ih remaining)

/-- What following references comes to at the counters and the budget. -/
theorem counts_of_followAll?
    (followed : followAll? setup clock infoHash contacts search = some outcome) :
    outcome.search.stats.nodesCreated =
        search.stats.nodesCreated + .ofNat (search.table.newcomers contacts).length ∧
      outcome.search.stats.duplicateNodes = search.stats.duplicateNodes +
        .ofNat (contacts.length - (search.table.newcomers contacts).length) ∧
      outcome.search.budget infoHash = search.budget infoHash - outcome.activities.length := by
  have follows := follows_of_followAll? followed
  obtain ⟨created, duplicates, all, counted⟩ := Counted.followAll followed
  have size := counted.size_eq
  rw [← NodeTable.length_addresses, ← NodeTable.length_addresses, follows.addresses_eq,
    List.length_append] at size
  obtain rfl : created = (search.table.newcomers contacts).length := Nat.add_left_cancel size.symm
  refine ⟨counted.nodesCreated_eq, ?_, ?_⟩
  · rw [counted.duplicateNodes_eq, ← all, Nat.add_sub_cancel_left]
  · have spent : outcome.search.budget infoHash + outcome.activities.length =
        search.budget infoHash := by
      rw [← rounds_eq_activities follows.about]
      exact (Spends.followAll followed).budget_eq
    omega

end Search

/-- Whom references to a table lead to: each newcomer has the identifier that comes with its address
first and never answered, and every other node stays, but for a question about the content. -/
structure NodeTable.Admits (infoHash : InfoHash) (contacts : List Contact)
    (table next : NodeTable) : Prop where
  addresses_eq : next.addresses = table.addresses ++ table.newcomers contacts
  newcomer : ∀ address ∈ table.newcomers contacts, ∃ contact node,
    (contacts.find? fun contact => contact.address = address) = some contact ∧
      next.get? address = some node ∧ node.id = some contact.id ∧ node.reachable = false
  kept : ∀ {address : Address} {node : KnownNode}, table.get? address = some node →
    next.get? address = some node ∨
      ∃ number, next.get? address = some (node.asking number infoHash)

/-- Following references admits those that are new, each once, and keeps all others. -/
theorem Explores.admits {setup : Setup} {infoHash : InfoHash} {contacts : List Contact}
    {table : NodeTable} {outcome : Outcome}
    (explores : Explores setup infoHash contacts table outcome)
    (addresses : outcome.search.table.addresses = table.addresses ++ table.newcomers contacts) :
    table.Admits infoHash contacts outcome.search.table where
  addresses_eq := addresses
  newcomer := by
    intro address member
    obtain ⟨named, unknown⟩ := NodeTable.mem_newcomers.mp member
    have referred : ∃ contact, (contacts.find? fun contact => contact.address = address) =
        some contact := by
      rw [← Option.isSome_iff_exists, List.find?_isSome]
      simpa only [decide_eq_true_eq] using named
    obtain ⟨contact, first⟩ := referred
    have joins : table.joined? setup contacts address = some (.new (some contact.id) address
        (setup.chance.firstTransaction address)) := by
      rw [NodeTable.joined?, NodeTable.contains_eq_false_iff.mp unknown, first]
      rfl
    rcases explores.nodes address with ⟨-, same⟩ | ⟨node, number, here, -, -, -, after⟩
    · exact ⟨contact, _, first, same.trans joins, rfl, rfl⟩
    · obtain rfl := Option.some.inj (joins.symm.trans here)
      exact ⟨contact, _, first, after, rfl, rfl⟩
  kept := by
    intro address node found
    have joins : table.joined? setup contacts address = some node :=
      NodeTable.joined?_of_get? found
    rcases explores.nodes address with ⟨-, same⟩ | ⟨other, number, here, -, -, -, after⟩
    · exact Or.inl (same.trans joins)
    · obtain rfl := Option.some.inj (joins.symm.trans here)
      exact Or.inr ⟨number, after⟩

/-! ## The answer -/

namespace Search

variable {setup : Setup} {search : Search} {heard : Moment} {clock : Clock} {packet : Packet}
  {sender : Option Identifier} {reply : Reply} {node : KnownNode} {number : UInt16} {query : Query}
  {infoHash : InfoHash} {outcome : Outcome}

/-- The peers that an answer lists and that were not found yet, each at its first place. -/
def newPeers (search : Search) (infoHash : InfoHash) (reply : Reply) : List Address :=
  ((reply.values.getD []).filter fun peer => peer ∉ search.peersOf infoHash).eraseDups

/-- The batch of the new peers of an answer, if there are any. -/
def newBatch? (search : Search) (infoHash : InfoHash) (reply : Reply) : Option Batch :=
  if (search.newPeers infoHash reply).isEmpty then none
  else some ⟨infoHash, search.newPeers infoHash reply⟩

/-- What an answer delivers: its new peers, and the references that it came with. -/
theorem takePeers_delivery (search : Search) (infoHash : InfoHash) (reply : Reply) :
    (search.takePeers infoHash reply).2 =
      ⟨infoHash, search.newPeers infoHash reply, reply.nodes⟩ := by
  unfold takePeers newPeers
  cases reply.values with
  | none => rfl
  | some values =>
    dsimp only
    rw [freshPeers_eq]
    rfl

/-- The new peers of an answer are known from then on. -/
theorem knownPeers_takePeers (search : Search) (infoHash : InfoHash) (reply : Reply) :
    (search.takePeers infoHash reply).1.knownPeers infoHash =
      search.knownPeers infoHash + (search.newPeers infoHash reply).length := by
  unfold takePeers newPeers
  cases reply.values with
  | none => rfl
  | some values =>
    rw [knownPeers, @peersOf_insert search _ infoHash _ rfl, if_pos rfl, size_seen_freshPeers,
      freshPeers_eq]
    rfl

/-- What the search that handled an answer to a question for the peers of a content comes to. -/
structure Referred (setup : Setup) (heard : Moment) (clock : Clock) (infoHash : InfoHash)
    (packet : Packet) (reply : Reply) (answering : KnownNode) (search : Search)
    (outcome : Outcome) : Prop where
  batch_eq : outcome.batch = search.newBatch? infoHash reply
  /-- The sender has answered, and the newcomers join. -/
  table : ∃ table, search.table.Exchanged table answering ∧
    table.Admits infoHash (references reply.nodes) outcome.search.table
  nodesCreated_eq : outcome.search.stats.nodesCreated = search.stats.nodesCreated +
    .ofNat (search.table.newcomers (references reply.nodes)).length
  duplicateNodes_eq : outcome.search.stats.duplicateNodes = search.stats.duplicateNodes +
    .ofNat ((references reply.nodes).length -
      (search.table.newcomers (references reply.nodes)).length)
  /-- All it does towards the network is to hold rounds for the content, ... -/
  about : ∀ activity ∈ outcome.activities, activity.isRoundOf infoHash = true
  /-- ... each of them where a reference starts it, asking the nodes that are selected then. -/
  started : ∀ {earlier activity later}, outcome.activities = earlier ++ activity :: later →
    StartedBy setup clock infoHash (references reply.nodes) (search.receive heard packet).1 earlier
      activity
  length_eq : outcome.activities.length =
    if search.knownPeers infoHash + (search.newPeers infoHash reply).length <
        setup.settings.wantedPeers
    then min (search.table.newcomers (references reply.nodes)).length (search.budget infoHash)
    else 0
  budget_eq : outcome.search.budget infoHash =
    search.budget infoHash - outcome.activities.length

/-- So an answer to a question for peers, once handled, has referred to its nodes. -/
theorem Referred.of_handle?
    (parsed : Message.parse packet.payload = .ok ⟨Bytes.ofWord number, sender, .response reply⟩)
    (found : search.table.get? packet.sender = some node)
    (waiting : node.pending[number]? = some query) (getPeers : query.method = .getPeers)
    (content : query.infoHash = some infoHash)
    (handled : search.handle? setup heard clock (.packet packet) = some outcome) :
    Referred setup heard clock infoHash packet reply (node.answering reply.id heard number query)
      search outcome := by
  have here : search.table.get? (node.answering reply.id heard number query).address = some node :=
    NodeTable.get?_address found
  have received := receive_of_question heard parsed found waiting getPeers content
  have same := search.receive_addresses heard packet
  have counted := search.receive_received heard packet
  have budgets := search.receive_budgets heard packet
  generalize node.answering reply.id heard number query = answering at here received ⊢
  have peers := (search.closing answering).knownPeers_takePeers infoHash reply
  have exchanged : search.table.Exchanged
      ((search.closing answering).takePeers infoHash reply).1.table answering := by
    rw [Explains.takePeers_table]
    exact NodeTable.exchanged here
  rw [takePeers_delivery] at received
  rcases handle?_packet_cases handled with
    ⟨none, -⟩ | ⟨delivery, followed, brought, following, rfl⟩
  · rw [received] at none
    cases none
  rw [received] at brought following same counted budgets
  obtain rfl := Option.some.inj brought
  dsimp only at following same counted budgets
  generalize ((search.closing answering).takePeers infoHash reply).1 = taken
    at received following same counted budgets peers exchanged
  have follows := follows_of_followAll? following
  have newcomers := NodeTable.newcomers_congr same (references reply.nodes)
  obtain ⟨created, duplicates, spent⟩ := counts_of_followAll? following
  have budget : taken.budget infoHash = search.budget infoHash := budget_congr budgets
  constructor
  · rfl
  · exact ⟨taken.table, exchanged, (Explores.followAll following).admits follows.addresses_eq⟩
  · rw [← newcomers, ← counted.nodesCreated_eq]
    exact created
  · rw [← newcomers, ← counted.duplicateNodes_eq]
    exact duplicates
  · exact follows.about
  · intro earlier activity later split
    rw [received]
    exact startedBy_of_followAll? following split
  · rw [← newcomers, ← budget]
    have length := follows.length_eq
    rwa [peers] at length
  · rw [← budget]
    exact spent

/-- What becomes of the answer to a question for the peers of a content. -/
structure Refers (setup : Setup) (heard : Moment) (clock : Clock) (infoHash : InfoHash)
    (packet : Packet) (reply : Reply) (answering : KnownNode) (search : Search) : Prop where
  /-- Its new peers are due before any reference is looked at. -/
  due : (search.receive heard packet).2.bind Delivery.batch? = search.newBatch? infoHash reply
  /-- A list of nodes of uneven length is as good as none. -/
  uneven : ∀ octets, reply.nodes = some octets → octets.length % Contact.compactSize ≠ 0 →
    ∃ outcome, search.handle? setup heard clock (.packet packet) = some outcome ∧
      outcome.batch = search.newBatch? infoHash reply ∧ outcome.activities = [] ∧
      outcome.search.table.addresses = search.table.addresses ∧
      outcome.search.stats.nodesCreated = search.stats.nodesCreated ∧
      outcome.search.stats.duplicateNodes = search.stats.duplicateNodes ∧
      outcome.search.budgets = search.budgets
  /-- Where a round leaves room, the references are followed to the end. -/
  handled : setup.settings.LeavesRoom →
    ∃ outcome, search.handle? setup heard clock (.packet packet) = some outcome
  referred : ∀ outcome, search.handle? setup heard clock (.packet packet) = some outcome →
    Referred setup heard clock infoHash packet reply answering search outcome

/-- At any time, an answer to a question for the peers of a content brings its new peers, and the
nodes it refers to join the search as far as they are unknown. -/
theorem refers
    (parsed : Message.parse packet.payload = .ok ⟨Bytes.ofWord number, sender, .response reply⟩)
    (found : search.table.get? packet.sender = some node)
    (waiting : node.pending[number]? = some query) (asks : query.asksPeersOf infoHash = true)
    (setup : Setup) (heard : Moment) (clock : Clock) :
    Refers setup heard clock infoHash packet reply (node.answering reply.id heard number query)
      search := by
  simp only [Query.asksPeersOf, Bool.and_eq_true, decide_eq_true_eq] at asks
  obtain ⟨getPeers, content⟩ := asks
  have received := receive_of_question heard parsed found waiting getPeers content
  rw [takePeers_delivery] at received
  constructor
  · rw [received]
    rfl
  · intro octets listed odd
    have nobody : references reply.nodes = [] := by
      apply List.eq_nil_of_length_eq_zero
      rw [length_references, listed, referenceCount, if_neg odd]
    have counted := search.receive_received heard packet
    refine ⟨{ search := (search.receive heard packet).1, batch := search.newBatch? infoHash reply },
      ?_, rfl, rfl, search.receive_addresses heard packet, counted.nodesCreated_eq,
      counted.duplicateNodes_eq, search.receive_budgets heard packet⟩
    rw [handle?, packet?]
    simp only [received, nobody, followAll?]
    rfl
  · exact fun leaves => exists_handle? leaves heard clock (.packet packet) search
  · exact fun outcome handled =>
      .of_handle? parsed found waiting getPeers content handled

end Search

/-- An answer to the first question of the sample. It refers to two unknown nodes, to the first of
them again under another identifier, and to its own sender. -/
def Sample.repetitiveReferral : Packet where
  payload := (Message.response (Bytes.ofWord 0)
    { id := Sample.identifier 2, token := none, values := some [Sample.peer 1],
      nodes := some (Contact.compactList [Sample.neighbour 4, Sample.neighbour 5,
        ⟨Sample.identifier 8, (Sample.neighbour 4).address⟩,
        ⟨Sample.identifier 2, Sample.node⟩]) }).print
  sender := Sample.node

/-- In the sample two nodes join, which would be worth two rounds, but one is left. The sender was
heard of too lately to be asked again, so that round asks the node that started it. -/
theorem Search.refers_sample :
    ∃ journal search outcome, Run Sample.thriftySetup .literal journal search ∧
      search.handle? Sample.thriftySetup 2 (.paced 2 [1, 1]) (.packet Sample.repetitiveReferral) =
        some outcome ∧
      outcome.search.table.addresses =
        [Sample.node, (Sample.neighbour 4).address, (Sample.neighbour 5).address] ∧
      outcome.activities =
        [.round 3 Sample.content [((Sample.neighbour 4).address, 65535)]] ∧
      outcome.search.stats.duplicateNodes = 2 ∧
      ∃ reply answering, Referred Sample.thriftySetup 2 (.paced 2 [1, 1]) Sample.content
        Sample.repetitiveReferral reply answering search outcome := by
  have told : (Search.start.journal? Sample.thriftySetup (Sample.referralEvents.take 2)).map
      (fun recorded => (recorded.2.matched? 2 Sample.repetitiveReferral,
        (recorded.2.handle? Sample.thriftySetup 2 (.paced 2 [1, 1])
          (.packet Sample.repetitiveReferral)).map fun outcome =>
            (outcome.search.table.addresses, outcome.activities,
              outcome.search.stats.duplicateNodes))) =
      some (some ⟨0, .getPeers, some Sample.content⟩,
        some ([Sample.node, (Sample.neighbour 4).address, (Sample.neighbour 5).address],
          [.round 3 Sample.content [((Sample.neighbour 4).address, 65535)]], 2)) := by cbv
  obtain ⟨journal, search, run, same⟩ := Run.of_map_journal? told
  obtain ⟨matched, shown⟩ := Prod.mk.inj same
  obtain ⟨outcome, handled, account⟩ := Option.map_eq_some_iff.mp shown
  obtain ⟨addresses, rounds, duplicates⟩ : _ ∧ _ ∧ _ := by
    simpa only [Prod.mk.injEq] using account
  obtain ⟨number, sender, reply, node, parsed, found, waiting⟩ :=
    Search.matched?_eq_some_iff.mp matched
  have asks : Query.asksPeersOf ⟨0, .getPeers, some Sample.content⟩ Sample.content = true := by
    decide
  have refers := Search.refers parsed found waiting asks Sample.thriftySetup 2 (.paced 2 [1, 1])
  exact ⟨journal, search, outcome, run, handled, addresses, rounds, duplicates, reply, _,
    refers.referred outcome handled⟩

end PeerDiscovery
