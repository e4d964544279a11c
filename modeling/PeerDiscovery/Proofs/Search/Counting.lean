import Mathlib.Algebra.Ring.Nat
import PeerDiscovery.Proofs.Search.Explains
import PeerDiscovery.Proofs.Search.Publication

/-!
# What handling adds to the counts

Each function of a search changes the table and bumps a counter in two different places. `Counted`
says that the two go together: so many nodes joined, so many queries were opened, and the counters
went up by as many. It adds up along the functions that do one thing after another. Taking in a
datagram is the other way round: it closes at most one query (`receive_received`).
-/

namespace PeerDiscovery

/-! ## Open queries -/

namespace NodeTable

/-- How many queries are open at all nodes together. -/
def openCount (table : NodeTable) : Nat := (table.nodes.map KnownNode.pendingCount).sum

variable {table : NodeTable} {node old : KnownNode} {chance : Chance}

/-- Replacing a node changes the number of open queries by what the node itself has more or less. -/
theorem openCount_replace (found : table.get? node.address = some old) :
    (table.replace node).openCount + old.pendingCount = table.openCount + node.pendingCount := by
  obtain ⟨member, same⟩ := get?_eq_some_iff.mp found
  obtain ⟨before, after, split⟩ := List.append_of_mem member
  simp only [openCount, nodes_replace split same, split, List.map_append, List.map_cons,
    List.sum_append, List.sum_cons]
  omega

/-- An unknown node is one more. -/
theorem size_add (unknown : table.get? node.address = none) :
    (table.add node).size = table.size + 1 := by
  rw [size, nodes_add unknown, List.length_append]
  rfl

/-- An unknown node brings its open queries along. -/
theorem openCount_add (unknown : table.get? node.address = none) :
    (table.add node).openCount = table.openCount + node.pendingCount := by
  simp [openCount, nodes_add unknown]

/-- A new node has no open queries. -/
theorem pendingCount_new (id : Option Identifier) (address : Address) (first : UInt16) :
    (KnownNode.new id address first).pendingCount = 0 :=
  Std.ExtTreeMap.size_empty

end NodeTable

/-! ## Asking -/

/-- So many nodes joined the table, so many references were to known nodes, and so many queries of
each kind were opened; the counters went up by as many. -/
structure Counted (search next : Search) (created duplicates pings questions : Nat) : Prop where
  size_eq : next.table.size = search.table.size + created
  openCount_eq : next.table.openCount = search.table.openCount + (pings + questions)
  nodesCreated_eq : next.stats.nodesCreated = search.stats.nodesCreated + .ofNat created
  duplicateNodes_eq : next.stats.duplicateNodes = search.stats.duplicateNodes + .ofNat duplicates
  pingsSent_eq : next.stats.pingsSent = search.stats.pingsSent + .ofNat pings
  getPeersSent_eq : next.stats.getPeersSent = search.stats.getPeersSent + .ofNat questions

namespace Search

variable {setup : Setup} {search next : Search} {address : Address} {method : Method}
  {infoHash : Option InfoHash} {transaction : UInt16}

/-- Opening a query adds one open query to the table and leaves the counting to others. -/
theorem openQuery?_counts
    (opened : search.openQuery? setup address method infoHash = some (transaction, next)) :
    next.table.size = (search.table.addAddress setup.chance address).size ∧
      next.table.openCount = (search.table.addAddress setup.chance address).openCount + 1 ∧
      next.stats = search.stats := by
  obtain ⟨node, asked, found, recorded, rfl⟩ := openQuery?_eq_some_iff.mp opened
  have here := NodeTable.get?_address found
  rw [← KnownNode.address_of_ask? recorded] at here
  have exchanged := NodeTable.openCount_replace here
  have grown := KnownNode.pendingCount_of_ask? recorded
  refine ⟨NodeTable.size_replace _ _, ?_, rfl⟩
  change (NodeTable.replace _ asked).openCount = _
  omega

/-- A query to a known node is one more that is open. -/
theorem openQuery?_counts_of_known {node : KnownNode}
    (found : search.table.get? address = some node)
    (opened : search.openQuery? setup address method infoHash = some (transaction, next)) :
    next.table.size = search.table.size ∧
      next.table.openCount = search.table.openCount + 1 ∧ next.stats = search.stats := by
  have counts := openQuery?_counts opened
  rwa [addAddress_of_known found] at counts

end Search

namespace Counted

variable {setup : Setup} {search middle next : Search} {address : Address} {infoHash : InfoHash}
  {now : Moment} {outcome : Outcome}

theorem refl (search : Search) : Counted search search 0 0 0 0 where
  size_eq := rfl
  openCount_eq := rfl
  nodesCreated_eq := (UInt64.add_zero _).symm
  duplicateNodes_eq := (UInt64.add_zero _).symm
  pingsSent_eq := (UInt64.add_zero _).symm
  getPeersSent_eq := (UInt64.add_zero _).symm

section Trans

variable {created duplicates pings questions created' duplicates' pings' questions' : Nat}

/-- What two steps count adds up. -/
theorem trans (first : Counted search middle created duplicates pings questions)
    (second : Counted middle next created' duplicates' pings' questions') :
    Counted search next (created + created') (duplicates + duplicates') (pings + pings')
      (questions + questions') where
  size_eq := by
    rw [second.size_eq, first.size_eq, Nat.add_assoc]
  openCount_eq := by
    rw [second.openCount_eq, first.openCount_eq]
    omega
  nodesCreated_eq := by
    rw [second.nodesCreated_eq, first.nodesCreated_eq, UInt64.ofNat_add, UInt64.add_assoc]
  duplicateNodes_eq := by
    rw [second.duplicateNodes_eq, first.duplicateNodes_eq, UInt64.ofNat_add, UInt64.add_assoc]
  pingsSent_eq := by
    rw [second.pingsSent_eq, first.pingsSent_eq, UInt64.ofNat_add, UInt64.add_assoc]
  getPeersSent_eq := by
    rw [second.getPeersSent_eq, first.getPeersSent_eq, UInt64.ofNat_add, UInt64.add_assoc]

end Trans

/-- A node that was unknown joins the table, and is counted. -/
theorem addContact (setup : Setup) {contact : Contact}
    (unknown : search.table.get? contact.address = none) :
    Counted search { search with
      table := search.table.addContact setup.chance contact
      stats.nodesCreated := search.stats.nodesCreated + 1 } 1 0 0 0 where
  size_eq := NodeTable.size_add unknown
  openCount_eq := by
    change (NodeTable.add _ _).openCount = _
    rw [NodeTable.openCount_add unknown, NodeTable.pendingCount_new]
  nodesCreated_eq := rfl
  duplicateNodes_eq := (UInt64.add_zero _).symm
  pingsSent_eq := (UInt64.add_zero _).symm
  getPeersSent_eq := (UInt64.add_zero _).symm

/-- A ping is counted, and is one more open query. -/
theorem ping {node : KnownNode} (found : search.table.get? address = some node)
    (pinged : search.ping? setup address = some outcome) :
    Counted search outcome.search 0 0 1 0 := by
  obtain ⟨transaction, opened, opening, rfl⟩ := Search.ping?_eq_some_iff.mp pinged
  obtain ⟨size, openCount, stats⟩ := Search.openQuery?_counts_of_known found opening
  constructor
  · exact size
  · exact openCount
  all_goals simp [stats]

/-- Each question that a round asks is counted, and is one more open query. The targets are known
and distinct, so none is added by asking it. -/
theorem askAll {targets : List Address} {asked : List (Address × UInt16)}
    (known : ∀ address ∈ targets, ∃ node, search.table.get? address = some node)
    (distinct : targets.Nodup)
    (result : Search.askAll? setup infoHash targets search = some (asked, next)) :
    Counted search next 0 0 0 asked.length := by
  induction targets generalizing search asked with
  | nil =>
    obtain ⟨rfl, rfl⟩ := Prod.mk.inj (Option.some.inj result)
    exact .refl search
  | cons address rest ih =>
    obtain ⟨transaction, opened, others, opening, remaining, rfl⟩ :=
      Search.askAll?_cons_eq_some_iff.mp result
    obtain ⟨fresh, distinct⟩ := List.nodup_cons.mp distinct
    obtain ⟨node, found⟩ := known address List.mem_cons_self
    obtain ⟨size, openCount, stats⟩ := Search.openQuery?_counts_of_known found opening
    have first : Counted search
        { opened with stats.getPeersSent := opened.stats.getPeersSent + 1 } 0 0 0 1 := by
      constructor
      · exact size
      · exact openCount
      all_goals simp [stats]
    have still : ∀ other ∈ rest, ∃ node, opened.table.get? other = some node := by
      intro other member
      have different : address ≠ other := fun same => fresh (same ▸ member)
      rw [Search.get?_of_openQuery? opening found different]
      exact known other (List.mem_cons_of_mem _ member)
    have total := first.trans (ih (by exact still) distinct remaining)
    rwa [Nat.add_comm 1] at total

/-- A round counts its questions. It may follow a change of the budgets, which are not counted. -/
theorem round (held : middle.round? setup now infoHash = some outcome)
    (table : middle.table = search.table) (stats : middle.stats = search.stats) :
    Counted search outcome.search 0 0 0 outcome.queries.length := by
  obtain ⟨asked, last, asking, rfl⟩ := Search.round?_eq_some_iff.mp held
  obtain ⟨distinct, eligible⟩ := Selection.getD_select?_walk_spec setup.chance middle.table
  have counted := askAll (fun address member => (eligible address member).imp fun _ => And.left)
    distinct asking
  rw [Outcome.queries, List.flatMap_singleton, Activity.queries, List.length_map]
  have idle : Counted search middle 0 0 0 0 := by
    constructor
    all_goals simp [table, stats]
  simpa only [Nat.zero_add] using idle.trans counted

/-- A request counts the questions that it asks. -/
theorem request (taken : search.request? setup now infoHash = some outcome) :
    Counted search outcome.search 0 0 0 outcome.queries.length := by
  rw [Search.request?] at taken
  exact round taken rfl rfl

/-- A hint adds a node and pings it, or does nothing. -/
theorem hint {contact : Contact} (taken : search.hint? setup contact = some outcome) :
    Counted search outcome.search outcome.queries.length 0 outcome.queries.length 0 := by
  rcases Search.hint?_cases taken with rfl | ⟨unknown, pinged⟩
  · exact .refl search
  · have found : ∃ node,
        (search.table.addContact setup.chance contact).get? contact.address = some node := by
      rw [NodeTable.addContact, NodeTable.get?_add unknown]
      exact ⟨_, if_pos rfl⟩
    obtain ⟨node, found⟩ := found
    have counted := (addContact setup unknown).trans (ping (by exact found) pinged)
    obtain ⟨transaction, opened, -, rfl⟩ := Search.ping?_eq_some_iff.mp pinged
    exact counted

/-- Each reference is to an unknown node, which joins, or to a known one. -/
theorem follow {contact : Contact}
    (followed : Search.follow? setup now infoHash contact search = some outcome) :
    ∃ created duplicates, created + duplicates = 1 ∧
      Counted search outcome.search created duplicates 0 outcome.queries.length := by
  rcases Search.follow?_cases followed with ⟨-, rfl⟩ | ⟨unknown, joined⟩
  · refine ⟨0, 1, rfl, rfl, rfl, ?_, rfl, ?_, ?_⟩
    all_goals exact (UInt64.add_zero _).symm
  · have added := addContact setup (NodeTable.contains_eq_false_iff.mp unknown)
    refine ⟨1, 0, rfl, ?_⟩
    rcases joined with ⟨-, rfl⟩ | ⟨left, -, -, held⟩
    · exact added
    · simpa only [Nat.zero_add] using added.trans (round held rfl rfl)

/-- Every reference counts either as a new node or as a duplicate, and each question that they start
is counted. -/
theorem followAll {clock : Clock} {contacts : List Contact}
    (followed : Search.followAll? setup clock infoHash contacts search = some outcome) :
    ∃ created duplicates, created + duplicates = contacts.length ∧
      Counted search outcome.search created duplicates 0 outcome.queries.length := by
  induction contacts generalizing clock search outcome with
  | nil =>
    obtain rfl := Option.some.inj followed
    exact ⟨0, 0, rfl, refl search⟩
  | cons contact rest ih =>
    obtain ⟨first, others, one, remaining, rfl⟩ := Search.followAll?_cons_eq_some_iff.mp followed
    obtain ⟨created, duplicates, all, counted⟩ := follow one
    obtain ⟨created', duplicates', allToo, countedToo⟩ := ih remaining
    refine ⟨created + created', duplicates + duplicates', ?_, ?_⟩
    · rw [List.length_cons]
      omega
    · rw [Outcome.queries, List.flatMap_append, List.length_append]
      exact counted.trans countedToo

end Counted

/-! ## Taking in datagrams -/

namespace Search

/-- Whether a datagram is a response of a node that is known. -/
def hears (search : Search) (packet : Packet) : Bool :=
  match Message.parse packet.payload with
  | .ok ⟨_, _, .response _⟩ => search.table.contains packet.sender
  | _ => false

/-- What taking in a datagram counts: it closes a query or not, and a response of a known node is
counted as matched or as stale. The peers it counts are those that join the ones found. -/
structure Received (search : Search) (now : Moment) (packet : Packet) (next : Search) : Prop where
  size_eq : next.table.size = search.table.size
  openCount_eq : search.table.openCount =
    next.table.openCount + if (search.matched? now packet).isSome then 1 else 0
  nodesCreated_eq : next.stats.nodesCreated = search.stats.nodesCreated
  duplicateNodes_eq : next.stats.duplicateNodes = search.stats.duplicateNodes
  pingsSent_eq : next.stats.pingsSent = search.stats.pingsSent
  getPeersSent_eq : next.stats.getPeersSent = search.stats.getPeersSent
  matched_eq : next.stats.responsesMatched =
    search.stats.responsesMatched + if (search.matched? now packet).isSome then 1 else 0
  stale_eq : next.stats.staleResponses = search.stats.staleResponses +
    if search.hears packet && (search.matched? now packet).isNone then 1 else 0
  peersFound_eq : next.found = search.found ∧ next.stats.peersFound = search.stats.peersFound ∨
    ∃ infoHash values,
      next.found = search.found.insert infoHash (freshPeers (search.peersOf infoHash) values).2 ∧
        next.stats.peersFound = search.stats.peersFound +
          .ofNat (freshPeers (search.peersOf infoHash) values).1.length

variable {search next : Search} {now : Moment} {packet : Packet}

/-- A response is heard exactly if its sender is known. -/
theorem hears_of_parse {transaction : Bytes} {sender : Option Identifier} {reply : Reply}
    (parsed : Message.parse packet.payload = .ok ⟨transaction, sender, .response reply⟩) :
    search.hears packet = (search.table.get? packet.sender).isSome := by
  rw [hears, parsed, NodeTable.contains_eq_isSome]

/-- An answer closes one query of its sender, who stays where it was. -/
theorem address_of_resolve? {node answered : KnownNode} {id : Identifier} {transaction : Bytes}
    {query : Query}
    (resolved : (node.identified id).resolve? transaction now = some (query, answered)) :
    answered.address = node.address ∧ answered.pendingCount + 1 = node.pendingCount := by
  obtain ⟨number, -, closed⟩ := KnownNode.resolve?_eq_some_iff.mp resolved
  have fewer : answered.pendingCount + 1 = (node.identified id).pendingCount :=
    KnownNode.pendingCount_of_answer? closed
  refine ⟨?_, fewer⟩
  rw [(KnownNode.answer?_eq_some_iff.mp closed).2]
  rfl

/-- The answer that a query waited for is counted as matched, and the query is no longer open. -/
theorem closing_received {node answered : KnownNode} {query : Query} {transaction : Bytes}
    {id : Identifier} (found : search.table.get? packet.sender = some node)
    (resolved : (node.identified id).resolve? transaction now = some (query, answered))
    (matched : search.matched? now packet = some query) :
    Received search now packet (search.closing answered) := by
  obtain ⟨own, fewer⟩ := address_of_resolve? resolved
  have here := NodeTable.get?_address found
  rw [← own] at here
  have exchanged := NodeTable.openCount_replace here
  refine ⟨NodeTable.size_replace _ _, ?_, rfl, rfl, rfl, rfl, ?_, ?_, Or.inl ⟨rfl, rfl⟩⟩
  · rw [matched]
    change _ = (NodeTable.replace _ _).openCount + 1
    omega
  · rw [matched]
    rfl
  · rw [matched, Option.isNone_some, Bool.and_false]
    exact (UInt64.add_zero _).symm

/-- The peers of an answer are counted as they are found. -/
theorem takePeers_received {infoHash : InfoHash} {reply : Reply} {closed : Search}
    (received : Received search now packet closed) (same : closed.found = search.found)
    (counted : closed.stats.peersFound = search.stats.peersFound) :
    Received search now packet (closed.takePeers infoHash reply).1 := by
  unfold takePeers
  split
  · exact received
  · rename_i values listed
    refine { received with peersFound_eq := Or.inr ⟨infoHash, values, ?_, ?_⟩ }
    · dsimp only
      rw [peersOf_of_found_eq same, same]
    · dsimp only
      rw [peersOf_of_found_eq same, counted]

/-- Every datagram is counted as what it is: matched, stale, or not at all. -/
theorem receive_received (search : Search) (now : Moment) (packet : Packet) :
    Received search now packet (search.receive now packet).1 := by
  have reception := search.receive_reception now packet
  generalize search.receive now packet = received at reception ⊢
  cases reception with
  | ignored silent unmatched =>
    have deaf : search.hears packet = false := by
      rw [hears]
      split
      · rename_i parsed
        rw [NodeTable.contains_eq_false_iff]
        exact silent _ _ _ parsed
      · rfl
    refine ⟨rfl, ?_, rfl, rfl, rfl, rfl, ?_, ?_, Or.inl ⟨rfl, rfl⟩⟩
    · rw [unmatched]
      rfl
    · rw [unmatched]
      exact (UInt64.add_zero _).symm
    · rw [deaf, Bool.false_and]
      exact (UInt64.add_zero _).symm
  | @stale transaction sender reply node parsed found resolved unmatched =>
    have here : search.table.get? (node.identified reply.id).address = some node :=
      NodeTable.get?_address found
    have exchanged := NodeTable.openCount_replace here
    have same : (node.identified reply.id).pendingCount = node.pendingCount := rfl
    refine ⟨NodeTable.size_replace _ _, ?_, rfl, rfl, rfl, rfl, ?_, ?_, Or.inl ⟨rfl, rfl⟩⟩
    · rw [unmatched]
      change _ = (NodeTable.replace _ _).openCount + 0
      omega
    · rw [unmatched]
      exact (UInt64.add_zero _).symm
    · rw [hears_of_parse parsed, found, unmatched]
      rfl
  | closed _ found resolved matched _ =>
    exact closing_received found resolved matched
  | delivered _ found resolved matched _ =>
    exact takePeers_received (closing_received found resolved matched) rfl rfl

end Search

end PeerDiscovery
