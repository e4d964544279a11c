import PeerDiscovery.Proofs.KnownNode.Vacancy
import PeerDiscovery.Proofs.Search.Counting
import PeerDiscovery.Service

/-!
# Whether a search can get stuck

A round asks only nodes with at most `maxPending` open queries. Below the number of transaction
numbers this ceiling leaves every node that is asked a free number, and every stimulus is handled to
its end. A ceiling that is not below it excludes no node at all. Then requests for ever new contents
fill up one node after another: each opens a query, none is closed, and the table has room for
finitely many (`exists_requests_stuck`). `neverStuck_iff` puts both together.
-/

namespace PeerDiscovery

/-- Whether a round leaves room: a node that may be asked has a free number, or no node is asked. -/
def Settings.LeavesRoom (settings : Settings) : Prop :=
  settings.maxPending < KnownNode.transactionCount ∨ settings.fanOut = 0

instance (settings : Settings) : Decidable settings.LeavesRoom :=
  inferInstanceAs (Decidable (_ ∨ _))

namespace Search

variable {setup : Setup} {search : Search} {now : Moment} {infoHash : InfoHash}

/-! ## With room left -/

theorem exists_openQuery? (setup : Setup) (search : Search) {node : KnownNode} {address : Address}
    (found : search.table.get? address = some node)
    (room : node.pendingCount < KnownNode.transactionCount) (method : Method)
    (content : Option InfoHash) :
    ∃ transaction next,
      search.openQuery? setup address method content = some (transaction, next) := by
  obtain ⟨transaction, asked, recorded⟩ := KnownNode.exists_ask? room method content
  have here : (search.table.addAddress setup.chance address).get? address = some node := by
    rw [addAddress_of_known found, found]
  exact ⟨transaction, _, openQuery?_eq_some_iff.mpr ⟨node, asked, here, recorded, rfl⟩⟩

/-- Nodes with room left can all be asked: a question to one leaves the others as they are. -/
theorem exists_askAll? {targets : List Address} (distinct : targets.Nodup)
    (room : ∀ address ∈ targets, ∃ node, search.table.get? address = some node ∧
      node.pendingCount < KnownNode.transactionCount) :
    ∃ asked next, askAll? setup infoHash targets search = some (asked, next) := by
  induction targets generalizing search with
  | nil => exact ⟨[], search, rfl⟩
  | cons address rest ih =>
    obtain ⟨fresh, distinct⟩ := List.nodup_cons.mp distinct
    obtain ⟨node, found, few⟩ := room address List.mem_cons_self
    obtain ⟨transaction, opened, opening⟩ :=
      exists_openQuery? setup search found few .getPeers (some infoHash)
    have still : ∀ other ∈ rest, ∃ node, opened.table.get? other = some node ∧
        node.pendingCount < KnownNode.transactionCount := by
      intro other member
      have different : address ≠ other := fun same => fresh (same ▸ member)
      rw [get?_of_openQuery? opening found different]
      exact room other (List.mem_cons_of_mem _ member)
    obtain ⟨others, next, remaining⟩ := @ih { opened with
      stats.getPeersSent := opened.stats.getPeersSent + 1 } distinct still
    exact ⟨_, next, askAll?_cons_eq_some_iff.mpr
      ⟨transaction, opened, others, opening, remaining, rfl⟩⟩

theorem exists_round? (leaves : setup.settings.LeavesRoom) (now : Moment) (infoHash : InfoHash)
    (search : Search) : ∃ outcome, search.round? setup now infoHash = some outcome := by
  have asking : ∃ asked next, askAll? setup infoHash ((Selection.select? (limits setup.settings)
      infoHash now (search.table.walk setup.chance)).getD []) search = some (asked, next) := by
    obtain ⟨distinct, eligible⟩ := Selection.getD_select?_walk_spec setup.chance search.table
    refine exists_askAll? distinct fun address member => ?_
    rcases leaves with ceiling | nobody
    · obtain ⟨node, found, may⟩ := eligible address member
      exact ⟨node, found, Nat.lt_of_le_of_lt (Selection.isEligible_iff.mp may).1 ceiling⟩
    · have none : (limits setup.settings).fanOut = 0 := nobody
      have short : ((Selection.select? (limits setup.settings) infoHash now
          (search.table.walk setup.chance)).getD []).length ≤ (limits setup.settings).fanOut :=
        Selection.length_getD_select?_le
      rw [none, Nat.le_zero, List.length_eq_zero_iff] at short
      rw [short] at member
      cases member
  obtain ⟨asked, next, asking⟩ := asking
  exact ⟨_, round?_eq_some_iff.mpr ⟨asked, next, asking, rfl⟩⟩

theorem get?_addContact {contact : Contact} (unknown : search.table.get? contact.address = none) :
    (search.table.addContact setup.chance contact).get? contact.address =
      some (.new (some contact.id) contact.address
        (setup.chance.firstTransaction contact.address)) := by
  rw [NodeTable.addContact, NodeTable.get?_add unknown]
  exact if_pos rfl

/-- A node that just joined has all its numbers free. -/
theorem exists_hint? (setup : Setup) (contact : Contact) (search : Search) :
    ∃ outcome, search.hint? setup contact = some outcome := by
  unfold hint?
  split
  · exact ⟨_, rfl⟩
  rename_i known
  have unknown := NodeTable.contains_eq_false_iff.mp (Bool.not_eq_true _ ▸ known)
  have room : (KnownNode.new (some contact.id) contact.address
      (setup.chance.firstTransaction contact.address)).pendingCount <
        KnownNode.transactionCount := by
    rw [NodeTable.pendingCount_new]
    decide
  obtain ⟨transaction, opened, opening⟩ := exists_openQuery? setup
    { search with
      table := search.table.addContact setup.chance contact
      stats.nodesCreated := search.stats.nodesCreated + 1 }
    (get?_addContact unknown) room .ping none
  exact ⟨_, ping?_eq_some_iff.mpr ⟨transaction, opened, opening, rfl⟩⟩

theorem exists_follow? (leaves : setup.settings.LeavesRoom) (now : Moment) (infoHash : InfoHash)
    (contact : Contact) (search : Search) :
    ∃ outcome, follow? setup now infoHash contact search = some outcome := by
  unfold follow?
  split
  · exact ⟨_, rfl⟩
  dsimp only
  split
  · unfold expand?
    split
    · exact ⟨_, rfl⟩
    · exact exists_round? leaves now infoHash _
  · exact ⟨_, rfl⟩

theorem exists_followAll? (leaves : setup.settings.LeavesRoom) (clock : Clock)
    (infoHash : InfoHash) (contacts : List Contact) (search : Search) :
    ∃ outcome, followAll? setup clock infoHash contacts search = some outcome := by
  induction contacts generalizing clock search with
  | nil => exact ⟨_, rfl⟩
  | cons contact rest ih =>
    obtain ⟨first, one⟩ := exists_follow? leaves (clock 0) infoHash contact search
    obtain ⟨others, remaining⟩ := ih clock.rest first.search
    exact ⟨_, followAll?_cons_eq_some_iff.mpr ⟨first, others, one, remaining, rfl⟩⟩

/-- Where a round leaves room, every stimulus is handled to its end, by any search. -/
theorem exists_handle? (leaves : setup.settings.LeavesRoom) (heard : Moment) (clock : Clock)
    (stimulus : Stimulus) (search : Search) :
    ∃ outcome, search.handle? setup heard clock stimulus = some outcome := by
  cases stimulus with
  | hint contact => exact exists_hint? setup contact search
  | request infoHash => exact exists_round? leaves heard infoHash _
  | packet packet =>
    rw [handle?, packet?]
    split
    · exact ⟨_, rfl⟩
    · rename_i next delivery due
      obtain ⟨followed, following⟩ := exists_followAll? leaves clock delivery.infoHash
        (references delivery.nodes) next
      rw [following]
      exact ⟨_, rfl⟩

/-! ## Without room -/

end Search

/-- All nodes of a table together have at most as many open queries as there are numbers for
them. -/
theorem NodeTable.openCount_le (table : NodeTable) :
    table.openCount ≤ table.size * KnownNode.transactionCount := by
  unfold openCount size
  induction table.nodes with
  | nil => exact Nat.le_refl _
  | cons node rest ih =>
    have bound := node.pendingCount_le
    rw [List.map_cons, List.sum_cons, List.length_cons, Nat.succ_mul]
    omega

theorem NodeTable.isEmpty_eq_false_iff {table : NodeTable} :
    table.isEmpty = false ↔ 0 < table.size := by
  rw [isEmpty, size, List.isEmpty_eq_false_iff, List.length_pos_iff]

/-- A selection takes as many of the nodes that may be asked as the limits allow. -/
theorem Selection.length_getD_select? (limits : SelectionLimits) (infoHash : InfoHash)
    (now : Moment) (nodes : List KnownNode) :
    ((select? limits infoHash now nodes).getD []).length =
      min limits.fanOut (nodes.filter (isEligible limits infoHash now)).length := by
  unfold select?
  split
  · rename_i nobody
    rw [List.isEmpty_iff.mp nobody]
    exact (Nat.min_zero _).symm
  · rw [Option.getD_some, List.length_map, List.length_take, (sortByRank_perm _ _).length_eq]

namespace Search

variable {setup : Setup} {search : Search} {now : Moment} {infoHash : InfoHash}

/-- A request for a content that some node was never asked about opens a query, unless the ceiling
excludes the node. -/
theorem lt_openCount_of_request? {node : KnownNode} {outcome : Outcome}
    (full : ¬ setup.settings.LeavesRoom) (member : node ∈ search.table.nodes)
    (idle : node.awaitsPeersOf infoHash = false) (unasked : node.askedPeersOf infoHash = false)
    (taken : search.request? setup now infoHash = some outcome) :
    outcome.search.table.size = search.table.size ∧
      search.table.openCount < outcome.search.table.openCount := by
  have counted := Counted.request taken
  refine ⟨counted.size_eq, ?_⟩
  rw [counted.openCount_eq, Nat.zero_add]
  apply Nat.lt_add_of_pos_right
  obtain ⟨asked, next, asking, rfl⟩ := round?_eq_some_iff.mp taken
  obtain ⟨targets, -⟩ := askAll?_spec asking
  simp only [Settings.LeavesRoom, not_or, Nat.not_lt] at full
  have eligible : Selection.isEligible (limits setup.settings) infoHash now node = true := by
    refine Selection.isEligible_iff.mpr ⟨Nat.le_trans node.pendingCount_le full.1, idle, ?_⟩
    rw [unasked]
    exact Bool.noConfusion
  have walked := (NodeTable.walk_perm setup.chance search.table).mem_iff.mpr member
  have someone := List.length_pos_of_mem (List.mem_filter.mpr ⟨walked, eligible⟩)
  have many := congrArg List.length targets
  rw [List.length_map, Selection.length_getD_select?] at many
  rw [Outcome.queries, List.flatMap_singleton, Activity.queries, List.length_map, many]
  exact Nat.lt_min.mpr ⟨Nat.pos_of_ne_zero full.2, someone⟩

/-- Behind a hint some node is known: the one hinted at. -/
theorem isEmpty_of_hint? {contact : Contact} {outcome : Outcome}
    (taken : search.hint? setup contact = some outcome) :
    outcome.search.table.isEmpty = false := by
  rw [NodeTable.isEmpty_eq_false_iff]
  unfold hint? at taken
  split at taken
  · rename_i known
    obtain rfl := Option.some.inj taken
    obtain ⟨node, found⟩ := Option.isSome_iff_exists.mp (NodeTable.contains_eq_isSome ▸ known)
    exact List.length_pos_of_mem (NodeTable.get?_eq_some_iff.mp found).1
  · rename_i known
    have unknown := NodeTable.contains_eq_false_iff.mp (Bool.not_eq_true _ ▸ known)
    have counted := (Counted.addContact setup unknown).trans
      (Counted.ping (get?_addContact unknown) taken)
    rw [counted.size_eq]
    exact Nat.succ_pos _

/-- Requests for contents at some moment. -/
def requestsAt (now : Moment) (requests : List InfoHash) : List Event :=
  requests.map fun infoHash => .undisturbed now (.request infoHash)

/-- Where a round leaves no room, a search that knows a node can be stopped by requests alone: each
one that is handled takes a number away, and there are finitely many. -/
theorem exists_requests_stuck (full : ¬ setup.settings.LeavesRoom) (now : Moment)
    (known : search.table.isEmpty = false) :
    ∃ requests : List InfoHash, search.journal? setup (requestsAt now requests) = none := by
  induction left : search.table.size * KnownNode.transactionCount - search.table.openCount
    using Nat.strongRecOn generalizing search with
  | _ left ih =>
    obtain ⟨node, member⟩ :=
      List.exists_mem_of_length_pos (NodeTable.isEmpty_eq_false_iff.mp known)
    obtain ⟨infoHash, idle, unasked⟩ := node.exists_fresh_content
    have asking (rest : List InfoHash) :=
      journal?_cons setup (.undisturbed now (.request infoHash)) (requestsAt now rest) search
    cases handled : search.handle? setup now (.still now) (.request infoHash) with
    | none => exact ⟨[infoHash], (asking []).trans (by rw [Event.undisturbed, handled]; rfl)⟩
    | some outcome =>
      obtain ⟨size, more⟩ := lt_openCount_of_request? full member idle unasked handled
      have bound := outcome.search.table.openCount_le
      have still : outcome.search.table.isEmpty = false := by
        rw [NodeTable.isEmpty_eq_false_iff] at known ⊢
        rwa [size]
      obtain ⟨requests, stuck⟩ := ih _ (by rw [← left, ← size]; omega) still rfl
      refine ⟨infoHash :: requests, (asking requests).trans ?_⟩
      rw [Event.undisturbed, handled, Option.bind_some, stuck]
      rfl

end Search

/-! ## Runs -/

/-- Whether every stimulus is handled to its end, wherever a run leads. -/
def NeverStuck (setup : Setup) (resolve : Resolver) : Prop :=
  ∀ {journal : List Entry} {search : Search}, Run setup resolve journal search →
    ∀ (heard : Moment) (clock : Clock) (stimulus : Stimulus),
      ∃ outcome, search.handle? setup heard clock stimulus = some outcome

section Runs

variable {setup : Setup} {resolve : Resolver} {journal : List Entry} {search : Search}

theorem NeverStuck.exists_journal? (never : NeverStuck setup resolve)
    (run : Run setup resolve journal search) (events : List Search.Event) :
    ∃ recorded, search.journal? setup events = some recorded := by
  induction events generalizing journal search with
  | nil => exact ⟨_, rfl⟩
  | cons event rest ih =>
    obtain ⟨outcome, handled⟩ := never run event.heard event.clock event.stimulus
    obtain ⟨recorded, remaining⟩ := ih (run.handled event.heard event.clock handled)
    rw [Search.journal?_cons, handled, Option.bind_some, remaining]
    exact ⟨_, rfl⟩

/-- Runs never get stuck exactly if a round leaves room. Otherwise one hint and requests will do. -/
theorem neverStuck_iff : NeverStuck setup resolve ↔ setup.settings.LeavesRoom := by
  constructor
  · intro never
    by_contra full
    obtain ⟨outcome, handled⟩ := never .start 0 (.still 0)
      (.hint ⟨Sample.identifier 2, Sample.node⟩)
    have known := Search.isEmpty_of_hint? handled
    obtain ⟨requests, stuck⟩ := Search.exists_requests_stuck full 0 known
    obtain ⟨recorded, done⟩ := never.exists_journal? (Run.start.handled 0 (.still 0) handled)
      (Search.requestsAt 0 requests)
    rw [stuck] at done
    cases done
  · intro leaves journal search _ heard clock stimulus
    exact Search.exists_handle? leaves heard clock stimulus search

/-- The defaults leave room. -/
example : Sample.setup.settings.LeavesRoom := by decide

/-- Whether a search can get stuck is up to the settings, and not to what happens to it. -/
structure Progress (setup : Setup) (resolve : Resolver) : Prop where
  /-- Exactly where a round leaves room, every stimulus is handled to its end. -/
  never_iff : NeverStuck setup resolve ↔ setup.settings.LeavesRoom
  /-- Where it leaves none, requests alone stop every search that knows a node, at any time. -/
  stuck : ¬ setup.settings.LeavesRoom → ∀ {journal : List Entry} {search : Search},
    Run setup resolve journal search → search.table.isEmpty = false → ∀ now : Moment,
      ∃ requests : List InfoHash,
        search.journal? setup (Search.requestsAt now requests) = none

/-- Exactly the settings that leave room let every stimulus of every run be handled. -/
theorem Setup.progress (setup : Setup) (resolve : Resolver) : Progress setup resolve where
  never_iff := neverStuck_iff
  stuck full _ _ _ known now := Search.exists_requests_stuck full now known

/-- Settings with a ceiling of as many open queries as there are numbers are accepted, and a search
with them gets stuck. -/
theorem stuck_at_ceiling :
    (∃ service, Service.bind { Sample.setup.settings with maxPending := 65536 } 0 false =
        .ok service) ∧
      ¬ NeverStuck { Sample.setup with settings.maxPending := 65536 } .literal := by
  refine ⟨⟨_, rfl⟩, ?_⟩
  rw [neverStuck_iff]
  decide

end Runs

end PeerDiscovery
