import PeerDiscovery.Proofs.Search.Budget
import PeerDiscovery.Proofs.Search.Footprint
import PeerDiscovery.Proofs.Search.Progress
import PeerDiscovery.Proofs.Selection

/-!
# Asking everybody, a few at a time

A round asks the first of the candidates, the nodes that may be asked about a content in ascending
rank. A node that was asked is no candidate before it answers, and the others keep their order, so
the next round finds what the last one left: the list of candidates loses its first `fanOut` nodes
(`candidates_of_round?`). Requests at one moment therefore go through the whole list, each node
once (`Search.requests_sweep`).
-/

namespace PeerDiscovery

/-! ## Walking by address -/

namespace NodeTable

variable {table next : NodeTable}

/-- A walk visits the addresses in an order that depends on the addresses alone. -/
theorem walk_eq_filterMap (chance : Chance) (table : NodeTable) :
    table.walk chance =
      (table.addresses.mergeSort fun a b =>
        chance.place table.addresses a ≤ chance.place table.addresses b).filterMap table.get? := by
  have ordered : (table.walk chance).map KnownNode.address =
      table.addresses.mergeSort fun a b =>
        chance.place table.addresses a ≤ chance.place table.addresses b :=
    List.map_mergeSort fun _ _ _ _ => rfl
  rw [← ordered]
  exact (filterMap_get? fun node member => (walk_perm chance table).mem_iff.mp member).symm

/-- Where some addresses lost the nodes that a walk is interested in and nothing else changed, the
walk passes the others in the same order. -/
theorem filter_walk (chance : Chance) (same : next.addresses = table.addresses)
    (may keep : KnownNode → Bool)
    (kept : ∀ address, (next.get? address).filter may =
      ((table.get? address).filter may).filter keep) :
    (next.walk chance).filter may = ((table.walk chance).filter may).filter keep := by
  rw [walk_eq_filterMap, walk_eq_filterMap, same, List.filter_filterMap, List.filter_filterMap,
    List.filter_filterMap]
  apply List.filterMap_congr
  intro address _
  exact kept address

end NodeTable

/-- Without the keys of its first part, a list without repeated keys is its second part. -/
theorem filter_key_not_mem {α β : Type} [DecidableEq β] {key : α → β} {first rest : List α}
    (distinct : ((first ++ rest).map key).Nodup) :
    (first ++ rest).filter (fun here => key here ∉ first.map key) = rest := by
  rw [List.map_append, List.nodup_append] at distinct
  obtain ⟨-, -, apart⟩ := distinct
  have gone : first.filter (fun here => key here ∉ first.map key) = [] := by
    refine List.filter_eq_nil_iff.mpr fun here member => ?_
    rw [decide_eq_true_eq, not_not]
    exact List.mem_map_of_mem member
  have left : rest.filter (fun here => key here ∉ first.map key) = rest := by
    refine List.filter_eq_self.mpr fun here member => decide_eq_true fun there => ?_
    exact apart _ there _ (List.mem_map_of_mem member) rfl
  rw [List.filter_append, gone, left, List.nil_append]

namespace Search

variable {setup : Setup} {search next : Search} {now : Moment} {infoHash : InfoHash}
  {outcome : Outcome}

/-! ## Candidates of a search -/

/-- The nodes that may be asked about a content, in ascending rank; nodes of equal rank stand in the
order in which the table is walked. -/
def candidates (setup : Setup) (now : Moment) (infoHash : InfoHash) (search : Search) :
    List KnownNode :=
  Selection.candidates (limits setup.settings) infoHash now (search.table.walk setup.chance)

theorem mem_candidates {node : KnownNode} :
    node ∈ search.candidates setup now infoHash ↔
      node ∈ search.table.nodes ∧
        Selection.Eligible (limits setup.settings) infoHash now node := by
  rw [candidates, Selection.mem_candidates, (NodeTable.walk_perm _ _).mem_iff]

theorem get?_of_mem_candidates {node : KnownNode}
    (member : node ∈ search.candidates setup now infoHash) :
    search.table.get? node.address = some node :=
  NodeTable.get?_eq_some_iff.mpr ⟨(mem_candidates.mp member).1, rfl⟩

theorem nodup_candidates (setup : Setup) (now : Moment) (infoHash : InfoHash) (search : Search) :
    ((search.candidates setup now infoHash).map KnownNode.address).Nodup := by
  have walked := NodeTable.walk_perm setup.chance search.table
  exact Selection.nodup_candidates _ infoHash now
    ((walked.map KnownNode.address).nodup_iff.mpr search.table.distinct)

/-- The candidates that the next round asks. -/
def targets (setup : Setup) (now : Moment) (infoHash : InfoHash) (search : Search) :
    List KnownNode :=
  (search.candidates setup now infoHash).take setup.settings.fanOut

theorem nodup_targets (setup : Setup) (now : Moment) (infoHash : InfoHash) (search : Search) :
    ((search.targets setup now infoHash).map KnownNode.address).Nodup :=
  (nodup_candidates setup now infoHash search).sublist ((List.take_sublist _ _).map _)

/-- A round asks its targets, one datagram each. -/
theorem round?_eq_some_iff_askAll? :
    search.round? setup now infoHash = some outcome ↔
      ∃ asked next,
        askAll? setup infoHash ((search.targets setup now infoHash).map KnownNode.address) search =
            some (asked, next) ∧
          outcome = { search := next, activities := [.round now infoHash asked] } := by
  rw [round?_eq_some_iff, Selection.getD_select?]
  rfl

/-! ## One round -/

theorem addresses_of_openQuery? {address : Address} {method : Method} {content : Option InfoHash}
    {transaction : UInt16} (known : search.table.contains address = true)
    (opened : search.openQuery? setup address method content = some (transaction, next)) :
    next.table.addresses = search.table.addresses := by
  obtain ⟨node, asked, -, -, rfl⟩ := openQuery?_eq_some_iff.mp opened
  have same : search.table.addAddress setup.chance address = search.table :=
    NodeTable.add_of_contains known
  rw [same]
  exact NodeTable.map_replace_addresses _ _

theorem addresses_of_askAll? {targets : List Address} {asked : List (Address × UInt16)}
    (known : ∀ address ∈ targets, search.table.contains address = true)
    (asking : askAll? setup infoHash targets search = some (asked, next)) :
    next.table.addresses = search.table.addresses := by
  induction targets generalizing search asked with
  | nil =>
    obtain ⟨-, rfl⟩ := Prod.mk.inj (Option.some.inj asking)
    rfl
  | cons address rest ih =>
    obtain ⟨transaction, opened, others, opening, remaining, -⟩ :=
      askAll?_cons_eq_some_iff.mp asking
    rw [List.forall_mem_cons] at known
    have same := addresses_of_openQuery? known.1 opening
    have still : ∀ address ∈ rest, opened.table.contains address = true := by
      intro address member
      rw [NodeTable.contains, same]
      exact known.2 address member
    exact (ih (by exact still) remaining).trans same

theorem addresses_of_round? (held : search.round? setup now infoHash = some outcome) :
    outcome.search.table.addresses = search.table.addresses := by
  obtain ⟨asked, last, asking, rfl⟩ := round?_eq_some_iff_askAll?.mp held
  refine addresses_of_askAll? (fun address member => ?_) asking
  obtain ⟨node, target, rfl⟩ := List.mem_map.mp member
  rw [NodeTable.contains_eq_isSome, get?_of_mem_candidates (List.mem_of_mem_take target)]
  rfl

/-- What a round finds at each address: its targets owe an answer now, all else is as it was. -/
theorem get?_of_round? (held : search.round? setup now infoHash = some outcome)
    (address : Address) :
    (address ∉ (search.targets setup now infoHash).map KnownNode.address ∧
        outcome.search.table.get? address = search.table.get? address) ∨
      ∃ node number, search.table.get? address = some node ∧ node.pending[number]? = none ∧
        address ∈ (search.targets setup now infoHash).map KnownNode.address ∧
        outcome.search.table.get? address = some (node.asking number infoHash) := by
  obtain ⟨asked, last, asking, rfl⟩ := round?_eq_some_iff_askAll?.mp held
  have idle : ∀ address ∈ (search.targets setup now infoHash).map KnownNode.address,
      ∃ node, search.table.get? address = some node ∧ node.awaitsPeersOf infoHash = false := by
    intro address member
    obtain ⟨node, target, rfl⟩ := List.mem_map.mp member
    have candidate := List.mem_of_mem_take target
    have may := Selection.eligible_iff.mp (mem_candidates.mp candidate).2
    exact ⟨node, get?_of_mem_candidates candidate, (Selection.isEligible_iff.mp may).2.1⟩
  have asks := (askAll?_spec asking).1
  rcases get?_of_askAll? (nodup_targets ..) idle asking address with
    untouched | ⟨node, number, found, -, free, member, after⟩
  · exact Or.inl untouched
  · refine Or.inr ⟨node, number, found, free, ?_, after⟩
    rw [← asks]
    exact List.mem_map_of_mem member

/-- At each address a round leaves the candidate, unless it was a target. -/
theorem filter_get?_of_round? (held : search.round? setup now infoHash = some outcome)
    (address : Address) :
    (outcome.search.table.get? address).filter
        (Selection.isEligible (limits setup.settings) infoHash now) =
      ((search.table.get? address).filter
        (Selection.isEligible (limits setup.settings) infoHash now)).filter fun node =>
          node.address ∉ (search.targets setup now infoHash).map KnownNode.address := by
  rcases get?_of_round? held address with ⟨other, same⟩ | ⟨node, number, found, -, target, after⟩
  · rw [same, Option.filter_filter]
    cases found : search.table.get? address with
    | none => rfl
    | some node =>
      obtain rfl := (NodeTable.get?_eq_some_iff.mp found).2
      rw [Option.filter_some, Option.filter_some, decide_eq_true other, Bool.and_true]
  · obtain rfl := (NodeTable.get?_eq_some_iff.mp found).2
    have owes : Selection.isEligible (limits setup.settings) infoHash now
        (node.asking number infoHash) = false := by
      rw [Selection.isEligible, KnownNode.awaitsPeersOf_asking, Bool.not_true, Bool.and_false,
        Bool.false_and]
    rw [after, found, Option.filter_filter, Option.filter_some, Option.filter_some, owes,
      decide_eq_false (not_not.mpr target), Bool.and_false]
    rfl

/-- A round takes its targets from the list of candidates and leaves the rest in order. -/
theorem candidates_of_round? (held : search.round? setup now infoHash = some outcome) :
    outcome.search.candidates setup now infoHash =
      (search.candidates setup now infoHash).drop setup.settings.fanOut := by
  have split := List.take_append_drop setup.settings.fanOut (search.candidates setup now infoHash)
  have distinct := nodup_candidates setup now infoHash search
  rw [← split] at distinct
  have left := filter_key_not_mem distinct
  rw [split] at left
  rw [candidates, Selection.candidates,
    NodeTable.filter_walk setup.chance (addresses_of_round? held) _ _ (filter_get?_of_round? held),
    ← Selection.filter_sortByRank]
  exact left

/-- A round comes to its end exactly if its targets have free numbers. -/
theorem exists_round?_iff :
    (∃ outcome, search.round? setup now infoHash = some outcome) ↔
      ∀ node ∈ search.targets setup now infoHash,
        node.pendingCount < KnownNode.transactionCount := by
  constructor
  · intro given node target
    obtain ⟨outcome, held⟩ := given
    have member := List.mem_map_of_mem (f := KnownNode.address) target
    rcases get?_of_round? held node.address with ⟨other, -⟩ | ⟨same, number, found, free, -⟩
    · exact absurd member other
    · rw [get?_of_mem_candidates (List.mem_of_mem_take target)] at found
      obtain rfl := Option.some.inj found
      by_contra full
      have taken := KnownNode.transactionCount_le_size_iff.mp (Nat.le_of_not_lt full) number
      rw [Std.ExtTreeMap.mem_iff_isSome_getElem?, free] at taken
      cases taken
  · intro room
    have asking : ∃ asked next,
        askAll? setup infoHash ((search.targets setup now infoHash).map KnownNode.address) search =
          some (asked, next) := by
      refine exists_askAll? (nodup_targets ..) fun address member => ?_
      obtain ⟨node, target, rfl⟩ := List.mem_map.mp member
      exact ⟨node, get?_of_mem_candidates (List.mem_of_mem_take target), room node target⟩
    obtain ⟨asked, next, asking⟩ := asking
    exact ⟨_, round?_eq_some_iff_askAll?.mpr ⟨asked, next, asking, rfl⟩⟩

/-- The datagrams of a round ask its targets for the peers of the content, in order. -/
theorem datagrams_of_round? (ourId : Identifier)
    (held : search.round? setup now infoHash = some outcome) :
    (outcome.datagrams ourId).map Datagram.destination =
        (search.targets setup now infoHash).map KnownNode.address ∧
      ∀ datagram ∈ outcome.datagrams ourId, datagram.asksPeersOf infoHash = true := by
  obtain ⟨asked, last, asking, rfl⟩ := round?_eq_some_iff_askAll?.mp held
  have sent :
      Outcome.datagrams ourId { search := last, activities := [.round now infoHash asked] } =
        asked.map fun query => ⟨query.1, .getPeers (Bytes.ofWord query.2) ourId infoHash⟩ :=
    List.flatMap_singleton ..
  rw [sent]
  constructor
  · rw [List.map_map, ← (askAll?_spec asking).1]
    rfl
  · intro datagram member
    obtain ⟨query, -, rfl⟩ := List.mem_map.mp member
    exact decide_eq_true rfl

/-! ## Several rounds -/

/-- What becomes of some requests for a content that come in at one moment, one after another. -/
structure Sweeps (setup : Setup) (now : Moment) (infoHash : InfoHash) (count : Nat)
    (search : Search) : Prop where
  /-- They are all handled exactly if the nodes whose turn it is have free numbers. -/
  handled_iff :
    (∃ recorded,
      search.journal? setup (requestsAt now (List.replicate count infoHash)) = some recorded) ↔
      ∀ node ∈ (search.candidates setup now infoHash).take (count * setup.settings.fanOut),
        node.pendingCount < KnownNode.transactionCount
  /-- The candidates are asked from the first on, one datagram each. -/
  asked : ∀ {journal : List Entry} {last : Search},
    search.journal? setup (requestsAt now (List.replicate count infoHash)) =
        some (journal, last) →
      (journal.flatMap fun entry => entry.outcome.datagrams setup.settings.ourId).map
          Datagram.destination =
        ((search.candidates setup now infoHash).take (count * setup.settings.fanOut)).map
          KnownNode.address ∧
      ∀ entry ∈ journal, ∀ datagram ∈ entry.outcome.datagrams setup.settings.ourId,
        datagram.asksPeersOf infoHash = true
  /-- A request that did not ask `fanOut` nodes left no candidate. -/
  ended : ∀ {journal : List Entry} {last : Search},
    search.journal? setup (requestsAt now (List.replicate count infoHash)) =
        some (journal, last) →
      ∀ entry ∈ journal,
        (entry.outcome.datagrams setup.settings.ourId).length = setup.settings.fanOut ∨
          ∀ node ∈ entry.outcome.search.table.nodes,
            ¬ Selection.Eligible (limits setup.settings) infoHash now node

theorem journal?_requestsAt_succ (setup : Setup) (now : Moment) (infoHash : InfoHash)
    (count : Nat) (search : Search) :
    search.journal? setup (requestsAt now (List.replicate (count + 1) infoHash)) =
      (search.request? setup now infoHash).bind fun outcome =>
        (outcome.search.journal? setup (requestsAt now (List.replicate count infoHash))).map
          fun recorded =>
            (⟨now, .still now, some (.request infoHash), search, outcome⟩ :: recorded.1,
              recorded.2) := by
  rw [List.replicate_succ, requestsAt, List.map_cons, journal?_cons]
  rfl

/-- A request is handled exactly if the nodes whose turn it is have free numbers. -/
theorem exists_request?_iff :
    (∃ outcome, search.request? setup now infoHash = some outcome) ↔
      ∀ node ∈ search.targets setup now infoHash,
        node.pendingCount < KnownNode.transactionCount :=
  @exists_round?_iff setup { search with
    budgets := search.budgets.insert infoHash setup.settings.maxExpansions } now infoHash

/-- A request that did not ask `fanOut` nodes found no more candidates. -/
theorem request?_ended (taken : search.request? setup now infoHash = some outcome) :
    (outcome.datagrams setup.settings.ourId).length = setup.settings.fanOut ∨
      ∀ node ∈ outcome.search.table.nodes,
        ¬ Selection.Eligible (limits setup.settings) infoHash now node := by
  have sent := congrArg List.length (datagrams_of_round? setup.settings.ourId taken).1
  rw [List.length_map, List.length_map, targets, List.length_take] at sent
  rcases Nat.le_total setup.settings.fanOut
      (List.length (candidates setup now infoHash _)) with many | few
  · rw [Nat.min_eq_left many] at sent
    exact Or.inl sent
  · right
    intro node member eligible
    have left := candidates_of_round? taken
    rw [List.drop_eq_nil_of_le few] at left
    have candidate := mem_candidates.mpr ⟨member, eligible⟩
    rw [left] at candidate
    cases candidate

/-- After a request it is the turn of the nodes behind its targets. -/
theorem take_candidates_succ (count : Nat)
    (taken : search.request? setup now infoHash = some outcome) :
    (search.candidates setup now infoHash).take ((count + 1) * setup.settings.fanOut) =
      search.targets setup now infoHash ++
        (outcome.search.candidates setup now infoHash).take (count * setup.settings.fanOut) := by
  rw [candidates_of_round? taken, Nat.succ_mul, Nat.add_comm, List.take_add]
  rfl

namespace Sweeps

theorem zero (setup : Setup) (now : Moment) (infoHash : InfoHash) (search : Search) :
    Sweeps setup now infoHash 0 search := by
  have nobody : (search.candidates setup now infoHash).take (0 * setup.settings.fanOut) = [] := by
    rw [Nat.zero_mul, List.take_zero]
  constructor
  · rw [nobody]
    exact iff_of_true ⟨_, rfl⟩ (List.forall_mem_nil _)
  · intro journal last recorded
    obtain ⟨rfl, -⟩ := Prod.mk.inj (Option.some.inj recorded)
    rw [nobody]
    exact ⟨rfl, List.forall_mem_nil _⟩
  · intro journal last recorded
    obtain ⟨rfl, -⟩ := Prod.mk.inj (Option.some.inj recorded)
    exact List.forall_mem_nil _

theorem succ {count : Nat} (others : ∀ search, Sweeps setup now infoHash count search) :
    Sweeps setup now infoHash (count + 1) search := by
  have turns (outcome : Outcome) := @take_candidates_succ setup search now infoHash outcome count
  constructor
  · rw [journal?_requestsAt_succ]
    constructor
    · intro given
      obtain ⟨recorded, given⟩ := given
      obtain ⟨outcome, taken, given⟩ := Option.bind_eq_some_iff.mp given
      obtain ⟨later, remaining, -⟩ := Option.map_eq_some_iff.mp given
      rw [turns outcome taken, List.forall_mem_append]
      exact ⟨exists_request?_iff.mp ⟨outcome, taken⟩,
        (others outcome.search).handled_iff.mp ⟨later, remaining⟩⟩
    · intro room
      have first : ∀ node ∈ search.targets setup now infoHash,
          node.pendingCount < KnownNode.transactionCount := by
        intro node target
        refine room node (List.mem_of_mem_take (i := setup.settings.fanOut) ?_)
        rw [List.take_take, Nat.min_eq_left (by rw [Nat.succ_mul]; omega)]
        exact target
      obtain ⟨outcome, taken⟩ := exists_request?_iff.mpr first
      rw [turns outcome taken, List.forall_mem_append] at room
      obtain ⟨later, remaining⟩ := (others outcome.search).handled_iff.mpr room.2
      exact ⟨_, Option.bind_eq_some_iff.mpr ⟨outcome, taken,
        Option.map_eq_some_iff.mpr ⟨later, remaining, rfl⟩⟩⟩
  · intro journal last recorded
    rw [journal?_requestsAt_succ] at recorded
    obtain ⟨outcome, taken, given⟩ := Option.bind_eq_some_iff.mp recorded
    obtain ⟨later, remaining, same⟩ := Option.map_eq_some_iff.mp given
    obtain ⟨rfl, -⟩ := Prod.mk.inj same
    obtain ⟨here, about⟩ := datagrams_of_round? setup.settings.ourId taken
    obtain ⟨behind, aboutToo⟩ := (others outcome.search).asked remaining
    rw [List.flatMap_cons, List.map_append, here, behind, turns outcome taken, List.map_append,
      List.forall_mem_cons]
    exact ⟨rfl, about, aboutToo⟩
  · intro journal last recorded
    rw [journal?_requestsAt_succ] at recorded
    obtain ⟨outcome, taken, given⟩ := Option.bind_eq_some_iff.mp recorded
    obtain ⟨later, remaining, same⟩ := Option.map_eq_some_iff.mp given
    obtain ⟨rfl, -⟩ := Prod.mk.inj same
    rw [List.forall_mem_cons]
    exact ⟨request?_ended taken, (others outcome.search).ended remaining⟩

end Sweeps

/-- Where a round leaves room, all candidates that get their turn have free numbers. -/
theorem pendingCount_of_mem_take_candidates (leaves : setup.settings.LeavesRoom) (count : Nat)
    {node : KnownNode}
    (member : node ∈ (search.candidates setup now infoHash).take (count * setup.settings.fanOut)) :
    node.pendingCount < KnownNode.transactionCount := by
  rcases leaves with ceiling | nobody
  · have eligible := (mem_candidates.mp (List.mem_of_mem_take member)).2
    exact Nat.lt_of_le_of_lt eligible.room ceiling
  · rw [nobody, Nat.mul_zero, List.take_zero] at member
    cases member

/-- At any time, requests for a content that come in at one moment ask the nodes that may be asked
about it in ascending rank, each once, and `fanOut` of them with each request while there are any.
Where a round leaves room, all these requests are handled. -/
theorem requests_sweep (setup : Setup) (now : Moment) (infoHash : InfoHash) (count : Nat)
    (search : Search) :
    ((search.candidates setup now infoHash).map KnownNode.address).Nodup ∧
      Sweeps setup now infoHash count search ∧
      (setup.settings.LeavesRoom → ∃ recorded,
        search.journal? setup (requestsAt now (List.replicate count infoHash)) =
          some recorded) := by
  have swept : Sweeps setup now infoHash count search := by
    induction count generalizing search with
    | zero => exact .zero setup now infoHash search
    | succ count ih => exact .succ ih
  refine ⟨nodup_candidates setup now infoHash search, swept, fun leaves => ?_⟩
  exact swept.handled_iff.mpr fun _ member =>
    pendingCount_of_mem_take_candidates leaves count member

end Search

/-- Three nodes of the sample are hinted at. -/
def Sample.crowdEvents : List Search.Event :=
  [.hint ⟨identifier 2, node⟩, .hint (neighbour 4), .hint (neighbour 8)].map (.undisturbed 0)

/-- Two requests for two nodes each ask the three nodes of the sample, the closest one first. -/
theorem Search.requests_sweep_sample :
    ∃ journal search entries last, Run Sample.thriftySetup .literal journal search ∧
      search.journal? Sample.thriftySetup
        (requestsAt 1 (List.replicate 2 Sample.content)) = some (entries, last) ∧
      entries.map (fun entry => (entry.outcome.datagrams (Sample.identifier 1)).length) = [2, 1] ∧
      ((search.candidates Sample.thriftySetup 1 Sample.content).take 4).map KnownNode.address =
        [(Sample.neighbour 8).address, Sample.node, (Sample.neighbour 4).address] := by
  have told : (Search.start.journal? Sample.thriftySetup Sample.crowdEvents).map (fun recorded =>
      (recorded.2.journal? Sample.thriftySetup (requestsAt 1 (List.replicate 2 Sample.content))).map
        fun later =>
          (later.1.map (fun entry => (entry.outcome.datagrams (Sample.identifier 1)).length),
            (later.1.flatMap fun entry => entry.outcome.datagrams (Sample.identifier 1)).map
              Datagram.destination)) =
      some (some ([2, 1],
        [(Sample.neighbour 8).address, Sample.node, (Sample.neighbour 4).address])) := by cbv
  obtain ⟨journal, search, run, told⟩ := Run.of_map_journal? told
  obtain ⟨⟨entries, last⟩, recorded, told⟩ := Option.map_eq_some_iff.mp told
  obtain ⟨lengths, destinations⟩ := Prod.mk.inj told
  obtain ⟨-, swept, -⟩ := requests_sweep Sample.thriftySetup 1 Sample.content 2 search
  exact ⟨journal, search, entries, last, run, recorded, lengths,
    (swept.asked recorded).1.symm.trans destinations⟩

end PeerDiscovery
