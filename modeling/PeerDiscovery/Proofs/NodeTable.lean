import Mathlib.Data.List.Nodup
import PeerDiscovery.Selection

/-!
# The table by address

Looking a node up by its address is the view of the table: `get?_add`, `get?_replace` say what the
two operations on tables do to it. A walk holds the same nodes, so a selection names distinct
addresses of eligible nodes of the table (`Selection.select?_spec`).
-/

namespace PeerDiscovery

namespace NodeTable

variable {table : NodeTable} {node : KnownNode} {address : Address}

/-! ## Looking up -/

/-- A node is found at its own address, and is in the table. -/
theorem get?_eq_some_iff :
    table.get? address = some node ↔ node ∈ table.nodes ∧ node.address = address := by
  constructor
  · intro found
    exact ⟨List.mem_of_find?_eq_some found, by simpa using List.find?_some found⟩
  · intro given
    rcases given with ⟨member, rfl⟩
    cases found : table.get? node.address with
    | none =>
      rw [get?, List.find?_eq_none] at found
      simpa using found node member
    | some other =>
      have same : other.address = node.address := by simpa using List.find?_some found
      rw [List.inj_on_of_nodup_map table.distinct (List.mem_of_find?_eq_some found) member same]

/-- A node of the table is found under its own address. -/
theorem get?_address (found : table.get? address = some node) :
    table.get? node.address = some node := by
  rwa [(get?_eq_some_iff.mp found).2]

/-- Nodes of the table are found again under their addresses. -/
theorem filterMap_get? {nodes : List KnownNode} (known : ∀ node ∈ nodes, node ∈ table.nodes) :
    (nodes.map KnownNode.address).filterMap table.get? = nodes := by
  induction nodes with
  | nil => rfl
  | cons node others ih =>
    rw [List.forall_mem_cons] at known
    have found : table.get? node.address = some node := get?_eq_some_iff.mpr ⟨known.1, rfl⟩
    rw [List.map_cons, List.filterMap_cons_some found, ih known.2]

/-- An address is known exactly if a node is found there. -/
theorem contains_eq_isSome : table.contains address = (table.get? address).isSome := by
  rw [Bool.eq_iff_iff, contains, addresses, List.contains_iff_mem, get?, List.find?_isSome]
  simp

theorem contains_eq_false_iff : table.contains address = false ↔ table.get? address = none := by
  rw [contains_eq_isSome, Option.isSome_eq_false_iff, Option.isNone_iff_eq_none]

/-! ## Adding and replacing -/

theorem add_of_contains (known : table.contains node.address = true) : table.add node = table := by
  rw [add, dif_pos known]

/-- A node that joins is found at its address, and all others as before. -/
theorem get?_add (unknown : table.get? node.address = none) (address : Address) :
    (table.add node).get? address =
      if node.address = address then some node else table.get? address := by
  have absent : ¬ table.contains node.address = true := by
    rw [contains_eq_isSome, unknown]
    exact Bool.false_ne_true
  rw [add, dif_neg absent, get?, List.find?_append, ← get?]
  by_cases same : node.address = address
  · subst same
    simp [unknown]
  · simp [same]

/-- A node that joins is known. -/
theorem contains_add (table : NodeTable) (node : KnownNode) :
    (table.add node).contains node.address = true := by
  cases known : table.contains node.address with
  | true => rw [add_of_contains known, known]
  | false =>
    rw [contains_eq_isSome, get?_add (contains_eq_false_iff.mp known), if_pos rfl]
    rfl

/-- A node is replaced at its own address, if there is one, and nowhere else. -/
theorem get?_replace (node : KnownNode) (address : Address) :
    (table.replace node).get? address =
      if node.address = address then (table.get? address).map fun _ => node
      else table.get? address := by
  rw [replace, get?, get?, List.find?_map]
  by_cases same : node.address = address
  · subst same
    have matching : ((fun other : KnownNode => decide (other.address = node.address)) ∘
        fun old => if old.address = node.address then node else old) =
        fun old => decide (old.address = node.address) := by
      funext old
      by_cases here : old.address = node.address <;> simp [here]
    rw [if_pos rfl, matching]
    cases found : table.nodes.find? fun old => decide (old.address = node.address) with
    | none => rfl
    | some old =>
      have here : old.address = node.address := by simpa using List.find?_some found
      simp [here]
  · have matching : ((fun other : KnownNode => decide (other.address = address)) ∘
        fun old => if old.address = node.address then node else old) =
        fun old => decide (old.address = address) := by
      funext old
      by_cases here : old.address = node.address
      · have elsewhere : ¬ old.address = address := fun equal => same (here.symm.trans equal)
        simp [here, same]
      · simp [here]
    rw [if_neg same, matching]
    cases found : table.nodes.find? fun old => decide (old.address = address) with
    | none => rfl
    | some old =>
      have here : old.address = address := by simpa using List.find?_some found
      have elsewhere : ¬ old.address = node.address := fun equal => same (equal.symm.trans here)
      simp [elsewhere]

/-- Only the node of its address gives way to a node. -/
theorem nodes_replace {before after : List KnownNode} {old : KnownNode}
    (split : table.nodes = before ++ old :: after) (same : old.address = node.address) :
    (table.replace node).nodes = before ++ node :: after := by
  have distinct := table.distinct
  rw [split, List.map_append, List.map_cons, List.nodup_append, List.nodup_cons] at distinct
  obtain ⟨-, ⟨notLater, -⟩, apart⟩ := distinct
  have kept : ∀ others : List KnownNode, (∀ other ∈ others, other.address ≠ node.address) →
      (others.map fun other => if other.address = node.address then node else other) = others :=
    fun others different => (List.map_congr_left fun other member =>
      if_neg (different other member)).trans (List.map_id' others)
  change (table.nodes.map _) = _
  rw [split, List.map_append, List.map_cons, if_pos same, kept before, kept after]
  · intro other member equal
    exact notLater (same.trans equal.symm ▸ List.mem_map_of_mem member)
  · intro other member equal
    exact apart _ (List.mem_map_of_mem member) _ List.mem_cons_self (equal.trans same.symm)

theorem size_replace (table : NodeTable) (node : KnownNode) :
    (table.replace node).size = table.size :=
  List.length_map _

/-- A node that joins goes behind the others. -/
theorem nodes_add (unknown : table.get? node.address = none) :
    (table.add node).nodes = table.nodes ++ [node] := by
  have absent := contains_eq_false_iff.mpr unknown
  rw [add, dif_neg (by rw [absent]; exact Bool.false_ne_true)]

/-! ## Walking -/

/-- A walk comes by every node once, in some order. -/
theorem walk_perm (chance : Chance) (table : NodeTable) :
    (table.walk chance).Perm table.nodes :=
  List.mergeSort_perm _ _

/-- A known address belongs to a node that the walk passes. -/
theorem exists_mem_walk (chance : Chance) (known : table.contains address = true) :
    ∃ node ∈ table.walk chance, node.address = address := by
  rw [contains_eq_isSome] at known
  obtain ⟨node, found⟩ := Option.isSome_iff_exists.mp known
  obtain ⟨member, same⟩ := get?_eq_some_iff.mp found
  exact ⟨node, (walk_perm chance table).mem_iff.mpr member, same⟩

end NodeTable

/-! ## Selecting -/

namespace Selection

variable {limits : SelectionLimits} {infoHash : InfoHash} {now : Moment} {nodes : List KnownNode}

/-- Sorting loses no node and adds none. -/
theorem sortByRank_perm (infoHash : InfoHash) (nodes : List KnownNode) :
    (sortByRank infoHash nodes).Perm nodes :=
  List.mergeSort_perm _ _

/-- A node may be asked unless it has too much to answer, is being asked the same, or was asked it
too short a time ago. -/
theorem isEligible_iff {node : KnownNode} :
    isEligible limits infoHash now node = true ↔
      node.pendingCount ≤ limits.maxPending ∧ node.awaitsPeersOf infoHash = false ∧
        (node.askedPeersOf infoHash = true → limits.cooldown ≤ silence now node) := by
  unfold isEligible
  cases node.askedPeersOf infoHash <;> simp [and_assoc]

/-- A selection from nodes of distinct addresses names distinct addresses, each of an eligible
node. -/
theorem select?_spec {targets : List Address}
    (selected : select? limits infoHash now nodes = some targets)
    (distinct : (nodes.map KnownNode.address).Nodup) :
    targets.Nodup ∧
      ∀ address ∈ targets, ∃ node ∈ nodes,
        node.address = address ∧ isEligible limits infoHash now node = true := by
  unfold select? at selected
  split at selected
  · cases selected
  · obtain rfl := Option.some.inj selected
    have sorted := sortByRank_perm infoHash (nodes.filter (isEligible limits infoHash now))
    constructor
    · have kept : ((nodes.filter (isEligible limits infoHash now)).map KnownNode.address).Nodup :=
        distinct.sublist (List.filter_sublist.map _)
      have ordered := (sorted.map KnownNode.address).nodup_iff.mpr kept
      exact ordered.sublist ((List.take_sublist _ _).map _)
    · intro address member
      obtain ⟨node, taken, rfl⟩ := List.mem_map.mp member
      have eligible := sorted.mem_iff.mp (List.mem_of_mem_take taken)
      rw [List.mem_filter] at eligible
      exact ⟨node, eligible.1, rfl, eligible.2⟩

/-- A selection from a table names distinct addresses, each of an eligible node of the table. -/
theorem getD_select?_walk_spec (chance : Chance) (table : NodeTable) :
    ((select? limits infoHash now (table.walk chance)).getD []).Nodup ∧
      ∀ address ∈ (select? limits infoHash now (table.walk chance)).getD [],
        ∃ node, table.get? address = some node ∧ isEligible limits infoHash now node = true := by
  cases selected : select? limits infoHash now (table.walk chance) with
  | none => exact ⟨List.nodup_nil, List.forall_mem_nil _⟩
  | some targets =>
    have walked := NodeTable.walk_perm chance table
    have addresses := (walked.map KnownNode.address).nodup_iff.mpr table.distinct
    obtain ⟨distinct, eligible⟩ := select?_spec selected addresses
    refine ⟨distinct, fun address member => ?_⟩
    obtain ⟨node, walkedNode, own, may⟩ := eligible address member
    exact ⟨node, NodeTable.get?_eq_some_iff.mpr ⟨walked.mem_iff.mp walkedNode, own⟩, may⟩

/-- No more nodes are selected than a round may ask. -/
theorem length_getD_select?_le :
    ((select? limits infoHash now nodes).getD []).length ≤ limits.fanOut := by
  unfold select?
  split
  · exact Nat.zero_le _
  · rw [Option.getD_some, List.length_map]
    exact List.length_take_le ..

end Selection

end PeerDiscovery
