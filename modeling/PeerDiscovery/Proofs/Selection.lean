import PeerDiscovery.Proofs.Identifier.Metric
import PeerDiscovery.Proofs.KnownNode.Transaction
import PeerDiscovery.Proofs.NodeTable

/-!
# The closest nodes

A selection is the beginning of the list of all candidates, the eligible nodes in ascending rank. A
list of candidates depends on the order of the nodes only among nodes of equal rank
(`candidates_eq_of_perm`), and what is dropped from the nodes is dropped from the candidates, in
place (`filter_sortByRank`). So whatever the order in which a table is walked, a selection from it
names the closest eligible nodes (`select?_closest`).
-/

namespace PeerDiscovery

/-! ## Sorting a list that lost some elements -/

section Sorting

variable {α : Type} {le : α → α → Bool}

/-- A stable sort puts the first element between those that must stand before it and those that
need not. -/
theorem mergeSort_cons_eq (trans : ∀ a b c, le a b = true → le b c = true → le a c = true)
    (total : ∀ a b, (le a b || le b a) = true) (first : α) (rest : List α) :
    (first :: rest).mergeSort le =
      (rest.mergeSort le).filter (fun other => !le first other) ++
        first :: (rest.mergeSort le).filter (le first) := by
  obtain ⟨before, after, sorted, others, ahead⟩ := List.mergeSort_cons trans total first rest
  have behind : ∀ other ∈ after, le first other = true := by
    have ordered := List.pairwise_mergeSort trans total (first :: rest)
    rw [sorted, List.pairwise_append, List.pairwise_cons] at ordered
    exact ordered.2.1.1
  have none_before : before.filter (le first) = [] :=
    List.filter_eq_nil_iff.mpr fun other member => by simpa using ahead other member
  have none_after : after.filter (fun other => !le first other) = [] :=
    List.filter_eq_nil_iff.mpr fun other member => by simpa using behind other member
  rw [sorted, others, List.filter_append, List.filter_append, none_before, none_after,
    List.filter_eq_self.mpr ahead, List.filter_eq_self.mpr behind, List.append_nil, List.nil_append]

/-- Elements can be dropped before or after a stable sort. -/
theorem filter_mergeSort (trans : ∀ a b c, le a b = true → le b c = true → le a c = true)
    (total : ∀ a b, (le a b || le b a) = true) (keep : α → Bool) (list : List α) :
    (list.mergeSort le).filter keep = (list.filter keep).mergeSort le := by
  induction list with
  | nil => rw [List.mergeSort_nil, List.filter_nil, List.mergeSort_nil]
  | cons first rest ih =>
    cases kept : keep first with
    | true =>
      have swap : ∀ side : α → Bool, ((rest.mergeSort le).filter side).filter keep =
          ((rest.filter keep).mergeSort le).filter side := by
        intro side
        rw [← ih, List.filter_comm]
      rw [mergeSort_cons_eq trans total, List.filter_append, List.filter_cons_of_pos kept, swap,
        swap, List.filter_cons_of_pos kept, mergeSort_cons_eq trans total]
    | false =>
      have dropped : ¬ keep first = true := by rw [kept]; exact Bool.false_ne_true
      obtain ⟨before, after, sorted, others, -⟩ := List.mergeSort_cons trans total first rest
      rw [List.filter_cons_of_neg dropped, ← ih, sorted, others, List.filter_append,
        List.filter_append, List.filter_cons_of_neg dropped]

end Sorting

namespace Selection

variable {limits : SelectionLimits} {infoHash : InfoHash} {now : Moment} {node : KnownNode}
  {nodes others : List KnownNode} {table : NodeTable}

/-! ## Eligible nodes -/

/-- A node may be asked about a content: few of its queries are open, none of them asks for the
peers of the content, and if it ever answered such a query, it was last heard of a cooldown ago. -/
structure Eligible (limits : SelectionLimits) (infoHash : InfoHash) (now : Moment)
    (node : KnownNode) : Prop where
  room : node.pending.size ≤ limits.maxPending
  idle : ∀ (number : UInt16) (query : Query), node.pending[number]? = some query →
    query.asksPeersOf infoHash = false
  rested : (∀ (number : UInt16) (query : Query), node.past[number]? = some query →
      query.asksPeersOf infoHash = false) ∨
    limits.cooldown ≤ node.lastContact.elim Span.longest fun earlier => now - earlier

theorem silence_eq (now : Moment) (node : KnownNode) :
    silence now node = node.lastContact.elim Span.longest fun earlier => now - earlier := by
  unfold silence
  cases node.lastContact with
  | none => rfl
  | some earlier => rfl

/-- `Eligible` is what the selection tests. -/
theorem eligible_iff :
    Eligible limits infoHash now node ↔ isEligible limits infoHash now node = true := by
  have open_none : node.awaitsPeersOf infoHash = false ↔ ∀ (number : UInt16) (query : Query),
      node.pending[number]? = some query → query.asksPeersOf infoHash = false := by
    rw [← Bool.not_eq_true, KnownNode.awaitsPeersOf_iff]
    simp only [not_exists, not_and, Bool.not_eq_true]
  have past_none : node.askedPeersOf infoHash = false ↔ ∀ (number : UInt16) (query : Query),
      node.past[number]? = some query → query.asksPeersOf infoHash = false := by
    rw [← Bool.not_eq_true, KnownNode.askedPeersOf_iff]
    simp only [not_exists, not_and, Bool.not_eq_true]
  rw [isEligible_iff, silence_eq]
  constructor
  · intro eligible
    refine ⟨eligible.room, open_none.mpr eligible.idle, fun asked => ?_⟩
    rcases eligible.rested with never | rested
    · rw [past_none.mpr never] at asked
      cases asked
    · exact rested
  · intro given
    obtain ⟨room, idle, rested⟩ := given
    refine ⟨room, open_none.mp idle, ?_⟩
    cases asked : node.askedPeersOf infoHash with
    | false => exact Or.inl (past_none.mp asked)
    | true => exact Or.inr (rested asked)

instance (limits : SelectionLimits) (infoHash : InfoHash) (now : Moment) (node : KnownNode) :
    Decidable (Eligible limits infoHash now node) :=
  decidable_of_iff _ eligible_iff.symm

/-! ## Candidates -/

/-- Sorted nodes ascend by rank. -/
theorem pairwise_sortByRank (infoHash : InfoHash) (nodes : List KnownNode) :
    (sortByRank infoHash nodes).Pairwise
      fun a b => (compare (rank infoHash a) (rank infoHash b)).isLE = true := by
  apply List.pairwise_mergeSort
  · intro a b c
    exact Rank.isLE_trans
  · intro a b
    exact Rank.isLE_total _ _

/-- It does not matter whether nodes are left out before or after sorting. -/
theorem filter_sortByRank (infoHash : InfoHash) (keep : KnownNode → Bool)
    (nodes : List KnownNode) :
    (sortByRank infoHash nodes).filter keep = sortByRank infoHash (nodes.filter keep) := by
  apply filter_mergeSort
  · intro a b c
    exact Rank.isLE_trans
  · intro a b
    exact Rank.isLE_total _ _

/-- The eligible nodes in ascending rank. -/
def candidates (limits : SelectionLimits) (infoHash : InfoHash) (now : Moment)
    (nodes : List KnownNode) : List KnownNode :=
  sortByRank infoHash (nodes.filter (isEligible limits infoHash now))

/-- Candidates ascend by rank. -/
theorem pairwise_candidates (limits : SelectionLimits) (infoHash : InfoHash) (now : Moment)
    (nodes : List KnownNode) :
    (candidates limits infoHash now nodes).Pairwise
      fun a b => (compare (rank infoHash a) (rank infoHash b)).isLE = true :=
  pairwise_sortByRank infoHash _

theorem candidates_perm (limits : SelectionLimits) (infoHash : InfoHash) (now : Moment)
    (nodes : List KnownNode) :
    (candidates limits infoHash now nodes).Perm (nodes.filter (isEligible limits infoHash now)) :=
  sortByRank_perm infoHash _

/-- The candidates are the nodes that may be asked. -/
theorem mem_candidates :
    node ∈ candidates limits infoHash now nodes ↔
      node ∈ nodes ∧ Eligible limits infoHash now node := by
  rw [(candidates_perm limits infoHash now nodes).mem_iff, List.mem_filter, eligible_iff]

/-- Each of them is there once. -/
theorem nodup_candidates (limits : SelectionLimits) (infoHash : InfoHash) (now : Moment)
    (distinct : (nodes.map KnownNode.address).Nodup) :
    ((candidates limits infoHash now nodes).map KnownNode.address).Nodup := by
  rw [((candidates_perm limits infoHash now nodes).map KnownNode.address).nodup_iff]
  exact distinct.sublist (List.filter_sublist.map _)

/-- Nodes in another order have the same candidates in some order. -/
theorem candidates_perm_of_perm (limits : SelectionLimits) (infoHash : InfoHash) (now : Moment)
    (order : nodes.Perm others) :
    (candidates limits infoHash now nodes).Perm (candidates limits infoHash now others) :=
  ((candidates_perm ..).trans (order.filter _)).trans (candidates_perm ..).symm

/-- The ranks of the candidates do not depend on the order of the nodes. -/
theorem map_rank_candidates (order : nodes.Perm others) :
    (candidates limits infoHash now nodes).map (rank infoHash) =
      (candidates limits infoHash now others).map (rank infoHash) := by
  apply List.Perm.eq_of_pairwise (fun _ _ _ _ => Rank.isLE_antisymm)
  · exact List.pairwise_map.mpr (pairwise_candidates ..)
  · exact List.pairwise_map.mpr (pairwise_candidates ..)
  · exact (candidates_perm_of_perm limits infoHash now order).map _

/-- Nor do the candidates, if no two of them have the same rank. -/
theorem candidates_eq_of_perm (order : nodes.Perm others)
    (untied : ∀ one ∈ nodes, ∀ other ∈ nodes, Eligible limits infoHash now one →
      Eligible limits infoHash now other → rank infoHash one = rank infoHash other →
      one = other) :
    candidates limits infoHash now nodes = candidates limits infoHash now others := by
  apply List.Perm.eq_of_pairwise _ (pairwise_candidates ..) (pairwise_candidates ..)
    (candidates_perm_of_perm limits infoHash now order)
  intro one other first second before after
  rw [mem_candidates] at first second
  exact untied one first.1 other (order.mem_iff.mpr second.1) first.2 second.2
    (Rank.isLE_antisymm before after)

/-! ## Selections -/

/-- A selection from some nodes is the beginning of the list of candidates. -/
theorem select?_of_ne_nil (limits : SelectionLimits) (infoHash : InfoHash) (now : Moment)
    (some_node : nodes ≠ []) :
    select? limits infoHash now nodes =
      some (((candidates limits infoHash now nodes).take limits.fanOut).map KnownNode.address) := by
  rw [select?, if_neg (by rwa [List.isEmpty_iff])]
  rfl

/-- The nodes that are selected are the first candidates. -/
theorem getD_select? (limits : SelectionLimits) (infoHash : InfoHash) (now : Moment)
    (nodes : List KnownNode) :
    (select? limits infoHash now nodes).getD [] =
      ((candidates limits infoHash now nodes).take limits.fanOut).map KnownNode.address := by
  cases nodes with
  | nil =>
    have nobody : candidates limits infoHash now [] = [] := List.mergeSort_nil
    rw [nobody, List.take_nil]
    rfl
  | cons node others =>
    rw [select?_of_ne_nil limits infoHash now (List.cons_ne_nil node others)]
    rfl

/-- The chosen nodes are as many eligible nodes of the table as the limits allow, in ascending rank,
and no eligible node that is left out is closer than one of them. -/
structure Closest (limits : SelectionLimits) (infoHash : InfoHash) (now : Moment)
    (table : NodeTable) (chosen : List KnownNode) : Prop where
  eligible : ∀ node ∈ chosen, node ∈ table.nodes ∧ Eligible limits infoHash now node
  distinct : (chosen.map KnownNode.address).Nodup
  length_eq : chosen.length =
    min limits.fanOut (table.nodes.countP fun node => Eligible limits infoHash now node)
  ascending : chosen.Pairwise
    fun a b => (compare (rank infoHash a) (rank infoHash b)).isLE = true
  nearest : ∀ node ∈ table.nodes, Eligible limits infoHash now node → node ∉ chosen →
    ∀ near ∈ chosen, (compare (rank infoHash near) (rank infoHash node)).isLE = true

/-- No node that may be asked and was left out is closer than one that was selected. -/
theorem closest_take_candidates (order : nodes.Perm table.nodes) :
    Closest limits infoHash now table
      ((candidates limits infoHash now nodes).take limits.fanOut) where
  eligible := by
    intro node member
    have candidate := mem_candidates.mp (List.mem_of_mem_take member)
    exact ⟨order.mem_iff.mp candidate.1, candidate.2⟩
  distinct := by
    have all := (order.map KnownNode.address).nodup_iff.mpr table.distinct
    exact (nodup_candidates limits infoHash now all).sublist ((List.take_sublist _ _).map _)
  length_eq := by
    rw [List.length_take, (candidates_perm_of_perm limits infoHash now order).length_eq,
      (candidates_perm ..).length_eq, ← List.countP_eq_length_filter]
    congr 1
    apply List.countP_congr
    intro node _
    rw [decide_eq_true_eq, eligible_iff]
  ascending := (pairwise_candidates ..).sublist (List.take_sublist _ _)
  nearest := by
    intro node member eligible missed near chosen
    have candidate : node ∈ candidates limits infoHash now nodes :=
      mem_candidates.mpr ⟨order.mem_iff.mpr member, eligible⟩
    have ordered := pairwise_candidates limits infoHash now nodes
    rw [← List.take_append_drop limits.fanOut (candidates limits infoHash now nodes)]
      at candidate ordered
    exact (List.pairwise_append.mp ordered).2.2 near chosen node
      ((List.mem_append.mp candidate).resolve_left missed)

/-- A selection fails only on the empty table. Otherwise it names the closest eligible nodes, in
whatever order the nodes are given. In two orders the ranks are the same, and so are the nodes if no
two eligible ones have the same rank. -/
theorem select?_closest (order : nodes.Perm table.nodes) (order' : others.Perm table.nodes)
    (limits : SelectionLimits) (infoHash : InfoHash) (now : Moment) :
    (select? limits infoHash now nodes = none ↔ table.nodes = []) ∧
      (table.nodes ≠ [] → ∃ chosen chosen',
        select? limits infoHash now nodes = some (chosen.map KnownNode.address) ∧
        select? limits infoHash now others = some (chosen'.map KnownNode.address) ∧
        Closest limits infoHash now table chosen ∧ Closest limits infoHash now table chosen' ∧
        chosen.map (rank infoHash) = chosen'.map (rank infoHash) ∧
        ((∀ one ∈ table.nodes, ∀ other ∈ table.nodes, Eligible limits infoHash now one →
            Eligible limits infoHash now other → rank infoHash one = rank infoHash other →
            one.address = other.address) →
          chosen.map KnownNode.address = chosen'.map KnownNode.address)) := by
  have both : nodes.Perm others := order.trans order'.symm
  have walked : ∀ list : List KnownNode, list.Perm table.nodes → table.nodes ≠ [] → list ≠ [] := by
    rintro list same some_node rfl
    exact some_node same.nil_eq.symm
  constructor
  · constructor
    · intro failed
      by_contra some_node
      rw [select?_of_ne_nil limits infoHash now (walked nodes order some_node)] at failed
      cases failed
    · intro empty
      rw [empty] at order
      rw [order.eq_nil]
      rfl
  · intro some_node
    refine ⟨_, _, select?_of_ne_nil limits infoHash now (walked nodes order some_node),
      select?_of_ne_nil limits infoHash now (walked others order' some_node),
      closest_take_candidates order, closest_take_candidates order', ?_, ?_⟩
    · rw [List.map_take, List.map_take, map_rank_candidates both]
    · intro untied
      rw [candidates_eq_of_perm both]
      intro one first other second eligible eligible' same
      rw [order.mem_iff] at first second
      exact List.inj_on_of_nodup_map table.distinct first second
        (untied one first other second eligible eligible' same)

namespace Sample

/-- An identifier with one octet followed by zeros. -/
def marked (octet : UInt8) : Identifier := ⟨octet :: List.replicate 19 0, rfl⟩

def content : InfoHash := marked 9

def address (number : UInt8) : Address := .v4 ⟨10, 0, 2, number⟩ 6881

def bounds : SelectionLimits := { fanOut := 2, maxPending := 5, cooldown := 5 }

def nodeOf (octet : UInt8) : KnownNode := .new (some (marked octet)) (address octet) 0

/-- A node that was asked for the peers of the content and has not answered. -/
def silent : KnownNode :=
  { nodeOf 8 with pending := (∅ : QueryMap).insert 7 ⟨7, .getPeers, some content⟩ }

/-- The silent node is closer to the content than the others. -/
def crowd : NodeTable where
  nodes := [silent, nodeOf 10, nodeOf 13, nodeOf 1]
  distinct := by decide

end Sample

/-- Of the three nodes that may be asked the two closest are chosen, in either order. -/
theorem select?_closest_sample :
    ∃ chosen chosen',
      select? Sample.bounds Sample.content 0 Sample.crowd.nodes =
        some (chosen.map KnownNode.address) ∧
      select? Sample.bounds Sample.content 0 Sample.crowd.nodes.reverse =
        some (chosen'.map KnownNode.address) ∧
      Closest Sample.bounds Sample.content 0 Sample.crowd chosen ∧
      Closest Sample.bounds Sample.content 0 Sample.crowd chosen' ∧
      chosen.map KnownNode.address = [Sample.address 10, Sample.address 13] ∧
      chosen'.map KnownNode.address = [Sample.address 10, Sample.address 13] := by
  have anybody : Sample.crowd.nodes ≠ [] := List.cons_ne_nil _ _
  obtain ⟨-, closest⟩ := select?_closest (List.Perm.refl Sample.crowd.nodes)
    (List.reverse_perm Sample.crowd.nodes) Sample.bounds Sample.content 0
  obtain ⟨chosen, chosen', selected, selected', first, second, -, same⟩ := closest anybody
  have sorted : candidates Sample.bounds Sample.content 0 Sample.crowd.nodes =
      Sample.crowd.nodes.filter (isEligible Sample.bounds Sample.content 0) :=
    List.mergeSort_of_pairwise (by decide +kernel)
  have told : select? Sample.bounds Sample.content 0 Sample.crowd.nodes =
      some [Sample.address 10, Sample.address 13] := by
    rw [select?_of_ne_nil _ _ _ anybody, sorted]
    decide +kernel
  have here : chosen.map KnownNode.address = [Sample.address 10, Sample.address 13] :=
    Option.some.inj (selected.symm.trans told)
  have untied := same (by decide +kernel)
  exact ⟨chosen, chosen', selected, selected', first, second, here, untied.symm.trans here⟩

end Selection

end PeerDiscovery
