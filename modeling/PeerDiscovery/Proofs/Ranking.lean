import PeerDiscovery.Proofs.Identifier.Distance
import PeerDiscovery.Proofs.Selection

/-!
# The order of nodes around a target

The target has no distance to itself, but it has a rank, and that one falls into place: every known
identifier ranks as the exclusive or of its number with that of the target
(`Rank.exists_of_known`). So two nodes tie only if they have the same identifier or none, and a
stable sort by rank leaves just those in the order in which they came (`Selection.ranking`).
-/

namespace PeerDiscovery

/-! ## Ranks as numbers -/

namespace Rank

variable {target id other : Identifier}

theorem exists_of_known (target id : Identifier) :
    ∃ distance, of target (some id) = known distance ∧
      distance.toNat = target.bytes.toNat ^^^ id.bytes.toNat := by
  by_cases same : target.bytes = id.bytes
  · obtain rfl := Identifier.ext same
    refine ⟨.zero, ?_, ?_⟩
    · rw [of, Identifier.distance, Distance.between_self target.length_eq]
    · rw [Distance.toNat_zero, Nat.xor_self]
  · obtain ⟨distance, apart⟩ := Distance.exists_between target.length_eq id.length_eq same
    refine ⟨distance, ?_, Distance.toNat_eq_xor apart⟩
    rw [of, Identifier.distance, apart]

theorem compare_of_known (target id other : Identifier) :
    compare (of target (some id)) (of target (some other)) =
      compare (target.bytes.toNat ^^^ id.bytes.toNat)
        (target.bytes.toNat ^^^ other.bytes.toNat) := by
  obtain ⟨distance, here, number⟩ := exists_of_known target id
  obtain ⟨distance', there, number'⟩ := exists_of_known target other
  rw [here, there, compare_known, Distance.compare_eq_compare_toNat, number, number']

/-- A node without identifier comes before all others. -/
theorem compare_of_unknown (target id : Identifier) :
    compare (of target none) (of target (some id)) = .lt := by
  obtain ⟨distance, here, -⟩ := exists_of_known target id
  rw [here]
  rfl

/-- Only equal identifiers have equal ranks. -/
theorem of_inj {first second : Option Identifier} :
    of target first = of target second ↔ first = second := by
  refine ⟨fun same => ?_, congrArg (of target)⟩
  have tie : compare (of target first) (of target second) = .eq := by
    rw [same]
    exact Std.ReflCmp.compare_self
  cases first with
  | none =>
    cases second with
    | none => rfl
    | some other =>
      rw [compare_of_unknown] at tie
      cases tie
  | some id =>
    cases second with
    | none =>
      have least := compare_of_unknown target id
      rw [Std.OrientedCmp.eq_comm.mp tie] at least
      cases least
    | some other =>
      rw [compare_of_known, Nat.compare_eq_eq, Nat.xor_right_inj,
        Bytes.toNat_inj (id.length_eq.trans other.length_eq.symm)] at tie
      exact congrArg some (Identifier.ext tie)

/-- The target comes before every other known identifier. -/
theorem compare_of_target (other_than : id ≠ target) :
    compare (of target (some target)) (of target (some id)) = .lt := by
  have apart : target.bytes.toNat ^^^ id.bytes.toNat ≠ 0 := by
    rw [Ne, Nat.xor_eq_zero_iff, Bytes.toNat_inj (target.length_eq.trans id.length_eq.symm)]
    exact fun same => other_than (Identifier.ext same).symm
  rw [compare_of_known, Nat.xor_self, Nat.compare_eq_lt]
  exact Nat.pos_of_ne_zero apart

/-- The order in which identifiers, known or not, stand around a target: a linear order whose ties
are equal identifiers, with the unknown one first, then the target, and known ones by their
exclusive or with the target. -/
structure Around (target : InfoHash) : Prop where
  eq_iff : ∀ first second, of target first = of target second ↔ first = second
  tie_iff : ∀ first second,
    compare (of target first) (of target second) = .eq ↔ first = second
  unknown_first : ∀ id, compare (of target none) (of target (some id)) = .lt
  target_first : ∀ id, id ≠ target →
    compare (of target (some target)) (of target (some id)) = .lt
  known : ∀ id other, compare (of target (some id)) (of target (some other)) =
    compare (target.bytes.toNat ^^^ id.bytes.toNat) (target.bytes.toNat ^^^ other.bytes.toNat)
  swap : ∀ first second, compare (of target second) (of target first) =
    (compare (of target first) (of target second)).swap
  trans : ∀ first second third,
    (compare (of target first) (of target second)).isLE = true →
    (compare (of target second) (of target third)).isLE = true →
    (compare (of target first) (of target third)).isLE = true

theorem around (target : InfoHash) : Around target where
  eq_iff _ _ := of_inj
  tie_iff first second := by
    rw [Std.LawfulEqCmp.compare_eq_iff_eq, of_inj]
  unknown_first := compare_of_unknown target
  target_first _ := compare_of_target
  known := compare_of_known target
  swap _ _ := Std.OrientedCmp.eq_swap
  trans _ _ _ := isLE_trans

end Rank

/-! ## Sorting -/

namespace Selection

variable {target : InfoHash} {nodes : List KnownNode}

/-- Nodes of one rank are in order as they are. -/
theorem sortByRank_of_forall (rank_eq : ∀ one ∈ nodes, ∀ other ∈ nodes,
    rank target one = rank target other) : sortByRank target nodes = nodes := by
  refine List.mergeSort_of_pairwise (List.pairwise_of_forall_mem_list ?_)
  intro one first other second
  have tie : compare (rank target other) (rank target other) = .eq := Std.ReflCmp.compare_self
  rw [rank_eq one first other second, tie]
  rfl

/-- Nodes in ascending rank, those with the same identifier, or with none, in the order in which
they were before. -/
structure Sorted (target : InfoHash) (nodes sorted : List KnownNode) : Prop where
  perm : sorted.Perm nodes
  ascending : sorted.Pairwise
    fun a b => (compare (rank target a) (rank target b)).isLE = true
  stable : ∀ id : Option Identifier,
    sorted.filter (fun node => node.id = id) = nodes.filter fun node => node.id = id

theorem sorted_sortByRank (target : InfoHash) (nodes : List KnownNode) :
    Sorted target nodes (sortByRank target nodes) where
  perm := sortByRank_perm target nodes
  ascending := pairwise_sortByRank target nodes
  stable id := by
    rw [filter_sortByRank, sortByRank_of_forall]
    intro one first other second
    rw [List.mem_filter, decide_eq_true_eq] at first second
    rw [rank, rank, first.2, second.2]

/-- Around every target identifiers stand in a linear order without ties, and every list of nodes is
sorted by it. -/
theorem ranking (target : InfoHash) :
    Rank.Around target ∧ ∀ nodes, Sorted target nodes (sortByRank target nodes) :=
  ⟨Rank.around target, sorted_sortByRank target⟩

/-- Two nodes without identifier, one on either side of a node with one. -/
def Sample.strangers : List KnownNode :=
  [.new none (address 2) 0, nodeOf 8, .new none (address 1) 0]

/-- Around the content of the sample the content comes first, and of the strangers the one who came
first. -/
theorem ranking_sample :
    compare (Rank.of Sample.content (some Sample.content))
        (Rank.of Sample.content (some (Sample.marked 8))) = .lt ∧
      ((sortByRank Sample.content Sample.strangers).filter fun node => node.id = none).map
        KnownNode.address = [Sample.address 2, Sample.address 1] := by
  obtain ⟨around, sorted⟩ := ranking Sample.content
  refine ⟨around.target_first (Sample.marked 8) (by decide), ?_⟩
  rw [(sorted Sample.strangers).stable none]
  decide +kernel

end Selection

end PeerDiscovery
