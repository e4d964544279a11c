import PeerDiscovery.Proofs.KnownNode.Remembrance
import PeerDiscovery.Proofs.KnownNode.Vacancy

/-!
# How a query comes by its number

Recording a query tries one number after another until one is free. `Tries` is that search without
any bound on it, so that it can fail to end; it ends exactly if a number is free, and then within
one try more than queries are open (`Tries.count_le`, `exists_tries_iff`). `KnownNode.minting` puts
together what recording a query does to a node, and that no number is used twice among the first
65536 of a node.
-/

namespace PeerDiscovery

namespace KnownNode

/-! ## The search for a number -/

/-- Numbers are tried in cyclic order from `start` on. The first free one is `found`, and it is the
last of `count` tries. -/
inductive Tries (taken : QueryMap) : (start : UInt16) → (count : Nat) → (found : UInt16) → Prop
  | free {start : UInt16} : start ∉ taken → Tries taken start 1 start
  | next {start found : UInt16} {count : Nat} :
    start ∈ taken → Tries taken (start + 1) count found → Tries taken start (count + 1) found

section Tries

variable {taken : QueryMap} {start found : UInt16} {count : Nat}

/-- The search passes taken numbers only and stops at the first free one. -/
theorem Tries.exists_place (tries : Tries taken start count found) :
    ∃ place, count = place + 1 ∧ found = numberAt start place ∧ found ∉ taken ∧
      ∀ earlier < place, numberAt start earlier ∈ taken := by
  induction tries with
  | @free start free =>
    refine ⟨0, rfl, (UInt16.add_zero start).symm, free, fun earlier small => ?_⟩
    exact absurd small (Nat.not_lt_zero earlier)
  | @next start found count here _ ih =>
    obtain ⟨place, rfl, rfl, free, passed⟩ := ih
    rw [numberAt_add_one] at free ⊢
    refine ⟨place + 1, rfl, rfl, free, fun earlier small => ?_⟩
    cases earlier with
    | zero =>
      rw [numberAt_zero]
      exact here
    | succ earlier =>
      rw [← numberAt_add_one]
      exact passed earlier (Nat.lt_of_succ_lt_succ small)

/-- No number is tried twice, and each try but the last meets the number of an open query. -/
theorem Tries.count_le (tries : Tries taken start count found) : count ≤ taken.size + 1 := by
  obtain ⟨place, rfl, rfl, free, passed⟩ := tries.exists_place
  -- a whole turn would have met the number that is found in the end
  have short : place < transactionCount := by
    by_contra whole
    obtain ⟨earlier, turn, same⟩ := List.mem_map.mp (mem_numbersFrom start (numberAt start place))
    refine free (same ▸ passed earlier ?_)
    have small := List.mem_range.mp turn
    omega
  have inside : (List.range place).map (numberAt start) ⊆ taken.keys := by
    intro number member
    obtain ⟨earlier, small, rfl⟩ := List.mem_map.mp member
    exact Std.ExtTreeMap.mem_keys.mpr (passed earlier (List.mem_range.mp small))
  have bound := (nodup_map_numberAt start (Nat.le_of_lt short)).length_le_of_subset inside
  rw [List.length_map, List.length_range, Std.ExtTreeMap.length_keys] at bound
  omega

/-- A bounded search that finds a number is the beginning of the unbounded one. -/
theorem exists_tries_of_freeFrom? {bound : Nat} (free : freeFrom? taken bound start = some found) :
    ∃ count, Tries taken start count found := by
  induction bound generalizing start with
  | zero => cases free
  | succ bound ih =>
    rw [freeFrom?] at free
    split at free
    · rename_i here
      obtain ⟨count, tries⟩ := ih free
      exact ⟨count + 1, .next (Std.ExtTreeMap.mem_iff_contains.mpr here) tries⟩
    · rename_i absent
      obtain rfl := Option.some.inj free
      exact ⟨1, .free (mt Std.ExtTreeMap.mem_iff_contains.mp absent)⟩

/-- The unbounded search and one with a bound that it keeps find the same number. -/
theorem Tries.freeFrom?_eq (tries : Tries taken start count found) {bound : Nat}
    (few : count ≤ bound) : freeFrom? taken bound start = some found := by
  induction tries generalizing bound with
  | @free start free =>
    obtain ⟨rest, rfl⟩ := Nat.exists_eq_add_of_le' few
    exact freeFrom?_of_not_mem (Std.ExtTreeMap.getElem?_eq_none free)
  | @next start found count here _ ih =>
    obtain ⟨rest, rfl⟩ := Nat.exists_eq_add_of_le' (Nat.le_trans (Nat.le_add_left 1 count) few)
    rw [freeFrom?, if_pos (Std.ExtTreeMap.mem_iff_contains.mp here)]
    exact ih (Nat.le_of_succ_le_succ few)

/-- The search ends exactly if some number is free. -/
theorem exists_tries_iff :
    (∃ count found, Tries taken start count found) ↔ taken.size < transactionCount := by
  constructor
  · intro given
    obtain ⟨count, found, tries⟩ := given
    obtain ⟨place, -, -, free, -⟩ := tries.exists_place
    by_contra full
    exact free (transactionCount_le_size_iff.mp (Nat.le_of_not_lt full) found)
  · intro room
    cases free : freeFrom? taken transactionCount start with
    | none =>
      have all := freeFrom?_transactionCount_eq_none_iff.mp free
      exact absurd (transactionCount_le_size_iff.mpr all) (Nat.not_le_of_lt room)
    | some found =>
      obtain ⟨count, tries⟩ := exists_tries_of_freeFrom? free
      exact ⟨count, found, tries⟩

end Tries

/-! ## Recording a query -/

/-- A node after a query was recorded at it, and nothing else happened. -/
structure Records (node : KnownNode) (query : Query) (next : KnownNode) : Prop where
  nextTransaction : next.nextTransaction = query.transaction + 1
  pending : ∀ number, next.pending[number]? =
    if number = query.transaction then some query else node.pending[number]?
  past : next.past = node.past
  id : next.id = node.id
  address : next.address = node.address
  reachable : next.reachable = node.reachable
  lastContact : next.lastContact = node.lastContact

theorem records_of_ask? {node next : KnownNode} {method : Method} {content : Option InfoHash}
    {transaction : UInt16} (asked : node.ask? method content = some (transaction, next)) :
    Records node ⟨transaction, method, content⟩ next := by
  have pending := getElem?_pending_of_ask? asked
  obtain ⟨-, rfl⟩ := ask?_eq_some_iff.mp asked
  refine ⟨rfl, fun number => ?_, rfl, rfl, rfl, rfl, rfl⟩
  rw [pending]
  simp only [eq_comm]

/-- What recording a query comes to: the search for its number ends exactly if fewer than 65536
queries are open. Then the query gets the first free number, `place` steps behind the number to try
first, and is recorded under it. -/
structure Mints (node : KnownNode) (method : Method) (content : Option InfoHash) : Prop where
  ends_iff : (∃ count number, Tries node.pending node.nextTransaction count number) ↔
    node.pendingCount < 65536
  ask?_eq_none_iff : node.ask? method content = none ↔
    ¬ ∃ count number, Tries node.pending node.nextTransaction count number
  asks : ∀ {count number}, Tries node.pending node.nextTransaction count number →
    count ≤ node.pendingCount + 1 ∧
      (∃ place, count = place + 1 ∧ number = numberAt node.nextTransaction place ∧
        number ∉ node.pending ∧
        ∀ earlier < place, numberAt node.nextTransaction earlier ∈ node.pending) ∧
      ∃ next, node.ask? method content = some (number, next) ∧
        Records node ⟨number, method, content⟩ next

theorem mints_of_node (node : KnownNode) (method : Method) (content : Option InfoHash) :
    Mints node method content where
  ends_iff := exists_tries_iff
  ask?_eq_none_iff := by
    have bound := node.pendingCount_le
    rw [exists_tries_iff, ← pendingCount, KnownNode.ask?_eq_none_iff]
    omega
  asks := by
    intro count number tries
    have few := tries.count_le
    obtain ⟨place, rfl, here, free, passed⟩ := tries.exists_place
    have room := exists_tries_iff.mp ⟨_, _, tries⟩
    have found : node.freeTransaction? = some number :=
      tries.freeFrom?_eq (Nat.le_trans few room)
    obtain ⟨next, asked⟩ : ∃ next, node.ask? method content = some (number, next) :=
      ⟨_, ask?_eq_some_iff.mpr ⟨found, rfl⟩⟩
    exact ⟨few, ⟨place, rfl, here, free, passed⟩, next, asked, records_of_ask? asked⟩

/-- What holds of every node, whatever is open at it and whichever number it tries first, and of
every series of calls on the record of a node. -/
theorem minting :
    (∀ (node : KnownNode) (method : Method) (content : Option InfoHash),
      Mints node method content) ∧
      ∀ (id : Option Identifier) (address : Address) (first : UInt16)
        (calls : List (Moment × Call)) (history : List Occurrence) (node : KnownNode),
        (KnownNode.new id address first).calls? calls = some (history, node) →
          (((queriesAt address history).take 65536).map Query.transaction).Nodup := by
  refine ⟨mints_of_node, ?_⟩
  intro id address first calls history node called
  exact ((Dealings.new id).calls called).take_transactions_nodup

/-- A node whose next numbers, around the end of all numbers, belong to open queries. -/
def Minting.crowded : KnownNode :=
  { KnownNode.new none Remembrance.endpoint 65535 with
    pending := ((∅ : QueryMap).insert 65535 ⟨65535, .ping, none⟩).insert 0 ⟨0, .ping, none⟩ }

open Remembrance Minting in
/-- The crowded node is asked under the third number that is tried, and the queries of the sample
calls have numbers of their own. -/
theorem minting_sample :
    (∃ next, crowded.ask? .getPeers (some content) = some (1, next) ∧
        Records crowded ⟨1, .getPeers, some content⟩ next ∧ 3 ≤ crowded.pendingCount + 1) ∧
      ∃ history node, (KnownNode.new none endpoint 65535).calls? sampleCalls = some (history, node) ∧
        (((queriesAt endpoint history).take 65536).map Query.transaction).Nodup := by
  obtain ⟨mints, distinct⟩ := minting
  constructor
  · have tries : Tries crowded.pending crowded.nextTransaction 3 1 :=
      .next (by decide) (.next (by decide) (.free (by decide)))
    obtain ⟨few, -, next, asked, recorded⟩ := (mints crowded .getPeers (some content)).asks tries
    exact ⟨next, asked, recorded, few⟩
  · have some_result : ((KnownNode.new none endpoint 65535).calls? sampleCalls).isSome = true := by
      decide +kernel
    obtain ⟨⟨history, node⟩, called⟩ := Option.isSome_iff_exists.mp some_result
    exact ⟨history, node, called, distinct none endpoint 65535 sampleCalls history node called⟩

end KnownNode

end PeerDiscovery
