import Mathlib.Data.List.Nodup
import PeerDiscovery.Proofs.KnownNode.Numbering

/-!
# Room for another query

A node can be asked as long as fewer of its queries are open than there are transaction numbers
(`ask?_eq_none_iff`): the search for a free number passes each number once, and finds none exactly
if all of them are taken. Whatever a node was asked, there are contents left that it was not asked
about (`exists_fresh_content`).
-/

namespace PeerDiscovery

/-! ## Numbers -/

/-- All numbers, in cyclic order. -/
def numbersFrom (first : UInt16) : List UInt16 :=
  (List.range KnownNode.transactionCount).map (numberAt first)

theorem nodup_numbersFrom (first : UInt16) : (numbersFrom first).Nodup :=
  nodup_map_numberAt first (Nat.le_refl _)

theorem length_numbersFrom (first : UInt16) :
    (numbersFrom first).length = KnownNode.transactionCount := by
  rw [numbersFrom, List.length_map, List.length_range]

theorem mem_numbersFrom (first number : UInt16) : number ∈ numbersFrom first := by
  refine List.mem_map.mpr ⟨(number - first).toNat, List.mem_range.mpr (UInt16.toNat_lt _), ?_⟩
  rw [numberAt, UInt16.ofNat_toNat, UInt16.add_comm, UInt16.sub_add_cancel]

namespace KnownNode

/-- No free number is found exactly if every number that is tried is taken. -/
theorem freeFrom?_eq_none_iff {taken : QueryMap} {tries : Nat} {start : UInt16} :
    freeFrom? taken tries start = none ↔ ∀ place < tries, numberAt start place ∈ taken := by
  induction tries generalizing start with
  | zero => simp [freeFrom?]
  | succ tries ih =>
    rw [freeFrom?]
    by_cases here : start ∈ taken
    · rw [if_pos (Std.ExtTreeMap.mem_iff_contains.mp here), ih]
      simp only [numberAt_add_one, Nat.forall_lt_succ_left, numberAt_zero, here, true_and]
    · rw [if_neg (mt Std.ExtTreeMap.mem_iff_contains.mpr here)]
      simp only [reduceCtorEq, false_iff]
      exact fun all => here (numberAt_zero start ▸ all 0 (Nat.succ_pos tries))

/-- In a whole turn no free number is found exactly if there is none. -/
theorem freeFrom?_transactionCount_eq_none_iff {taken : QueryMap} {start : UInt16} :
    freeFrom? taken transactionCount start = none ↔ ∀ number, number ∈ taken := by
  rw [freeFrom?_eq_none_iff]
  constructor
  · intro passed number
    obtain ⟨place, small, rfl⟩ := List.mem_map.mp (mem_numbersFrom start number)
    exact passed place (List.mem_range.mp small)
  · intro taken place _
    exact taken _

variable {node : KnownNode} {method : Method} {content : Option InfoHash}

theorem freeTransaction?_eq_none_iff :
    node.freeTransaction? = none ↔ ∀ number, number ∈ node.pending :=
  freeFrom?_transactionCount_eq_none_iff

theorem size_le (queries : QueryMap) : queries.size ≤ transactionCount := by
  rw [← Std.ExtTreeMap.length_keys, ← length_numbersFrom 0]
  exact Std.ExtTreeMap.nodup_keys.length_le_of_subset fun number _ => mem_numbersFrom 0 number

theorem transactionCount_le_size_iff {queries : QueryMap} :
    transactionCount ≤ queries.size ↔ ∀ number, number ∈ queries := by
  rw [← Std.ExtTreeMap.length_keys, ← length_numbersFrom 0]
  constructor
  · intro full number
    by_contra absent
    -- a number that is left would be a key too many
    have distinct : (number :: queries.keys).Nodup :=
      List.nodup_cons.mpr ⟨mt Std.ExtTreeMap.mem_keys.mp absent, Std.ExtTreeMap.nodup_keys⟩
    have bound := distinct.length_le_of_subset fun other _ => mem_numbersFrom 0 other
    rw [List.length_cons] at bound
    omega
  · intro taken
    exact (nodup_numbersFrom 0).length_le_of_subset fun number _ =>
      Std.ExtTreeMap.mem_keys.mpr (taken number)

theorem pendingCount_le (node : KnownNode) : node.pendingCount ≤ transactionCount :=
  size_le node.pending

/-- A node cannot be asked exactly if all its numbers belong to open queries. -/
theorem ask?_eq_none_iff :
    node.ask? method content = none ↔ node.pendingCount = transactionCount := by
  have bound := node.pendingCount_le
  have full : node.pendingCount = transactionCount ↔ transactionCount ≤ node.pending.size := by
    rw [← pendingCount]
    omega
  rw [full, transactionCount_le_size_iff, ← freeTransaction?_eq_none_iff, ask?]
  cases node.freeTransaction? <;> simp

/-- As long as a number is free, a node can be asked. -/
theorem exists_ask? (room : node.pendingCount < transactionCount) (method : Method)
    (content : Option InfoHash) :
    ∃ transaction next, node.ask? method content = some (transaction, next) := by
  cases asked : node.ask? method content with
  | none =>
    have full := ask?_eq_none_iff.mp asked
    omega
  | some result => exact ⟨result.1, result.2, rfl⟩

/-! ## Contents -/

/-- Contents, one for each number of 32 bits. -/
private def numberedContent (number : Nat) : InfoHash where
  bytes := Bytes.ofWord (.ofNat (number / UInt16.size)) ++ Bytes.ofWord (.ofNat number) ++
    List.replicate 16 0
  length_eq := rfl

private theorem numberedContent_inj {one other : Nat} (small : one < UInt32.size)
    (smallToo : other < UInt32.size) (same : numberedContent one = numberedContent other) :
    one = other := by
  have octets := congrArg Identifier.bytes same
  obtain ⟨words, -⟩ := List.append_inj octets rfl
  obtain ⟨high, low⟩ := List.append_inj words rfl
  have word {first second : UInt16} (equal : Bytes.ofWord first = Bytes.ofWord second) :
      first.toNat = second.toNat := by
    have read := Bytes.toWord?_ofWord first
    rw [equal, Bytes.toWord?_ofWord] at read
    rw [Option.some.inj read]
  have highs := word high
  have lows := word low
  simp only [UInt16.toNat_ofNat', UInt16.size] at highs lows
  rw [UInt32.size] at small smallToo
  omega

/-- The contents that the queries of a map are about. -/
private def contentsOf (queries : QueryMap) : List InfoHash :=
  queries.toList.filterMap fun entry => entry.2.infoHash

private theorem length_contentsOf_le (queries : QueryMap) :
    (contentsOf queries).length ≤ transactionCount := by
  refine Nat.le_trans (List.length_filterMap_le _ _) ?_
  rw [Std.ExtTreeMap.length_toList]
  exact size_le queries

private theorem asksPeersOf_of_not_mem {queries : QueryMap} {infoHash : InfoHash}
    (absent : infoHash ∉ contentsOf queries) :
    (queries.toList.any fun entry => entry.2.asksPeersOf infoHash) = false := by
  rw [List.any_eq_false]
  intro entry member asks
  simp only [Query.asksPeersOf, Bool.and_eq_true, decide_eq_true_eq] at asks
  exact absent (List.mem_filterMap.mpr ⟨entry, member, asks.2⟩)

/-- There is always a content that a node neither is being asked nor was asked about. -/
theorem exists_fresh_content (node : KnownNode) :
    ∃ infoHash, node.awaitsPeersOf infoHash = false ∧ node.askedPeersOf infoHash = false := by
  have pending := length_contentsOf_le node.pending
  have past := length_contentsOf_le node.past
  have turn : transactionCount = 65536 := rfl
  have distinct : ((List.range (2 ^ 17 + 1)).map numberedContent).Nodup := by
    refine List.Nodup.map_on ?_ List.nodup_range
    intro one small other smallToo same
    rw [List.mem_range] at small smallToo
    have wide : 2 ^ 17 + 1 < UInt32.size := by decide
    exact numberedContent_inj (by omega) (by omega) same
  -- there are more of these contents than the node can have queries about
  by_contra none
  have inside : (List.range (2 ^ 17 + 1)).map numberedContent ⊆
      contentsOf node.pending ++ contentsOf node.past := by
    intro infoHash _
    by_contra fresh
    rw [List.mem_append, not_or] at fresh
    exact none ⟨infoHash, asksPeersOf_of_not_mem fresh.1, asksPeersOf_of_not_mem fresh.2⟩
  have bound := distinct.length_le_of_subset inside
  rw [List.length_append, List.length_map, List.length_range] at bound
  omega

end KnownNode

end PeerDiscovery
