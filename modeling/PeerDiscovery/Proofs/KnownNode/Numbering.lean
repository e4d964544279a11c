import Mathlib.Data.List.Nodup
import PeerDiscovery.Proofs.KnownNode.Dealings

/-!
# Transaction numbers of a node

The first 65536 queries of a node take one number after another, however many of them are answered
in between, so no two of them share a number (`Dealings.transactions_eq`, `Dealings.query_unique`).
As long as that lasts, the past of a node forgets nothing (`Dealings.past_of_answered`), and no open
query has the number of an answered one (`Dealings.pending_of_answered`). Later a number is used
again, and the second query of a number takes the place of the first in the past.
-/

namespace PeerDiscovery

/-- The number `place` steps behind the first one, in cyclic order. -/
def numberAt (first : UInt16) (place : Nat) : UInt16 := first + UInt16.ofNat place

theorem numberAt_succ (first : UInt16) (place : Nat) :
    numberAt first place + 1 = numberAt first (place + 1) := by
  rw [numberAt, numberAt, UInt16.ofNat_add, UInt16.add_assoc]
  rfl

theorem numberAt_zero (first : UInt16) : numberAt first 0 = first := UInt16.add_zero first

theorem numberAt_add_one (first : UInt16) (place : Nat) :
    numberAt (first + 1) place = numberAt first (place + 1) := by
  rw [← numberAt_succ, numberAt, numberAt, UInt16.add_assoc, UInt16.add_comm 1, UInt16.add_assoc]

/-- Numbers repeat only after a whole turn. -/
theorem numberAt_inj {first : UInt16} {one other : Nat} (small : one < KnownNode.transactionCount)
    (smallToo : other < KnownNode.transactionCount)
    (same : numberAt first one = numberAt first other) :
    one = other := by
  have offsets := (UInt16.add_right_inj first).mp same
  have values := congrArg UInt16.toNat offsets
  rw [UInt16.toNat_ofNat', UInt16.toNat_ofNat'] at values
  have turn : KnownNode.transactionCount = 2 ^ 16 := rfl
  rwa [← turn, Nat.mod_eq_of_lt small, Nat.mod_eq_of_lt smallToo] at values

theorem nodup_map_numberAt {count : Nat} (first : UInt16)
    (few : count ≤ KnownNode.transactionCount) :
    ((List.range count).map (numberAt first)).Nodup := by
  refine List.Nodup.map_on ?_ List.nodup_range
  intro one small other smallToo same
  exact numberAt_inj (Nat.lt_of_lt_of_le (List.mem_range.mp small) few)
    (Nat.lt_of_lt_of_le (List.mem_range.mp smallToo) few) same

namespace Dealings

variable {first : UInt16} {address : Address} {node : KnownNode} {history : List Occurrence}

/-- Asking takes the next number if every number so far was the next one, and some are left. -/
private theorem transaction_of_ask? {next : KnownNode} {method : Method}
    {content : Option InfoHash} {transaction : UInt16}
    (dealings : Dealings first address node history)
    (asked : node.ask? method content = some (transaction, next))
    (few : (queriesAt address history).length < KnownNode.transactionCount)
    (ready : node.nextTransaction = numberAt first (queriesAt address history).length)
    (numbers : (queriesAt address history).map Query.transaction =
      (List.range (queriesAt address history).length).map (numberAt first)) :
    transaction = numberAt first (queriesAt address history).length := by
  rw [← ready]
  refine KnownNode.ask?_transaction_of_free asked ?_
  rw [ready]
  cases waiting : node.pending[numberAt first (queriesAt address history).length]? with
  | none => rfl
  | some query =>
    -- an open query of that number would be one of the queries so far
    have member : query.transaction ∈ (queriesAt address history).map Query.transaction :=
      List.mem_map_of_mem (dealings.mem_queriesAt_of_pending waiting)
    rw [numbers, dealings.transaction_eq waiting] at member
    obtain ⟨place, earlier, same⟩ := List.mem_map.mp member
    have small := List.mem_range.mp earlier
    have equal := numberAt_inj (Nat.lt_trans small few) few same
    omega

/-- The first queries of a node are numbered in cyclic order, and the next one comes next. -/
theorem transactions_eq (dealings : Dealings first address node history)
    (few : (queriesAt address history).length ≤ KnownNode.transactionCount) :
    node.nextTransaction = numberAt first (queriesAt address history).length ∧
      (queriesAt address history).map Query.transaction =
        (List.range (queriesAt address history).length).map (numberAt first) := by
  induction dealings with
  | new => exact ⟨(UInt16.add_zero first).symm, rfl⟩
  | @asked node next history transaction method content now dealings asked ih =>
    rw [queriesAt_append, queriesAt_asked, List.length_append, List.length_singleton] at few ⊢
    obtain ⟨ready, numbers⟩ := ih (Nat.le_of_succ_le few)
    have here := dealings.transaction_of_ask? asked few ready numbers
    rw [(KnownNode.ask?_eq_some_iff.mp asked).2, List.map_append, List.range_succ,
      List.map_append, numbers, List.map_singleton, List.map_singleton]
    subst here
    exact ⟨numberAt_succ first _, rfl⟩
  | identified _ _ ih => exact ih few
  | answered _ answered ih =>
    rw [queriesAt_append, queriesAt_answered, List.append_nil] at few ⊢
    rw [(KnownNode.answer?_eq_some_iff.mp answered).2]
    exact ih few

theorem transactions_nodup (dealings : Dealings first address node history)
    (few : (queriesAt address history).length ≤ KnownNode.transactionCount) :
    ((queriesAt address history).map Query.transaction).Nodup := by
  rw [(dealings.transactions_eq few).2]
  exact nodup_map_numberAt first few

/-- However many queries there were, the first ones have numbers of their own. -/
theorem take_transactions_nodup (dealings : Dealings first address node history) :
    (((queriesAt address history).take KnownNode.transactionCount).map
      Query.transaction).Nodup := by
  induction dealings with
  | new => exact List.nodup_nil
  | @asked node next history transaction method content now dealings asked ih =>
    rcases Nat.lt_or_ge (queriesAt address history).length KnownNode.transactionCount with
      few | many
    · have all := dealings.asked now asked
      have counted : (queriesAt address (history ++ [.asked now address
          ⟨transaction, method, content⟩])).length ≤ KnownNode.transactionCount := by
        rw [queriesAt_append, queriesAt_asked, List.length_append]
        exact few
      rw [List.take_of_length_le counted]
      exact all.transactions_nodup counted
    · -- the new query comes behind the first ones
      rw [queriesAt_append, List.take_append_of_le_length many]
      exact ih
  | identified _ _ ih => exact ih
  | answered _ _ ih =>
    rw [queriesAt_append, queriesAt_answered, List.append_nil]
    exact ih

/-- Among the first queries of a node, each has a number of its own. -/
theorem query_unique (dealings : Dealings first address node history)
    (few : (queriesAt address history).length ≤ KnownNode.transactionCount) {one other : Query}
    (asked : one ∈ queriesAt address history) (askedToo : other ∈ queriesAt address history)
    (same : one.transaction = other.transaction) : one = other :=
  List.inj_on_of_nodup_map (dealings.transactions_nodup few) asked askedToo same

/-- Until numbers are used again, every answered query stays in the past. -/
theorem past_of_answered (dealings : Dealings first address node history)
    (few : (queriesAt address history).length ≤ KnownNode.transactionCount) {query : Query}
    (answered : query ∈ answersAt address history) :
    node.past[query.transaction]? = some query := by
  obtain ⟨last, found⟩ := exists_lastAnswer? answered
  obtain ⟨answeredToo, same⟩ := mem_of_lastAnswer? found
  -- the number was used by one query only
  obtain rfl := dealings.query_unique few (dealings.mem_queriesAt_of_answered answeredToo)
    (dealings.mem_queriesAt_of_answered answered) same
  rw [dealings.past_eq, found]

/-- Until numbers are used again, nothing is open under the number of an answered query. -/
theorem pending_of_answered (dealings : Dealings first address node history)
    (few : (queriesAt address history).length ≤ KnownNode.transactionCount) {query : Query}
    (answered : query ∈ answersAt address history) :
    node.pending[query.transaction]? = none := by
  induction dealings with
  | new => cases answered
  | @asked node next history transaction method content now dealings asked ih =>
    have distinct := (dealings.asked now asked).transactions_nodup few
    rw [queriesAt_append, queriesAt_asked, List.map_append, List.nodup_append] at distinct
    rw [answersAt_append, answersAt_asked, List.append_nil] at answered
    rw [queriesAt_append, List.length_append] at few
    -- the new query has a number that no earlier query has
    have other : transaction ≠ query.transaction := fun same =>
      distinct.2.2 _ (List.mem_map_of_mem (dealings.mem_queriesAt_of_answered answered)) _
        List.mem_cons_self same.symm
    rw [KnownNode.getElem?_pending_of_ask? asked, if_neg other]
    exact ih (Nat.le_trans (Nat.le_add_right _ _) few) answered
  | identified _ _ ih => exact ih few answered
  | @answered node next history transaction now closed dealings closing ih =>
    rw [queriesAt_append, queriesAt_answered, List.append_nil] at few
    rw [answersAt_append, answersAt_answered] at answered
    rw [KnownNode.getElem?_pending_of_answer? closing]
    split
    · rfl
    · rename_i other
      rcases List.mem_append.mp answered with earlier | last
      · exact ih few earlier
      · obtain rfl := List.mem_singleton.mp last
        have waiting := (KnownNode.answer?_eq_some_iff.mp closing).1
        exact absurd (dealings.transaction_eq waiting).symm other

end Dealings

end PeerDiscovery
