import PeerDiscovery.Proofs.KnownNode.Occurrence
import PeerDiscovery.Proofs.KnownNode.Transaction

/-!
# Dealings with a node

`Dealings` says everything that can ever be done to the record of one node, whoever does it and in
whatever order: queries of any kind are recorded at it, it gets its identifier, and open queries are
resolved. What holds of a record and its history without any restraint on what is asked is proved
here by induction on the dealings:

* `Dealings.outstanding_eq`: the open queries are the outstanding ones of the history;
* `Dealings.asked_of_pending`: an open query was recorded, and nothing happened to its number since;
* `Dealings.past_eq`: the past holds, under each number, the last query of that number that was
  resolved.
* `Dealings.reachable_iff`, `Dealings.lastContact_iff`: whether a node ever answered shows in three
  places of its record, which agree.
-/

namespace PeerDiscovery

/-- All dealings with the node of an address: the node as it is, and the history of its queries. -/
inductive Dealings (first : UInt16) (address : Address) : KnownNode → List Occurrence → Prop
  /-- Nothing was asked yet. -/
  | new (id : Option Identifier) : Dealings first address (.new id address first) []
  /-- A query is recorded. -/
  | asked {node next : KnownNode} {history : List Occurrence} {transaction : UInt16}
    {method : Method} {content : Option InfoHash} (now : Moment) :
    Dealings first address node history →
    node.ask? method content = some (transaction, next) →
    Dealings first address next
      (history ++ [.asked now address ⟨transaction, method, content⟩])
  /-- The node tells its identifier. -/
  | identified {node : KnownNode} {history : List Occurrence} (id : Identifier) :
    Dealings first address node history → Dealings first address (node.identified id) history
  /-- An open query is resolved. -/
  | answered {node next : KnownNode} {history : List Occurrence} {transaction : UInt16}
    {now : Moment} {query : Query} :
    Dealings first address node history →
    node.answer? transaction now = some (query, next) →
    Dealings first address next (history ++ [.answered now address query])

namespace Dealings

variable {first : UInt16} {address : Address} {node : KnownNode} {history : List Occurrence}

theorem address_eq (dealings : Dealings first address node history) : node.address = address := by
  induction dealings with
  | new => rfl
  | asked _ _ asked ih => exact (KnownNode.address_of_ask? asked).trans ih
  | identified _ _ ih => exact ih
  | answered _ answered ih =>
    rw [(KnownNode.answer?_eq_some_iff.mp answered).2]
    exact ih

/-! ## Open queries -/

/-- An open query lies under its own number. -/
theorem transaction_eq (dealings : Dealings first address node history) {transaction : UInt16}
    {query : Query} (waiting : node.pending[transaction]? = some query) :
    query.transaction = transaction := by
  induction dealings with
  | new => simp [KnownNode.new] at waiting
  | asked _ _ asked ih =>
    rcases KnownNode.waiting_of_ask? asked waiting with ⟨same, rfl⟩ | ⟨-, earlier⟩
    · exact same
    · exact ih earlier
  | identified _ _ ih => exact ih waiting
  | answered _ answered ih => exact ih (KnownNode.waiting_of_answer? answered waiting).2

/-- What is open at a node is what its history leaves outstanding, number by number. -/
theorem outstanding_eq (dealings : Dealings first address node history) (transaction : UInt16) :
    outstanding history address transaction = node.pending[transaction]?.toList := by
  induction dealings with
  | new => simp [KnownNode.new]
  | @asked node next history number method content now dealings asked ih =>
    rw [outstanding_append_asked, KnownNode.getElem?_pending_of_ask? asked, ih]
    by_cases own : number = transaction
    · subst own
      rw [if_pos rfl, if_pos rfl, KnownNode.pending_of_ask? asked]
      rfl
    · rw [if_neg own, if_neg own]
  | identified _ _ ih => exact ih
  | answered dealings answered ih =>
    have own := dealings.transaction_eq (KnownNode.answer?_eq_some_iff.mp answered).1
    rw [outstanding_append_answered, KnownNode.getElem?_pending_of_answer? answered, ih, own]
    split <;> rfl

/-- A recorded query stays open as long as nothing more happens to its transaction. -/
theorem pending_of_quiet {before later : List Occurrence} {now : Moment} {query : Query}
    (dealings : Dealings first address node (before ++ .asked now address query :: later))
    (quiet : Quiet address query.transaction later) :
    node.pending[query.transaction]? = some query := by
  have left := dealings.outstanding_eq query.transaction
  rw [List.append_cons, outstanding_append_of_quiet quiet, outstanding_append_singleton,
    Occurrence.advance.eq_def, if_pos ⟨rfl, rfl⟩] at left
  have member : query ∈ node.pending[query.transaction]?.toList := by
    rw [← left]
    exact List.mem_append_right _ List.mem_cons_self
  exact Option.mem_toList.mp member

/-- An open query was recorded, and nothing happened to its transaction since. -/
theorem asked_of_pending (dealings : Dealings first address node history) {transaction : UInt16}
    {query : Query} (waiting : node.pending[transaction]? = some query) :
    ∃ before now later, history = before ++ .asked now address query :: later ∧
      Quiet address transaction later := by
  induction dealings with
  | new => simp [KnownNode.new] at waiting
  | @asked _ _ history _ _ _ now _ asked ih =>
    rcases KnownNode.waiting_of_ask? asked waiting with ⟨-, rfl⟩ | ⟨other, earlier⟩
    · exact ⟨history, now, [], rfl, by simp [Quiet]⟩
    · obtain ⟨before, time, later, rfl, quiet⟩ := ih earlier
      refine ⟨before, time, later ++ [_], by rw [List.append_assoc, List.cons_append],
        quiet.append_singleton fun concerns => ?_⟩
      exact other concerns.2
  | identified _ _ ih => exact ih waiting
  | answered dealings answered ih =>
    have own := dealings.transaction_eq (KnownNode.answer?_eq_some_iff.mp answered).1
    obtain ⟨other, earlier⟩ := KnownNode.waiting_of_answer? answered waiting
    obtain ⟨before, time, later, rfl, quiet⟩ := ih earlier
    refine ⟨before, time, later ++ [_], by rw [List.append_assoc, List.cons_append],
      quiet.append_singleton fun concerns => ?_⟩
    exact other (own.symm.trans concerns.2)

theorem mem_queriesAt_of_pending (dealings : Dealings first address node history)
    {transaction : UInt16} {query : Query}
    (waiting : node.pending[transaction]? = some query) : query ∈ queriesAt address history := by
  obtain ⟨before, now, later, rfl, -⟩ := dealings.asked_of_pending waiting
  exact mem_queriesAt.mpr ⟨now, by simp⟩

/-! ## Resolved queries -/

/-- The past holds the last query of each number that was resolved. -/
theorem past_eq (dealings : Dealings first address node history) (transaction : UInt16) :
    node.past[transaction]? = lastAnswer? address history transaction := by
  induction dealings with
  | new => exact Std.ExtTreeMap.getElem?_empty
  | asked now _ asked ih =>
    rw [KnownNode.past_of_ask? asked, lastAnswer?_append_asked]
    exact ih
  | identified _ _ ih => exact ih
  | answered dealings answered ih =>
    have own := dealings.transaction_eq (KnownNode.answer?_eq_some_iff.mp answered).1
    rw [lastAnswer?_append_answered, KnownNode.getElem?_past_of_answer? answered, ih, own]

theorem answered_of_past (dealings : Dealings first address node history) {transaction : UInt16}
    {query : Query} (closed : node.past[transaction]? = some query) :
    query ∈ answersAt address history := by
  rw [dealings.past_eq] at closed
  exact (mem_of_lastAnswer? closed).1

/-- Only a query that was recorded is ever resolved. -/
theorem mem_queriesAt_of_answered (dealings : Dealings first address node history) {query : Query}
    (answered : query ∈ answersAt address history) : query ∈ queriesAt address history := by
  induction dealings with
  | new => cases answered
  | asked now _ _ ih =>
    rw [answersAt_append, answersAt_asked, List.append_nil] at answered
    rw [queriesAt_append]
    exact List.mem_append_left _ (ih answered)
  | identified _ _ ih => exact ih answered
  | answered dealings closed ih =>
    rw [answersAt_append, answersAt_answered] at answered
    rw [queriesAt_append, queriesAt_answered, List.append_nil]
    rcases List.mem_append.mp answered with earlier | last
    · exact ih earlier
    · obtain rfl := List.mem_singleton.mp last
      exact dealings.mem_queriesAt_of_pending (KnownNode.answer?_eq_some_iff.mp closed).1

/-! ## Contact -/

/-- A node counts as reachable exactly if it was ever heard of. -/
theorem reachable_iff (dealings : Dealings first address node history) :
    node.reachable = true ↔ node.lastContact.isSome = true := by
  induction dealings with
  | new => simp [KnownNode.new]
  | asked _ _ asked ih =>
    rw [(KnownNode.ask?_eq_some_iff.mp asked).2]
    exact ih
  | identified _ _ ih => exact ih
  | answered _ answered =>
    rw [(KnownNode.answer?_eq_some_iff.mp answered).2]
    exact iff_of_true rfl rfl

/-- A node was heard of exactly if some query of it lies in the past. -/
theorem lastContact_iff (dealings : Dealings first address node history) :
    node.lastContact.isSome = true ↔ node.past ≠ ∅ := by
  induction dealings with
  | new => simp [KnownNode.new]
  | asked _ _ asked ih =>
    rw [(KnownNode.ask?_eq_some_iff.mp asked).2]
    exact ih
  | identified _ _ ih => exact ih
  | answered _ answered =>
    rw [(KnownNode.answer?_eq_some_iff.mp answered).2]
    exact iff_of_true rfl Std.ExtTreeMap.insert_ne_empty

/-- A node was last heard of when a query of it was answered. -/
theorem answered_of_lastContact (dealings : Dealings first address node history) {time : Moment}
    (contact : node.lastContact = some time) :
    ∃ query, .answered time address query ∈ history := by
  induction dealings with
  | new => cases contact
  | asked _ _ asked ih =>
    rw [(KnownNode.ask?_eq_some_iff.mp asked).2] at contact
    obtain ⟨query, member⟩ := ih contact
    exact ⟨query, List.mem_append_left _ member⟩
  | identified _ _ ih => exact ih contact
  | @answered _ _ _ _ _ query _ answered =>
    rw [(KnownNode.answer?_eq_some_iff.mp answered).2] at contact
    obtain rfl := Option.some.inj contact
    exact ⟨query, List.mem_append_right _ List.mem_cons_self⟩

/-- A node was last heard of no earlier than any of its answers. -/
theorem lastContact_of_answered (dealings : Dealings first address node history)
    (order : history.Pairwise fun earlier later => earlier.now ≤ later.now) {time : Moment}
    {query : Query} (member : .answered time address query ∈ history) :
    ∃ last, node.lastContact = some last ∧ time ≤ last := by
  induction dealings with
  | new => cases member
  | asked now _ asked ih =>
    rw [(KnownNode.ask?_eq_some_iff.mp asked).2]
    have earlier := (List.mem_append.mp member).resolve_right (by simp)
    exact ih (List.pairwise_append.mp order).1 earlier
  | identified _ _ ih => exact ih order member
  | @answered node next history transaction now closed dealings answered ih =>
    rw [(KnownNode.answer?_eq_some_iff.mp answered).2]
    refine ⟨now, rfl, ?_⟩
    rcases List.mem_append.mp member with earlier | last
    · exact (List.pairwise_append.mp order).2.2 _ earlier _ List.mem_cons_self
    · obtain ⟨rfl, -⟩ : time = now ∧ query = closed := by simpa using last
      exact Nat.le_refl _

end Dealings

end PeerDiscovery
