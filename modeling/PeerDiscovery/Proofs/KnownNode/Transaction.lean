import PeerDiscovery.KnownNode

/-!
# Queries of one node

What opening and closing a query does to a node. A new query takes a number that no open query has
(`ask?_eq_some_iff`, `freeFrom?_not_mem`), and the first number tried where that one is free
(`freeFrom?_of_not_mem`). Only the two octets of the number of an open query close anything
(`resolve?_eq_some_iff`).
-/

namespace PeerDiscovery.KnownNode

/-! ## Free numbers -/

theorem freeFrom?_not_mem {taken : QueryMap} {tries : Nat} {start number : UInt16}
    (free : freeFrom? taken tries start = some number) : taken[number]? = none := by
  induction tries generalizing start with
  | zero => cases free
  | succ tries ih =>
    rw [freeFrom?] at free
    split at free
    · exact ih free
    · rename_i absent
      obtain rfl := Option.some.inj free
      rw [Std.ExtTreeMap.contains_eq_isSome_getElem?, Bool.not_eq_true,
        Option.isSome_eq_false_iff, Option.isNone_iff_eq_none] at absent
      exact absent

theorem freeFrom?_of_not_mem {taken : QueryMap} {tries : Nat} {start : UInt16}
    (absent : taken[start]? = none) : freeFrom? taken (tries + 1) start = some start := by
  have notContained : taken.contains start = false := by
    rw [Std.ExtTreeMap.contains_eq_isSome_getElem?, absent]
    rfl
  rw [freeFrom?, notContained]
  rfl

/-! ## Opening -/

theorem ask?_eq_some_iff {node next : KnownNode} {method : Method} {infoHash : Option InfoHash}
    {transaction : UInt16} :
    node.ask? method infoHash = some (transaction, next) ↔
      node.freeTransaction? = some transaction ∧
        next = { node with
          nextTransaction := transaction + 1
          pending := node.pending.insert transaction ⟨transaction, method, infoHash⟩ } := by
  unfold ask?
  cases node.freeTransaction? with
  | none => simp
  | some free =>
    simp only [Option.bind_eq_bind, Option.bind_some, Option.pure_def, Option.some.injEq,
      Prod.mk.injEq]
    constructor
    · intro given
      rcases given with ⟨rfl, rfl⟩
      exact ⟨rfl, rfl⟩
    · intro given
      rcases given with ⟨rfl, rfl⟩
      exact ⟨rfl, rfl⟩

/-- The number of a new query belongs to no open query. -/
theorem pending_of_ask? {node next : KnownNode} {method : Method} {infoHash : Option InfoHash}
    {transaction : UInt16} (asked : node.ask? method infoHash = some (transaction, next)) :
    node.pending[transaction]? = none :=
  freeFrom?_not_mem (ask?_eq_some_iff.mp asked).1

theorem getElem?_pending_of_ask? {node next : KnownNode} {method : Method}
    {infoHash : Option InfoHash} {transaction : UInt16}
    (asked : node.ask? method infoHash = some (transaction, next)) (number : UInt16) :
    next.pending[number]? =
      if transaction = number then some ⟨transaction, method, infoHash⟩
      else node.pending[number]? := by
  rw [(ask?_eq_some_iff.mp asked).2, Std.ExtTreeMap.getElem?_insert]
  simp only [Std.compare_eq_iff_eq]

/-- A query that is open after another was recorded is that one, or was open before. -/
theorem waiting_of_ask? {node next : KnownNode} {method : Method} {infoHash : Option InfoHash}
    {transaction number : UInt16} {query : Query}
    (asked : node.ask? method infoHash = some (transaction, next))
    (waiting : next.pending[number]? = some query) :
    transaction = number ∧ query = ⟨transaction, method, infoHash⟩ ∨
      transaction ≠ number ∧ node.pending[number]? = some query := by
  rw [getElem?_pending_of_ask? asked] at waiting
  split at waiting
  · rename_i same
    exact Or.inl ⟨same, (Option.some.inj waiting).symm⟩
  · rename_i other
    exact Or.inr ⟨other, waiting⟩

theorem address_of_ask? {node next : KnownNode} {method : Method} {infoHash : Option InfoHash}
    {transaction : UInt16} (asked : node.ask? method infoHash = some (transaction, next)) :
    next.address = node.address := by
  rw [(ask?_eq_some_iff.mp asked).2]

theorem past_of_ask? {node next : KnownNode} {method : Method} {infoHash : Option InfoHash}
    {transaction : UInt16} (asked : node.ask? method infoHash = some (transaction, next)) :
    next.past = node.past := by
  rw [(ask?_eq_some_iff.mp asked).2]

/-- A query is opened under a number of its own, so it comes on top of the others. -/
theorem pendingCount_of_ask? {node next : KnownNode} {method : Method}
    {infoHash : Option InfoHash} {transaction : UInt16}
    (asked : node.ask? method infoHash = some (transaction, next)) :
    next.pendingCount = node.pendingCount + 1 := by
  have free : node.pending.contains transaction = false := by
    rw [Std.ExtTreeMap.contains_eq_isSome_getElem?, pending_of_ask? asked]
    rfl
  rw [(ask?_eq_some_iff.mp asked).2, pendingCount, Std.ExtTreeMap.size_insert, free]
  rfl

/-- The number to try first is taken where no open query has it. -/
theorem ask?_transaction_of_free {node next : KnownNode} {method : Method}
    {infoHash : Option InfoHash} {transaction : UInt16}
    (asked : node.ask? method infoHash = some (transaction, next))
    (free : node.pending[node.nextTransaction]? = none) :
    transaction = node.nextTransaction := by
  have first := (ask?_eq_some_iff.mp asked).1
  rw [freeTransaction?, transactionCount, show UInt16.size = 65535 + 1 from rfl,
    freeFrom?_of_not_mem free] at first
  exact (Option.some.inj first).symm

/-! ## Closing -/

theorem answer?_eq_some_iff {node next : KnownNode} {transaction : UInt16} {now : Moment}
    {query : Query} :
    node.answer? transaction now = some (query, next) ↔
      node.pending[transaction]? = some query ∧
        next = { node with
          reachable := true
          lastContact := some now
          pending := node.pending.erase transaction
          past := node.past.insert transaction query } := by
  unfold answer?
  cases node.pending[transaction]? with
  | none => simp
  | some found =>
    simp only [Option.map_some, Option.some.injEq, Prod.mk.injEq]
    constructor
    · intro given
      rcases given with ⟨rfl, rfl⟩
      exact ⟨rfl, rfl⟩
    · intro given
      rcases given with ⟨rfl, rfl⟩
      exact ⟨rfl, rfl⟩

theorem getElem?_pending_of_answer? {node next : KnownNode} {transaction : UInt16} {now : Moment}
    {query : Query} (answered : node.answer? transaction now = some (query, next))
    (number : UInt16) :
    next.pending[number]? = if transaction = number then none else node.pending[number]? := by
  rw [(answer?_eq_some_iff.mp answered).2, Std.ExtTreeMap.getElem?_erase]
  simp only [Std.compare_eq_iff_eq]

theorem waiting_of_answer? {node next : KnownNode} {transaction number : UInt16} {now : Moment}
    {closed query : Query} (answered : node.answer? transaction now = some (closed, next))
    (waiting : next.pending[number]? = some query) :
    transaction ≠ number ∧ node.pending[number]? = some query := by
  rw [getElem?_pending_of_answer? answered] at waiting
  split at waiting
  · cases waiting
  · rename_i other
    exact ⟨other, waiting⟩

theorem getElem?_past_of_answer? {node next : KnownNode} {transaction : UInt16} {now : Moment}
    {query : Query} (answered : node.answer? transaction now = some (query, next))
    (number : UInt16) :
    next.past[number]? = if transaction = number then some query else node.past[number]? := by
  rw [(answer?_eq_some_iff.mp answered).2, Std.ExtTreeMap.getElem?_insert]
  simp only [Std.compare_eq_iff_eq]

theorem pendingCount_of_answer? {node next : KnownNode} {transaction : UInt16} {now : Moment}
    {query : Query} (answered : node.answer? transaction now = some (query, next)) :
    next.pendingCount + 1 = node.pendingCount := by
  obtain ⟨waiting, rfl⟩ := answer?_eq_some_iff.mp answered
  have here : node.pending.contains transaction = true := by
    rw [Std.ExtTreeMap.contains_eq_isSome_getElem?, waiting]
    rfl
  have nonempty : node.pending.size ≠ 0 := by
    refine mt Std.ExtTreeMap.eq_empty_iff_size_eq_zero.mpr ?_
    intro nothing
    rw [nothing, Std.ExtTreeMap.getElem?_empty] at waiting
    cases waiting
  rw [pendingCount, pendingCount, Std.ExtTreeMap.size_erase, if_pos here]
  omega

/-- A transaction identifier closes a query exactly if it consists of the two octets of the number
of an open one. -/
theorem resolve?_eq_some_iff {node : KnownNode} {transaction : Bytes} {now : Moment}
    {closed : Query × KnownNode} :
    node.resolve? transaction now = some closed ↔
      ∃ number, transaction = Bytes.ofWord number ∧ node.answer? number now = some closed := by
  unfold resolve?
  rw [Option.bind_eq_some_iff]
  constructor
  · intro given
    rcases given with ⟨number, read, answered⟩
    exact ⟨number, Bytes.toWord?_eq_some_iff.mp read, answered⟩
  · intro given
    rcases given with ⟨number, rfl, answered⟩
    exact ⟨number, Bytes.toWord?_ofWord number, answered⟩

/-! ## Views -/

theorem awaitsPeersOf_iff {node : KnownNode} {infoHash : InfoHash} :
    node.awaitsPeersOf infoHash = true ↔
      ∃ (transaction : UInt16) (query : Query), node.pending[transaction]? = some query ∧
        query.asksPeersOf infoHash = true := by
  simp only [awaitsPeersOf, List.any_eq_true, Prod.exists,
    Std.ExtTreeMap.mem_toList_iff_getElem?_eq_some]

theorem askedPeersOf_iff {node : KnownNode} {infoHash : InfoHash} :
    node.askedPeersOf infoHash = true ↔
      ∃ (transaction : UInt16) (query : Query), node.past[transaction]? = some query ∧
        query.asksPeersOf infoHash = true := by
  simp only [askedPeersOf, List.any_eq_true, Prod.exists,
    Std.ExtTreeMap.mem_toList_iff_getElem?_eq_some]

end PeerDiscovery.KnownNode
