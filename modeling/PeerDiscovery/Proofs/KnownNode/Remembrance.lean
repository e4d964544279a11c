import PeerDiscovery.Proofs.KnownNode.Numbering

/-!
# What the past of a node remembers

The past of a node keeps resolved queries under their numbers, and numbers repeat. So the past knows
that a content was asked about exactly if, among the last queries of all numbers that were resolved,
one asked for its peers (`KnownNode.remembers`). While no more than 65536 queries are recorded this
is as good as keeping every resolved query. After that a resolution can make the past forget a
content that has nothing to do with it (`KnownNode.forgets_content`): the selection of nodes, which
holds a node back only for what its past knows, would ask about the content again.
-/

namespace PeerDiscovery

/-! ## Calls -/

/-- A call on the record of a node. -/
inductive KnownNode.Call where
  /-- A query is to be recorded. -/
  | record (method : Method) (infoHash : Option InfoHash)
  /-- The query that a transaction identifier names is to be resolved. -/
  | resolve (transaction : Bytes)
deriving DecidableEq

namespace KnownNode

/-- A call at some moment, with what happens to a query. An identifier that names no open query
leaves the node as it is. -/
def call? (now : Moment) (call : Call) (node : KnownNode) : Option (List Occurrence × KnownNode) :=
  match call with
  | .record method infoHash =>
    (node.ask? method infoHash).map fun asked =>
      ([.asked now node.address ⟨asked.1, method, infoHash⟩], asked.2)
  | .resolve transaction =>
    match node.resolve? transaction now with
    | some (query, next) => some ([.answered now node.address query], next)
    | none => some ([], node)

/-- Calls one after another, each at its moment, with everything that happens to queries. -/
def calls? : List (Moment × Call) → KnownNode → Option (List Occurrence × KnownNode)
  | [], node => some ([], node)
  | (now, call) :: rest, node => do
    let (first, node) ← node.call? now call
    let (others, node) ← calls? rest node
    return (first ++ others, node)

variable {node next : KnownNode} {now : Moment} {call : Call} {told : List Occurrence}

theorem calls?_cons_eq_some_iff {rest : List (Moment × Call)} :
    node.calls? ((now, call) :: rest) = some (told, next) ↔
      ∃ first middle others, node.call? now call = some (first, middle) ∧
        middle.calls? rest = some (others, next) ∧ told = first ++ others := by
  rw [calls?]
  simp only [Option.bind_eq_bind, Option.bind_eq_some_iff, Option.pure_def, Option.some.injEq,
    Prod.exists, Prod.mk.injEq]
  constructor
  · intro given
    rcases given with ⟨first, middle, one, others, last, remaining, rfl, rfl⟩
    exact ⟨first, middle, others, one, remaining, rfl⟩
  · intro given
    rcases given with ⟨first, middle, others, one, remaining, rfl⟩
    exact ⟨first, middle, one, others, next, remaining, rfl, rfl⟩

theorem calls?_append {first second : List (Moment × Call)} {middle : KnownNode}
    {others : List Occurrence} (one : node.calls? first = some (told, middle))
    (two : middle.calls? second = some (others, next)) :
    node.calls? (first ++ second) = some (told ++ others, next) := by
  induction first generalizing node told with
  | nil =>
    obtain ⟨rfl, rfl⟩ := Prod.mk.inj (Option.some.inj one)
    exact two
  | cons head rest ih =>
    obtain ⟨here, between, remaining, called, after, rfl⟩ := calls?_cons_eq_some_iff.mp one
    rw [List.cons_append, List.append_assoc]
    exact calls?_cons_eq_some_iff.mpr ⟨here, between, _, called, ih after, rfl⟩

end KnownNode

namespace Dealings

variable {first : UInt16} {address : Address} {node next : KnownNode}
  {history told : List Occurrence}

theorem call {now : Moment} {call : KnownNode.Call} (dealings : Dealings first address node history)
    (called : node.call? now call = some (told, next)) :
    Dealings first address next (history ++ told) := by
  have own := dealings.address_eq
  cases call with
  | record method infoHash =>
    obtain ⟨⟨transaction, asked⟩, recorded, same⟩ := Option.map_eq_some_iff.mp called
    obtain ⟨rfl, rfl⟩ := Prod.mk.inj same
    rw [own]
    exact dealings.asked now recorded
  | resolve transaction =>
    unfold KnownNode.call? at called
    dsimp only at called
    split at called
    · rename_i query answered resolved
      obtain ⟨rfl, rfl⟩ := Prod.mk.inj (Option.some.inj called)
      obtain ⟨number, -, answering⟩ := KnownNode.resolve?_eq_some_iff.mp resolved
      rw [own]
      exact dealings.answered answering
    · obtain ⟨rfl, rfl⟩ := Prod.mk.inj (Option.some.inj called)
      rw [List.append_nil]
      exact dealings

theorem calls {calls : List (Moment × KnownNode.Call)}
    (dealings : Dealings first address node history)
    (called : node.calls? calls = some (told, next)) :
    Dealings first address next (history ++ told) := by
  induction calls generalizing node history told with
  | nil =>
    obtain ⟨rfl, rfl⟩ := Prod.mk.inj (Option.some.inj called)
    rwa [List.append_nil]
  | cons head rest ih =>
    obtain ⟨here, middle, others, one, remaining, rfl⟩ :=
      KnownNode.calls?_cons_eq_some_iff.mp called
    rw [← List.append_assoc]
    exact ih (dealings.call one) remaining

end Dealings

/-! ## Remembering -/

/-- What the past of a node knows of the queries resolved in the course of a history. -/
structure Remembers (history : List Occurrence) (node : KnownNode) : Prop where
  /-- It knows the last query of each number. -/
  asked_iff : ∀ infoHash, node.askedPeersOf infoHash = true ↔
    ∃ number query, lastAnswer? node.address history number = some query ∧
      query.asksPeersOf infoHash = true
  /-- It knows every query, as long as no number was used twice. -/
  asked_iff_of_few :
    (queriesAt node.address history).length ≤ KnownNode.transactionCount →
      ∀ infoHash, node.askedPeersOf infoHash = true ↔
        ∃ query ∈ answersAt node.address history, query.asksPeersOf infoHash = true
  /-- It never knows of a content that no resolved query asked about. -/
  asked_of_asked : ∀ infoHash, node.askedPeersOf infoHash = true →
    ∃ query ∈ answersAt node.address history, query.asksPeersOf infoHash = true
  /-- A resolution makes it forget a content exactly if the resolved query does not ask about it and
  takes the place of the only one that did. -/
  forgets_iff : ∀ {number now query next}, node.answer? number now = some (query, next) →
    ∀ infoHash, node.askedPeersOf infoHash = true →
      (next.askedPeersOf infoHash = false ↔
        query.asksPeersOf infoHash = false ∧
          ∀ other past, node.past[other]? = some past → past.asksPeersOf infoHash = true →
            other = number)

namespace KnownNode

variable {node next : KnownNode} {infoHash : InfoHash} {number : UInt16} {now : Moment}
  {query : Query}

/-- After a resolution the past knows of the resolved query, and of all others but the one whose
place it took. -/
theorem askedPeersOf_of_answer? (answered : node.answer? number now = some (query, next)) :
    next.askedPeersOf infoHash = true ↔
      query.asksPeersOf infoHash = true ∨
        ∃ other past, other ≠ number ∧ node.past[other]? = some past ∧
          past.asksPeersOf infoHash = true := by
  rw [askedPeersOf_iff]
  constructor
  · intro given
    rcases given with ⟨other, past, closed, asks⟩
    rw [getElem?_past_of_answer? answered] at closed
    split at closed
    · obtain rfl := Option.some.inj closed
      exact Or.inl asks
    · rename_i different
      exact Or.inr ⟨other, past, Ne.symm different, closed, asks⟩
  · intro given
    rcases given with asks | ⟨other, past, different, closed, asks⟩
    · exact ⟨number, query, by rw [getElem?_past_of_answer? answered, if_pos rfl], asks⟩
    · refine ⟨other, past, ?_, asks⟩
      rw [getElem?_past_of_answer? answered, if_neg (Ne.symm different)]
      exact closed

theorem forgets_iff_of_answer? (answered : node.answer? number now = some (query, next)) :
    next.askedPeersOf infoHash = false ↔
      query.asksPeersOf infoHash = false ∧
        ∀ other past, node.past[other]? = some past → past.asksPeersOf infoHash = true →
          other = number := by
  rw [← Bool.not_eq_true, askedPeersOf_of_answer? answered, not_or, Bool.not_eq_true]
  refine and_congr_right fun _ => ⟨?_, ?_⟩
  · intro only other past closed asks
    by_contra different
    exact only ⟨other, past, different, closed, asks⟩
  · rintro only ⟨other, past, different, closed, asks⟩
    exact different (only other past closed asks)

/-- Whatever calls are made on the record of a node, and whatever they ask about. -/
theorem remembers {id : Option Identifier} {address : Address} {first : UInt16}
    {calls : List (Moment × Call)} {history : List Occurrence}
    (called : (KnownNode.new id address first).calls? calls = some (history, node)) :
    Remembers history node := by
  have dealings : Dealings first address node history := (Dealings.new id).calls called
  have own := dealings.address_eq
  constructor
  · intro infoHash
    rw [askedPeersOf_iff, own]
    simp only [dealings.past_eq]
  · intro few infoHash
    rw [own] at few ⊢
    rw [askedPeersOf_iff]
    constructor
    · intro given
      rcases given with ⟨number, query, closed, asks⟩
      exact ⟨query, dealings.answered_of_past closed, asks⟩
    · intro given
      rcases given with ⟨query, answered, asks⟩
      exact ⟨query.transaction, query, dealings.past_of_answered few answered, asks⟩
  · intro infoHash asked
    rw [own]
    obtain ⟨number, query, closed, asks⟩ := askedPeersOf_iff.mp asked
    exact ⟨query, dealings.answered_of_past closed, asks⟩
  · intro number now query next answered infoHash _
    exact forgets_iff_of_answer? answered

namespace Remembrance

def endpoint : Address := .v4 ⟨10, 0, 0, 1⟩ 6881

def content : InfoHash := ⟨List.replicate Identifier.size 9, List.length_replicate⟩

/-- Two queries, whose numbers wrap; one is resolved, and then something that names neither. -/
def sampleCalls : List (Moment × Call) :=
  [(0, .record .getPeers (some content)), (1, .record .findNode (some content)),
    (2, .resolve (Bytes.ofWord 65535)), (3, .resolve [0])]

end Remembrance

open Remembrance in
/-- In the sample the question about the content is resolved, and the other query stays open. -/
theorem remembers_sample :
    ∃ history node, (KnownNode.new none endpoint 65535).calls? sampleCalls = some (history, node) ∧
      answersAt endpoint history = [⟨65535, .getPeers, some content⟩] ∧
      (queriesAt endpoint history).length = 2 ∧ node.pendingCount = 1 ∧
      Remembers history node := by
  have told : ((KnownNode.new none endpoint 65535).calls? sampleCalls).map (fun called =>
      (answersAt endpoint called.1, (queriesAt endpoint called.1).length, called.2.pendingCount)) =
        some ([⟨65535, .getPeers, some content⟩], 2, 1) := by decide +kernel
  obtain ⟨⟨history, node⟩, called, same⟩ := Option.map_eq_some_iff.mp told
  simp only [Prod.mk.injEq] at same
  obtain ⟨answers, queries, pending⟩ := same
  exact ⟨history, node, called, answers, queries, pending, remembers called⟩

/-! ## Forgetting -/

/-- A query of a node without open ones that is resolved as soon as it is recorded takes the place
of its number in the past. -/
theorem calls?_exchange (idle : node.pending = ∅) (method : Method) (content : Option InfoHash) :
    ∃ told next,
      node.calls? [(0, .record method content), (0, .resolve (Bytes.ofWord node.nextTransaction))] =
          some (told, next) ∧
        next.pending = ∅ ∧ next.nextTransaction = node.nextTransaction + 1 ∧
        next.past = node.past.insert node.nextTransaction
          ⟨node.nextTransaction, method, content⟩ := by
  have free : node.pending[node.nextTransaction]? = none := by
    rw [idle]
    exact Std.ExtTreeMap.getElem?_empty
  obtain ⟨asked, recorded⟩ :
      ∃ asked, node.ask? method content = some (node.nextTransaction, asked) :=
    ⟨_, ask?_eq_some_iff.mpr ⟨freeFrom?_of_not_mem free, rfl⟩⟩
  have waiting := getElem?_pending_of_ask? recorded node.nextTransaction
  rw [if_pos rfl] at waiting
  obtain ⟨next, answered⟩ : ∃ next, asked.answer? node.nextTransaction 0 = some (_, next) :=
    ⟨_, answer?_eq_some_iff.mpr ⟨waiting, rfl⟩⟩
  have resolved := resolve?_eq_some_iff.mpr ⟨node.nextTransaction, rfl, answered⟩
  have one : node.call? 0 (.record method content) =
      some ([.asked 0 node.address ⟨node.nextTransaction, method, content⟩], asked) := by
    rw [call?, recorded, Option.map_some]
  have two : asked.call? 0 (.resolve (Bytes.ofWord node.nextTransaction)) =
      some ([.answered 0 asked.address ⟨node.nextTransaction, method, content⟩], next) := by
    rw [call?, resolved]
  have rest : asked.calls? [(0, .resolve (Bytes.ofWord node.nextTransaction))] =
      some ([.answered 0 asked.address ⟨node.nextTransaction, method, content⟩], next) :=
    calls?_cons_eq_some_iff.mpr ⟨_, next, [], two, rfl, rfl⟩
  refine ⟨_, next, calls?_cons_eq_some_iff.mpr ⟨_, asked, _, one, rest, rfl⟩, ?_, ?_, ?_⟩
  · apply Std.ExtTreeMap.ext_getElem?
    intro other
    rw [getElem?_pending_of_answer? answered, getElem?_pending_of_ask? recorded, idle,
      Std.ExtTreeMap.getElem?_empty]
    split <;> rfl
  · rw [(answer?_eq_some_iff.mp answered).2, (ask?_eq_some_iff.mp recorded).2]
  · rw [(answer?_eq_some_iff.mp answered).2, past_of_ask? recorded]

namespace Remembrance

/-- So many pings, each resolved at once; the first has the number at a place behind 0. -/
def pings (place : Nat) : (count : Nat) → List (Moment × Call)
  | 0 => []
  | count + 1 =>
    (0, .record .ping none) :: (0, .resolve (Bytes.ofWord (numberAt 0 place))) ::
      pings (place + 1) count

/-- A question about the content and 65535 pings: all numbers are used once. -/
def calls : List (Moment × Call) :=
  (0, .record .getPeers (some content)) :: (0, .resolve (Bytes.ofWord 0)) :: pings 1 65535

/-- One more ping. -/
def lastCalls : List (Moment × Call) :=
  [(0, .record .ping none), (0, .resolve (Bytes.ofWord 0))]

/-- Pings change the past under their own numbers only, and there they ask about nothing. -/
theorem calls?_pings {place : Nat} (count : Nat) (idle : node.pending = ∅)
    (ready : node.nextTransaction = numberAt 0 place) :
    ∃ told next, node.calls? (pings place count) = some (told, next) ∧
      next.pending = ∅ ∧ next.nextTransaction = numberAt 0 (place + count) ∧
      (∀ other, (∀ later, place ≤ later → later < place + count → other ≠ numberAt 0 later) →
        next.past[other]? = node.past[other]?) ∧
      ∀ (other : UInt16) (past : Query), next.past[other]? = some past →
        node.past[other]? = some past ∨ past.method = .ping := by
  induction count generalizing place node with
  | zero => exact ⟨[], node, rfl, idle, ready, fun _ _ => rfl, fun _ _ => Or.inl⟩
  | succ count ih =>
    obtain ⟨here, middle, pinged, idle, following, past⟩ := calls?_exchange idle .ping none
    rw [ready] at pinged following past
    rw [numberAt_succ] at following
    obtain ⟨others, next, remaining, idle, last, kept, only⟩ := ih idle following
    refine ⟨here ++ others, next, calls?_append pinged remaining, idle, ?_, ?_, ?_⟩
    · rw [last, Nat.add_assoc, Nat.add_comm 1]
    · intro other elsewhere
      rw [kept other fun later low high => elsewhere later (by omega) (by omega), past,
        Std.ExtTreeMap.getElem?_insert, if_neg]
      rw [Std.compare_eq_iff_eq]
      exact Ne.symm (elsewhere place (Nat.le_refl _) (by omega))
    · intro other query closed
      rcases only other query closed with earlier | ping
      · rw [past, Std.ExtTreeMap.getElem?_insert] at earlier
        split at earlier
        · exact Or.inr (by rw [← Option.some.inj earlier])
        · exact Or.inl earlier
      · exact Or.inr ping

end Remembrance

open Remembrance

/-- A ping that is resolved can make the past forget a question about a content that was resolved
long before. -/
theorem forgets_content :
    ∃ told before more after,
      (KnownNode.new none endpoint 0).calls? Remembrance.calls = some (told, before) ∧
        ⟨0, .getPeers, some content⟩ ∈ answersAt endpoint told ∧
        before.askedPeersOf content = true ∧
        before.calls? lastCalls = some (more, after) ∧ after.askedPeersOf content = false := by
  have untouched : (KnownNode.new none endpoint 0).pending = ∅ := rfl
  obtain ⟨here, middle, asked, idle, following, past⟩ :=
    calls?_exchange untouched .getPeers (some content)
  change middle.past = Std.ExtTreeMap.insert ∅ 0 ⟨0, .getPeers, some content⟩ at past
  have ready : middle.nextTransaction = numberAt 0 1 := following
  obtain ⟨others, before, pinged, idle, last, kept, only⟩ :=
    calls?_pings 65535 idle ready
  obtain ⟨more, after, pingedAgain, -, -, pastAgain⟩ := calls?_exchange idle .ping none
  have zero : before.nextTransaction = 0 := last.trans (by decide)
  rw [zero] at pingedAgain pastAgain
  have called := calls?_append asked pinged
  have question : before.past[(0 : UInt16)]? = some ⟨0, .getPeers, some content⟩ := by
    rw [kept 0, past, Std.ExtTreeMap.getElem?_insert_self]
    · intro later low high same
      have turn : transactionCount = 65536 := rfl
      have first : numberAt 0 0 = numberAt 0 later := same
      have place := numberAt_inj (by decide) (by omega) first
      omega
  have dealings : Dealings 0 endpoint before _ := (Dealings.new none).calls called
  refine ⟨_, before, more, after, called, dealings.answered_of_past question, ?_, pingedAgain, ?_⟩
  · exact askedPeersOf_iff.mpr ⟨0, _, question, by decide⟩
  · rw [← Bool.not_eq_true, askedPeersOf_iff]
    rintro ⟨other, query, closed, asks⟩
    have ping : query.method = .ping := by
      rw [pastAgain, Std.ExtTreeMap.getElem?_insert] at closed
      split at closed
      · rw [← Option.some.inj closed]
      · rename_i different
        rcases only other query closed with earlier | ping
        · rw [past, Std.ExtTreeMap.getElem?_insert] at earlier
          split at earlier
          · rename_i same
            exact absurd same different
          · rw [Std.ExtTreeMap.getElem?_empty] at earlier
            cases earlier
        · exact ping
    simp [Query.asksPeersOf, ping] at asks

end KnownNode

end PeerDiscovery
