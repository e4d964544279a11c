import PeerDiscovery.Proofs.KnownNode.Dealings
import PeerDiscovery.Selection

/-!
# The life of a node

`Life` says everything that a search ever does to the node of one address, together with the history
of its queries. A node joins the table with nothing sent to it, is pinged at most before anything
else, is asked for the peers of a content only while it is eligible, gets its identifier, and closes
the queries that its responses name. What holds of all dealings with a node holds of its life
(`Life.dealings`); what the restraint of a search adds is proved here by induction on the life:

* `Life.before_occurrence`: whatever happened to it, the state just before allowed it;
* `Life.answered_of_not_pending`: a query is closed by a response and in no other way.
-/

namespace PeerDiscovery

open Selection (isEligible)

/-- A query that is ever asked: a ping without content, or a question for the peers of one. -/
def Query.Proper (query : Query) : Prop :=
  query.method = .ping ∧ query.infoHash = none ∨
    ∃ infoHash, query.method = .getPeers ∧ query.infoHash = some infoHash

/-- The lives of the node of an address: the node as it is, and the history of its queries. -/
inductive Life (limits : SelectionLimits) (first : UInt16) (address : Address) :
    KnownNode → List Occurrence → Prop
  /-- It joins the table. -/
  | listed (id : Option Identifier) : Life limits first address (.new id address first) []
  /-- It is pinged before it is asked anything. -/
  | pinged {node next : KnownNode} {transaction : UInt16} (now : Moment) :
    Life limits first address node [] → node.ask? .ping none = some (transaction, next) →
    Life limits first address next [.asked now address ⟨transaction, .ping, none⟩]
  /-- It is asked for the peers of a content, being eligible. -/
  | asked {node next : KnownNode} {history : List Occurrence} {transaction : UInt16}
    {infoHash : InfoHash} (now : Moment) :
    Life limits first address node history → isEligible limits infoHash now node = true →
    node.ask? .getPeers (some infoHash) = some (transaction, next) →
    Life limits first address next
      (history ++ [.asked now address ⟨transaction, .getPeers, some infoHash⟩])
  /-- It tells its identifier. -/
  | identified {node : KnownNode} {history : List Occurrence} (id : Identifier) :
    Life limits first address node history → Life limits first address (node.identified id) history
  /-- A response of it is matched to one of its open queries. -/
  | answered {node next : KnownNode} {history : List Occurrence} {transaction : UInt16}
    {now : Moment} {query : Query} :
    Life limits first address node history →
    node.answer? transaction now = some (query, next) →
    Life limits first address next (history ++ [.answered now address query])

namespace Life

variable {limits : SelectionLimits} {first : UInt16} {address : Address} {node : KnownNode}
  {history : List Occurrence}

/-- A life is one way to deal with a node. -/
theorem dealings (life : Life limits first address node history) :
    Dealings first address node history := by
  induction life with
  | listed id => exact .new id
  | pinged now _ asked ih => exact ih.asked now asked
  | asked now _ _ asked ih => exact ih.asked now asked
  | identified id _ ih => exact ih.identified id
  | answered _ answered ih => exact ih.answered answered

/-! ## The moments of a life -/

/-- What must hold of a node, with the history so far, for an occurrence to come next. -/
def Allows (limits : SelectionLimits) (node : KnownNode) (history : List Occurrence) :
    Occurrence → Prop
  | .asked now _ query =>
    node.pending[query.transaction]? = none ∧
      (history = [] ∧ query.method = .ping ∧ query.infoHash = none ∨
        ∃ infoHash, query.method = .getPeers ∧ query.infoHash = some infoHash ∧
          isEligible limits infoHash now node = true)
  | .answered _ _ query => node.pending[query.transaction]? = some query

/-- Just before any occurrence of its history, a node was in a state that allowed it. -/
theorem before_occurrence (life : Life limits first address node history)
    {before after : List Occurrence} {occurrence : Occurrence}
    (split : history = before ++ occurrence :: after) :
    ∃ earlier, Life limits first address earlier before ∧
      Allows limits earlier before occurrence := by
  induction life generalizing after with
  | listed => simp at split
  | @pinged node next number now life asked ih =>
    rw [← List.nil_append [_]] at split
    rcases append_singleton_eq_split split with ⟨rfl, rfl, -⟩ | ⟨rest, empty, -⟩
    · exact ⟨node, life, KnownNode.pending_of_ask? asked, Or.inl ⟨rfl, rfl, rfl⟩⟩
    · simp at empty
  | @asked node next history number infoHash now life eligible asked ih =>
    rcases append_singleton_eq_split split with ⟨rfl, rfl, -⟩ | ⟨rest, inner, -⟩
    · exact ⟨node, life, KnownNode.pending_of_ask? asked, Or.inr ⟨infoHash, rfl, rfl, eligible⟩⟩
    · exact ih inner
  | identified _ _ ih => exact ih split
  | @answered node next history number now query life answered ih =>
    rcases append_singleton_eq_split split with ⟨rfl, rfl, -⟩ | ⟨rest, inner, -⟩
    · have found := (KnownNode.answer?_eq_some_iff.mp answered).1
      exact ⟨node, life, by rw [Allows, life.dealings.transaction_eq found]; exact found⟩
    · exact ih inner

theorem proper_of_asked (life : Life limits first address node history) {now : Moment}
    {query : Query} (member : .asked now address query ∈ history) : query.Proper := by
  obtain ⟨before, after, split⟩ := List.append_of_mem member
  obtain ⟨earlier, -, -, cause⟩ := life.before_occurrence split
  rcases cause with ⟨-, ping⟩ | ⟨infoHash, getPeers, content, -⟩
  · exact Or.inl ping
  · exact Or.inr ⟨infoHash, getPeers, content⟩

/-! ## Queries and their responses -/

/-- If a recorded query is not open any more, then the first thing that happened to its transaction
is that a response was matched to it. -/
theorem answered_of_not_pending {before later : List Occurrence} {now : Moment} {query : Query}
    (life : Life limits first address node (before ++ .asked now address query :: later))
    (closed : node.pending[query.transaction]? ≠ some query) :
    ∃ quiet time rest, later = quiet ++ .answered time address query :: rest ∧
      Quiet address query.transaction quiet := by
  cases found : later.find? fun occurrence =>
      decide (occurrence.Concerns address query.transaction) with
  | none =>
    rw [List.find?_eq_none] at found
    exact absurd (life.dealings.pending_of_quiet fun occurrence member => by
      simpa using found occurrence member) closed
  | some occurrence =>
    obtain ⟨concerns, quiet, rest, rfl, others⟩ := List.find?_eq_some_iff_append.mp found
    have silent : Quiet address query.transaction quiet := fun other member => by
      simpa using others other member
    obtain ⟨here, number⟩ := of_decide_eq_true concerns
    rw [← List.cons_append, ← List.append_assoc] at life
    obtain ⟨earlier, lived, allowed⟩ := life.before_occurrence rfl
    have waiting := lived.dealings.pending_of_quiet silent
    cases occurrence with
    | asked time destination other =>
      -- no second query can be recorded while the first is open
      change other.transaction = query.transaction at number
      rw [Allows, number, waiting] at allowed
      cases allowed.1
    | answered time sender other =>
      change other.transaction = query.transaction at number
      rw [Allows, number, waiting] at allowed
      obtain rfl := Option.some.inj allowed
      obtain rfl : sender = address := here
      exact ⟨quiet, time, rest, rfl, silent⟩

/-- Whatever a node remembers of queries was asked. -/
theorem proper_of_mem (life : Life limits first address node history) {transaction : UInt16}
    {query : Query}
    (recorded : node.pending[transaction]? = some query ∨ node.past[transaction]? = some query) :
    query.Proper := by
  have asked : query ∈ queriesAt address history := by
    rcases recorded with waiting | closed
    · exact life.dealings.mem_queriesAt_of_pending waiting
    · exact life.dealings.mem_queriesAt_of_answered (life.dealings.answered_of_past closed)
  obtain ⟨now, member⟩ := mem_queriesAt.mp asked
  exact life.proper_of_asked member

end Life

end PeerDiscovery
