import Mathlib.Data.List.Induction
import PeerDiscovery.KnownNode

/-!
# What happens to queries

A history lists, in order, every query that is recorded at a node and every response that is matched
to one. `outstanding` reads off a history, without looking at any node, which queries of a
transaction still wait for their response.
-/

namespace PeerDiscovery

/-- An element of a list with one more element behind it is that one, or lies in the list. -/
theorem append_singleton_eq_split {α : Type} {list before after : List α} {last here : α}
    (equal : list ++ [last] = before ++ here :: after) :
    list = before ∧ last = here ∧ after = [] ∨
      ∃ rest, list = before ++ here :: rest ∧ after = rest ++ [last] := by
  rcases List.eq_nil_or_concat after with rfl | ⟨rest, final, rfl⟩
  · obtain ⟨same, heads⟩ := List.append_inj' equal rfl
    exact Or.inl ⟨same, List.head_eq_of_cons_eq heads, rfl⟩
  · rw [List.concat_eq_append, ← List.cons_append, ← List.append_assoc] at equal
    obtain ⟨same, lasts⟩ := List.append_inj' equal rfl
    obtain rfl := List.head_eq_of_cons_eq lasts
    exact Or.inr ⟨rest, same, by rw [List.concat_eq_append]⟩

/-- A list divides at each of its places. -/
theorem split_of_getElem? {α : Type} {list : List α} {place : Nat} {here : α}
    (found : list[place]? = some here) :
    ∃ before after, list = before ++ here :: after ∧ before.length = place := by
  obtain ⟨inside, rfl⟩ := List.getElem?_eq_some_iff.mp found
  refine ⟨list.take place, list.drop (place + 1), ?_, ?_⟩
  · rw [List.getElem_cons_drop, List.take_append_drop]
  · rw [List.length_take, Nat.min_eq_left (Nat.le_of_lt inside)]

/-- Something that happens to a query of the node of an address. -/
inductive Occurrence where
  /-- The query is recorded, to be sent to the node. -/
  | asked (now : Moment) (address : Address) (query : Query)
  /-- A response of the node is matched to the query. -/
  | answered (now : Moment) (address : Address) (query : Query)
deriving DecidableEq

namespace Occurrence

def now : Occurrence → Moment
  | .asked now _ _ => now
  | .answered now _ _ => now

def address : Occurrence → Address
  | .asked _ address _ => address
  | .answered _ address _ => address

def query : Occurrence → Query
  | .asked _ _ query => query
  | .answered _ _ query => query

/-- The query that is recorded at the node of an address, if one is. -/
def askedAt? (address : Address) : Occurrence → Option Query
  | .asked _ destination query => if destination = address then some query else none
  | .answered .. => none

/-- Only a question at the node itself counts as asked there. -/
theorem askedAt?_eq_some_iff {address : Address} {occurrence : Occurrence} {query : Query} :
    occurrence.askedAt? address = some query ↔ ∃ now, occurrence = .asked now address query := by
  cases occurrence with
  | asked now destination other =>
    rw [askedAt?, Option.ite_none_right_eq_some]
    constructor
    · intro given
      rcases given with ⟨rfl, same⟩
      exact ⟨now, by rw [Option.some.inj same]⟩
    · intro given
      rcases given with ⟨time, same⟩
      injection same with _ here own
      exact ⟨here, congrArg some own⟩
  | answered => simp [askedAt?]

/-- The query of the node of an address that is resolved, if one is. -/
def answeredAt? (address : Address) : Occurrence → Option Query
  | .asked .. => none
  | .answered _ sender query => if sender = address then some query else none

/-- Only an answer of the node itself counts as answered there. -/
theorem answeredAt?_eq_some_iff {address : Address} {occurrence : Occurrence} {query : Query} :
    occurrence.answeredAt? address = some query ↔
      ∃ now, occurrence = .answered now address query := by
  cases occurrence with
  | asked => simp [answeredAt?]
  | answered now sender other =>
    rw [answeredAt?, Option.ite_none_right_eq_some]
    constructor
    · intro given
      rcases given with ⟨rfl, same⟩
      exact ⟨now, by rw [Option.some.inj same]⟩
    · intro given
      rcases given with ⟨time, same⟩
      injection same with _ here own
      exact ⟨here, congrArg some own⟩

/-- The occurrence is about a transaction of the node of an address. -/
def Concerns (address : Address) (transaction : UInt16) (occurrence : Occurrence) : Prop :=
  occurrence.address = address ∧ occurrence.query.transaction = transaction

instance (address : Address) (transaction : UInt16) (occurrence : Occurrence) :
    Decidable (occurrence.Concerns address transaction) :=
  inferInstanceAs (Decidable (_ ∧ _))

/-- The queries that wait for a response under a transaction, after one more occurrence. -/
def advance (address : Address) (transaction : UInt16) (waiting : List Query)
    (occurrence : Occurrence) : List Query :=
  if occurrence.Concerns address transaction then
    match occurrence with
    | .asked _ _ query => waiting ++ [query]
    | .answered .. => []
  else waiting

end Occurrence

/-- What happened to the queries of the node of an address. -/
def occurrencesAt (address : Address) (history : List Occurrence) : List Occurrence :=
  history.filter fun occurrence => occurrence.address = address

section OccurrencesAt

variable {address : Address}

@[simp] theorem occurrencesAt_nil : occurrencesAt address [] = [] := rfl

@[simp] theorem occurrencesAt_append (first second : List Occurrence) :
    occurrencesAt address (first ++ second) =
      occurrencesAt address first ++ occurrencesAt address second :=
  List.filter_append ..

/-- What happened at a node is what happened, and at the node. -/
theorem mem_occurrencesAt {occurrence : Occurrence} {history : List Occurrence} :
    occurrence ∈ occurrencesAt address history ↔
      occurrence ∈ history ∧ occurrence.address = address := by
  rw [occurrencesAt, List.mem_filter, decide_eq_true_eq]

theorem occurrencesAt_cons_of_eq {occurrence : Occurrence} (rest : List Occurrence)
    (here : occurrence.address = address) :
    occurrencesAt address (occurrence :: rest) = occurrence :: occurrencesAt address rest :=
  List.filter_cons_of_pos (decide_eq_true here)

@[simp] theorem occurrencesAt_asked_cons (now : Moment) (query : Query)
    (rest : List Occurrence) :
    occurrencesAt address (.asked now address query :: rest) =
      .asked now address query :: occurrencesAt address rest :=
  occurrencesAt_cons_of_eq rest rfl

/-- A stretch of the node's own is kept whole. -/
theorem occurrencesAt_of_forall {stretch : List Occurrence}
    (here : ∀ occurrence ∈ stretch, occurrence.address = address) :
    occurrencesAt address stretch = stretch :=
  List.filter_eq_self.mpr fun occurrence member => decide_eq_true (here occurrence member)

/-- A stretch of other nodes is left out whole. -/
theorem occurrencesAt_of_forall_ne {stretch : List Occurrence}
    (elsewhere : ∀ occurrence ∈ stretch, occurrence.address ≠ address) :
    occurrencesAt address stretch = [] :=
  List.filter_eq_nil_iff.mpr fun occurrence member => by
    simpa using elsewhere occurrence member

/-- What happened at an address can be found in the whole history. -/
theorem split_of_occurrencesAt {history first second : List Occurrence} {occurrence : Occurrence}
    (split : occurrencesAt address history = first ++ occurrence :: second) :
    ∃ before after, history = before ++ occurrence :: after ∧
      occurrencesAt address before = first := by
  obtain ⟨start, tail, rfl, rfl, rest⟩ := List.filter_eq_append_iff.mp split
  obtain ⟨elsewhere, after, rfl, others, -, -⟩ := List.filter_eq_cons_iff.mp rest
  refine ⟨start ++ elsewhere, after, by rw [List.append_assoc], ?_⟩
  have nothing : occurrencesAt address elsewhere = [] :=
    occurrencesAt_of_forall_ne fun occurrence member => by simpa using others occurrence member
  rw [occurrencesAt_append, nothing, List.append_nil]
  rfl

end OccurrencesAt

/-- The queries recorded at the node of an address, in order. -/
def queriesAt (address : Address) (history : List Occurrence) : List Query :=
  history.filterMap (Occurrence.askedAt? address)

section QueriesAt

variable {address : Address}

@[simp] theorem queriesAt_nil : queriesAt address [] = [] := rfl

@[simp] theorem queriesAt_append (first second : List Occurrence) :
    queriesAt address (first ++ second) = queriesAt address first ++ queriesAt address second :=
  List.filterMap_append

@[simp] theorem queriesAt_asked (now : Moment) (query : Query) :
    queriesAt address [.asked now address query] = [query] := by
  simp [queriesAt, Occurrence.askedAt?]

@[simp] theorem queriesAt_answered (now : Moment) (sender : Address) (query : Query) :
    queriesAt address [.answered now sender query] = [] := rfl

/-- The queries at a node are those that it was asked at some moment. -/
theorem mem_queriesAt {history : List Occurrence} {query : Query} :
    query ∈ queriesAt address history ↔ ∃ now, .asked now address query ∈ history := by
  rw [queriesAt, List.mem_filterMap]
  constructor
  · intro given
    rcases given with ⟨occurrence, member, asked⟩
    obtain ⟨now, rfl⟩ := Occurrence.askedAt?_eq_some_iff.mp asked
    exact ⟨now, member⟩
  · intro given
    rcases given with ⟨now, member⟩
    exact ⟨_, member, Occurrence.askedAt?_eq_some_iff.mpr ⟨now, rfl⟩⟩

/-- Only what happened at a node decides what it was asked. -/
theorem queriesAt_occurrencesAt (address : Address) (history : List Occurrence) :
    queriesAt address (occurrencesAt address history) = queriesAt address history := by
  rw [queriesAt, occurrencesAt, List.filterMap_filter]
  congr 1
  funext occurrence
  by_cases here : occurrence.address = address
  · simp [here]
  · cases occurrence with
    | asked now destination query =>
      change destination ≠ address at here
      simp [Occurrence.askedAt?, Occurrence.address, here]
    | answered => simp [Occurrence.askedAt?]

end QueriesAt

/-- The queries of the node of an address that were resolved, in order. -/
def answersAt (address : Address) (history : List Occurrence) : List Query :=
  history.filterMap (Occurrence.answeredAt? address)

/-- The last query of a number that was resolved at the node of an address. -/
def lastAnswer? (address : Address) (history : List Occurrence) (transaction : UInt16) :
    Option Query :=
  ((answersAt address history).filter fun query => query.transaction = transaction).getLast?

section AnswersAt

variable {address : Address}

@[simp] theorem answersAt_append (first second : List Occurrence) :
    answersAt address (first ++ second) = answersAt address first ++ answersAt address second :=
  List.filterMap_append

@[simp] theorem answersAt_asked (now : Moment) (destination : Address) (query : Query) :
    answersAt address [.asked now destination query] = [] := rfl

@[simp] theorem answersAt_answered (now : Moment) (query : Query) :
    answersAt address [.answered now address query] = [query] := by
  simp [answersAt, Occurrence.answeredAt?]

/-- The answers of a node are those that it gave at some moment. -/
theorem mem_answersAt {history : List Occurrence} {query : Query} :
    query ∈ answersAt address history ↔ ∃ now, .answered now address query ∈ history := by
  rw [answersAt, List.mem_filterMap]
  constructor
  · intro given
    rcases given with ⟨occurrence, member, answered⟩
    obtain ⟨now, rfl⟩ := Occurrence.answeredAt?_eq_some_iff.mp answered
    exact ⟨now, member⟩
  · intro given
    rcases given with ⟨now, member⟩
    exact ⟨_, member, Occurrence.answeredAt?_eq_some_iff.mpr ⟨now, rfl⟩⟩

/-- A question leaves the last answer under each number. -/
theorem lastAnswer?_append_asked (history : List Occurrence) (now : Moment)
    (destination : Address) (query : Query) (transaction : UInt16) :
    lastAnswer? address (history ++ [.asked now destination query]) transaction =
      lastAnswer? address history transaction := by
  rw [lastAnswer?, answersAt_append, answersAt_asked, List.append_nil, lastAnswer?]

/-- An answer is the last one under its own number from then on. -/
theorem lastAnswer?_append_answered (history : List Occurrence) (now : Moment) (query : Query)
    (transaction : UInt16) :
    lastAnswer? address (history ++ [.answered now address query]) transaction =
      if query.transaction = transaction then some query
      else lastAnswer? address history transaction := by
  rw [lastAnswer?, answersAt_append, answersAt_answered, List.filter_append, lastAnswer?]
  by_cases own : query.transaction = transaction
  · rw [if_pos own, List.filter_cons_of_pos (by simpa using own), List.filter_nil,
      List.getLast?_concat]
  · rw [if_neg own, List.filter_cons_of_neg (by simpa using own), List.filter_nil,
      List.append_nil]

/-- The last answer under a number is an answer under that number. -/
theorem mem_of_lastAnswer? {history : List Occurrence} {transaction : UInt16} {query : Query}
    (last : lastAnswer? address history transaction = some query) :
    query ∈ answersAt address history ∧ query.transaction = transaction := by
  have member := List.mem_of_getLast? last
  rw [List.mem_filter, decide_eq_true_eq] at member
  exact member

/-- Of a number that was resolved there is a last query. -/
theorem exists_lastAnswer? {history : List Occurrence} {query : Query}
    (answered : query ∈ answersAt address history) :
    ∃ last, lastAnswer? address history query.transaction = some last := by
  have member : query ∈ (answersAt address history).filter
      fun other => other.transaction = query.transaction :=
    List.mem_filter.mpr ⟨answered, decide_eq_true rfl⟩
  exact ⟨_, List.getLast?_eq_some_getLast (List.ne_nil_of_mem member)⟩

end AnswersAt

/-- Nothing in a stretch of history is about a transaction. -/
def Quiet (address : Address) (transaction : UInt16) (stretch : List Occurrence) : Prop :=
  ∀ occurrence ∈ stretch, ¬ occurrence.Concerns address transaction

/-- A stretch stays quiet with something that concerns other queries. -/
theorem Quiet.append_singleton {address : Address} {transaction : UInt16}
    {stretch : List Occurrence} {occurrence : Occurrence}
    (quiet : Quiet address transaction stretch)
    (other : ¬ occurrence.Concerns address transaction) :
    Quiet address transaction (stretch ++ [occurrence]) := by
  intro either member
  rcases List.mem_append.mp member with earlier | last
  · exact quiet either earlier
  · obtain rfl := List.mem_singleton.mp last
    exact other

/-- Only what happened at the node itself can break its quiet. -/
theorem quiet_occurrencesAt {address : Address} {transaction : UInt16}
    {stretch : List Occurrence} :
    Quiet address transaction (occurrencesAt address stretch) ↔
      Quiet address transaction stretch := by
  constructor
  · intro quiet occurrence member concerns
    exact quiet occurrence (mem_occurrencesAt.mpr ⟨member, concerns.1⟩) concerns
  · intro quiet occurrence member
    exact quiet occurrence (mem_occurrencesAt.mp member).1

/-- The queries that were recorded under a transaction of a node and to which no response was
matched since. -/
def outstanding (history : List Occurrence) (address : Address) (transaction : UInt16) :
    List Query :=
  history.foldl (Occurrence.advance address transaction) []

section Outstanding

variable {address : Address} {transaction : UInt16} {history : List Occurrence}
  {occurrence : Occurrence}

@[simp] theorem outstanding_nil : outstanding [] address transaction = [] := rfl

/-- What is outstanding is carried on from occurrence to occurrence. -/
theorem outstanding_append_singleton :
    outstanding (history ++ [occurrence]) address transaction =
      occurrence.advance address transaction (outstanding history address transaction) := by
  rw [outstanding, List.foldl_append]
  rfl

/-- A question under a number is outstanding behind those before it. -/
theorem outstanding_append_asked (now : Moment) (query : Query) :
    outstanding (history ++ [.asked now address query]) address transaction =
      if query.transaction = transaction then outstanding history address transaction ++ [query]
      else outstanding history address transaction := by
  rw [outstanding_append_singleton, Occurrence.advance.eq_def]
  simp [Occurrence.Concerns, Occurrence.address, Occurrence.query]

/-- An answer under a number settles all that is outstanding under it. -/
theorem outstanding_append_answered (now : Moment) (query : Query) :
    outstanding (history ++ [.answered now address query]) address transaction =
      if query.transaction = transaction then [] else outstanding history address transaction := by
  rw [outstanding_append_singleton, Occurrence.advance.eq_def]
  simp [Occurrence.Concerns, Occurrence.address, Occurrence.query]

/-- What concerns other queries settles nothing and adds nothing. -/
theorem outstanding_append_of_not_concerns (other : ¬ occurrence.Concerns address transaction) :
    outstanding (history ++ [occurrence]) address transaction =
      outstanding history address transaction := by
  rw [outstanding_append_singleton, Occurrence.advance.eq_def, if_neg other]

/-- What happens at other nodes is of no account. -/
theorem outstanding_occurrencesAt (history : List Occurrence) (address : Address)
    (transaction : UInt16) :
    outstanding (occurrencesAt address history) address transaction =
      outstanding history address transaction := by
  induction history using List.reverseRecOn with
  | nil => rfl
  | append_singleton history occurrence ih =>
    rw [occurrencesAt_append]
    by_cases here : occurrence.address = address
    · rw [occurrencesAt_cons_of_eq [] here, occurrencesAt_nil, outstanding_append_singleton,
        outstanding_append_singleton, ih]
    · have other : ¬ occurrence.Concerns address transaction := fun concerns => here concerns.1
      have absent : occurrencesAt address [occurrence] = [] :=
        occurrencesAt_of_forall_ne (by simpa using here)
      rw [absent, List.append_nil, outstanding_append_of_not_concerns other, ih]

/-- What is not about the transaction is of no account either. -/
theorem outstanding_append_of_quiet {quiet : List Occurrence}
    (others : Quiet address transaction quiet) :
    outstanding (history ++ quiet) address transaction =
      outstanding history address transaction := by
  induction quiet using List.reverseRecOn with
  | nil => rw [List.append_nil]
  | append_singleton quiet occurrence ih =>
    rw [← List.append_assoc, outstanding_append_of_not_concerns (others occurrence (by simp))]
    exact ih fun other member => others other (List.mem_append_left _ member)

end Outstanding

/-! ## Queries and their responses -/

/-- The response at a place of a history is matched to the query recorded at an earlier place:
nothing in between is about that transaction of that node. -/
def Matches (history : List Occurrence) (place later : Nat) : Prop :=
  ∃ now time address query, history[place]? = some (.asked now address query) ∧
    history[later]? = some (.answered time address query) ∧ place < later ∧
    ∀ between occurrence, place < between → between < later →
      history[between]? = some occurrence → ¬ occurrence.Concerns address query.transaction

namespace Matches

variable {history : List Occurrence} {place later other : Nat}

/-- A response is matched to one query only. -/
theorem unique_place (first : Matches history place later) (second : Matches history other later) :
    place = other := by
  obtain ⟨now, time, address, query, asked, answered, before, quiet⟩ := first
  obtain ⟨now', time', address', query', asked', answered', before', quiet'⟩ := second
  obtain ⟨-, rfl, rfl⟩ : time = time' ∧ address = address' ∧ query = query' := by
    simpa using answered.symm.trans answered'
  rcases Nat.lt_trichotomy place other with less | same | more
  · exact absurd ⟨rfl, rfl⟩ (quiet other _ less before' asked')
  · exact same
  · exact absurd ⟨rfl, rfl⟩ (quiet' place _ more before asked)

/-- To a query no two responses are matched. -/
theorem unique_later (first : Matches history place later) (second : Matches history place other) :
    later = other := by
  obtain ⟨now, time, address, query, asked, answered, before, quiet⟩ := first
  obtain ⟨now', time', address', query', asked', answered', before', quiet'⟩ := second
  obtain ⟨-, rfl, rfl⟩ : now = now' ∧ address = address' ∧ query = query' := by
    simpa using asked.symm.trans asked'
  rcases Nat.lt_trichotomy later other with less | same | more
  · exact absurd ⟨rfl, rfl⟩ (quiet' later _ before less answered)
  · exact same
  · exact absurd ⟨rfl, rfl⟩ (quiet other _ before' more answered')

/-- A question and the next answer under its number with quiet between them belong together. -/
theorem of_split {before quiet after : List Occurrence} {now time : Moment} {address : Address}
    {query : Query}
    (split : history =
      before ++ .asked now address query :: (quiet ++ .answered time address query :: after))
    (silent : Quiet address query.transaction quiet) :
    Matches history before.length (before.length + 1 + quiet.length) := by
  refine ⟨now, time, address, query, ?_, ?_, by omega, ?_⟩
  · rw [split]
    simp
  · rw [split, List.getElem?_append_right (by omega), List.getElem?_cons,
      if_neg (by omega), List.getElem?_append_right (by omega)]
    rw [show before.length + 1 + quiet.length - before.length - 1 - quiet.length = 0 by omega]
    rfl
  · intro between occurrence low high found
    rw [split, List.getElem?_append_right (by omega), List.getElem?_cons, if_neg (by omega),
      List.getElem?_append_left (by omega)] at found
    exact silent occurrence (List.mem_of_getElem? found)

end Matches

end PeerDiscovery
