import PeerDiscovery.Proofs.KnownNode.Occurrence
import PeerDiscovery.Search.Run

/-!
# Journals of runs

A run starts with an empty search, may join the network first, and then handles stimuli in any
order. Its journal has one entry for each of them: what was handled, when, from which search, and
what it led to. `history` reads off a journal what happened to queries.

An entry has several moments. A stimulus is heard at the first. The new peers of an answer have to
be handed over before its references are followed, and the client may take its time, so each round
that a reference starts reads the clock of the entry at a moment of its own. The journal of some
events has the reports that `Search.run?` gives of them (`run?_eq_map_journal?`). -/

namespace PeerDiscovery

/-! ## Queries of an outcome -/

/-- The queries of an activity, each with the address of the node it is recorded at, in the order in
which they are recorded. -/
def Activity.queries : Activity → List (Address × Query)
  | .ping destination transaction => [(destination, ⟨transaction, .ping, none⟩)]
  | .round _ infoHash asked => asked.map fun query => (query.1, ⟨query.2, .getPeers, some infoHash⟩)

/-- The queries of an outcome, in the order in which they are recorded. -/
def Outcome.queries (outcome : Outcome) : List (Address × Query) :=
  outcome.activities.flatMap Activity.queries

/-- The occurrences of queries that are asked at one moment. -/
def askedAt (now : Moment) (queries : List (Address × Query)) : List Occurrence :=
  queries.map fun query => .asked now query.1 query.2

/-- The moment of an activity: a round reads the clock, and a ping is sent as soon as its stimulus
is heard. -/
def Activity.moment (heard : Moment) : Activity → Moment
  | .ping .. => heard
  | .round now .. => now

/-- The queries that the activities ask, each activity at its moment. -/
def Outcome.occurrences (heard : Moment) (outcome : Outcome) : List Occurrence :=
  outcome.activities.flatMap fun activity => askedAt (activity.moment heard) activity.queries

namespace Search

/-- The query of its sender that a datagram closes, if it is a response that closes one. -/
def matched? (search : Search) (now : Moment) (packet : Packet) : Option Query :=
  match Message.parse packet.payload, search.table.get? packet.sender with
  | .ok ⟨transaction, _, .response reply⟩, some node =>
    ((node.identified reply.id).resolve? transaction now).map Prod.fst
  | _, _ => none

end Search

/-! ## Entries -/

/-- What was handled, and what it led to. -/
structure Entry where
  heard : Moment
  clock : Clock
  /-- What was handled; none where the search joined the network. -/
  stimulus : Option Stimulus
  /-- The search that handled it. -/
  before : Search
  outcome : Outcome

namespace Entry

/-- The query that was answered, with the address of the node that answered it. -/
def answered? (entry : Entry) : Option (Address × Query) :=
  match entry.stimulus with
  | some (.packet packet) =>
    (entry.before.matched? entry.heard packet).map fun query => (packet.sender, query)
  | _ => none

/-- What happened to queries: one may have been answered, then others were asked. -/
def occurrences (entry : Entry) : List Occurrence :=
  (entry.answered?.map fun answer => .answered entry.heard answer.1 answer.2).toList ++
    entry.outcome.occurrences entry.heard

/-- The moments of an entry: when it is heard, and then those of its activities. -/
def moments (entry : Entry) : List Moment :=
  entry.heard :: entry.outcome.activities.map (Activity.moment entry.heard)

end Entry

/-- What happened to queries in the course of a journal. -/
def history (journal : List Entry) : List Occurrence := journal.flatMap Entry.occurrences

@[simp] theorem history_append (first second : List Entry) :
    history (first ++ second) = history first ++ history second :=
  List.flatMap_append

@[simp] theorem history_singleton (entry : Entry) : history [entry] = entry.occurrences := by
  simp [history]

/-! ## Runs -/

/-- The journals of a search from its start, with the search that each leads to. -/
inductive Run (setup : Setup) (resolve : Resolver) : List Entry → Search → Prop
  /-- Nothing happened yet. -/
  | start : Run setup resolve [] .start
  /-- The search joins the network, or fails to, before anything else. -/
  | joined {result : Except BootstrapError Unit} {outcome : Outcome} (heard : Moment)
    (clock : Clock) (sendFails : Bool) :
    Search.start.bootstrap? setup resolve sendFails = some (result, outcome) →
    Run setup resolve [⟨heard, clock, none, .start, outcome⟩] outcome.search
  /-- The search handles a stimulus. -/
  | handled {journal : List Entry} {search : Search} {stimulus : Stimulus} {outcome : Outcome}
    (heard : Moment) (clock : Clock) :
    Run setup resolve journal search →
    search.handle? setup heard clock stimulus = some outcome →
    Run setup resolve (journal ++ [⟨heard, clock, some stimulus, search, outcome⟩]) outcome.search

/-- An entry records what its search did: it joined the network, or it handled the stimulus. -/
def Entry.Done (setup : Setup) (resolve : Resolver) (entry : Entry) : Prop :=
  match entry.stimulus with
  | none => entry.before = .start ∧ ∃ sendFails result,
    Search.start.bootstrap? setup resolve sendFails = some (result, entry.outcome)
  | some stimulus =>
    entry.before.handle? setup entry.heard entry.clock stimulus = some entry.outcome

/-- The journal up to an entry leads to the search that handled the entry. -/
theorem Run.before_entry {setup : Setup} {resolve : Resolver} {journal before after : List Entry}
    {search : Search} {entry : Entry} (run : Run setup resolve journal search)
    (split : journal = before ++ entry :: after) :
    Run setup resolve before entry.before ∧ entry.Done setup resolve := by
  induction run generalizing after with
  | start => simp at split
  | joined heard clock sendFails joined =>
    rw [← List.nil_append [_]] at split
    rcases append_singleton_eq_split split with ⟨rfl, rfl, -⟩ | ⟨rest, empty, -⟩
    · exact ⟨.start, rfl, sendFails, _, joined⟩
    · simp at empty
  | handled heard clock run handled ih =>
    rcases append_singleton_eq_split split with ⟨rfl, rfl, -⟩ | ⟨rest, inner, -⟩
    · exact ⟨run, handled⟩
    · exact ih inner

/-- What holds at the start and is kept by each entry holds of every run. -/
@[elab_as_elim]
theorem Run.entrywise {setup : Setup} {resolve : Resolver}
    {motive : List Entry → Search → Prop} {journal : List Entry} {search : Search}
    (run : Run setup resolve journal search) (start : motive [] .start)
    (step : ∀ journal entry, Run setup resolve journal entry.before → motive journal entry.before →
      entry.Done setup resolve → motive (journal ++ [entry]) entry.outcome.search) :
    motive journal search := by
  induction run with
  | start => exact start
  | joined heard clock sendFails joined =>
    exact step [] ⟨heard, clock, none, .start, _⟩ .start start ⟨rfl, sendFails, _, joined⟩
  | handled heard clock run handled ih =>
    exact step _ ⟨heard, clock, some _, _, _⟩ run ih handled

/-- The first part of a journal is the journal of a run. -/
theorem Run.of_append {setup : Setup} {resolve : Resolver} {first second : List Entry}
    {search : Search} (run : Run setup resolve (first ++ second) search) :
    ∃ middle, Run setup resolve first middle := by
  cases second with
  | nil => exact ⟨search, (List.append_nil first) ▸ run⟩
  | cons entry rest => exact ⟨entry.before, (run.before_entry rfl).1⟩

/-- A run leads to what its last entry led to. -/
theorem Run.search_eq {setup : Setup} {resolve : Resolver} {journal : List Entry} {search : Search}
    (run : Run setup resolve journal search) :
    search = (journal.getLast?.map fun entry => entry.outcome.search).getD .start := by
  cases run with
  | start | joined => rfl
  | handled => simp

/-- What holds of a search and itself, and goes on to hold with each entry, holds of a search of a
run and any later one. -/
theorem Run.relate {setup : Setup} {resolve : Resolver} {motive : Search → Search → Prop}
    {journal entries : List Entry} {search later : Search} (refl : ∀ search, motive search search)
    (step : ∀ {journal : List Entry} {search : Search} {entry : Entry},
      Run setup resolve journal entry.before → entry.Done setup resolve →
      motive search entry.before → motive search entry.outcome.search)
    (first : Run setup resolve journal search)
    (second : Run setup resolve (journal ++ entries) later) : motive search later := by
  induction entries using List.reverseRecOn generalizing later with
  | nil =>
    rw [List.append_nil] at second
    rw [first.search_eq, second.search_eq]
    exact refl _
  | append_singleton entries entry ih =>
    rw [← List.append_assoc] at second
    obtain ⟨run, done⟩ := second.before_entry rfl
    have last : later = entry.outcome.search := by simpa using second.search_eq
    rw [last]
    exact step run done (ih run)

/-- The clock never goes back in the course of a journal. -/
def InOrder (journal : List Entry) : Prop :=
  (journal.flatMap Entry.moments).Pairwise fun earlier later => earlier ≤ later

instance (journal : List Entry) : Decidable (InOrder journal) :=
  inferInstanceAs (Decidable (List.Pairwise _ _))

theorem InOrder.append_singleton {journal : List Entry} {entry : Entry} (order : InOrder journal)
    (after : ∀ earlier ∈ journal.flatMap Entry.moments, earlier ≤ entry.heard)
    (within : entry.moments.Pairwise fun earlier later => earlier ≤ later) :
    InOrder (journal ++ [entry]) := by
  rw [InOrder, List.flatMap_append, List.flatMap_singleton]
  refine List.pairwise_append.mpr ⟨order, within, ?_⟩
  intro earlier member later own
  have heard := after earlier member
  rcases List.mem_cons.mp own with rfl | acted
  · exact heard
  · exact Nat.le_trans heard ((List.pairwise_cons.mp within).1 later acted)

theorem Entry.now_mem_moments {entry : Entry} {occurrence : Occurrence}
    (member : occurrence ∈ entry.occurrences) : occurrence.now ∈ entry.moments := by
  rcases List.mem_append.mp member with answer | asked
  · obtain ⟨answer, -, rfl⟩ := Option.map_eq_some_iff.mp (Option.mem_toList.mp answer)
    exact List.mem_cons_self
  · obtain ⟨activity, done, asked⟩ := List.mem_flatMap.mp asked
    obtain ⟨query, -, rfl⟩ := List.mem_map.mp asked
    exact List.mem_cons_of_mem _ (List.mem_map_of_mem done)

/-- What happened to queries within an entry is in order if its moments are. -/
theorem Entry.pairwise_occurrences {entry : Entry}
    (order : entry.moments.Pairwise fun earlier later => earlier ≤ later) :
    entry.occurrences.Pairwise fun earlier later => earlier.now ≤ later.now := by
  obtain ⟨first, others⟩ := List.pairwise_cons.mp order
  rw [Entry.occurrences, List.pairwise_append]
  refine ⟨?_, ?_, ?_⟩
  · cases entry.answered? <;> simp
  · rw [Outcome.occurrences, List.pairwise_flatMap]
    constructor
    · intro activity _
      rw [askedAt, List.pairwise_map]
      exact List.pairwise_of_forall fun _ _ => Nat.le_refl _
    · refine (List.pairwise_map.mp others).imp ?_
      intro earlier later apart asked here askedLater there
      obtain ⟨query, -, rfl⟩ := List.mem_map.mp here
      obtain ⟨query, -, rfl⟩ := List.mem_map.mp there
      exact apart
  · intro answer here asked there
    obtain ⟨answer, -, rfl⟩ := Option.map_eq_some_iff.mp (Option.mem_toList.mp here)
    obtain ⟨activity, done, there⟩ := List.mem_flatMap.mp there
    obtain ⟨query, -, rfl⟩ := List.mem_map.mp there
    exact first _ (List.mem_map_of_mem done)

/-- The moments of what happened to queries are in order where the clock never goes back. -/
theorem InOrder.history {journal : List Entry} (order : InOrder journal) :
    (history journal).Pairwise fun earlier later => earlier.now ≤ later.now := by
  obtain ⟨within, between⟩ := List.pairwise_flatMap.mp order
  refine List.pairwise_flatMap.mpr
    ⟨fun entry member => Entry.pairwise_occurrences (within entry member), between.imp ?_⟩
  intro earlier later apart occurrence mine other theirs
  exact apart _ (Entry.now_mem_moments mine) _ (Entry.now_mem_moments theirs)

/-! ## Recording -/

namespace Search

/-- A stimulus at some moment, while the client takes results and nothing fails. -/
def Event.undisturbed (now : Moment) (stimulus : Stimulus) : Event where
  heard := now
  clock := .still now
  stimulus
  conditions := { listening := true, sendFails := fun _ => false }

/-- The journal of events that are handled one after another, and the search at its end. The
conditions play no part in it. -/
def journal? (setup : Setup) : List Event → Search → Option (List Entry × Search)
  | [], search => some ([], search)
  | event :: rest, search => do
    let outcome ← search.handle? setup event.heard event.clock event.stimulus
    let (entries, last) ← journal? setup rest outcome.search
    return (⟨event.heard, event.clock, some event.stimulus, search, outcome⟩ :: entries, last)

theorem journal?_cons (setup : Setup) (event : Event) (rest : List Event) (search : Search) :
    search.journal? setup (event :: rest) =
      (search.handle? setup event.heard event.clock event.stimulus).bind fun outcome =>
        (outcome.search.journal? setup rest).map fun recorded =>
          (⟨event.heard, event.clock, some event.stimulus, search, outcome⟩ :: recorded.1,
            recorded.2) := by
  rw [journal?]
  cases search.handle? setup event.heard event.clock event.stimulus with
  | none => rfl
  | some outcome =>
    simp only [Option.bind_eq_bind, Option.bind_some]
    cases outcome.search.journal? setup rest <;> rfl

/-- A run of events reports on the outcomes of its journal. -/
theorem run?_eq_map_journal? (setup : Setup) (events : List Event) (search : Search) :
    search.run? setup events =
      (search.journal? setup events).map fun recorded =>
        (recorded.2, List.zipWith
          (fun event entry => entry.outcome.report setup.settings.ourId event.conditions)
          events recorded.1) := by
  induction events generalizing search with
  | nil => rfl
  | cons event rest ih =>
    rw [run?, journal?]
    cases search.handle? setup event.heard event.clock event.stimulus with
    | none => rfl
    | some outcome =>
      simp only [Option.bind_eq_bind, Option.bind_some, ih outcome.search]
      cases outcome.search.journal? setup rest <;> rfl

end Search

/-- What is recorded continues a run. -/
theorem Run.journal? {setup : Setup} {resolve : Resolver} {journal entries : List Entry}
    {search last : Search} {events : List Search.Event} (run : Run setup resolve journal search)
    (recorded : search.journal? setup events = some (entries, last)) :
    Run setup resolve (journal ++ entries) last := by
  induction events generalizing journal entries search with
  | nil =>
    obtain ⟨rfl, rfl⟩ := Prod.mk.inj (Option.some.inj recorded)
    rw [List.append_nil]
    exact run
  | cons event rest ih =>
    rw [Search.journal?, Option.bind_eq_bind, Option.bind_eq_some_iff] at recorded
    obtain ⟨outcome, handled, recorded⟩ := recorded
    rw [Option.bind_eq_bind, Option.bind_eq_some_iff] at recorded
    obtain ⟨⟨others, final⟩, remaining, recorded⟩ := recorded
    obtain ⟨rfl, rfl⟩ := Prod.mk.inj (Option.some.inj recorded)
    rw [List.append_cons]
    exact ih (run.handled event.heard event.clock handled) remaining

/-- What is recorded from the start, and told by some account of it, is a run. -/
theorem Run.of_map_journal? {α : Type} {setup : Setup} {resolve : Resolver}
    {events : List Search.Event} {account : List Entry × Search → α} {told : α}
    (tells : (Search.start.journal? setup events).map account = some told) :
    ∃ journal search, Run setup resolve journal search ∧ account (journal, search) = told := by
  obtain ⟨⟨journal, search⟩, recorded, same⟩ := Option.map_eq_some_iff.mp tells
  exact ⟨journal, search, Run.start.journal? recorded, same⟩

/-! ## A sample

One node, whose transaction numbers are about to wrap, is hinted twice, asked, asked again too
early, and asked again after the cooldown. It answers both questions, and repeats its first answer.
-/

namespace Sample

def identifier (octet : UInt8) : Identifier := ⟨List.replicate 20 octet, List.length_replicate⟩

def content : InfoHash := identifier 9

def node : Address := .v4 ⟨10, 0, 0, 1⟩ 6881

def peer (number : UInt8) : Address := .v4 ⟨10, 0, 1, number⟩ 6881

def neighbour (number : UInt8) : Contact := ⟨identifier number, .v4 ⟨10, 0, 2, number⟩ 6881⟩

def setup : Setup where
  settings := { ourId := identifier 1, port := 0, router := none, cooldown := 5 }
  chance := { firstTransaction := fun _ => 65535, place := fun _ _ => 0 }

/-- The answer of the node, under a number, that lists peers. -/
def answer (number : UInt16) (peers : List Address) : Stimulus :=
  .packet {
    payload := (Message.response (Bytes.ofWord number)
      { id := identifier 2, token := none, values := some peers, nodes := none }).print
    sender := node }

/-- A response of a node, under a number, that lists peers. -/
def response (sender : Address) (number : UInt16) (peers : List Address) : Packet where
  payload := (Message.response (Bytes.ofWord number)
    { id := identifier 2, token := none, values := some peers, nodes := none }).print
  sender

/-- An answer under a number that refers to nodes. -/
def referral (sender : Address) (number : UInt16) (contacts : List Contact) : Stimulus :=
  .packet {
    payload := (Message.response (Bytes.ofWord number)
      { id := identifier 2, token := none, values := none
        nodes := some (Contact.compactList contacts) }).print
    sender }

def stimuli : List (Moment × Stimulus) :=
  [(0, .hint ⟨identifier 2, node⟩), (0, .hint ⟨identifier 3, node⟩), (0, .request content),
    (1, .request content), (2, answer 0 [peer 1, peer 2, peer 1]), (7, .request content),
    (8, answer 0 [peer 4]), (9, answer 1 [peer 2, peer 3])]

def events : List Search.Event :=
  stimuli.map fun stimulus => .undisturbed stimulus.1 stimulus.2

/-- What happens to queries in the sample. -/
def occurrences : List Occurrence :=
  [.asked 0 node ⟨65535, .ping, none⟩, .asked 0 node ⟨0, .getPeers, some content⟩,
    .answered 2 node ⟨0, .getPeers, some content⟩, .asked 7 node ⟨1, .getPeers, some content⟩,
    .answered 9 node ⟨1, .getPeers, some content⟩]

end Sample

end PeerDiscovery
