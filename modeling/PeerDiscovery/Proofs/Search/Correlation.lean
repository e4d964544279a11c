import Mathlib.Data.List.Forall2
import PeerDiscovery.Proofs.Krpc.RoundTrip
import PeerDiscovery.Proofs.Search.Counting

/-!
# Queries and their responses

A response does not say what it answers. All that ties it to a query is the endpoint that it comes
from and its transaction identifier, and numbers are used again. `Run.correlated` says that this is
enough: at any time at most one query is outstanding under a number of a node, a response is matched
to that query exactly if there is one, and then it is outstanding no more. What goes out under the
number is that very query, and what comes back goes to the content it asked about.
-/

namespace PeerDiscovery

/-! ## What goes out -/

/-- The request that a query sends. Only proper queries send one. -/
def Query.request? (query : Query) : Option Request :=
  match query.method, query.infoHash with
  | .ping, none => some .ping
  | .getPeers, some infoHash => some (.getPeers infoHash)
  | _, _ => none

/-- A datagram goes to the node that a query is recorded at, and reads back as that query: from us,
under its number, with its request. -/
def Spells (ourId : Identifier) (datagram : Datagram) (recorded : Address × Query) : Prop :=
  datagram.destination = recorded.1 ∧ ∃ request, recorded.2.request? = some request ∧
    Message.parse datagram.message.print =
      .ok ⟨Bytes.ofWord recorded.2.transaction, some ourId, .query request⟩

namespace Spells

variable {ourId : Identifier}

theorem ofWord_length_le (transaction : UInt16) :
    (Bytes.ofWord transaction).length ≤ Numeral.max64 := by
  change 2 ≤ Numeral.max64
  decide

theorem ping (destination : Address) (transaction : UInt16) :
    Spells ourId ⟨destination, .ping (Bytes.ofWord transaction) ourId⟩
      (destination, ⟨transaction, .ping, none⟩) := by
  have name : (Utf8.encode Method.ping.name).length ≤ Numeral.max64 := by decide
  exact ⟨rfl, .ping, rfl, Message.parse_print trivial ⟨ofWord_length_le _, name⟩⟩

theorem getPeers (destination : Address) (transaction : UInt16) (infoHash : InfoHash) :
    Spells ourId ⟨destination, .getPeers (Bytes.ofWord transaction) ourId infoHash⟩
      (destination, ⟨transaction, .getPeers, some infoHash⟩) := by
  have name : (Utf8.encode Method.getPeers.name).length ≤ Numeral.max64 := by decide
  exact ⟨rfl, .getPeers infoHash, rfl, Message.parse_print trivial ⟨ofWord_length_le _, name⟩⟩

theorem activity (activity : Activity) :
    List.Forall₂ (Spells ourId) (activity.datagrams ourId) activity.queries := by
  cases activity with
  | ping destination transaction => exact .cons (ping destination transaction) .nil
  | round now infoHash asked =>
    rw [Activity.datagrams, Activity.queries, List.forall₂_map_left_iff,
      List.forall₂_map_right_iff, List.forall₂_same]
    intro query _
    exact getPeers query.1 query.2 infoHash

theorem outcome (outcome : Outcome) :
    List.Forall₂ (Spells ourId) (outcome.datagrams ourId) outcome.queries := by
  rw [Outcome.datagrams, Outcome.queries]
  induction outcome.activities with
  | nil => exact .nil
  | cons first rest ih =>
    rw [List.flatMap_cons, List.flatMap_cons]
    exact List.rel_append (activity first) ih

end Spells

/-! ## What comes in -/

/-- An entry is counted as matched exactly if it answered a query. -/
theorem Entry.Done.responsesMatched {setup : Setup} {resolve : Resolver} {entry : Entry}
    (done : entry.Done setup resolve) :
    entry.outcome.search.stats.responsesMatched =
      entry.before.stats.responsesMatched + if entry.answered?.isSome then 1 else 0 := by
  obtain ⟨heard, clock, stimulus, before, outcome⟩ := entry
  cases stimulus with
  | none =>
    obtain ⟨rfl, sendFails, result, joined⟩ := done
    exact (SameFindings.bootstrap joined).responsesMatched.trans (UInt64.add_zero _).symm
  | some stimulus =>
    change before.handle? setup heard clock stimulus = some outcome at done
    cases stimulus with
    | hint contact =>
      exact (SameFindings.hint done).responsesMatched.trans (UInt64.add_zero _).symm
    | request infoHash =>
      exact (SameFindings.request done).responsesMatched.trans (UInt64.add_zero _).symm
    | packet packet =>
      have received := (before.receive_received heard packet).matched_eq
      rw [Entry.answered?, Option.isSome_map]
      rcases Search.handle?_packet_cases done with
        ⟨-, rfl⟩ | ⟨delivery, followed, -, following, rfl⟩
      · exact received
      · exact (SameFindings.followAll following).responsesMatched.trans received

/-! ## Runs -/

/-- The queries that wait under a number of a node, according to the table. -/
def Search.waiting (search : Search) (address : Address) (number : UInt16) : Option Query :=
  (search.table.get? address).bind fun node => node.pending[number]?

theorem Explains.outstanding_eq {setup : Setup} {history : List Occurrence} {search : Search}
    (explained : Explains setup history search.table) (address : Address) (number : UInt16) :
    outstanding history address number = (search.waiting address number).toList := by
  rw [← outstanding_occurrencesAt, Search.waiting]
  cases found : search.table.get? address with
  | none =>
    rw [explained.occurrencesAt_of_unknown found]
    rfl
  | some node => exact (explained.life found).dealings.outstanding_eq number

/-- A response that is matched answers the last thing that happened under its number, and that is a
query. -/
theorem Explains.asked_of_answered {setup : Setup} {history : List Occurrence} {search : Search}
    (explained : Explains setup history search.table) {before after : List Occurrence}
    {time : Moment} {address : Address} {query : Query}
    (split : history = before ++ .answered time address query :: after) :
    ∃ earlier now quiet, before = earlier ++ .asked now address query :: quiet ∧
      Quiet address query.transaction quiet := by
  obtain ⟨node, life, waiting⟩ := explained.before_occurrence split
  change Life _ (setup.chance.firstTransaction address) address node (occurrencesAt address before)
    at life
  obtain ⟨first, now, later, here, silent⟩ := life.dealings.asked_of_pending waiting
  obtain ⟨earlier, quiet, rfl, same⟩ := split_of_occurrencesAt here
  refine ⟨earlier, now, quiet, rfl, quiet_occurrencesAt.mp ?_⟩
  have rest : occurrencesAt address quiet = later := by
    rw [occurrencesAt_append, occurrencesAt_asked_cons, same] at here
    exact List.tail_eq_of_cons_eq (List.append_cancel_left here)
  rw [rest]
  exact silent

/-- What ties the queries of a run to their responses. -/
structure Correlated (setup : Setup) (journal : List Entry) (search : Search) : Prop where
  /-- What waits at a node is what is outstanding there. -/
  outstanding_eq : ∀ address number,
    outstanding (history journal) address number = (search.waiting address number).toList
  outstanding_le : ∀ address number, (outstanding (history journal) address number).length ≤ 1
  /-- A response closes the query that is outstanding under its number at its sender. Nothing else
  closes a query. -/
  answered_iff : ∀ {before entry after}, journal = before ++ entry :: after →
    ∀ address query, entry.answered? = some (address, query) ↔
      ∃ payload number sender reply, entry.stimulus = some (.packet ⟨payload, address⟩) ∧
        Message.parse payload = .ok ⟨Bytes.ofWord number, sender, .response reply⟩ ∧
        query ∈ outstanding (history before) address number
  /-- A response that closes a query is counted as matched, and nothing else is. -/
  counted : ∀ entry ∈ journal, entry.outcome.search.stats.responsesMatched =
    entry.before.stats.responsesMatched + if entry.answered?.isSome then 1 else 0
  matched : ∀ {later time address query},
    (history journal)[later]? = some (.answered time address query) →
      ∃ place, Matches (history journal) place later ∧
        ∀ other, Matches (history journal) other later → other = place
  matched_once : ∀ {place later other}, Matches (history journal) place later →
    Matches (history journal) place other → later = other
  /-- The datagrams of an entry are its queries, spelled out in the same order. -/
  spelled : ∀ entry ∈ journal, List.Forall₂ (Spells setup.settings.ourId)
    (entry.outcome.datagrams setup.settings.ourId) entry.outcome.queries
  /-- Peers come from the response to a question for them that was recorded at its sender. -/
  batch : ∀ {before entry after}, journal = before ++ entry :: after →
    ∀ batch, entry.outcome.batch = some batch →
      ∃ payload address number query, entry.stimulus = some (.packet ⟨payload, address⟩) ∧
        entry.answered? = some (address, query) ∧ query.asksPeersOf batch.infoHash = true ∧
        query ∈ outstanding (history before) address number

section Correlated

variable {setup : Setup} {resolve : Resolver} {journal before after : List Entry} {search : Search}
  {entry : Entry}

theorem Entry.answered?_eq_some_iff {address : Address} {query : Query} :
    entry.answered? = some (address, query) ↔
      ∃ payload, entry.stimulus = some (.packet ⟨payload, address⟩) ∧
        entry.before.matched? entry.heard ⟨payload, address⟩ = some query := by
  rw [answered?]
  constructor
  · intro answered
    split at answered
    · rename_i packet shown
      obtain ⟨closed, matched, same⟩ := Option.map_eq_some_iff.mp answered
      obtain ⟨rfl, rfl⟩ := Prod.mk.inj same
      exact ⟨packet.payload, shown, matched⟩
    · cases answered
  · intro given
    rcases given with ⟨payload, shown, matched⟩
    rw [shown]
    exact Option.map_eq_some_iff.mpr ⟨query, matched, rfl⟩

theorem Run.answered_iff (run : Run setup resolve journal search)
    (split : journal = before ++ entry :: after) (address : Address) (query : Query) :
    entry.answered? = some (address, query) ↔
      ∃ payload number sender reply, entry.stimulus = some (.packet ⟨payload, address⟩) ∧
        Message.parse payload = .ok ⟨Bytes.ofWord number, sender, .response reply⟩ ∧
        query ∈ outstanding (history before) address number := by
  have explained := (run.before_entry split).1.explains
  rw [Entry.answered?_eq_some_iff]
  constructor
  · intro given
    rcases given with ⟨payload, stimulus, matched⟩
    obtain ⟨number, sender, reply, node, parsed, found, waiting⟩ :=
      Search.matched?_eq_some_iff.mp matched
    refine ⟨payload, number, sender, reply, stimulus, parsed, ?_⟩
    rw [explained.outstanding_eq, Option.mem_toList, Search.waiting, found]
    exact waiting
  · intro given
    rcases given with ⟨payload, number, sender, reply, stimulus, parsed, member⟩
    rw [explained.outstanding_eq, Option.mem_toList, Search.waiting] at member
    obtain ⟨node, found, waiting⟩ := Option.bind_eq_some_iff.mp member
    exact ⟨payload, stimulus, Search.matched?_eq_some_iff.mpr
      ⟨number, sender, reply, node, parsed, found, waiting⟩⟩

/-- A batch is handed over only for a response to a question for peers of its content. -/
theorem Entry.Done.answered_of_batch (done : entry.Done setup resolve) {batch : Batch}
    (handed : entry.outcome.batch = some batch) :
    ∃ address query, entry.answered? = some (address, query) ∧
      query.asksPeersOf batch.infoHash = true := by
  rcases done.findings with ⟨-, -, none⟩ | ⟨infoHash, values, nodes, lists, -, brought⟩
  · rw [none] at handed
    cases handed
  · obtain ⟨packet, shown, transaction, sender, reply, query, -, matched, asks, -⟩ := lists
    have own : batch.infoHash = infoHash := by
      rw [handed, Delivery.batch?] at brought
      split at brought
      · cases brought
      · rw [Option.some.inj brought]
    refine ⟨packet.sender, query, ?_, by rw [own]; exact asks⟩
    exact answered?_eq_some_iff.mpr ⟨packet.payload, shown, matched⟩

/-- In every run, what is pending is what was asked and not answered yet, and an answer is matched
to what it answers. -/
theorem Run.correlated (run : Run setup resolve journal search) :
    Correlated setup journal search where
  outstanding_eq := run.explains.outstanding_eq
  outstanding_le address number := by
    rw [run.explains.outstanding_eq]
    exact Option.length_toList_le
  answered_iff := run.answered_iff
  counted := by
    intro entry member
    obtain ⟨before, after, split⟩ := List.append_of_mem member
    exact (run.before_entry split).2.responsesMatched
  matched := by
    intro later time address query found
    obtain ⟨before, after, split, rfl⟩ := split_of_getElem? found
    obtain ⟨earlier, now, quiet, rfl, silent⟩ := run.explains.asked_of_answered split
    rw [List.append_assoc, List.cons_append] at split
    have here := Matches.of_split split silent
    have place : (earlier ++ .asked now address query :: quiet).length =
        earlier.length + 1 + quiet.length := by
      rw [List.length_append, List.length_cons, Nat.add_comm quiet.length, Nat.add_assoc]
    rw [place]
    exact ⟨_, here, fun other another => another.unique_place here⟩
  matched_once := Matches.unique_later
  spelled entry _ := Spells.outcome entry.outcome
  batch := by
    intro before entry after split batch handed
    obtain ⟨address, query, answered, asks⟩ :=
      (run.before_entry split).2.answered_of_batch handed
    obtain ⟨payload, number, sender, reply, shown, -, waiting⟩ :=
      (run.answered_iff split address query).mp answered
    exact ⟨payload, address, number, query, shown, answered, asks, waiting⟩

/-- In the sample both questions are answered, and the ping is outstanding at the end. -/
theorem Run.correlated_sample :
    ∃ journal search, Run Sample.setup .literal journal search ∧
      history journal = Sample.occurrences ∧
      search.waiting Sample.node 65535 = some ⟨65535, .ping, none⟩ ∧
      Correlated Sample.setup journal search := by
  have told : (Search.start.journal? Sample.setup Sample.events).map (fun recorded =>
      (history recorded.1, recorded.2.waiting Sample.node 65535)) =
        some (Sample.occurrences, some ⟨65535, .ping, none⟩) := by decide +kernel
  obtain ⟨journal, search, run, same⟩ := Run.of_map_journal? told
  obtain ⟨story, waits⟩ := Prod.mk.inj same
  exact ⟨journal, search, run, story, waits, run.correlated⟩

end Correlated

end PeerDiscovery
