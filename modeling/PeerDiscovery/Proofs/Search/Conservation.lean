import PeerDiscovery.Proofs.Contact
import PeerDiscovery.Proofs.Search.Counting
import PeerDiscovery.Proofs.Search.Restraint

/-!
# The counters and the state

The seven counters of a search are bumped apart from the changes they report. `Run.conserved` says
that they tell the truth all the same: in every state that a run leads to, and whatever failed on
the way, each counter is what the table, the peers and the journal say it should be. Counters wrap,
so the equations are those of 64-bit words. -/

namespace PeerDiscovery

/-! ## References of a list -/

/-- How many nodes a compact list refers to: as many as it has pieces of the size of a contact, and
none where it is not made of such pieces. -/
def referenceCount (nodes : Option Bytes) : Nat :=
  match nodes with
  | none => 0
  | some bytes =>
    if bytes.length % Contact.compactSize = 0 then bytes.length / Contact.compactSize else 0

/-- A list of nodes has a reference for each 26 octets, and none if octets are left over. -/
theorem Search.length_references (nodes : Option Bytes) :
    (references nodes).length = referenceCount nodes := by
  cases nodes with
  | none => rfl
  | some bytes =>
    rw [references, referenceCount]
    split
    · rename_i even
      obtain ⟨contacts, -, listed, counted, -⟩ := Contact.exists_listOfCompact even
      rw [listed]
      exact counted
    · rename_i odd
      rw [Contact.listOfCompact, if_neg odd]
      rfl

/-! ## What a journal accounts for -/

namespace Entry

/-- Whether an entry handled a response that came from a known node. -/
def hears (entry : Entry) : Bool :=
  match entry.stimulus with
  | some (.packet packet) => entry.before.hears packet
  | _ => false

/-- How many nodes an entry added to the table by joining the network or by a hint. -/
def admitted (entry : Entry) : Nat :=
  match entry.stimulus with
  | none | some (.hint _) => entry.outcome.search.table.size - entry.before.table.size
  | _ => 0

/-- How many nodes the answer to a question for peers refers to, if an entry matched one. -/
def referred (entry : Entry) : Nat :=
  match entry.stimulus with
  | some (.packet packet) =>
    match Message.parse packet.payload, entry.before.matched? entry.heard packet with
    | .ok ⟨_, _, .response reply⟩, some query =>
      if query.method = .getPeers then referenceCount reply.nodes else 0
    | _, _ => 0
  | _ => 0

end Entry

/-- The search pinged the router when it joined the network, and the ping could not be sent. -/
def LostPing (setup : Setup) (resolve : Resolver) (journal : List Entry) : Prop :=
  ∃ entry ∈ journal, entry.stimulus = none ∧
    Search.start.bootstrap? setup resolve true = some (.error .sendFailed, entry.outcome)

/-- The counters agree with the state and with what happened. -/
structure Conserved (setup : Setup) (resolve : Resolver) (journal : List Entry) (search : Search) :
    Prop where
  nodesCreated_eq : search.stats.nodesCreated = .ofNat search.table.size
  /-- Every query that was recorded is counted as sent, except for a ping that was lost, and every
  query that is no longer open was matched. -/
  sent_eq : ∃ lost : UInt64,
    (lost = 1 ∧ LostPing setup resolve journal ∨ lost = 0 ∧ ¬ LostPing setup resolve journal) ∧
      search.stats.pingsSent + search.stats.getPeersSent + lost =
        search.stats.responsesMatched + .ofNat search.table.openCount
  peersFound_eq : search.stats.peersFound = .ofNat (search.found.keys.map search.knownPeers).sum
  responses_eq : search.stats.responsesMatched + search.stats.staleResponses =
    .ofNat (journal.countP Entry.hears)
  references_eq : search.stats.nodesCreated + search.stats.duplicateNodes =
    .ofNat ((journal.map Entry.admitted).sum + (journal.map Entry.referred).sum)

/-! ## Peers -/

/-- The count of peers is the sum over any contents that include all with peers. -/
def CountsPeers (search : Search) : Prop :=
  ∀ contents : List InfoHash, contents.Nodup →
    (∀ infoHash, infoHash ∉ contents → search.knownPeers infoHash = 0) →
    search.stats.peersFound = .ofNat (contents.map search.knownPeers).sum

theorem sum_map_of_step {contents : List InfoHash} (distinct : contents.Nodup)
    {before after : InfoHash → Nat} {infoHash : InfoHash} {more : Nat}
    (step : ∀ other, after other = before other + if infoHash = other then more else 0) :
    (contents.map after).sum =
      (contents.map before).sum + if infoHash ∈ contents then more else 0 := by
  induction contents with
  | nil => rfl
  | cons first rest ih =>
    obtain ⟨fresh, distinct⟩ := List.nodup_cons.mp distinct
    rw [List.map_cons, List.sum_cons, List.map_cons, List.sum_cons, step, ih distinct]
    by_cases here : infoHash = first
    · subst here
      rw [if_pos rfl, if_neg fresh, if_pos List.mem_cons_self]
      omega
    · have elsewhere : infoHash ∈ first :: rest ↔ infoHash ∈ rest := by simp [here]
      rw [if_neg here, if_congr elsewhere rfl rfl]
      omega

namespace CountsPeers

variable {search next : Search}

/-- The count of peers looks at what was found and at nothing else. -/
theorem of_eq (counts : CountsPeers search) (found : next.found = search.found)
    (peersFound : next.stats.peersFound = search.stats.peersFound) : CountsPeers next := by
  have same : next.knownPeers = search.knownPeers := by
    funext infoHash
    rw [Search.knownPeers, Search.peersOf_of_found_eq found, Search.knownPeers]
  intro contents distinct covered
  rw [same] at covered ⊢
  rw [peersFound]
  exact counts contents distinct covered

/-- Fresh peers are counted as they are found. -/
theorem insert (counts : CountsPeers search) {infoHash : InfoHash} {values : List Address}
    (found : next.found =
      search.found.insert infoHash (Search.freshPeers (search.peersOf infoHash) values).2)
    (peersFound : next.stats.peersFound = search.stats.peersFound +
      .ofNat (Search.freshPeers (search.peersOf infoHash) values).1.length) :
    CountsPeers next := by
  generalize fresh : (Search.freshPeers (search.peersOf infoHash) values).1.length = more
    at peersFound
  have step : ∀ other, next.knownPeers other =
      search.knownPeers other + if infoHash = other then more else 0 := by
    intro other
    rw [Search.knownPeers, Search.peersOf_insert found, Search.knownPeers]
    split
    · rename_i here
      rw [Search.size_seen_freshPeers, fresh, here]
    · rfl
  intro contents distinct covered
  have total := counts contents distinct fun other outside => by
    have none := covered other outside
    rw [step] at none
    omega
  rw [peersFound, total, sum_map_of_step distinct step, UInt64.ofNat_add]
  split
  · rfl
  · rename_i outside
    have none := covered infoHash outside
    rw [step, if_pos rfl] at none
    obtain rfl : more = 0 := by omega
    rfl

end CountsPeers

/-! ## What a step adds to the accounts -/

/-- From one search to another the counters moved along with the state: `lost` queries were recorded
and not counted as sent, so many responses of known nodes were heard, and so many nodes were
referred to. -/
structure Tracked (search next : Search) (lost : UInt64) (heard references : Nat) : Prop where
  created : ∃ created, next.table.size = search.table.size + created ∧
    next.stats.nodesCreated = search.stats.nodesCreated + .ofNat created
  sent_eq : next.stats.pingsSent + next.stats.getPeersSent + lost +
      (search.stats.responsesMatched + .ofNat search.table.openCount) =
    search.stats.pingsSent + search.stats.getPeersSent +
      (next.stats.responsesMatched + .ofNat next.table.openCount)
  peers : CountsPeers search → CountsPeers next
  responses_eq : next.stats.responsesMatched + next.stats.staleResponses =
    search.stats.responsesMatched + search.stats.staleResponses + .ofNat heard
  references_eq : next.stats.nodesCreated + next.stats.duplicateNodes =
    search.stats.nodesCreated + search.stats.duplicateNodes + .ofNat references

namespace Tracked

variable {search middle next : Search} {lost lost' : UInt64}
  {heard heard' references references' : Nat}

theorem trans (first : Tracked search middle lost heard references)
    (second : Tracked middle next lost' heard' references') :
    Tracked search next (lost + lost') (heard + heard') (references + references') where
  created := by
    obtain ⟨created, size, counter⟩ := first.created
    obtain ⟨created', size', counter'⟩ := second.created
    refine ⟨created + created', by omega, ?_⟩
    rw [counter', counter, UInt64.ofNat_add, UInt64.add_assoc]
  sent_eq := by
    have one := first.sent_eq
    have two := second.sent_eq
    grind
  peers counts := second.peers (first.peers counts)
  responses_eq := by
    rw [second.responses_eq, first.responses_eq, UInt64.ofNat_add, UInt64.add_assoc]
  references_eq := by
    rw [second.references_eq, first.references_eq, UInt64.ofNat_add, UInt64.add_assoc]

/-- Whatever a search asks, it hears nothing. -/
theorem of_counted {created duplicates pings questions : Nat}
    (counted : Counted search next created duplicates pings questions)
    (same : SameFindings search next) : Tracked search next 0 0 (created + duplicates) where
  created := ⟨created, counted.size_eq, counted.nodesCreated_eq⟩
  sent_eq := by
    rw [counted.pingsSent_eq, counted.getPeersSent_eq, same.responsesMatched,
      counted.openCount_eq, UInt64.ofNat_add, UInt64.ofNat_add]
    grind
  peers counts := counts.of_eq same.found same.peersFound
  responses_eq := by
    rw [same.responsesMatched, same.staleResponses]
    exact (UInt64.add_zero _).symm
  references_eq := by
    rw [counted.nodesCreated_eq, counted.duplicateNodes_eq, UInt64.ofNat_add]
    ac_rfl

/-- A datagram is heard or not, and nobody is referred to yet. -/
theorem of_received {now : Moment} {packet : Packet}
    (received : Search.Received search now packet next)
    (closes : (search.matched? now packet).isSome → search.hears packet) :
    Tracked search next 0 (if search.hears packet then 1 else 0) 0 where
  created := ⟨0, received.size_eq, received.nodesCreated_eq.trans (UInt64.add_zero _).symm⟩
  sent_eq := by
    rw [received.pingsSent_eq, received.getPeersSent_eq, received.openCount_eq,
      received.matched_eq, UInt64.ofNat_add]
    split <;> grind
  peers counts := by
    rcases received.peersFound_eq with ⟨found, same⟩ | ⟨infoHash, values, found, more⟩
    · exact counts.of_eq found same
    · exact counts.insert found more
  responses_eq := by
    rw [received.matched_eq, received.stale_eq]
    cases matched : search.matched? now packet with
    | none => cases search.hears packet <;> simp [UInt64.add_assoc]
    | some query =>
      rw [matched] at closes
      rw [closes rfl, Option.isSome_some, Option.isNone_some, Bool.and_false]
      change _ + 1 + (_ + 0) = _ + _ + 1
      grind
  references_eq := by
    rw [received.nodesCreated_eq, received.duplicateNodes_eq]
    exact (UInt64.add_zero _).symm

end Tracked

/-! ## Entries -/

namespace Search

variable {search : Search} {now : Moment} {packet : Packet}

/-- Only a response of a known node closes a query. -/
theorem hears_of_matched? (closes : (search.matched? now packet).isSome) :
    search.hears packet = true := by
  obtain ⟨query, matched⟩ := Option.isSome_iff_exists.mp closes
  obtain ⟨number, sender, reply, node, parsed, found, -⟩ := matched?_eq_some_iff.mp matched
  rw [hears_of_parse parsed, found]
  rfl

end Search

section Entries

variable {setup : Setup} {resolve : Resolver} {journal : List Entry} {search : Search}
  {heard : Moment} {clock : Clock} {outcome : Outcome}

/-- A hint adds its node to the accounts if it is new. -/
theorem Tracked.hint {contact : Contact}
    (handled : search.hint? setup contact = some outcome) :
    ∃ created, outcome.search.table.size = search.table.size + created ∧
      Tracked search outcome.search 0 0 created := by
  have counted := Counted.hint handled
  exact ⟨_, counted.size_eq, .of_counted counted (.hint handled)⟩

theorem Tracked.request {infoHash : InfoHash}
    (handled : search.request? setup heard infoHash = some outcome) :
    Tracked search outcome.search 0 0 0 :=
  .of_counted (Counted.request handled) (.request handled)

/-- Once a datagram was taken in, each node that it refers to joins or is counted as a duplicate. -/
theorem Counted.packet (restrained : Restrained setup (history journal) search) {packet : Packet}
    (handled : search.handle? setup heard clock (.packet packet) = some outcome) :
    ∃ created duplicates,
      Entry.referred ⟨heard, clock, some (.packet packet), search, outcome⟩ =
          created + duplicates ∧
        Counted (search.receive heard packet).1 outcome.search created duplicates 0
          outcome.queries.length ∧
        SameFindings (search.receive heard packet).1 outcome.search := by
  rcases Search.handle?_packet_cases handled with
    ⟨quiet, rfl⟩ | ⟨delivery, followed, brought, following, rfl⟩
  · refine ⟨0, 0, ?_, .refl _, .refl _⟩
    unfold Entry.referred
    dsimp only
    split
    · rename_i matched
      rcases restrained.closes matched with ⟨ping, -⟩ | ⟨infoHash, -, -, delivery, brought, -⟩
      · rw [ping, if_neg (by decide)]
      · rw [quiet] at brought
        cases brought
    · rfl
  · obtain ⟨transaction, sender, reply, query, parsed, matched, asks, nodes⟩ :=
      Search.matched_of_delivery brought
    obtain ⟨created, duplicates, all, counted⟩ := Counted.followAll following
    simp only [Query.asksPeersOf, Bool.and_eq_true, decide_eq_true_eq] at asks
    have same := SameFindings.followAll following
    refine ⟨created, duplicates, ?_, counted, same⟩
    rw [all, Search.length_references, nodes]
    unfold Entry.referred
    simp only [parsed, matched, asks.1, if_true]

/-- What a datagram refers to is followed. -/
theorem Tracked.packet (restrained : Restrained setup (history journal) search) {packet : Packet}
    (handled : search.handle? setup heard clock (.packet packet) = some outcome) :
    Tracked search outcome.search 0 (if search.hears packet then 1 else 0)
      (Entry.referred ⟨heard, clock, some (.packet packet), search, outcome⟩) := by
  have received := of_received (search.receive_received heard packet) Search.hears_of_matched?
  obtain ⟨created, duplicates, referred, counted, same⟩ := Counted.packet restrained handled
  have total := received.trans (.of_counted counted same)
  rwa [Nat.zero_add, Nat.add_zero, ← referred] at total

/-- Joining the network adds the router, unless there is none to be pinged. -/
theorem Tracked.bootstrap {sendFails : Bool} {result : Except BootstrapError Unit}
    (joined : Search.start.bootstrap? setup resolve sendFails = some (result, outcome)) :
    Tracked .start outcome.search (if result = .error .sendFailed then 1 else 0) 0
      outcome.search.table.size := by
  rcases Search.bootstrap?_cases joined with
    ⟨rfl, other⟩ | ⟨address, transaction, opened, opening, rfl, rfl⟩
  · rw [if_neg other]
    exact .of_counted (Counted.refl _) (.refl _)
  · obtain ⟨size, openCount, stats⟩ := Search.openQuery?_counts opening
    have unknown : Search.start.table.get? address = none := rfl
    have one : opened.table.size = 1 := size.trans (NodeTable.size_add unknown)
    have pending : opened.table.openCount = 1 := by
      rw [openCount]
      change (NodeTable.add _ _).openCount + 1 = 1
      rw [NodeTable.openCount_add unknown, NodeTable.pendingCount_new]
      rfl
    have findings := SameFindings.openQuery opening
    refine ⟨⟨1, one, ?_⟩, ?_, fun counts => counts.of_eq findings.found findings.peersFound, ?_, ?_⟩
    · rw [stats]
      rfl
    · rw [pending, stats]
      cases sendFails <;> rfl
    · rw [stats]
      rfl
    · rw [one, stats]
      rfl

/-- Whatever is handled adds what its entry says. -/
theorem Tracked.handled (restrained : Restrained setup (history journal) search)
    {stimulus : Stimulus}
    (handled : search.handle? setup heard clock stimulus = some outcome) {entry : Entry}
    (shown : entry = ⟨heard, clock, some stimulus, search, outcome⟩) :
    Tracked search outcome.search 0 (if entry.hears then 1 else 0)
      (entry.admitted + entry.referred) := by
  subst shown
  cases stimulus with
  | hint contact =>
    obtain ⟨created, size, tracked⟩ := Tracked.hint handled
    have admitted : outcome.search.table.size - search.table.size = created := by omega
    rw [← admitted] at tracked
    exact tracked
  | request infoHash => exact Tracked.request handled
  | packet packet =>
    have tracked := Tracked.packet restrained handled
    rw [← Nat.zero_add (Entry.referred _)] at tracked
    exact tracked

end Entries

/-! ## Runs -/

section Runs

variable {setup : Setup} {resolve : Resolver} {journal : List Entry} {search : Search}

/-- A lost ping shows in the outcome: it was recorded and not counted. -/
theorem lostPing_singleton_iff {heard : Moment} {clock : Clock} {sendFails : Bool}
    {outcome : Outcome} {result : Except BootstrapError Unit}
    (joined : Search.start.bootstrap? setup resolve sendFails = some (result, outcome)) :
    LostPing setup resolve [⟨heard, clock, none, .start, outcome⟩] ↔
      result = .error .sendFailed := by
  constructor
  · intro lost
    obtain ⟨entry, member, -, failed⟩ := lost
    obtain rfl := List.mem_singleton.mp member
    by_contra other
    -- the accounts of one outcome cannot have a ping too many and none too many
    have one := (Tracked.bootstrap failed).sent_eq
    have two := (Tracked.bootstrap joined).sent_eq
    rw [if_pos rfl] at one
    rw [if_neg other] at two
    grind
  · intro failed
    refine ⟨_, List.mem_singleton_self _, rfl, ?_⟩
    rcases Search.bootstrap?_cases joined with
      ⟨-, other⟩ | ⟨address, transaction, opened, -, -, same⟩
    · exact absurd failed other
    · cases sendFails with
      | true => rw [← failed]; exact joined
      | false => rw [same] at failed; cases failed

/-- Only the first entry can have lost a ping. -/
theorem lostPing_append_iff {entry : Entry} (later : entry.stimulus ≠ none) :
    LostPing setup resolve (journal ++ [entry]) ↔ LostPing setup resolve journal := by
  constructor
  · intro lost
    obtain ⟨other, member, joined, failed⟩ := lost
    rcases List.mem_append.mp member with here | new
    · exact ⟨other, here, joined, failed⟩
    · obtain rfl := List.mem_singleton.mp new
      exact absurd joined later
  · intro lost
    obtain ⟨other, member, joined, failed⟩ := lost
    exact ⟨other, List.mem_append_left _ member, joined, failed⟩

/-- The accounts of a run from the start. -/
theorem Run.tracked (run : Run setup resolve journal search) :
    ∃ lost : UInt64,
      (lost = 1 ∧ LostPing setup resolve journal ∨ lost = 0 ∧ ¬ LostPing setup resolve journal) ∧
        Tracked .start search lost (journal.countP Entry.hears)
          ((journal.map Entry.admitted).sum + (journal.map Entry.referred).sum) := by
  induction run with
  | start =>
    refine ⟨0, Or.inr ⟨rfl, ?_⟩, .of_counted (Counted.refl _) (.refl _)⟩
    rintro ⟨entry, member, -⟩
    cases member
  | @joined result outcome heard clock sendFails joined =>
    refine ⟨_, ?_, Tracked.bootstrap joined⟩
    rw [lostPing_singleton_iff joined]
    by_cases failed : result = .error .sendFailed
    · exact Or.inl ⟨if_pos failed, failed⟩
    · exact Or.inr ⟨if_neg failed, failed⟩
  | @handled journal search stimulus outcome heard clock run handled ih =>
    obtain ⟨lost, known, tracked⟩ := ih
    have total := tracked.trans (Tracked.handled run.restrained handled rfl)
    refine ⟨lost, ?_, ?_⟩
    · rw [lostPing_append_iff (by simp)]
      exact known
    · rw [UInt64.add_zero] at total
      rw [List.countP_append, List.countP_singleton, List.map_append, List.map_append,
        List.sum_append, List.sum_append]
      convert total using 1
      simp only [List.map_cons, List.map_nil, List.sum_cons, List.sum_nil]
      omega

/-- The counters of every run tell the truth, up to their wrapping. -/
theorem Run.conserved (run : Run setup resolve journal search) :
    Conserved setup resolve journal search := by
  obtain ⟨lost, known, tracked⟩ := run.tracked
  -- at the start there are no peers under any content
  have none : CountsPeers .start := by
    intro contents _ _
    have all : contents.map Search.start.knownPeers = contents.map fun _ => 0 := by
      refine List.map_congr_left fun infoHash _ => ?_
      simp [Search.knownPeers, Search.peersOf, Search.start]
    rw [all]
    simp [Search.start]
  constructor
  · obtain ⟨created, size, counter⟩ := tracked.created
    rw [counter, size]
    simp [Search.start, NodeTable.size, NodeTable.empty]
  · refine ⟨lost, known, ?_⟩
    have sent := tracked.sent_eq
    simpa [Search.start, NodeTable.openCount, NodeTable.empty] using sent
  · refine tracked.peers none _ Std.ExtTreeMap.nodup_keys fun infoHash outside => ?_
    rw [Std.ExtTreeMap.mem_keys] at outside
    rw [Search.knownPeers, Search.peersOf, Std.ExtTreeMap.getElem?_eq_none outside]
    exact Std.ExtTreeSet.size_empty
  · simpa [Search.start] using tracked.responses_eq
  · simpa [Search.start] using tracked.references_eq

/-- What the sample counts. -/
def Sample.stats : Stats where
  nodesCreated := 1
  peersFound := 3
  getPeersSent := 2
  pingsSent := 1
  responsesMatched := 2
  staleResponses := 1

/-- In the sample one node joins, a ping and two questions are sent, and the ping stays open. -/
theorem Run.conserved_sample :
    ∃ journal search, Run Sample.setup .literal journal search ∧
      search.stats = Sample.stats ∧ search.table.openCount = 1 ∧
      Conserved Sample.setup .literal journal search := by
  have told : (Search.start.journal? Sample.setup Sample.events).map (fun recorded =>
      (recorded.2.stats, recorded.2.table.openCount)) = some (Sample.stats, 1) := by
    decide +kernel
  obtain ⟨journal, search, run, same⟩ := Run.of_map_journal? told
  obtain ⟨stats, openCount⟩ := Prod.mk.inj same
  exact ⟨journal, search, run, stats, openCount, run.conserved⟩

end Runs

end PeerDiscovery
