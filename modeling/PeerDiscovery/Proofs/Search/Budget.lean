import Mathlib
import PeerDiscovery.Proofs.Search.Explains
import PeerDiscovery.Proofs.Search.Frame

/-!
# No content floods the network

Every unknown node that an answer refers to can start an automatic round, and the answers to a round
refer to further nodes. What stops this is the budget of a content, which only a request refills: an
automatic round takes one from it, and nothing else touches it (`Entry.Done.spends`). So between two
requests for a content the automatic rounds and what is left of the budget add up to the full budget
(`Run.ledger`), and as a round asks at most `fanOut` nodes, the questions for peers are bounded too.
-/

namespace PeerDiscovery

/-! ## Rounds and questions -/

/-- Whether an activity is a round for a content. -/
def Activity.isRoundOf (infoHash : InfoHash) : Activity → Bool
  | .ping _ _ => false
  | .round _ content _ => content = infoHash

/-- Whether a datagram asks for the peers of a content. -/
def Datagram.asksPeersOf (infoHash : InfoHash) (datagram : Datagram) : Bool :=
  match datagram.message.body with
  | .query (.getPeers content) => content = infoHash
  | _ => false

/-- The rounds for a content in an outcome. -/
def Outcome.rounds (infoHash : InfoHash) (outcome : Outcome) : List Activity :=
  outcome.activities.filter (Activity.isRoundOf infoHash)

/-- The datagrams of an outcome that ask for the peers of a content. -/
def Outcome.questions (ourId : Identifier) (infoHash : InfoHash) (outcome : Outcome) :
    List Datagram :=
  (outcome.datagrams ourId).filter (Datagram.asksPeersOf infoHash)

/-- Whether an entry handled a request for a content. -/
def Entry.requests (infoHash : InfoHash) (entry : Entry) : Prop :=
  entry.stimulus = some (.request infoHash)

/-- The automatic rounds for a content in an entry: those that it was not asked for. -/
def Entry.automaticRounds (infoHash : InfoHash) (entry : Entry) : List Activity :=
  match entry.stimulus with
  | some (.request _) => []
  | _ => entry.outcome.rounds infoHash

/-- The automatic rounds for a content in a journal. -/
def automaticRounds (infoHash : InfoHash) (journal : List Entry) : List Activity :=
  journal.flatMap (Entry.automaticRounds infoHash)

/-- The datagrams of a journal that ask for the peers of a content. -/
def questions (ourId : Identifier) (infoHash : InfoHash) (journal : List Entry) : List Datagram :=
  journal.flatMap fun entry => entry.outcome.questions ourId infoHash

section Counting

variable {ourId : Identifier} {infoHash content : InfoHash}

theorem questions_append (first second : List Entry) :
    questions ourId infoHash (first ++ second) =
      questions ourId infoHash first ++ questions ourId infoHash second :=
  List.flatMap_append

theorem automaticRounds_append (first second : List Entry) :
    automaticRounds infoHash (first ++ second) =
      automaticRounds infoHash first ++ automaticRounds infoHash second :=
  List.flatMap_append

/-- The rounds of activities in a row are those of each. -/
theorem Outcome.rounds_append (search : Search) (batch : Option Batch)
    (first second : List Activity) :
    Outcome.rounds infoHash ⟨search, batch, first ++ second⟩ =
      Outcome.rounds infoHash ⟨search, batch, first⟩ ++
        Outcome.rounds infoHash ⟨search, batch, second⟩ :=
  List.filter_append ..

/-- So are the questions. -/
theorem Outcome.questions_append (search : Search) (batch : Option Batch)
    (first second : List Activity) :
    Outcome.questions ourId infoHash ⟨search, batch, first ++ second⟩ =
      Outcome.questions ourId infoHash ⟨search, batch, first⟩ ++
        Outcome.questions ourId infoHash ⟨search, batch, second⟩ := by
  rw [questions, datagrams, List.flatMap_append, List.filter_append]
  rfl

/-- A round asks about its own content only. -/
theorem Activity.filter_datagrams_round (now : Moment) (asked : List (Address × UInt16)) :
    ((Activity.round now content asked).datagrams ourId).filter (Datagram.asksPeersOf infoHash) =
      if content = infoHash then (Activity.round now content asked).datagrams ourId else [] := by
  split
  · rename_i same
    refine List.filter_eq_self.mpr fun datagram member => ?_
    obtain ⟨query, -, rfl⟩ := List.mem_map.mp member
    exact decide_eq_true same
  · rename_i different
    refine List.filter_eq_nil_iff.mpr fun datagram member => ?_
    obtain ⟨query, -, rfl⟩ := List.mem_map.mp member
    exact fun asks => different (of_decide_eq_true asks)

/-- A recorded question for peers shows among the datagrams. -/
theorem Outcome.questions_ne_nil {outcome : Outcome} {address : Address} {query : Query}
    (recorded : (address, query) ∈ outcome.queries) (asks : query.asksPeersOf infoHash = true) :
    outcome.questions ourId infoHash ≠ [] := by
  obtain ⟨activity, member, own⟩ := List.mem_flatMap.mp recorded
  cases activity with
  | ping destination transaction =>
    cases List.mem_singleton.mp own
    cases asks
  | round now content asked =>
    obtain ⟨pair, here, same⟩ := List.mem_map.mp own
    cases same
    have same : content = infoHash := by simpa [Query.asksPeersOf] using asks
    have sent : (⟨pair.1, .getPeers (Bytes.ofWord pair.2) ourId content⟩ : Datagram) ∈
        outcome.datagrams ourId :=
      List.mem_flatMap.mpr ⟨_, member, List.mem_map_of_mem here⟩
    exact List.ne_nil_of_mem (List.mem_filter.mpr ⟨sent, decide_eq_true same⟩)

end Counting

/-! ## What one stimulus can spend -/

/-- What an outcome spends on a content: each of its rounds takes one from the budget, and asks at
most `fanOut` nodes. -/
structure Spends (setup : Setup) (infoHash : InfoHash) (search : Search) (outcome : Outcome) :
    Prop where
  budget_eq : outcome.search.budget infoHash + (outcome.rounds infoHash).length =
    search.budget infoHash
  length_le : (outcome.questions setup.settings.ourId infoHash).length ≤
    (outcome.rounds infoHash).length * setup.settings.fanOut

namespace Search

variable {setup : Setup} {search next : Search} {address : Address} {method : Method}
  {infoHash content : InfoHash} {transaction : UInt16} {now : Moment} {outcome : Outcome}

/-- A budget is read off the budgets alone. -/
theorem budget_congr (same : next.budgets = search.budgets) :
    next.budget infoHash = search.budget infoHash := by
  rw [budget, same, budget]

/-- Setting the budget of one content leaves all others. -/
theorem budget_insert (search : Search) (content : InfoHash) (left : Nat) (infoHash : InfoHash) :
    { search with budgets := search.budgets.insert content left }.budget infoHash =
      if content = infoHash then left else search.budget infoHash := by
  rw [budget, Std.ExtTreeMap.getElem?_insert]
  by_cases same : content = infoHash
  · simp [same]
  · have different : compare content infoHash ≠ .eq :=
      fun equal => same (Std.LawfulEqOrd.eq_of_compare equal)
    simp [same, different, budget]

/-- What a round for one content does for another, or the same. -/
theorem round?_counts (held : search.round? setup now content = some outcome)
    (infoHash : InfoHash) :
    outcome.search.budget infoHash = search.budget infoHash ∧
      (outcome.rounds infoHash).length = (if content = infoHash then 1 else 0) ∧
      (outcome.questions setup.settings.ourId infoHash).length ≤
        (if content = infoHash then 1 else 0) * setup.settings.fanOut := by
  obtain ⟨asked, next, asking, rfl⟩ := round?_eq_some_iff.mp held
  obtain ⟨addresses, budgets⟩ := askAll?_spec asking
  have length : asked.length = _ := (List.length_map Prod.fst).symm.trans (congrArg _ addresses)
  refine ⟨budget_congr budgets, ?_, ?_⟩
  · rw [Outcome.rounds, ← List.countP_eq_length_filter, List.countP_singleton]
    exact if_congr decide_eq_true_iff rfl rfl
  · rw [Outcome.questions, Outcome.datagrams, List.flatMap_singleton,
      Activity.filter_datagrams_round]
    split
    · rw [Activity.datagrams, List.length_map, length, Nat.one_mul]
      exact Selection.length_getD_select?_le
    · exact Nat.zero_le _

end Search

namespace Spends

variable {setup : Setup} {search next : Search} {infoHash content : InfoHash} {now : Moment}
  {outcome : Outcome}

/-- No round, no loss. -/
theorem idle (same : outcome.search.budget infoHash = search.budget infoHash)
    (pings : ∀ activity ∈ outcome.activities, ∃ address number, activity = .ping address number) :
    Spends setup infoHash search outcome := by
  have rounds : outcome.rounds infoHash = [] := by
    refine List.filter_eq_nil_iff.mpr fun activity member => ?_
    obtain ⟨address, number, rfl⟩ := pings activity member
    exact Bool.false_ne_true
  have questions : outcome.questions setup.settings.ourId infoHash = [] := by
    refine List.filter_eq_nil_iff.mpr fun datagram member => ?_
    obtain ⟨activity, here, sent⟩ := List.mem_flatMap.mp member
    obtain ⟨address, number, rfl⟩ := pings activity here
    obtain rfl := List.mem_singleton.mp sent
    exact Bool.false_ne_true
  constructor
  · rw [rounds, same]
    rfl
  · rw [questions]
    exact Nat.zero_le _

/-- A round that was paid for. -/
theorem round (held : next.round? setup now content = some outcome)
    (paid : next.budget infoHash + (if content = infoHash then 1 else 0) =
      search.budget infoHash) :
    Spends setup infoHash search outcome := by
  obtain ⟨budget, rounds, length⟩ := Search.round?_counts held infoHash
  rw [← budget, ← rounds] at paid
  rw [← rounds] at length
  exact ⟨paid, length⟩

/-- One thing after another. -/
theorem append {first others : Outcome} (one : Spends setup infoHash search first)
    (more : Spends setup infoHash first.search others) :
    Spends setup infoHash search
      { others with activities := first.activities ++ others.activities } := by
  have budget := one.budget_eq
  have budgetToo := more.budget_eq
  have length := one.length_le
  have lengthToo := more.length_le
  have rounds : (Outcome.rounds infoHash
      { others with activities := first.activities ++ others.activities }).length =
        (first.rounds infoHash).length + (others.rounds infoHash).length := by
    rw [Outcome.rounds_append, List.length_append]
    rfl
  have questions : (Outcome.questions setup.settings.ourId infoHash
      { others with activities := first.activities ++ others.activities }).length =
        (first.questions setup.settings.ourId infoHash).length +
          (others.questions setup.settings.ourId infoHash).length := by
    rw [Outcome.questions_append, List.length_append]
    rfl
  constructor
  · rw [rounds]
    change others.search.budget infoHash + _ = _
    omega
  · rw [questions, rounds, Nat.add_mul]
    omega

/-- A reference starts a round only where one is left to pay for it. -/
theorem follow {contact : Contact}
    (followed : search.follow? setup now content contact = some outcome) :
    Spends setup infoHash search outcome := by
  rcases Search.follow?_cases followed with ⟨-, rfl⟩ | ⟨-, ⟨-, rfl⟩ | ⟨left, -, more, held⟩⟩
  · exact idle rfl (List.forall_mem_nil _)
  · exact idle rfl (List.forall_mem_nil _)
  · refine round held ?_
    have budget := search.budget_insert content left infoHash
    change Search.budget { search with budgets := search.budgets.insert content left } infoHash + _
      = _
    rw [budget]
    split
    · rename_i same
      rw [← same, more]
    · rfl

/-- Following references spends one for each round that it starts, however many there are. -/
theorem followAll {clock : Clock} {contacts : List Contact}
    (followed : Search.followAll? setup clock content contacts search = some outcome) :
    Spends setup infoHash search outcome := by
  induction contacts generalizing clock search outcome with
  | nil =>
    obtain rfl := Option.some.inj followed
    exact idle rfl (List.forall_mem_nil _)
  | cons contact rest ih =>
    obtain ⟨first, others, one, remaining, rfl⟩ := Search.followAll?_cons_eq_some_iff.mp followed
    exact (follow one).append (ih remaining)

theorem hint {contact : Contact} (taken : search.hint? setup contact = some outcome) :
    Spends setup infoHash search outcome := by
  rcases Search.hint?_cases taken with rfl | ⟨-, pinged⟩
  · exact idle rfl (List.forall_mem_nil _)
  · obtain ⟨transaction, opened, opening, rfl⟩ := Search.ping?_eq_some_iff.mp pinged
    have kept := Search.budgets_of_openQuery? opening
    refine idle (Search.budget_congr kept) fun activity member => ?_
    exact ⟨_, _, List.mem_singleton.mp member⟩

theorem bootstrap {resolve : Resolver} {sendFails : Bool} {result : Except BootstrapError Unit}
    (joined : search.bootstrap? setup resolve sendFails = some (result, outcome)) :
    Spends setup infoHash search outcome := by
  rcases Search.bootstrap?_cases joined with
    ⟨rfl, -⟩ | ⟨address, transaction, opened, opening, rfl, -⟩
  · exact idle rfl (List.forall_mem_nil _)
  · have kept := Search.budgets_of_openQuery? opening
    refine idle (Search.budget_congr kept) fun activity member => ?_
    exact ⟨_, _, List.mem_singleton.mp member⟩

/-- A request spends nothing of other contents. -/
theorem request_of_ne (taken : search.request? setup now content = some outcome)
    (other : content ≠ infoHash) : Spends setup infoHash search outcome := by
  refine round taken ?_
  have budget := search.budget_insert content setup.settings.maxExpansions infoHash
  rw [if_neg other] at budget ⊢
  exact budget

/-- An answer spends what its references start. -/
theorem packet {heard : Moment} {clock : Clock} {packet : Packet}
    (handled : search.handle? setup heard clock (.packet packet) = some outcome) :
    Spends setup infoHash search outcome := by
  have received : (search.receive heard packet).1.budget infoHash = search.budget infoHash :=
    Search.budget_congr (search.receive_budgets heard packet)
  rcases Search.handle?_packet_cases handled with
    ⟨-, rfl⟩ | ⟨delivery, followed, -, following, rfl⟩
  · exact idle received (List.forall_mem_nil _)
  · have spends : Spends setup infoHash (search.receive heard packet).1 followed :=
      followAll following
    exact ⟨spends.budget_eq.trans received, spends.length_le⟩

end Spends

/-! ## Entries -/

section Entries

variable {setup : Setup} {resolve : Resolver} {infoHash : InfoHash} {entry : Entry}

/-- Only a request for the content can put something into its budget: anything else takes one out
for each automatic round. -/
theorem Entry.Done.spends (done : entry.Done setup resolve) (other : ¬ entry.requests infoHash) :
    Spends setup infoHash entry.before entry.outcome ∧
      entry.automaticRounds infoHash = entry.outcome.rounds infoHash := by
  obtain ⟨heard, clock, stimulus, before, outcome⟩ := entry
  cases stimulus with
  | none =>
    obtain ⟨rfl, sendFails, result, joined⟩ := done
    exact ⟨.bootstrap joined, rfl⟩
  | some stimulus =>
    change before.handle? setup heard clock stimulus = some outcome at done
    cases stimulus with
    | hint contact => exact ⟨.hint done, rfl⟩
    | packet packet => exact ⟨.packet done, rfl⟩
    | request content =>
      have different : content ≠ infoHash := by
        rintro rfl
        exact other rfl
      have rounds := (Search.round?_counts done infoHash).2.1
      rw [if_neg different, List.length_eq_zero_iff] at rounds
      exact ⟨.request_of_ne done different, rounds.symm⟩

/-- A request for the content sets its budget to the full, and asks as many nodes as one round at
most. -/
theorem Entry.Done.refills (done : entry.Done setup resolve) (asked : entry.requests infoHash) :
    entry.outcome.search.budget infoHash = setup.settings.maxExpansions ∧
      (entry.outcome.questions setup.settings.ourId infoHash).length ≤ setup.settings.fanOut := by
  obtain ⟨heard, clock, stimulus, before, outcome⟩ := entry
  obtain rfl : stimulus = some (.request infoHash) := asked
  obtain ⟨budget, -, length⟩ := Search.round?_counts done infoHash
  rw [Search.budget_insert, if_pos rfl] at budget
  rw [if_pos rfl, Nat.one_mul] at length
  exact ⟨budget, length⟩

end Entries

/-! ## Runs -/

/-- The account of a content: what is left of its budget, and how many questions were asked. -/
structure Ledger (setup : Setup) (infoHash : InfoHash) (journal : List Entry) (search : Search) :
    Prop where
  /-- Without a request there is no budget, and nothing is asked. -/
  unasked : (∀ entry ∈ journal, ¬ entry.requests infoHash) →
    search.budget infoHash = 0 ∧ questions setup.settings.ourId infoHash journal = []
  /-- Since the last request, each automatic round took one from the full budget. -/
  asked : ∀ {before entry during}, journal = before ++ entry :: during →
    entry.requests infoHash → (∀ entry ∈ during, ¬ entry.requests infoHash) →
    search.budget infoHash + (automaticRounds infoHash during).length =
        setup.settings.maxExpansions ∧
      (questions setup.settings.ourId infoHash (entry :: during)).length ≤
        (1 + (automaticRounds infoHash during).length) * setup.settings.fanOut

section Runs

variable {setup : Setup} {resolve : Resolver} {infoHash : InfoHash} {journal : List Entry}
  {search : Search} {entry : Entry}

/-- The books stay balanced with each entry: a request opens a page, and anything else spends. -/
theorem Ledger.step (ledger : Ledger setup infoHash journal entry.before)
    (done : entry.Done setup resolve) :
    Ledger setup infoHash (journal ++ [entry]) entry.outcome.search where
  unasked := by
    intro never
    obtain ⟨earlier, now⟩ := List.forall_mem_append.mp never
    obtain ⟨budget, questions⟩ := ledger.unasked earlier
    obtain ⟨spends, -⟩ := done.spends (now entry List.mem_cons_self)
    have spent := spends.budget_eq
    have none : (entry.outcome.rounds infoHash).length = 0 := by omega
    have length := spends.length_le
    rw [none, Nat.zero_mul, Nat.le_zero, List.length_eq_zero_iff] at length
    refine ⟨by omega, ?_⟩
    rw [questions_append, questions]
    simpa [PeerDiscovery.questions] using length
  asked := by
    intro before first during split asked never
    rcases append_singleton_eq_split split with ⟨rfl, rfl, rfl⟩ | ⟨rest, inner, rfl⟩
    · obtain ⟨budget, length⟩ := done.refills asked
      refine ⟨budget, ?_⟩
      simpa [PeerDiscovery.questions, automaticRounds] using length
    · obtain ⟨earlier, now⟩ := List.forall_mem_append.mp never
      obtain ⟨budget, length⟩ := ledger.asked inner asked earlier
      obtain ⟨spends, rounds⟩ := done.spends (now entry List.mem_cons_self)
      have spent := spends.budget_eq
      have few := spends.length_le
      have total : (automaticRounds infoHash (rest ++ [entry])).length =
          (automaticRounds infoHash rest).length + (entry.outcome.rounds infoHash).length := by
        rw [automaticRounds_append, List.length_append, ← rounds]
        simp [automaticRounds]
      have all : (questions setup.settings.ourId infoHash (first :: (rest ++ [entry]))).length =
          (questions setup.settings.ourId infoHash (first :: rest)).length +
            (entry.outcome.questions setup.settings.ourId infoHash).length := by
        rw [← List.cons_append, questions_append, List.length_append]
        simp [PeerDiscovery.questions]
      constructor
      · omega
      · rw [total, all, ← Nat.add_assoc, Nat.add_mul _ (entry.outcome.rounds infoHash).length]
        omega

/-- The books of every content are balanced in every run. -/
theorem Run.ledger (run : Run setup resolve journal search) (infoHash : InfoHash) :
    Ledger setup infoHash journal search := by
  refine run.entrywise ?_ ?_
  · refine ⟨fun _ => ⟨rfl, rfl⟩, ?_⟩
    intro before entry during split
    simp at split
  · intro journal entry _ ledger done
    exact ledger.step done

/-- What closes a question for peers was requested. -/
theorem Run.requested_of_delivery (run : Run setup resolve journal search) {now : Moment}
    {packet : Packet} {delivery : Delivery}
    (due : (search.receive now packet).2 = some delivery) :
    ∃ entry ∈ journal, entry.requests delivery.infoHash := by
  apply Classical.by_contradiction
  intro never
  simp only [not_exists, not_and] at never
  obtain ⟨-, -, -, query, -, matched, asks, -⟩ := Search.matched_of_delivery due
  obtain ⟨number, sender, reply, node, -, found, waiting⟩ := Search.matched?_eq_some_iff.mp matched
  obtain ⟨time, there⟩ := mem_queriesAt.mp
    ((run.explains.life found).dealings.mem_queriesAt_of_pending waiting)
  obtain ⟨entry, member, own⟩ := List.mem_flatMap.mp (mem_occurrencesAt.mp there).1
  have nothing := List.flatMap_eq_nil_iff.mp
    ((run.ledger delivery.infoHash).unasked never).2 entry member
  rcases List.mem_append.mp own with answer | asked
  · obtain ⟨answer, -, other⟩ := Option.map_eq_some_iff.mp (Option.mem_toList.mp answer)
    cases other
  · obtain ⟨activity, done, asked⟩ := List.mem_flatMap.mp asked
    obtain ⟨⟨address, question⟩, here, same⟩ := List.mem_map.mp asked
    obtain ⟨-, -, rfl⟩ := Occurrence.asked.inj same
    exact Outcome.questions_ne_nil (List.mem_flatMap.mpr ⟨activity, done, here⟩) asks nothing

end Runs

/-! ## The moment of an automatic round -/

/-- References are followed up to one to an unknown node: what that has led to. -/
def Search.FollowedUpTo (setup : Setup) (clock : Clock) (infoHash : InfoHash)
    (contacts : List Contact) (search : Search) (reached : Outcome) : Prop :=
  ∃ passed contact rest, contacts = passed ++ contact :: rest ∧
    followAll? setup clock infoHash passed search = some reached ∧
    reached.search.table.contains contact.address = false

/-- An entry took in an answer for a content, and follows its references up to one to an unknown
node. -/
def Entry.Reaches (setup : Setup) (infoHash : InfoHash) (entry : Entry) (reached : Outcome) :
    Prop :=
  ∃ packet delivery, entry.stimulus = some (.packet packet) ∧
    (entry.before.receive entry.heard packet).2 = some delivery ∧ delivery.infoHash = infoHash ∧
    Search.FollowedUpTo setup entry.clock infoHash (Search.references delivery.nodes)
      (entry.before.receive entry.heard packet).1 reached

namespace Search

/-- A reference starts a round: it refers to an unknown node while the content has too few peers and
a round left. The round is held once the node has joined and the budget has paid for it, and asks
the nodes that are selected at that moment. -/
structure Starts (setup : Setup) (now : Moment) (infoHash : InfoHash) (contact : Contact)
    (asked : List (Address × UInt16)) (search next : Search) : Prop where
  unknown : search.table.contains contact.address = false
  few : search.knownPeers infoHash < setup.settings.wantedPeers
  held : ∃ left, search.budget infoHash = left + 1 ∧
    round? setup now infoHash { search with
      table := search.table.addContact setup.chance contact
      stats.nodesCreated := search.stats.nodesCreated + 1
      budgets := search.budgets.insert infoHash left } =
        some { search := next, activities := [.round now infoHash asked] }
  asked_eq : asked.map Prod.fst =
    (Selection.select? (limits setup.settings) infoHash now
      ((search.table.addContact setup.chance contact).walk setup.chance)).getD []

/-- An activity is the round that one of some references starts, in the search that the references
before it, with all their activities, have led to. Those behind it find what it leads to. -/
def StartedBy (setup : Setup) (clock : Clock) (infoHash : InfoHash) (contacts : List Contact)
    (search : Search) (earlier : List Activity) (activity : Activity) : Prop :=
  ∃ passed contact rest reached asked next, contacts = passed ++ contact :: rest ∧
    followAll? setup clock infoHash passed search = some reached ∧ reached.activities = earlier ∧
    activity = .round (clock passed.length) infoHash asked ∧
    Starts setup (clock passed.length) infoHash contact asked reached.search next ∧
    followAll? setup clock infoHash (passed ++ [contact]) search =
      some { search := next, activities := earlier ++ [activity] }

variable {setup : Setup} {search : Search} {infoHash : InfoHash} {now : Moment} {clock : Clock}
  {first outcome : Outcome} {contact : Contact} {rest : List Contact} {earlier : List Activity}
  {activity : Activity}

/-- What a later reference starts, it starts after all that the references before it led to. -/
theorem StartedBy.behind (one : follow? setup (clock 0) infoHash contact search = some first)
    (started : StartedBy setup clock.rest infoHash rest first.search earlier activity) :
    StartedBy setup clock infoHash (contact :: rest) search (first.activities ++ earlier)
      activity := by
  obtain ⟨passed, second, others, reached, asked, next, rfl, followed, rfl, same, starts, past⟩ :=
    started
  refine ⟨contact :: passed, second, others, _, asked, next, rfl,
    followAll?_cons_eq_some_iff.mpr ⟨first, reached, one, followed, rfl⟩, rfl, same, starts, ?_⟩
  refine followAll?_cons_eq_some_iff.mpr ⟨first, _, one, past, ?_⟩
  rw [List.append_assoc]

/-- Following one reference has no activities, or is the round that it starts. -/
theorem starts_of_follow? (followed : follow? setup now infoHash contact search = some outcome) :
    outcome.activities = [] ∨
      ∃ asked next, outcome = { search := next, activities := [.round now infoHash asked] } ∧
        Starts setup now infoHash contact asked search next := by
  rcases follow?_cases followed with ⟨-, rfl⟩ | ⟨unknown, ⟨-, rfl⟩ | ⟨left, few, more, held⟩⟩
  · exact Or.inl rfl
  · exact Or.inl rfl
  · obtain ⟨asked, next, asking, rfl⟩ := round?_eq_some_iff.mp held
    exact Or.inr ⟨asked, next, rfl, unknown, few, ⟨left, more, held⟩, (askAll?_spec asking).1⟩

/-- All that following references does towards the network is to hold the rounds that some of them
start. -/
theorem startedBy_of_followAll? {contacts : List Contact} {later : List Activity}
    (followed : followAll? setup clock infoHash contacts search = some outcome)
    (split : outcome.activities = earlier ++ activity :: later) :
    StartedBy setup clock infoHash contacts search earlier activity := by
  induction contacts generalizing clock search outcome earlier with
  | nil =>
    obtain rfl := Option.some.inj followed
    simp at split
  | cons contact rest ih =>
    obtain ⟨first, others, one, remaining, rfl⟩ := followAll?_cons_eq_some_iff.mp followed
    change first.activities ++ others.activities = _ at split
    rcases starts_of_follow? one with none | ⟨asked, next, rfl, starts⟩
    · rw [none, List.nil_append] at split
      have behind := (ih remaining split).behind one
      rwa [none, List.nil_append] at behind
    · rw [List.singleton_append] at split
      -- the round that this reference starts comes first, so it is this one or none of its own
      cases earlier with
      | nil =>
        obtain rfl := List.head_eq_of_cons_eq split
        exact ⟨[], contact, rest, { search }, asked, next, rfl, rfl, rfl, rfl, starts,
          followAll?_cons_eq_some_iff.mpr ⟨_, { search := next }, one, rfl, rfl⟩⟩
      | cons round between =>
        obtain ⟨rfl, inner⟩ := List.cons.inj split
        exact (ih remaining inner).behind one

end Search

section Moments

variable {setup : Setup} {resolve : Resolver} {infoHash : InfoHash} {entry : Entry}
  {reached : Outcome}

/-- The query that the answer closed asked for the peers of that content. -/
theorem Entry.Reaches.answered (reaches : entry.Reaches setup infoHash reached) :
    ∃ sender query, entry.answered? = some (sender, query) ∧
      query.asksPeersOf infoHash = true := by
  obtain ⟨heard, clock, stimulus, before, outcome⟩ := entry
  obtain ⟨packet, delivery, rfl, due, same, -⟩ := reaches
  obtain ⟨-, -, -, query, -, matched, asks, -⟩ := Search.matched_of_delivery due
  refine ⟨packet.sender, query, ?_, same ▸ asks⟩
  change (before.matched? heard packet).map _ = _
  rw [matched, Option.map_some]

/-- A round that was not asked for is held while references of an answer are followed. -/
theorem Entry.Done.reaches (done : entry.Done setup resolve) (other : ¬ entry.requests infoHash)
    {earlier later : List Activity} {now : Moment} {asked : List (Address × UInt16)}
    (split : entry.outcome.activities = earlier ++ .round now infoHash asked :: later) :
    ∃ reached, entry.Reaches setup infoHash reached ∧ reached.activities = earlier ∧
      reached.search.knownPeers infoHash < setup.settings.wantedPeers := by
  have member : Activity.round now infoHash asked ∈ entry.outcome.activities := by
    rw [split]
    simp
  obtain ⟨heard, clock, stimulus, before, outcome⟩ := entry
  cases stimulus with
  | none =>
    obtain ⟨rfl, sendFails, result, joined⟩ := done
    rcases Search.bootstrap?_cases joined with
      ⟨rfl, -⟩ | ⟨address, transaction, opened, -, rfl, -⟩
    · cases member
    · cases List.mem_singleton.mp member
  | some stimulus =>
    change before.handle? setup heard clock stimulus = some outcome at done
    cases stimulus with
    | hint contact =>
      rcases Search.hint?_cases done with rfl | ⟨-, pinged⟩
      · cases member
      · obtain ⟨transaction, opened, -, rfl⟩ := Search.ping?_eq_some_iff.mp pinged
        cases List.mem_singleton.mp member
    | request content =>
      obtain ⟨targets, next, -, rfl⟩ := Search.round?_eq_some_iff.mp done
      obtain ⟨-, rfl, -⟩ := Activity.round.inj (List.mem_singleton.mp member)
      exact absurd rfl other
    | packet packet =>
      rcases Search.handle?_packet_cases done with
        ⟨-, rfl⟩ | ⟨delivery, followed, due, following, rfl⟩
      · cases member
      · obtain ⟨passed, contact, rest, reached, own, last, listed, upTo, before, same, starts, -⟩ :=
          Search.startedBy_of_followAll? following split
        obtain ⟨-, rfl, -⟩ := Activity.round.inj same
        exact ⟨reached, ⟨packet, delivery, rfl, due, rfl, passed, contact, rest, listed, upTo,
          starts.unknown⟩, before, starts.few⟩

/-- Where neither a request for a content nor an answer about it was handled, its budget stays. -/
theorem Entry.Done.budget_eq (done : entry.Done setup resolve)
    (other : ¬ entry.requests infoHash)
    (elsewhere : ∀ sender query, entry.answered? = some (sender, query) →
      query.asksPeersOf infoHash = false) :
    entry.outcome.search.budget infoHash = entry.before.budget infoHash := by
  have none : entry.outcome.rounds infoHash = [] := by
    refine List.filter_eq_nil_iff.mpr fun activity member isRound => ?_
    cases activity with
    | ping => cases isRound
    | round now content asked =>
      obtain rfl : content = infoHash := of_decide_eq_true isRound
      obtain ⟨earlier, later, split⟩ := List.append_of_mem member
      obtain ⟨reached, reaches, -⟩ := done.reaches other split
      obtain ⟨sender, query, answered, asks⟩ := reaches.answered
      rw [elsewhere sender query answered] at asks
      cases asks
  have spent := (done.spends other).1.budget_eq
  rw [none] at spent
  exact spent

end Moments

/-! ## The bounds -/

/-- What keeps the questions for the peers of a content bounded, whatever comes in. -/
structure Budgeted (setup : Setup) (infoHash : InfoHash) (journal : List Entry) : Prop where
  /-- Before the first request nobody is asked. -/
  silent : ∀ {before after}, journal = before ++ after →
    (∀ entry ∈ before, ¬ entry.requests infoHash) →
    questions setup.settings.ourId infoHash before = []
  /-- From a request up to the next one, or to the end. -/
  bounded : ∀ {before entry during after}, journal = before ++ entry :: (during ++ after) →
    entry.requests infoHash → (∀ entry ∈ during, ¬ entry.requests infoHash) →
    (automaticRounds infoHash (entry :: during)).length ≤ setup.settings.maxExpansions ∧
      (questions setup.settings.ourId infoHash (entry :: during)).length ≤
        (1 + setup.settings.maxExpansions) * setup.settings.fanOut
  /-- At the moment of an automatic round too few peers are known. -/
  needed : ∀ entry ∈ journal, ¬ entry.requests infoHash → ∀ {earlier now asked later},
    entry.outcome.activities = earlier ++ .round now infoHash asked :: later →
    ∃ reached, entry.Reaches setup infoHash reached ∧ reached.activities = earlier ∧
      reached.search.knownPeers infoHash < setup.settings.wantedPeers
  /-- Requests and answers for another content leave the budget as it is. -/
  kept : ∀ entry ∈ journal, ¬ entry.requests infoHash →
    (∀ sender query, entry.answered? = some (sender, query) →
      query.asksPeersOf infoHash = false) →
    entry.outcome.search.budget infoHash = entry.before.budget infoHash

/-- In every run the budget of a content bounds its automatic rounds and questions between two
requests, and there are none before the first. -/
theorem Run.budgeted {setup : Setup} {resolve : Resolver} {journal : List Entry} {search : Search}
    (run : Run setup resolve journal search) (infoHash : InfoHash) :
    Budgeted setup infoHash journal where
  silent := by
    intro before after split never
    subst split
    obtain ⟨middle, run⟩ := run.of_append
    exact ((run.ledger infoHash).unasked never).2
  bounded := by
    intro before entry during after split asked never
    rw [← List.cons_append, ← List.append_assoc] at split
    subst split
    obtain ⟨middle, run⟩ := run.of_append
    obtain ⟨account, length⟩ := (run.ledger infoHash).asked rfl asked never
    have own : automaticRounds infoHash (entry :: during) = automaticRounds infoHash during := by
      have none : entry.automaticRounds infoHash = [] := by
        rw [Entry.automaticRounds, asked]
      rw [automaticRounds, List.flatMap_cons, none, List.nil_append]
      rfl
    have few : (automaticRounds infoHash during).length ≤ setup.settings.maxExpansions := by omega
    refine ⟨own ▸ few, Nat.le_trans length ?_⟩
    exact Nat.mul_le_mul_right _ (Nat.add_le_add_left few 1)
  needed := by
    intro entry member other earlier now asked later split
    obtain ⟨before, after, rfl⟩ := List.append_of_mem member
    exact (run.before_entry rfl).2.reaches other split
  kept := by
    intro entry member other elsewhere
    obtain ⟨before, after, rfl⟩ := List.append_of_mem member
    exact (run.before_entry rfl).2.budget_eq other elsewhere

/-! ### A sample

With one automatic round allowed, a node is asked and refers to two unknown nodes. The first starts
the round and is asked; the second is only saved, and so is what the first refers to.
-/

namespace Sample

def thriftySetup : Setup :=
  { setup with settings := { setup.settings with maxExpansions := 1, fanOut := 2 } }

def referralEvents : List Search.Event :=
  [.hint ⟨identifier 2, node⟩, .request content, referral node 0 [neighbour 4, neighbour 5],
    referral (neighbour 4).address 65535 [neighbour 6]].map fun stimulus => .undisturbed 1 stimulus

end Sample

/-- In the sample one automatic round is held and two nodes are asked, and the node that nobody is
left to ask for is saved all the same. -/
theorem Run.budgeted_sample :
    ∃ journal search, Run Sample.thriftySetup .literal journal search ∧
      (automaticRounds Sample.content journal).length = 1 ∧
      (questions Sample.thriftySetup.settings.ourId Sample.content journal).map
          Datagram.destination = [Sample.node, (Sample.neighbour 4).address] ∧
      search.table.contains (Sample.neighbour 6).address = true ∧
      Budgeted Sample.thriftySetup Sample.content journal := by
  -- the kernel does not run the merge sort of a selection, and `cbv`, which does, takes equations
  -- from all over the library
  have told : (Search.start.journal? Sample.thriftySetup Sample.referralEvents).map
      (fun recorded => ((automaticRounds Sample.content recorded.1).length,
        (questions Sample.thriftySetup.settings.ourId Sample.content recorded.1).map
          Datagram.destination,
        recorded.2.table.contains (Sample.neighbour 6).address)) =
      some (1, [Sample.node, (Sample.neighbour 4).address], true) := by cbv
  obtain ⟨journal, search, run, account⟩ := Run.of_map_journal? told
  obtain ⟨rounds, asked, known⟩ : _ ∧ _ ∧ _ := by simpa only [Prod.mk.injEq] using account
  exact ⟨journal, search, run, rounds, asked, known, run.budgeted Sample.content⟩

end PeerDiscovery
