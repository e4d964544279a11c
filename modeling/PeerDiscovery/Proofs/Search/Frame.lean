import PeerDiscovery.Proofs.Search.Inversion

/-!
# What asking leaves alone

Whatever a search asks, the peers it found and the counts of what it received stay as they are. Only
taking in a datagram changes them. The budgets are changed by neither.
-/

namespace PeerDiscovery

/-- Two searches found and received the same. -/
structure SameFindings (search next : Search) : Prop where
  found : next.found = search.found
  peersFound : next.stats.peersFound = search.stats.peersFound
  responsesMatched : next.stats.responsesMatched = search.stats.responsesMatched
  staleResponses : next.stats.staleResponses = search.stats.staleResponses

namespace SameFindings

theorem refl (search : Search) : SameFindings search search := ⟨rfl, rfl, rfl, rfl⟩

theorem trans {search middle next : Search} (first : SameFindings search middle)
    (second : SameFindings middle next) : SameFindings search next where
  found := second.found.trans first.found
  peersFound := second.peersFound.trans first.peersFound
  responsesMatched := second.responsesMatched.trans first.responsesMatched
  staleResponses := second.staleResponses.trans first.staleResponses

variable {setup : Setup} {search next : Search} {address : Address} {method : Method}
  {infoHash : InfoHash} {transaction : UInt16} {now : Moment} {outcome : Outcome}

/-- Recording a query at a node leaves the findings. -/
theorem openQuery {content : Option InfoHash}
    (opened : search.openQuery? setup address method content = some (transaction, next)) :
    SameFindings search next := by
  obtain ⟨node, asked, -, -, rfl⟩ := Search.openQuery?_eq_some_iff.mp opened
  exact ⟨rfl, rfl, rfl, rfl⟩

theorem askAll {targets : List Address} {asked : List (Address × UInt16)}
    (result : Search.askAll? setup infoHash targets search = some (asked, next)) :
    SameFindings search next := by
  induction targets generalizing search asked with
  | nil =>
    obtain ⟨-, rfl⟩ := Prod.mk.inj (Option.some.inj result)
    exact .refl search
  | cons address rest ih =>
    obtain ⟨transaction, opened, others, opening, remaining, -⟩ :=
      Search.askAll?_cons_eq_some_iff.mp result
    have counted : SameFindings opened
        { opened with stats.getPeersSent := opened.stats.getPeersSent + 1 } := ⟨rfl, rfl, rfl, rfl⟩
    exact (openQuery opening).trans (counted.trans (ih remaining))

theorem round (held : search.round? setup now infoHash = some outcome) :
    SameFindings search outcome.search := by
  obtain ⟨asked, last, asking, rfl⟩ := Search.round?_eq_some_iff.mp held
  exact askAll asking

theorem request (taken : search.request? setup now infoHash = some outcome) :
    SameFindings search outcome.search := by
  have refilled : SameFindings search { search with
      budgets := search.budgets.insert infoHash setup.settings.maxExpansions } :=
    ⟨rfl, rfl, rfl, rfl⟩
  exact refilled.trans (round taken)

/-- A ping is one recorded query. -/
theorem ping (pinged : search.ping? setup address = some outcome) :
    SameFindings search outcome.search := by
  obtain ⟨transaction, opened, opening, rfl⟩ := Search.ping?_eq_some_iff.mp pinged
  exact (openQuery opening).trans ⟨rfl, rfl, rfl, rfl⟩

theorem hint {contact : Contact} (taken : search.hint? setup contact = some outcome) :
    SameFindings search outcome.search := by
  rcases Search.hint?_cases taken with rfl | ⟨-, pinged⟩
  · exact .refl search
  · have joined : SameFindings search { search with
        table := search.table.addContact setup.chance contact
        stats.nodesCreated := search.stats.nodesCreated + 1 } := ⟨rfl, rfl, rfl, rfl⟩
    exact joined.trans (ping pinged)

/-- Joining the network adds the router and pings it. -/
theorem bootstrap {resolve : Resolver} {sendFails : Bool} {result : Except BootstrapError Unit}
    (joined : search.bootstrap? setup resolve sendFails = some (result, outcome)) :
    SameFindings search outcome.search := by
  rcases Search.bootstrap?_cases joined with
    ⟨rfl, -⟩ | ⟨address, transaction, opened, opening, rfl, -⟩
  · exact .refl search
  · have counted : SameFindings search { search with
        stats.nodesCreated := search.stats.nodesCreated +
          if search.table.contains address then 0 else 1 } := ⟨rfl, rfl, rfl, rfl⟩
    exact counted.trans ((openQuery opening).trans ⟨rfl, rfl, rfl, rfl⟩)

/-- A reference adds a node, and may start a round. -/
theorem follow {contact : Contact}
    (followed : Search.follow? setup now infoHash contact search = some outcome) :
    SameFindings search outcome.search := by
  rcases Search.follow?_cases followed with ⟨-, rfl⟩ | ⟨-, ⟨-, rfl⟩ | ⟨left, -, -, held⟩⟩
  · exact ⟨rfl, rfl, rfl, rfl⟩
  · exact ⟨rfl, rfl, rfl, rfl⟩
  · have joined : SameFindings search { search with
        table := search.table.addContact setup.chance contact
        stats.nodesCreated := search.stats.nodesCreated + 1
        budgets := search.budgets.insert infoHash left } := ⟨rfl, rfl, rfl, rfl⟩
    exact joined.trans (round held)

/-- Following references leaves the findings: what an answer finds is taken in before. -/
theorem followAll {clock : Clock} {contacts : List Contact}
    (followed : Search.followAll? setup clock infoHash contacts search = some outcome) :
    SameFindings search outcome.search := by
  induction contacts generalizing clock search outcome with
  | nil =>
    obtain rfl := Option.some.inj followed
    exact .refl search
  | cons contact rest ih =>
    obtain ⟨first, others, one, remaining, rfl⟩ := Search.followAll?_cons_eq_some_iff.mp followed
    have after := ih remaining
    exact (follow one).trans after

end SameFindings

/-! ## Budgets -/

namespace Search

variable {setup : Setup} {search next : Search} {address : Address} {method : Method}
  {infoHash : InfoHash} {transaction : UInt16}

/-- Recording a query costs no content anything. -/
theorem budgets_of_openQuery? {content : Option InfoHash}
    (opened : search.openQuery? setup address method content = some (transaction, next)) :
    next.budgets = search.budgets := by
  obtain ⟨node, asked, -, -, rfl⟩ := openQuery?_eq_some_iff.mp opened
  rfl

/-- Each target is asked once, in order, and the budgets stay. -/
theorem askAll?_spec {targets : List Address} {asked : List (Address × UInt16)}
    (asking : askAll? setup infoHash targets search = some (asked, next)) :
    asked.map Prod.fst = targets ∧ next.budgets = search.budgets := by
  induction targets generalizing search asked with
  | nil =>
    obtain ⟨rfl, rfl⟩ := Prod.mk.inj (Option.some.inj asking)
    exact ⟨rfl, rfl⟩
  | cons address rest ih =>
    obtain ⟨transaction, opened, others, opening, remaining, rfl⟩ :=
      askAll?_cons_eq_some_iff.mp asking
    obtain ⟨addresses, budgets⟩ := ih remaining
    have kept := budgets_of_openQuery? opening
    exact ⟨congrArg (address :: ·) addresses, budgets.trans kept⟩

/-- Taking in a datagram costs no content anything: only the rounds that its references start do. -/
theorem receive_budgets (search : Search) (now : Moment) (packet : Packet) :
    (search.receive now packet).1.budgets = search.budgets := by
  have reception := search.receive_reception now packet
  generalize search.receive now packet = received at reception ⊢
  cases reception with
  | ignored | stale | closed => rfl
  | delivered =>
    unfold takePeers
    split <;> rfl

end Search

/-! ## Batches -/

namespace Search

variable {setup : Setup} {search : Search} {infoHash : InfoHash} {now : Moment} {outcome : Outcome}

/-- A request hands nothing over. -/
theorem batch_of_request? (taken : search.request? setup now infoHash = some outcome) :
    outcome.batch = none := by
  obtain ⟨asked, next, -, rfl⟩ := round?_eq_some_iff.mp taken
  rfl

/-- A hint hands nothing over. -/
theorem batch_of_hint? {contact : Contact} (taken : search.hint? setup contact = some outcome) :
    outcome.batch = none := by
  rcases hint?_cases taken with rfl | ⟨-, pinged⟩
  · rfl
  · obtain ⟨transaction, opened, -, rfl⟩ := ping?_eq_some_iff.mp pinged
    rfl

/-- Joining the network hands nothing over. -/
theorem batch_of_bootstrap? {resolve : Resolver} {sendFails : Bool}
    {result : Except BootstrapError Unit}
    (joined : search.bootstrap? setup resolve sendFails = some (result, outcome)) :
    outcome.batch = none := by
  rcases bootstrap?_cases joined with
    ⟨rfl, -⟩ | ⟨address, transaction, opened, -, rfl, -⟩
  · rfl
  · rfl

end Search

end PeerDiscovery
