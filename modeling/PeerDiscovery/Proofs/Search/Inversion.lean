import PeerDiscovery.Proofs.KnownNode.Transaction
import PeerDiscovery.Proofs.NodeTable
import PeerDiscovery.Proofs.Search.Journal

/-!
# What handling can have done

One inversion lemma for each function that may fail or that has several ways to go: it names every
intermediate search, so that no other proof unfolds the function. `Reception` lists what taking in a
datagram can come to.
-/

namespace PeerDiscovery.Search

variable {setup : Setup} {search next : Search} {address : Address} {method : Method}
  {infoHash : InfoHash} {transaction : UInt16} {now : Moment} {outcome : Outcome}

/-! ## Asking -/

/-- A query is opened at the node of its address, which joins the table if it was unknown; nothing
but the table changes. -/
theorem openQuery?_eq_some_iff {content : Option InfoHash} :
    search.openQuery? setup address method content = some (transaction, next) ↔
      ∃ node asked,
        (search.table.addAddress setup.chance address).get? address = some node ∧
          node.ask? method content = some (transaction, asked) ∧
          next = { search with
            table := (search.table.addAddress setup.chance address).replace asked } := by
  unfold openQuery?
  simp only [Option.bind_eq_bind, Option.bind_eq_some_iff, Option.pure_def, Option.some.injEq,
    Prod.exists, Prod.mk.injEq]
  constructor
  · intro given
    rcases given with ⟨node, found, number, asked, opened, rfl, rfl⟩
    exact ⟨node, asked, found, opened, rfl⟩
  · intro given
    rcases given with ⟨node, asked, found, opened, rfl⟩
    exact ⟨node, found, transaction, asked, opened, rfl, rfl⟩

theorem ping?_eq_some_iff :
    search.ping? setup address = some outcome ↔
      ∃ transaction opened,
        search.openQuery? setup address .ping none = some (transaction, opened) ∧
          outcome = {
            search := { opened with stats.pingsSent := opened.stats.pingsSent + 1 }
            activities := [.ping address transaction] } := by
  unfold ping?
  simp only [Option.bind_eq_bind, Option.bind_eq_some_iff, Option.pure_def, Option.some.injEq,
    Prod.exists]
  constructor
  · intro given
    rcases given with ⟨transaction, opened, opening, rfl⟩
    exact ⟨transaction, opened, opening, rfl⟩
  · intro given
    rcases given with ⟨transaction, opened, opening, rfl⟩
    exact ⟨transaction, opened, opening, rfl⟩

theorem askAll?_cons_eq_some_iff {rest : List Address} {asked : List (Address × UInt16)} :
    askAll? setup infoHash (address :: rest) search = some (asked, next) ↔
      ∃ transaction opened others,
        search.openQuery? setup address .getPeers (some infoHash) = some (transaction, opened) ∧
          askAll? setup infoHash rest
            { opened with stats.getPeersSent := opened.stats.getPeersSent + 1 } =
              some (others, next) ∧
          asked = (address, transaction) :: others := by
  rw [askAll?]
  simp only [Option.bind_eq_bind, Option.bind_eq_some_iff, Option.pure_def, Option.some.injEq,
    Prod.exists, Prod.mk.injEq]
  constructor
  · intro given
    rcases given with ⟨number, opened, opening, others, last, remaining, rfl, rfl⟩
    exact ⟨number, opened, others, opening, remaining, rfl⟩
  · intro given
    rcases given with ⟨number, opened, others, opening, remaining, rfl⟩
    exact ⟨number, opened, opening, others, next, remaining, rfl, rfl⟩

theorem round?_eq_some_iff :
    search.round? setup now infoHash = some outcome ↔
      ∃ asked next,
        askAll? setup infoHash ((Selection.select? (limits setup.settings) infoHash now
          (search.table.walk setup.chance)).getD []) search = some (asked, next) ∧
          outcome = { search := next, activities := [.round now infoHash asked] } := by
  unfold round?
  simp only [Option.bind_eq_bind, Option.bind_eq_some_iff, Option.pure_def, Option.some.injEq,
    Prod.exists]
  constructor
  · intro given
    rcases given with ⟨asked, next, asking, rfl⟩
    exact ⟨asked, next, asking, rfl⟩
  · intro given
    rcases given with ⟨asked, next, asking, rfl⟩
    exact ⟨asked, next, asking, rfl⟩

/-- A hint of a known node changes nothing; any other node joins the table and is pinged. -/
theorem hint?_cases {contact : Contact} (taken : search.hint? setup contact = some outcome) :
    outcome = { search } ∨
      search.table.get? contact.address = none ∧
        ping? setup
          { search with
            table := search.table.addContact setup.chance contact
            stats.nodesCreated := search.stats.nodesCreated + 1 }
          contact.address = some outcome := by
  unfold hint? at taken
  split at taken
  · exact Or.inl (Option.some.inj taken).symm
  · rename_i absent
    exact Or.inr ⟨NodeTable.contains_eq_false_iff.mp (Bool.not_eq_true _ ▸ absent), taken⟩

/-- Joining the network does nothing at all, or opens a ping at the router, which counts as sent
only if sending it does not fail. -/
theorem bootstrap?_cases {resolve : Resolver} {sendFails : Bool}
    {result : Except BootstrapError Unit}
    (joined : search.bootstrap? setup resolve sendFails = some (result, outcome)) :
    outcome = { search } ∧ result ≠ .error .sendFailed ∨
      ∃ address transaction opened,
        { search with
            stats.nodesCreated := search.stats.nodesCreated +
              if search.table.contains address then 0 else 1 }.openQuery? setup address .ping none =
            some (transaction, opened) ∧
          outcome = {
            search := { opened with
              stats.pingsSent := opened.stats.pingsSent + if sendFails then 0 else 1 }
            activities := [.ping address transaction] } ∧
          result = if sendFails then .error .sendFailed else .ok () := by
  unfold bootstrap? at joined
  split at joined
  · obtain ⟨rfl, rfl⟩ := Prod.mk.inj (Option.some.inj joined)
    exact Or.inl ⟨rfl, by rintro ⟨⟩⟩
  split at joined
  · obtain ⟨rfl, rfl⟩ := Prod.mk.inj (Option.some.inj joined)
    exact Or.inl ⟨rfl, by rintro ⟨⟩⟩
  · obtain ⟨rfl, rfl⟩ := Prod.mk.inj (Option.some.inj joined)
    exact Or.inl ⟨rfl, by rintro ⟨⟩⟩
  rw [Option.bind_eq_bind, Option.bind_eq_some_iff] at joined
  obtain ⟨⟨number, opened⟩, opening, joined⟩ := joined
  refine Or.inr ⟨_, number, opened, opening, ?_⟩
  dsimp only at joined
  cases sendFails with
  | true =>
    obtain ⟨rfl, rfl⟩ := Prod.mk.inj (Option.some.inj joined)
    refine ⟨?_, rfl⟩
    rw [if_pos rfl, UInt64.add_zero]
  | false =>
    obtain ⟨rfl, rfl⟩ := Prod.mk.inj (Option.some.inj joined)
    exact ⟨rfl, rfl⟩

/-! ## Taking in datagrams -/

/-- A datagram closes a query exactly if it is a response of a known node under the number of that
open query of the node. -/
theorem matched?_eq_some_iff {packet : Packet} {query : Query} :
    search.matched? now packet = some query ↔
      ∃ number sender reply node,
        Message.parse packet.payload = .ok ⟨Bytes.ofWord number, sender, .response reply⟩ ∧
          search.table.get? packet.sender = some node ∧ node.pending[number]? = some query := by
  constructor
  · intro matched
    unfold matched? at matched
    split at matched
    · rename_i transaction sender reply node parsed found
      obtain ⟨⟨closed, answered⟩, resolved, rfl⟩ := Option.map_eq_some_iff.mp matched
      obtain ⟨number, rfl, answering⟩ := KnownNode.resolve?_eq_some_iff.mp resolved
      exact ⟨number, sender, reply, node, parsed, found,
        (KnownNode.answer?_eq_some_iff.mp answering).1⟩
    · cases matched
  · intro given
    rcases given with ⟨number, sender, reply, node, parsed, found, waiting⟩
    have answering : (node.identified reply.id).answer? number now = some (query, _) :=
      KnownNode.answer?_eq_some_iff.mpr ⟨waiting, rfl⟩
    have resolved := KnownNode.resolve?_eq_some_iff.mpr ⟨number, rfl, answering⟩
    unfold matched?
    simp only [parsed, found, resolved, Option.map_some]

/-- The search after a query of a node was closed. -/
def closing (search : Search) (answered : KnownNode) : Search :=
  { search with
    table := search.table.replace answered
    stats.responsesMatched := search.stats.responsesMatched + 1 }

theorem takePeers_infoHash (search : Search) (infoHash : InfoHash) (reply : Reply) :
    (search.takePeers infoHash reply).2.infoHash = infoHash := by
  unfold takePeers
  split <;> rfl

/-- What taking in a datagram can come to: the search behind it, and what is still to be done. -/
inductive Reception (search : Search) (now : Moment) (packet : Packet) :
    Search × Option Delivery → Prop
  /-- It is no response of a known node. -/
  | ignored :
    (∀ transaction sender reply,
      Message.parse packet.payload = .ok ⟨transaction, sender, .response reply⟩ →
        search.table.get? packet.sender = none) →
    search.matched? now packet = none → Reception search now packet (search, none)
  /-- It is a response to no open query. -/
  | stale {transaction : Bytes} {sender : Option Identifier} {reply : Reply} {node : KnownNode} :
    Message.parse packet.payload = .ok ⟨transaction, sender, .response reply⟩ →
    search.table.get? packet.sender = some node →
    (node.identified reply.id).resolve? transaction now = none →
    search.matched? now packet = none →
    Reception search now packet
      ({ search with
        table := search.table.replace (node.identified reply.id)
        stats.staleResponses := search.stats.staleResponses + 1 }, none)
  /-- It closes a query that is no question for peers. -/
  | closed {transaction : Bytes} {sender : Option Identifier} {reply : Reply}
    {node answered : KnownNode} {query : Query} :
    Message.parse packet.payload = .ok ⟨transaction, sender, .response reply⟩ →
    search.table.get? packet.sender = some node →
    (node.identified reply.id).resolve? transaction now = some (query, answered) →
    search.matched? now packet = some query →
    (∀ infoHash, query.asksPeersOf infoHash = false) →
    Reception search now packet (search.closing answered, none)
  /-- It closes a question for the peers of a content. -/
  | delivered {transaction : Bytes} {sender : Option Identifier} {reply : Reply}
    {node answered : KnownNode} {query : Query} {infoHash : InfoHash} :
    Message.parse packet.payload = .ok ⟨transaction, sender, .response reply⟩ →
    search.table.get? packet.sender = some node →
    (node.identified reply.id).resolve? transaction now = some (query, answered) →
    search.matched? now packet = some query →
    query.asksPeersOf infoHash = true →
    Reception search now packet
      (((search.closing answered).takePeers infoHash reply).1,
        some ((search.closing answered).takePeers infoHash reply).2)

theorem receive_reception (search : Search) (now : Moment) (packet : Packet) :
    Reception search now packet (search.receive now packet) := by
  cases parsed : Message.parse packet.payload with
  | error cause =>
    have unmatched : search.matched? now packet = none := by rw [matched?, parsed]
    rw [receive, parsed]
    exact .ignored (fun _ _ _ other => by rw [parsed] at other; cases other) unmatched
  | ok message =>
    obtain ⟨transaction, sender, body⟩ := message
    cases body with
    | query request =>
      have unmatched : search.matched? now packet = none := by rw [matched?, parsed]
      rw [receive, parsed]
      exact .ignored (fun _ _ _ other => by rw [parsed] at other; cases other) unmatched
    | error code text =>
      have unmatched : search.matched? now packet = none := by rw [matched?, parsed]
      rw [receive, parsed]
      exact .ignored (fun _ _ _ other => by rw [parsed] at other; cases other) unmatched
    | response reply =>
      cases found : search.table.get? packet.sender with
      | none =>
        have unmatched : search.matched? now packet = none := by rw [matched?, parsed, found]
        rw [receive, parsed, found]
        exact .ignored (fun _ _ _ _ => found) unmatched
      | some node =>
        cases resolved : (node.identified reply.id).resolve? transaction now with
        | none =>
          have unmatched : search.matched? now packet = none := by
            rw [matched?, parsed, found]
            simp [resolved]
          have came : search.receive now packet = ({ search with
              table := search.table.replace (node.identified reply.id)
              stats.staleResponses := search.stats.staleResponses + 1 }, none) := by
            rw [receive, parsed, found]
            simp only [takeReply, resolved]
          rw [came]
          exact .stale parsed found resolved unmatched
        | some closing =>
          obtain ⟨query, answered⟩ := closing
          have matched : search.matched? now packet = some query := by
            rw [matched?, parsed, found]
            simp [resolved]
          by_cases asks : ∃ infoHash, query.asksPeersOf infoHash = true
          · obtain ⟨infoHash, asks⟩ := asks
            have kind := asks
            simp only [Query.asksPeersOf, Bool.and_eq_true, decide_eq_true_eq] at kind
            have came : search.receive now packet =
                (((search.closing answered).takePeers infoHash reply).1,
                  some ((search.closing answered).takePeers infoHash reply).2) := by
              rw [receive, parsed, found]
              simp only [takeReply, resolved, kind.1, kind.2]
              rfl
            rw [came]
            exact .delivered parsed found resolved matched asks
          · have never : ∀ infoHash, query.asksPeersOf infoHash = false := by
              simpa using asks
            have came : search.receive now packet = (search.closing answered, none) := by
              rw [receive, parsed, found]
              simp only [takeReply, resolved]
              split
              · rename_i infoHash getPeers content
                have yes : query.asksPeersOf infoHash = true := by
                  simp [Query.asksPeersOf, getPeers, content]
                rw [never infoHash] at yes
                cases yes
              · rfl
            rw [came]
            exact .closed parsed found resolved matched never

/-- A delivery is for the content that the closed query asked about, and refers to the nodes of the
answer that closed it. -/
theorem matched_of_delivery {packet : Packet} {delivery : Delivery}
    (due : (search.receive now packet).2 = some delivery) :
    ∃ transaction sender reply query,
      Message.parse packet.payload = .ok ⟨transaction, sender, .response reply⟩ ∧
        search.matched? now packet = some query ∧
        query.asksPeersOf delivery.infoHash = true ∧ delivery.nodes = reply.nodes := by
  have reception := search.receive_reception now packet
  generalize search.receive now packet = received at reception due
  cases reception with
  | ignored | stale | closed => cases due
  | @delivered transaction sender reply node answered query infoHash parsed _ _ matched asks =>
    obtain rfl := Option.some.inj due
    refine ⟨transaction, sender, reply, query, parsed, matched, ?_, ?_⟩
    · rw [takePeers_infoHash]
      exact asks
    · unfold takePeers
      split <;> rfl

/-! ## Following references -/

/-- A reference to a known node is only counted. An unknown node joins the table, and that is all
where enough peers are known or no automatic round is left; otherwise it starts one. -/
theorem follow?_cases {contact : Contact}
    (followed : follow? setup now infoHash contact search = some outcome) :
    search.table.contains contact.address = true ∧
        outcome = { search := { search with
          stats.duplicateNodes := search.stats.duplicateNodes + 1 } } ∨
      search.table.contains contact.address = false ∧
        ((setup.settings.wantedPeers ≤ search.knownPeers infoHash ∨ search.budget infoHash = 0) ∧
            outcome = { search := { search with
              table := search.table.addContact setup.chance contact
              stats.nodesCreated := search.stats.nodesCreated + 1 } } ∨
          ∃ left, search.knownPeers infoHash < setup.settings.wantedPeers ∧
            search.budget infoHash = left + 1 ∧
            round? setup now infoHash { search with
              table := search.table.addContact setup.chance contact
              stats.nodesCreated := search.stats.nodesCreated + 1
              budgets := search.budgets.insert infoHash left } = some outcome) := by
  unfold follow? at followed
  split at followed
  · rename_i known
    exact Or.inl ⟨known, (Option.some.inj followed).symm⟩
  rename_i unknown
  refine Or.inr ⟨Bool.not_eq_true _ ▸ unknown, ?_⟩
  dsimp only at followed
  split at followed
  · rename_i few
    unfold expand? at followed
    split at followed
    · rename_i spent
      exact Or.inl ⟨Or.inr spent, (Option.some.inj followed).symm⟩
    · rename_i left more
      exact Or.inr ⟨left, few, more, followed⟩
  · rename_i enough
    exact Or.inl ⟨Or.inl (Nat.le_of_not_lt enough), (Option.some.inj followed).symm⟩

theorem followAll?_cons_eq_some_iff {clock : Clock} {contact : Contact} {rest : List Contact} :
    followAll? setup clock infoHash (contact :: rest) search = some outcome ↔
      ∃ first others,
        follow? setup (clock 0) infoHash contact search = some first ∧
          followAll? setup clock.rest infoHash rest first.search = some others ∧
          outcome = { others with activities := first.activities ++ others.activities } := by
  rw [followAll?]
  simp only [Option.bind_eq_bind, Option.bind_eq_some_iff, Option.pure_def, Option.some.injEq]
  constructor
  · intro given
    rcases given with ⟨first, one, others, remaining, rfl⟩
    exact ⟨first, others, one, remaining, rfl⟩
  · intro given
    rcases given with ⟨first, others, one, remaining, rfl⟩
    exact ⟨first, one, others, remaining, rfl⟩

/-- Following a reference reads the clock at most once, for the round that it starts. -/
theorem moments_of_follow? {contact : Contact} (heard : Moment)
    (followed : follow? setup now infoHash contact search = some outcome) :
    outcome.activities = [] ∨ outcome.activities.map (Activity.moment heard) = [now] := by
  rcases follow?_cases followed with ⟨-, rfl⟩ | ⟨-, ⟨-, rfl⟩ | ⟨left, -, -, held⟩⟩
  · exact Or.inl rfl
  · exact Or.inl rfl
  · obtain ⟨asked, next, -, rfl⟩ := round?_eq_some_iff.mp held
    exact Or.inr rfl

/-- Following references reads the clock in order, at most once for each. -/
theorem moments_of_followAll? {clock : Clock} {contacts : List Contact} (heard : Moment)
    (followed : followAll? setup clock infoHash contacts search = some outcome) :
    (outcome.activities.map (Activity.moment heard)).Sublist
      ((List.range contacts.length).map clock) := by
  induction contacts generalizing clock search outcome with
  | nil =>
    obtain rfl := Option.some.inj followed
    exact List.nil_sublist _
  | cons contact rest ih =>
    obtain ⟨first, others, one, remaining, rfl⟩ := followAll?_cons_eq_some_iff.mp followed
    have behind : (others.activities.map (Activity.moment heard)).Sublist
        ((List.range rest.length).map clock.rest) := ih remaining
    rw [List.length_cons, List.range_succ_eq_map, List.map_cons, List.map_map, List.map_append]
    rcases moments_of_follow? heard one with none | own
    · rw [none, List.map_nil, List.nil_append]
      exact behind.cons _
    · rw [own, List.singleton_append]
      exact behind.cons_cons _

/-! ## Handling datagrams -/

/-- Handling a datagram is taking it in and, if that brings a delivery, following its references. -/
theorem handle?_packet_cases {heard : Moment} {clock : Clock} {packet : Packet}
    (handled : search.handle? setup heard clock (.packet packet) = some outcome) :
    (search.receive heard packet).2 = none ∧
        outcome = { search := (search.receive heard packet).1 } ∨
      ∃ delivery followed,
        (search.receive heard packet).2 = some delivery ∧
          followAll? setup clock delivery.infoHash (references delivery.nodes)
            (search.receive heard packet).1 = some followed ∧
          outcome = { followed with batch := delivery.batch? } := by
  rw [handle?, packet?] at handled
  split at handled
  · rename_i next quiet
    rw [quiet]
    exact Or.inl ⟨rfl, (Option.some.inj handled).symm⟩
  · rename_i next delivery due
    rw [Option.bind_eq_bind, Option.bind_eq_some_iff] at handled
    obtain ⟨followed, following, handled⟩ := handled
    rw [due]
    exact Or.inr ⟨delivery, followed, rfl, following, (Option.some.inj handled).symm⟩

end PeerDiscovery.Search
