import PeerDiscovery.Proofs.Search.Totals

/-!
# Knowledge only grows

Identifiers come in with hints, references and responses, right and wrong ones, and the record of a
node is made in four places. `NodeTable.Retains` is what each of them respects: a node that is in
the table stays in it, and an identifier that is known stays as it is. Everything else that a search
knows is what its history says, and the history of a journal goes on from that of its first part.
`Run.grows` puts both together for any two searches of a run. -/

namespace PeerDiscovery

/-! ## Tables -/

/-- Every node of a table is still there in the next one, under its address, and with its identifier
if that was known. -/
def NodeTable.Retains (table next : NodeTable) : Prop :=
  ∀ address node, table.get? address = some node →
    ∃ later, next.get? address = some later ∧ ∀ id, node.id = some id → later.id = some id

namespace NodeTable.Retains

variable {table middle next : NodeTable}

theorem refl (table : NodeTable) : table.Retains table :=
  fun _ node found => ⟨node, found, fun _ known => known⟩

theorem trans (first : table.Retains middle) (second : middle.Retains next) :
    table.Retains next := by
  intro address node found
  obtain ⟨between, foundThen, kept⟩ := first address node found
  obtain ⟨later, foundLater, keptToo⟩ := second address between foundThen
  exact ⟨later, foundLater, fun id known => keptToo id (kept id known)⟩

theorem contains {address : Address} (retains : table.Retains next)
    (known : table.contains address = true) : next.contains address = true := by
  rw [contains_eq_isSome] at known ⊢
  obtain ⟨node, found⟩ := Option.isSome_iff_exists.mp known
  obtain ⟨later, foundLater, -⟩ := retains address node found
  rw [foundLater]
  rfl

/-- Where a node joins, the others stay. -/
theorem add (table : NodeTable) (node : KnownNode) : table.Retains (table.add node) := by
  cases known : table.contains node.address with
  | true =>
    rw [add_of_contains known]
    exact refl table
  | false =>
    have unknown := contains_eq_false_iff.mp known
    intro address old found
    have elsewhere : node.address ≠ address := by
      rintro rfl
      rw [unknown] at found
      cases found
    exact ⟨old, by rw [get?_add unknown, if_neg elsewhere, found], fun _ same => same⟩

/-- A node may give way to one with the same identifier. -/
theorem replace {address : Address} {old node : KnownNode} (found : table.get? address = some old)
    (own : node.address = old.address) (kept : ∀ id, old.id = some id → node.id = some id) :
    table.Retains (table.replace node) := by
  have here : node.address = address := own.trans (get?_eq_some_iff.mp found).2
  intro other record foundOther
  rw [get?_replace, here]
  split
  · rename_i same
    subst same
    obtain rfl := Option.some.inj (found.symm.trans foundOther)
    exact ⟨node, by rw [foundOther]; rfl, kept⟩
  · exact ⟨record, foundOther, fun _ known => known⟩

end NodeTable.Retains

/-! ## Functions of a search -/

section Functions

variable {setup : Setup} {search next : Search} {address : Address} {method : Method}
  {infoHash : InfoHash} {transaction : UInt16} {now : Moment} {outcome : Outcome}

namespace NodeTable.Retains

/-- Recording a query changes the node that it is recorded at, but not who it is. -/
theorem openQuery {content : Option InfoHash}
    (opened : search.openQuery? setup address method content = some (transaction, next)) :
    search.table.Retains next.table := by
  obtain ⟨node, asked, found, recorded, rfl⟩ := Search.openQuery?_eq_some_iff.mp opened
  refine (add search.table _).trans (replace found (KnownNode.address_of_ask? recorded) ?_)
  rw [(KnownNode.ask?_eq_some_iff.mp recorded).2]
  exact fun _ known => known

/-- Asking nodes one after another retains all of them. -/
theorem askAll {targets : List Address} {asked : List (Address × UInt16)}
    (result : Search.askAll? setup infoHash targets search = some (asked, next)) :
    search.table.Retains next.table := by
  induction targets generalizing search asked with
  | nil =>
    obtain ⟨-, rfl⟩ := Prod.mk.inj (Option.some.inj result)
    exact refl _
  | cons address rest ih =>
    obtain ⟨transaction, opened, others, opening, remaining, -⟩ :=
      Search.askAll?_cons_eq_some_iff.mp result
    have kept := ih remaining
    exact (openQuery opening).trans kept

theorem round (held : search.round? setup now infoHash = some outcome) :
    search.table.Retains outcome.search.table := by
  obtain ⟨asked, last, asking, rfl⟩ := Search.round?_eq_some_iff.mp held
  exact askAll asking

theorem request (taken : search.request? setup now infoHash = some outcome) :
    search.table.Retains outcome.search.table := by
  rw [Search.request?] at taken
  have kept := round taken
  exact kept

theorem ping (pinged : search.ping? setup address = some outcome) :
    search.table.Retains outcome.search.table := by
  obtain ⟨transaction, opened, opening, rfl⟩ := Search.ping?_eq_some_iff.mp pinged
  have kept := openQuery opening
  exact kept

/-- A hint adds a node behind those that are known. -/
theorem hint {contact : Contact} (taken : search.hint? setup contact = some outcome) :
    search.table.Retains outcome.search.table := by
  rcases Search.hint?_cases taken with rfl | ⟨-, pinged⟩
  · exact refl _
  · have kept := ping pinged
    exact (add search.table _).trans kept

/-- Joining the network adds the router. -/
theorem bootstrap {resolve : Resolver} {sendFails : Bool} {result : Except BootstrapError Unit}
    (joined : search.bootstrap? setup resolve sendFails = some (result, outcome)) :
    search.table.Retains outcome.search.table := by
  rcases Search.bootstrap?_cases joined with
    ⟨rfl, -⟩ | ⟨address, transaction, opened, opening, rfl, -⟩
  · exact refl _
  · have kept := openQuery opening
    exact kept

/-- A node that answers keeps its identifier. -/
theorem id_of_resolve? {node answered : KnownNode} {transaction : Bytes} {query : Query}
    (resolved : node.resolve? transaction now = some (query, answered)) :
    answered.id = node.id := by
  obtain ⟨number, -, closed⟩ := KnownNode.resolve?_eq_some_iff.mp resolved
  rw [(KnownNode.answer?_eq_some_iff.mp closed).2]

/-- A response tells an identifier only where none was known. -/
theorem identified {node : KnownNode} (found : search.table.get? address = some node)
    (id : Identifier) {answered : KnownNode} (own : answered.address = node.address)
    (same : answered.id = (node.identified id).id) :
    search.table.Retains (search.table.replace answered) := by
  refine replace found own fun known here => ?_
  rw [same, KnownNode.identified, here]
  rfl

/-- An answer gives its sender an identifier if it had none, and changes no other node. -/
theorem receive (search : Search) (now : Moment) (packet : Packet) :
    search.table.Retains (search.receive now packet).1.table := by
  have reception := search.receive_reception now packet
  generalize search.receive now packet = received at reception ⊢
  cases reception with
  | ignored => exact refl _
  | stale _ found => exact identified found _ rfl rfl
  | closed _ found resolved =>
    exact identified found _ (Search.address_of_resolve? resolved).1 (id_of_resolve? resolved)
  | delivered _ found resolved =>
    rw [Explains.takePeers_table]
    exact identified found _ (Search.address_of_resolve? resolved).1 (id_of_resolve? resolved)

/-- A reference adds a node behind those that are known. -/
theorem follow {contact : Contact}
    (followed : Search.follow? setup now infoHash contact search = some outcome) :
    search.table.Retains outcome.search.table := by
  rcases Search.follow?_cases followed with ⟨-, rfl⟩ | ⟨-, ⟨-, rfl⟩ | ⟨left, -, -, held⟩⟩
  · exact refl _
  · exact add search.table _
  · have kept := round held
    exact (add search.table _).trans kept

/-- So do references one after another. -/
theorem followAll {clock : Clock} {contacts : List Contact}
    (followed : Search.followAll? setup clock infoHash contacts search = some outcome) :
    search.table.Retains outcome.search.table := by
  induction contacts generalizing clock search outcome with
  | nil =>
    obtain rfl := Option.some.inj followed
    exact refl _
  | cons contact rest ih =>
    obtain ⟨first, others, one, remaining, rfl⟩ := Search.followAll?_cons_eq_some_iff.mp followed
    have kept := ih remaining
    exact (follow one).trans kept

/-- Following what a datagram refers to keeps what taking it in has learnt. -/
theorem packet {heard : Moment} {clock : Clock} {packet : Packet}
    (handled : search.handle? setup heard clock (.packet packet) = some outcome) :
    (search.receive heard packet).1.table.Retains outcome.search.table := by
  rcases Search.handle?_packet_cases handled with
    ⟨-, rfl⟩ | ⟨delivery, followed, -, following, rfl⟩
  · exact refl _
  · have kept := followAll following
    exact kept

/-- Whatever is handled, the nodes that were known stay known. -/
theorem handle {heard : Moment} {clock : Clock} {stimulus : Stimulus}
    (handled : search.handle? setup heard clock stimulus = some outcome) :
    search.table.Retains outcome.search.table := by
  cases stimulus with
  | hint contact => exact hint handled
  | request infoHash => exact request handled
  | packet datagram => exact (receive search heard datagram).trans (packet handled)

end NodeTable.Retains

end Functions

/-! ## Runs -/

/-- What is known about a node at one time is known later: its record stays under its address, a
known identifier stays, and once it answered it counts as reachable and is heard of no earlier. -/
structure KnownNode.Grows (node later : KnownNode) : Prop where
  address_eq : later.address = node.address
  id_eq : ∀ id, node.id = some id → later.id = some id
  reachable : node.reachable = true → later.reachable = true
  lastContact_le : ∀ moment, node.lastContact = some moment →
    ∃ last, later.lastContact = some last ∧ moment ≤ last

/-- Whether a node ever answered shows in three places of its record, which agree. -/
structure KnownNode.Coherent (node : KnownNode) : Prop where
  reachable_iff : node.reachable = true ↔ node.lastContact.isSome = true
  lastContact_iff : node.lastContact.isSome = true ↔ node.past ≠ ∅

/-- What a search knows at one time, and what it knows once the journal has gone on. -/
structure Grows (journal entries : List Entry) (search later : Search) : Prop where
  nodes : ∀ address node, search.table.get? address = some node →
    node.address = address ∧ node.Coherent ∧
      ∃ grown, later.table.get? address = some grown ∧ node.Grows grown
  peers : ∀ infoHash peer, peer ∈ search.peersOf infoHash → peer ∈ later.peersOf infoHash
  /-- A counter shows what was counted, and never went back unless it wrapped. -/
  counters : ∀ counter, later.stats.shows counter = .ofNat (total counter (journal ++ entries)) ∧
    (total counter (journal ++ entries) < UInt64.size →
      search.stats.shows counter ≤ later.stats.shows counter)

section Runs

variable {setup : Setup} {resolve : Resolver} {journal entries : List Entry}
  {search later : Search}

/-- So it is with every entry of a journal. -/
theorem Entry.Done.retains {entry : Entry} (done : entry.Done setup resolve) :
    entry.before.table.Retains entry.outcome.search.table := by
  obtain ⟨heard, clock, stimulus, before, outcome⟩ := entry
  cases stimulus with
  | none =>
    obtain ⟨start, sendFails, result, joined⟩ := done
    obtain rfl : before = .start := start
    exact .bootstrap joined
  | some stimulus => exact .handle done

/-- A run never forgets a node that it once knew. -/
theorem Run.retains (first : Run setup resolve journal search)
    (second : Run setup resolve (journal ++ entries) later) :
    search.table.Retains later.table := by
  refine Run.relate (motive := fun one other => one.table.Retains other.table)
    (fun search => .refl search.table) ?_ first second
  intro journal search entry run done retained
  exact retained.trans done.retains

/-- When a node was last heard of follows from the history, which goes on. -/
theorem Run.lastContact_le (first : Run setup resolve journal search)
    (second : Run setup resolve (journal ++ entries) later) (order : InOrder (journal ++ entries))
    {address : Address} {node grown : KnownNode} (found : search.table.get? address = some node)
    (foundLater : later.table.get? address = some grown) {moment : Moment}
    (contact : node.lastContact = some moment) :
    ∃ last, grown.lastContact = some last ∧ moment ≤ last := by
  obtain ⟨query, answered⟩ := (first.explains.life found).dealings.answered_of_lastContact contact
  have still : .answered moment address query ∈
      occurrencesAt address (history (journal ++ entries)) := by
    rw [history_append, occurrencesAt_append]
    exact List.mem_append_left _ answered
  have ordered : (occurrencesAt address (history (journal ++ entries))).Pairwise
      fun earlier later => earlier.now ≤ later.now := order.history.sublist List.filter_sublist
  exact (second.explains.life foundLater).dealings.lastContact_of_answered ordered still

/-- Between any two states of a run, what the search knows only grows. -/
theorem Run.grows (first : Run setup resolve journal search)
    (second : Run setup resolve (journal ++ entries) later) (order : InOrder (journal ++ entries)) :
    Grows journal entries search later where
  nodes := by
    intro address node found
    obtain ⟨grown, foundLater, kept⟩ := first.retains second address node found
    have own := (NodeTable.get?_eq_some_iff.mp found).2
    have ownLater := (NodeTable.get?_eq_some_iff.mp foundLater).2
    have dealings := (first.explains.life found).dealings
    have dealingsLater := (second.explains.life foundLater).dealings
    have contact : ∀ moment, node.lastContact = some moment →
        ∃ last, grown.lastContact = some last ∧ moment ≤ last :=
      fun _ => first.lastContact_le second order found foundLater
    refine ⟨own, ⟨dealings.reachable_iff, dealings.lastContact_iff⟩, grown, foundLater, ?_⟩
    refine ⟨ownLater.trans own.symm, kept, ?_, contact⟩
    intro reachable
    obtain ⟨moment, contacted⟩ := Option.isSome_iff_exists.mp (dealings.reachable_iff.mp reachable)
    obtain ⟨last, contactedLater, -⟩ := contact moment contacted
    rw [dealingsLater.reachable_iff, contactedLater]
    rfl
  peers infoHash peer member := by
    rw [← second.tallied.mem_iff, published_append]
    exact List.mem_append_left _ ((first.tallied.mem_iff infoHash peer).mpr member)
  counters counter := ⟨second.shows_eq counter, first.shows_le second⟩

/-- Between the first answer of the sample and its end the node is asked and answers again. -/
theorem Run.grows_sample :
    ∃ journal entries search later, Run Sample.setup .literal journal search ∧
      Run Sample.setup .literal (journal ++ entries) later ∧ InOrder (journal ++ entries) ∧
      (search.table.get? Sample.node).bind KnownNode.lastContact = some 2 ∧
      (later.table.get? Sample.node).bind KnownNode.lastContact = some 9 ∧
      Grows journal entries search later := by
  have told : ((Search.start.journal? Sample.setup (Sample.events.take 5)).bind fun first =>
      (first.2.journal? Sample.setup (Sample.events.drop 5)).map fun second =>
        ((first.2.table.get? Sample.node).bind KnownNode.lastContact,
          (second.2.table.get? Sample.node).bind KnownNode.lastContact,
          decide (InOrder (first.1 ++ second.1)))) = some (some 2, some 9, true) := by
    decide +kernel
  obtain ⟨⟨journal, search⟩, recorded, told⟩ := Option.bind_eq_some_iff.mp told
  obtain ⟨⟨entries, later⟩, recordedLater, same⟩ := Option.map_eq_some_iff.mp told
  obtain ⟨contact, same⟩ := Prod.mk.inj same
  obtain ⟨contactLater, ordered⟩ := Prod.mk.inj same
  have first : Run Sample.setup .literal journal search := Run.start.journal? recorded
  have second := first.journal? recordedLater
  have order : InOrder (journal ++ entries) := of_decide_eq_true ordered
  exact ⟨journal, entries, search, later, first, second, order, contact, contactLater,
    first.grows second order⟩

end Runs

end PeerDiscovery
