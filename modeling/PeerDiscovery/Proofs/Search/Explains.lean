import PeerDiscovery.Proofs.KnownNode.Life
import PeerDiscovery.Proofs.Search.Inversion

/-!
# Histories that explain a table

A history explains a table if every node of the table lived the part of the history that happened at
its address, and nothing happened anywhere else. Each function of a search turns an explained table
into one that is explained by the history with the new occurrences behind it; `Run.explains` puts
them together for whole runs.
-/

namespace PeerDiscovery

open Search (limits)

/-- What the history of an address must be, given its node, if it has one. -/
def LivesAt (setup : Setup) (address : Address) : Option KnownNode → List Occurrence → Prop
  | none, history => history = []
  | some node, history =>
    Life (limits setup.settings) (setup.chance.firstTransaction address) address node history

/-- Every node lived its part of the history, and there is no other part. -/
def Explains (setup : Setup) (history : List Occurrence) (table : NodeTable) : Prop :=
  ∀ address, LivesAt setup address (table.get? address) (occurrencesAt address history)

namespace Explains

variable {setup : Setup} {history : List Occurrence} {table : NodeTable}

theorem empty : Explains setup [] .empty := fun _ => rfl

/-- A known node has lived through what happened at its address. -/
theorem life (explained : Explains setup history table) {address : Address} {node : KnownNode}
    (found : table.get? address = some node) :
    Life (limits setup.settings) (setup.chance.firstTransaction address) address node
      (occurrencesAt address history) := by
  have lives := explained address
  rw [found] at lives
  exact lives

/-- Nothing happens at the address of an unknown node. -/
theorem occurrencesAt_of_unknown (explained : Explains setup history table) {address : Address}
    (unknown : table.get? address = none) : occurrencesAt address history = [] := by
  have lives := explained address
  rw [unknown] at lives
  exact lives

/-- Something happens only at nodes of the table. -/
theorem exists_node (explained : Explains setup history table) {occurrence : Occurrence}
    (member : occurrence ∈ history) : ∃ node, table.get? occurrence.address = some node := by
  cases found : table.get? occurrence.address with
  | some node => exact ⟨node, rfl⟩
  | none =>
    have nothing := explained.occurrencesAt_of_unknown found
    have here := mem_occurrencesAt.mpr ⟨member, rfl⟩
    rw [nothing] at here
    cases here

/-- Just before anything happened at a node, it was in a state that allowed it. -/
theorem before_occurrence (explained : Explains setup history table)
    {before after : List Occurrence} {occurrence : Occurrence}
    (split : history = before ++ occurrence :: after) :
    ∃ earlier,
      Life (limits setup.settings) (setup.chance.firstTransaction occurrence.address)
          occurrence.address earlier (occurrencesAt occurrence.address before) ∧
        Life.Allows (limits setup.settings) earlier (occurrencesAt occurrence.address before)
          occurrence := by
  have member : occurrence ∈ history := by
    rw [split]
    simp
  obtain ⟨node, found⟩ := explained.exists_node member
  have here : occurrencesAt occurrence.address history =
      occurrencesAt occurrence.address before ++ occurrence ::
        occurrencesAt occurrence.address after := by
    rw [split, occurrencesAt_append, occurrencesAt_cons_of_eq _ rfl]
  exact (explained.life found).before_occurrence here

/-! ## Nodes that join -/

/-- A node that joins has nothing behind it, and nothing has happened at its address. -/
theorem add (explained : Explains setup history table) (id : Option Identifier)
    (address : Address) :
    Explains setup history
      (table.add (.new id address (setup.chance.firstTransaction address))) := by
  cases known : table.contains address with
  | true =>
    rw [NodeTable.add_of_contains known]
    exact explained
  | false =>
    have unknown := NodeTable.contains_eq_false_iff.mp known
    intro other
    rw [NodeTable.get?_add unknown]
    split
    · rename_i same
      obtain rfl : address = other := same
      rw [explained.occurrencesAt_of_unknown unknown]
      exact Life.listed id
    · exact explained other

/-! ## Nodes that change -/

/-- One node goes on living, and the history goes on at its address only. -/
theorem replace (explained : Explains setup history table) {address : Address}
    {node : KnownNode} {more : List Occurrence} (known : (table.get? address).isSome)
    (here : ∀ occurrence ∈ more, occurrence.address = address)
    (life : Life (limits setup.settings) (setup.chance.firstTransaction address) address node
      (occurrencesAt address history ++ more)) :
    Explains setup (history ++ more) (table.replace node) := by
  obtain ⟨old, found⟩ := Option.isSome_iff_exists.mp known
  have own := life.dealings.address_eq
  intro other
  rw [NodeTable.get?_replace, own]
  by_cases same : address = other
  · subst same
    rw [if_pos rfl, found, occurrencesAt_append, occurrencesAt_of_forall here]
    exact life
  · have absent : occurrencesAt other more = [] :=
      occurrencesAt_of_forall_ne fun occurrence member equal =>
        same ((here occurrence member).symm.trans equal)
    rw [if_neg same, occurrencesAt_append, absent, List.append_nil]
    exact explained other

end Explains

/-! ## Opening queries -/

namespace Search

variable {setup : Setup} {search next : Search} {address : Address} {method : Method}
  {infoHash : Option InfoHash} {transaction : UInt16}

/-- Adding a node that is known changes nothing. -/
theorem addAddress_of_known {chance : Chance} {table : NodeTable} {node : KnownNode}
    (found : table.get? address = some node) : table.addAddress chance address = table := by
  apply NodeTable.add_of_contains
  rw [KnownNode.new, NodeTable.contains_eq_isSome, found]
  rfl

/-- Opening a query at a known node leaves every other node as it is. -/
theorem get?_of_openQuery? {node : KnownNode} {other : Address}
    (opened : search.openQuery? setup address method infoHash = some (transaction, next))
    (found : search.table.get? address = some node) (different : address ≠ other) :
    next.table.get? other = search.table.get? other := by
  obtain ⟨here, asked, foundHere, recorded, rfl⟩ := openQuery?_eq_some_iff.mp opened
  rw [addAddress_of_known found] at foundHere ⊢
  have own : asked.address = address :=
    (KnownNode.address_of_ask? recorded).trans (NodeTable.get?_eq_some_iff.mp foundHere).2
  rw [NodeTable.get?_replace, own, if_neg different]

end Search

namespace Explains

variable {setup : Setup} {history : List Occurrence} {search next : Search} {address : Address}
  {infoHash : InfoHash} {transaction : UInt16} {outcome : Outcome} {now heard : Moment}

/-- A node that nothing happened to may be pinged. -/
theorem openPing (explained : Explains setup history search.table)
    (untouched : occurrencesAt address history = [])
    (opened : search.openQuery? setup address .ping none = some (transaction, next))
    (now : Moment) :
    Explains setup (history ++ [.asked now address ⟨transaction, .ping, none⟩]) next.table := by
  obtain ⟨node, asked, found, recorded, rfl⟩ := Search.openQuery?_eq_some_iff.mp opened
  have joined := explained.add none address
  have life := joined.life found
  rw [untouched] at life
  refine joined.replace (by rw [← NodeTable.addAddress, found]; rfl) (by simp [Occurrence.address])
    ?_
  rw [untouched]
  exact life.pinged now recorded

/-- A known node may be asked for peers while it is eligible. -/
theorem openGetPeers (explained : Explains setup history search.table) {node : KnownNode}
    (found : search.table.get? address = some node)
    (eligible : Selection.isEligible (limits setup.settings) infoHash now node = true)
    (opened :
      search.openQuery? setup address .getPeers (some infoHash) = some (transaction, next)) :
    Explains setup (history ++ [.asked now address ⟨transaction, .getPeers, some infoHash⟩])
      next.table := by
  obtain ⟨here, asked, foundHere, recorded, rfl⟩ := Search.openQuery?_eq_some_iff.mp opened
  rw [Search.addAddress_of_known found] at foundHere ⊢
  obtain rfl : node = here := Option.some.inj (found.symm.trans foundHere)
  exact explained.replace (by rw [found]; rfl) (by simp [Occurrence.address])
    ((explained.life found).asked now eligible recorded)

/-! ## Rounds -/

/-- The targets of a round are asked at the moment of the round, each once, and each may be asked.
-/
theorem askAll {targets : List Address} {asked : List (Address × UInt16)}
    (explained : Explains setup history search.table) (distinct : targets.Nodup)
    (eligible : ∀ address ∈ targets, ∃ node, search.table.get? address = some node ∧
      Selection.isEligible (limits setup.settings) infoHash now node = true)
    (result : Search.askAll? setup infoHash targets search = some (asked, next)) :
    Explains setup (history ++ askedAt now (Activity.round now infoHash asked).queries)
      next.table := by
  induction targets generalizing history search asked with
  | nil =>
    obtain ⟨rfl, rfl⟩ := Prod.mk.inj (Option.some.inj result)
    simpa [Activity.queries, askedAt] using explained
  | cons address rest ih =>
    obtain ⟨transaction, opened, others, opening, remaining, rfl⟩ :=
      Search.askAll?_cons_eq_some_iff.mp result
    obtain ⟨fresh, distinct⟩ := List.nodup_cons.mp distinct
    obtain ⟨node, found, may⟩ := eligible address List.mem_cons_self
    have first := explained.openGetPeers found may opening
    -- the node just asked is not among the others, so they are still eligible
    have others : ∀ other ∈ rest, ∃ node, opened.table.get? other = some node ∧
        Selection.isEligible (limits setup.settings) infoHash now node = true := by
      intro other member
      have different : address ≠ other := fun same => fresh (same ▸ member)
      obtain ⟨node, there, may⟩ := eligible other (List.mem_cons_of_mem _ member)
      exact ⟨node, (Search.get?_of_openQuery? opening found different).trans there, may⟩
    have last := ih (by exact first) distinct (by exact others) remaining
    rw [List.append_assoc] at last
    exact last

theorem round (explained : Explains setup history search.table)
    (held : search.round? setup now infoHash = some outcome) :
    Explains setup (history ++ outcome.occurrences heard) outcome.search.table := by
  obtain ⟨asked, last, asking, rfl⟩ := Search.round?_eq_some_iff.mp held
  rw [Outcome.occurrences, List.flatMap_singleton]
  obtain ⟨distinct, eligible⟩ := Selection.getD_select?_walk_spec setup.chance search.table
  exact explained.askAll distinct eligible asking

theorem request (explained : Explains setup history search.table)
    (taken : search.request? setup now infoHash = some outcome) :
    Explains setup (history ++ outcome.occurrences heard) outcome.search.table :=
  round (by exact explained) taken

/-! ## Pings -/

/-- A node that nothing happened at yet can be pinged. -/
theorem ping (explained : Explains setup history search.table)
    (untouched : occurrencesAt address history = [])
    (pinged : search.ping? setup address = some outcome) :
    Explains setup (history ++ outcome.occurrences heard) outcome.search.table := by
  obtain ⟨transaction, opened, opening, rfl⟩ := Search.ping?_eq_some_iff.mp pinged
  exact explained.openPing untouched opening heard

/-- A hint pings the node that it adds. -/
theorem hint {contact : Contact} (explained : Explains setup history search.table)
    (taken : search.hint? setup contact = some outcome) :
    Explains setup (history ++ outcome.occurrences heard) outcome.search.table := by
  rcases Search.hint?_cases taken with rfl | ⟨unknown, pinged⟩
  · simpa [Outcome.occurrences] using explained
  · have joined : Explains setup history (search.table.addContact setup.chance contact) :=
      explained.add (some contact.id) contact.address
    exact ping (by exact joined) (explained.occurrencesAt_of_unknown unknown) pinged

/-- Joining the network pings the router, which is the only node then. -/
theorem bootstrap {resolve : Resolver} {sendFails : Bool} {result : Except BootstrapError Unit}
    (joined : Search.start.bootstrap? setup resolve sendFails = some (result, outcome)) :
    Explains setup (outcome.occurrences heard) outcome.search.table := by
  rcases Search.bootstrap?_cases joined with
    ⟨rfl, -⟩ | ⟨address, transaction, opened, opening, rfl, -⟩
  · exact empty
  · have nothing : Explains setup [] Search.start.table := empty
    exact openPing (by exact nothing) rfl opening heard

/-! ## Datagrams -/

/-- Peers are no nodes. -/
theorem takePeers_table (search : Search) (infoHash : InfoHash) (reply : Reply) :
    (search.takePeers infoHash reply).1.table = search.table := by
  unfold Search.takePeers
  split <;> rfl

/-- A response that closes a query makes its sender live on. -/
theorem closing (explained : Explains setup history search.table) {address : Address}
    {transaction : Bytes} {id : Identifier} {node answered : KnownNode} {query : Query}
    (found : search.table.get? address = some node)
    (resolved : (node.identified id).resolve? transaction now = some (query, answered)) :
    Explains setup (history ++ [.answered now address query]) (search.closing answered).table := by
  obtain ⟨number, -, closed⟩ := KnownNode.resolve?_eq_some_iff.mp resolved
  exact explained.replace (by rw [found]; rfl) (by simp [Occurrence.address])
    (((explained.life found).identified id).answered closed)

/-- An answer explains the query that it closes. -/
theorem receive (explained : Explains setup history search.table) (now : Moment)
    (packet : Packet) :
    Explains setup
      (history ++ ((search.matched? now packet).map fun query =>
        Occurrence.answered now packet.sender query).toList)
      (search.receive now packet).1.table := by
  have reception := search.receive_reception now packet
  generalize search.receive now packet = received at reception ⊢
  cases reception with
  | ignored _ unmatched =>
    rw [unmatched]
    simpa using explained
  | stale _ found _ unmatched =>
    rw [unmatched]
    exact explained.replace (by rw [found]; rfl) (by simp)
      (by simpa using (explained.life found).identified _)
  | closed _ found resolved matched =>
    rw [matched]
    exact explained.closing found resolved
  | delivered _ found resolved matched =>
    rw [matched, takePeers_table]
    exact explained.closing found resolved

/-- A reference explains the questions that it starts, if it starts any. -/
theorem follow {contact : Contact} (explained : Explains setup history search.table)
    (followed : Search.follow? setup now infoHash contact search = some outcome) :
    Explains setup (history ++ outcome.occurrences heard) outcome.search.table := by
  have joined : Explains setup history (search.table.addContact setup.chance contact) :=
    explained.add (some contact.id) contact.address
  rcases Search.follow?_cases followed with ⟨-, rfl⟩ | ⟨-, ⟨-, rfl⟩ | ⟨left, -, -, held⟩⟩
  · simpa [Outcome.occurrences] using explained
  · simpa [Outcome.occurrences] using joined
  · exact round (by exact joined) held

/-- References explain their questions, each at the moment at which the clock is read for it. -/
theorem followAll {clock : Clock} {contacts : List Contact}
    (explained : Explains setup history search.table)
    (followed : Search.followAll? setup clock infoHash contacts search = some outcome) :
    Explains setup (history ++ outcome.occurrences heard) outcome.search.table := by
  induction contacts generalizing clock history search outcome with
  | nil =>
    obtain rfl := Option.some.inj followed
    simpa [Outcome.occurrences] using explained
  | cons contact rest ih =>
    obtain ⟨first, others, one, remaining, rfl⟩ := Search.followAll?_cons_eq_some_iff.mp followed
    have after : Explains setup (history ++ first.occurrences heard) first.search.table :=
      explained.follow one
    have last := ih after remaining
    rw [List.append_assoc] at last
    rw [Outcome.occurrences, List.flatMap_append]
    exact last

/-! ## Runs -/

/-- Handling a stimulus adds its occurrences to the history. -/
theorem handled {stimulus : Stimulus} {heard : Moment} {clock : Clock}
    (explained : Explains setup history search.table)
    (handled : search.handle? setup heard clock stimulus = some outcome) :
    Explains setup
      (history ++ (Entry.mk heard clock (some stimulus) search outcome).occurrences)
      outcome.search.table := by
  cases stimulus with
  | hint contact => exact explained.hint handled
  | request infoHash => exact explained.request handled
  | packet packet =>
    have received := explained.receive heard packet
    rw [Entry.occurrences, Entry.answered?, Option.map_map, ← List.append_assoc]
    rcases Search.handle?_packet_cases handled with
      ⟨-, rfl⟩ | ⟨delivery, followed, -, following, rfl⟩
    · exact (List.append_nil _).symm ▸ received
    · change Explains setup (_ ++ followed.occurrences heard) followed.search.table
      exact received.followAll following

end Explains

/-- The history of a run explains the table it leads to. -/
theorem Run.explains {setup : Setup} {resolve : Resolver} {journal : List Entry} {search : Search}
    (run : Run setup resolve journal search) : Explains setup (history journal) search.table := by
  induction run with
  | start => exact Explains.empty
  | joined heard clock sendFails joined =>
    rw [history_singleton]
    exact Explains.bootstrap joined
  | handled heard clock _ handled ih =>
    rw [history_append, history_singleton]
    exact ih.handled handled

end PeerDiscovery
