import PeerDiscovery.Proofs.Search.Publication
import PeerDiscovery.Proofs.Service.Course
import PeerDiscovery.Proofs.Service.Recorded

/-!
# A service does one thing at a time

While clients, the network and the reader go on, the engine may be stopped in the middle of a
datagram, as it waits for room among the results. Still, whenever it waits for something to handle,
all it did is what its handlers do one after another, each to its end (`Sequential`): first it joins
the network, and then it handles hints, requests and datagrams in some order in which each kind
keeps its own. Behind that are its `Accounts`: for each kind, what came in is what was handled and
what still waits, with a place for the datagram that the engine is in the middle of.
`Service.refines` carries them along a course, with `Consumed` for the batches on their way to the
client.
-/

namespace PeerDiscovery

/-! ## Streams -/

/-- The hints that clients queued. -/
def queuedHints (acts : List Act) : List Contact := acts.filterMap Act.hint?

/-- The requests that clients queued. -/
def queuedRequests (acts : List Act) : List InfoHash := acts.filterMap Act.request?

/-- The batches that the client got. -/
def takenBatches (acts : List Act) : List Batch := acts.filterMap Act.taken?

/-- What the socket was given. -/
def arrivalsOf (acts : List Act) : List Arrival := acts.filterMap Act.arrival?

def Entry.hint? (entry : Entry) : Option Contact :=
  match entry.stimulus with
  | some (.hint contact) => some contact
  | _ => none

def Entry.packet? (entry : Entry) : Option Packet :=
  match entry.stimulus with
  | some (.packet packet) => some packet
  | _ => none

/-- The hints that a journal handled, in their order. -/
def hintsOf (journal : List Entry) : List Contact := journal.filterMap Entry.hint?

/-- The datagrams that a journal handled, in their order. -/
def packetsOf (journal : List Entry) : List Packet := journal.filterMap Entry.packet?

def Arrival.packet? : Arrival → Option Packet
  | .packet received => some received
  | .error _ => none

/-- Whether the reader goes on after something from the socket: any error that is not transient ends
it. -/
def Arrival.isPassed : Arrival → Bool
  | .packet _ => true
  | .error cause => cause.isTransient

/-- Either a reader went on after everything that it took and still runs, or the last thing that it
took ended it. -/
def Reader.Took (reader : Reader) (read : List Arrival) : Prop :=
  reader ≠ .ended ∧ (∀ arrival ∈ read, arrival.isPassed = true) ∨
    reader = .ended ∧ ∃ earlier error, read = earlier ++ [.error error] ∧
      (∀ arrival ∈ earlier, arrival.isPassed = true) ∧ error.isTransient = false

/-- The packet that a reader waits to pass on. -/
def Reader.held : Reader → List Packet
  | .holding packet => [packet]
  | _ => []

theorem filterMap_append_singleton {α β : Type} (f : α → Option β) (list : List α) (last : α) :
    (list ++ [last]).filterMap f = list.filterMap f ++ (f last).toList := by
  rw [List.filterMap_append]
  cases value : f last <;> simp [value]

/-! ## Time -/

section Time

variable {setup : Setup} {search : Search} {stimulus : Option Stimulus} {before : Search}
  {heard start finish : Moment} {clock : Clock} {pace : List Span} {outcome : Outcome}

/-- Time does not go back while spans pass. -/
theorem Moment.le_after (now : Moment) (spans : List Span) : now ≤ now.after spans := by
  induction spans generalizing now with
  | nil => exact Nat.le_refl now
  | cons span rest ih => exact Nat.le_trans (Nat.le_add_right now span) (ih (now + span))

/-- When some of the spans have passed it is no later than when all have. -/
theorem Moment.after_take_le (now : Moment) (spans : List Span) (count : Nat) :
    now.after (spans.take count) ≤ now.after spans := by
  have remaining := Moment.le_after (now.after (spans.take count)) (spans.drop count)
  rwa [Moment.after, Moment.after, ← List.foldl_append, List.take_append_drop] at remaining

/-- A clock that is read at some pace never goes back. -/
theorem Clock.paced_le_paced (now : Moment) (pace : List Span) {place later : Nat}
    (order : place ≤ later) : Clock.paced now pace place ≤ Clock.paced now pace later := by
  have part := Moment.after_take_le now (pace.take (later + 1)) (place + 1)
  rwa [List.take_take, Nat.min_eq_left (Nat.succ_le_succ order)] at part

/-- The moments of an entry are in order, and none is later than some moment. -/
structure Entry.Ends (entry : Entry) (finish : Moment) : Prop where
  order : entry.moments.Pairwise fun earlier later => earlier ≤ later
  le : ∀ moment ∈ entry.moments, moment ≤ finish

/-- What happens all at once ends at once. -/
theorem Entry.Ends.of_instant
    (instant : ∀ activity ∈ outcome.activities, activity.moment heard = heard)
    (past : heard ≤ finish) : Entry.Ends ⟨heard, clock, stimulus, before, outcome⟩ finish where
  order := by
    have same : ∀ moment ∈ outcome.activities.map (Activity.moment heard), moment = heard :=
      List.forall_mem_map.mpr instant
    refine List.pairwise_cons.mpr ⟨fun moment member => Nat.le_of_eq (same moment member).symm, ?_⟩
    refine List.Pairwise.imp_of_mem ?_ (List.pairwise_of_forall fun _ _ => trivial)
    intro earlier later first second _
    exact Nat.le_of_eq ((same earlier first).trans (same later second).symm)
  le := List.forall_mem_cons.mpr ⟨past, List.forall_mem_map.mpr fun activity member =>
    Nat.le_trans (Nat.le_of_eq (instant activity member)) past⟩

/-- Following references takes as long as its pace says. -/
theorem Entry.Ends.of_followAll? {infoHash : InfoHash} {contacts : List Contact}
    (followed : search.followAll? setup (.paced start pace) infoHash contacts = some outcome)
    (past : heard ≤ start) (batch : Option Batch) :
    Entry.Ends ⟨heard, clock, stimulus, before, { outcome with batch }⟩ (start.after pace) := by
  have readings := Search.moments_of_followAll? heard followed
  have bounds : ∀ moment ∈ outcome.activities.map (Activity.moment heard),
      heard ≤ moment ∧ moment ≤ start.after pace := by
    intro moment member
    obtain ⟨place, -, rfl⟩ := List.mem_map.mp (readings.subset member)
    exact ⟨Nat.le_trans past (start.le_after _), start.after_take_le pace (place + 1)⟩
  constructor
  · refine List.pairwise_cons.mpr ⟨fun moment member => (bounds moment member).1, ?_⟩
    refine List.Pairwise.sublist readings (List.pairwise_map.mpr ?_)
    exact List.pairwise_lt_range.imp fun order =>
      Clock.paced_le_paced start pace (Nat.le_of_lt order)
  · exact List.forall_mem_cons.mpr
      ⟨Nat.le_trans past (start.le_after pace), fun moment member => (bounds moment member).2⟩

namespace Search

/-- A ping takes no time. -/
theorem instant_of_ping? {address : Address}
    (pinged : search.ping? setup address = some outcome) :
    ∀ activity ∈ outcome.activities, activity.moment heard = heard := by
  obtain ⟨transaction, opened, -, rfl⟩ := ping?_eq_some_iff.mp pinged
  exact List.forall_mem_singleton.mpr rfl

theorem instant_of_hint? {contact : Contact}
    (taken : search.hint? setup contact = some outcome) :
    ∀ activity ∈ outcome.activities, activity.moment heard = heard := by
  rcases hint?_cases taken with rfl | ⟨-, pinged⟩
  · exact List.forall_mem_nil _
  · exact instant_of_ping? pinged

theorem instant_of_bootstrap? {resolve : Resolver} {sendFails : Bool}
    {result : Except BootstrapError Unit}
    (joined : search.bootstrap? setup resolve sendFails = some (result, outcome)) :
    ∀ activity ∈ outcome.activities, activity.moment heard = heard := by
  rcases bootstrap?_cases joined with ⟨rfl, -⟩ | ⟨address, transaction, opened, -, rfl, -⟩
  · exact List.forall_mem_nil _
  · exact List.forall_mem_singleton.mpr rfl

/-- The round of a request reads the clock when the request is heard. -/
theorem instant_of_request? {infoHash : InfoHash}
    (taken : search.request? setup heard infoHash = some outcome) :
    ∀ activity ∈ outcome.activities, activity.moment heard = heard := by
  obtain ⟨asked, next, -, rfl⟩ := round?_eq_some_iff.mp taken
  exact List.forall_mem_singleton.mpr rfl

end Search

end Time

/-! ## Accounts -/

/-- What came in was handled, or is being handled, or still waits, in this order; what was sent and
published is what the journal says. -/
structure Accounts (ourId : Identifier) (acts : List Act) (journal : List Entry)
    (current : List Packet) (service : Service) : Prop where
  hints : queuedHints acts = hintsOf journal ++ service.hints
  requests : queuedRequests acts = requestsOf journal ++ service.requests
  /-- The reader took a first part of what the socket was given, and passes on every datagram in
  it. Only an error that is not transient ends it. -/
  packets : ∃ read, arrivalsOf acts = read ++ service.arrivals ∧
    read.filterMap Arrival.packet? =
      packetsOf journal ++ current ++ service.packets ++ service.reader.held ∧
    service.reader.Took read
  sent : service.sent.map Prod.fst = journal.flatMap fun entry => entry.outcome.datagrams ourId
  published : service.published = batches journal
  order : InOrder journal
  past : ∀ moment ∈ journal.flatMap Entry.moments, moment ≤ service.now

/-- A service before and after the engine handled something: it is off its queue, and what came of
it was sent and published. -/
structure Handled (ourId : Identifier) (entry : Entry) (current : List Packet)
    (service next : Service) : Prop where
  hints : service.hints = entry.hint?.toList ++ next.hints
  requests : service.requests = entry.request?.toList ++ next.requests
  packets : current ++ service.packets = entry.packet?.toList ++ next.packets
  arrivals : next.arrivals = service.arrivals
  reader : next.reader = service.reader
  sent : next.sent.map Prod.fst = service.sent.map Prod.fst ++ entry.outcome.datagrams ourId
  published : next.published = service.published ++ entry.outcome.batch.toList
  now : service.now ≤ next.now

/-- A journal begins with joining the network, and goes on with stimuli. -/
def Joins (journal : List Entry) : Prop :=
  ∃ first rest, journal = first :: rest ∧ first.stimulus = none ∧
    ∀ entry ∈ rest, entry.stimulus ≠ none

/-- What a service has done that waits for something to handle: it ran its handlers one after
another, each to its end. -/
structure Sequential (setup : Setup) (resolve : Resolver) (acts : List Act) (journal : List Entry)
    (service : Service) : Prop extends Accounts setup.settings.ourId acts journal [] service where
  run : Run setup resolve journal service.search
  joins : Joins journal

/-- What a service is promised to have done after a course. -/
structure Refines (setup : Setup) (resolve : Resolver) (acts : List Act) (service : Service) :
    Prop where
  /-- Whenever the engine waits for something to handle, it did one thing after another. -/
  sequential : service.phase = .serving → ∃ journal, Sequential setup resolve acts journal service
  /-- The client got the first of the batches that were published. -/
  taken : takenBatches acts <+: service.published
  /-- Nothing is lost on the way to a client that listens. -/
  waiting : service.listening = true → takenBatches acts ++ service.results = service.published

namespace Accounts

variable {ourId : Identifier} {acts : List Act} {journal : List Entry} {current : List Packet}
  {service next : Service}

/-- An entry closes the accounts of what was being handled if it comes behind all moments so far. -/
theorem append (accounts : Accounts ourId acts journal current service) {entry : Entry}
    (handled : Handled ourId entry current service next)
    (after : ∀ moment ∈ journal.flatMap Entry.moments, moment ≤ entry.heard)
    (ends : entry.Ends next.now) :
    Accounts ourId acts (journal ++ [entry]) [] next where
  hints := by
    rw [accounts.hints, handled.hints, hintsOf, hintsOf, filterMap_append_singleton,
      List.append_assoc]
  requests := by
    rw [accounts.requests, handled.requests, requestsOf, requestsOf, filterMap_append_singleton,
      List.append_assoc]
  packets := by
    obtain ⟨read, arrived, passed, took⟩ := accounts.packets
    refine ⟨read, by rw [arrived, handled.arrivals], ?_, by rwa [handled.reader]⟩
    rw [passed, handled.reader, List.append_assoc (packetsOf journal), handled.packets, packetsOf,
      packetsOf, filterMap_append_singleton, List.append_nil, ← List.append_assoc]
  sent := by rw [handled.sent, accounts.sent, List.flatMap_append, List.flatMap_singleton]
  published := by
    rw [handled.published, accounts.published, batches, batches, filterMap_append_singleton]
  order := accounts.order.append_singleton after ends.order
  past := by
    rw [List.flatMap_append, List.flatMap_singleton, List.forall_mem_append]
    exact ⟨fun moment member => Nat.le_trans (accounts.past moment member) handled.now, ends.le⟩

/-- The reader went on after all that it took, as it still runs. -/
theorem running (accounts : Accounts ourId acts journal current service)
    (runs : service.reader ≠ .ended) :
    ∃ read, arrivalsOf acts = read ++ service.arrivals ∧
      read.filterMap Arrival.packet? =
        packetsOf journal ++ current ++ service.packets ++ service.reader.held ∧
      ∀ arrival ∈ read, arrival.isPassed = true := by
  obtain ⟨read, arrived, passed, ⟨-, all⟩ | ⟨ended, -⟩⟩ := accounts.packets
  · exact ⟨read, arrived, passed, all⟩
  · exact absurd ended runs

/-- A packet that is read off the socket is held by the reader. -/
theorem read (accounts : Accounts ourId acts journal current service) {packet : Packet}
    {rest : List Arrival} (reader : service.reader = .reading)
    (arrivals : service.arrivals = .packet packet :: rest) :
    Accounts ourId acts journal current
      { service with reader := .holding packet, arrivals := rest } := by
  obtain ⟨read, arrived, passed, all⟩ := accounts.running (reader ▸ Reader.noConfusion)
  refine { accounts with packets :=
    ⟨read ++ [.packet packet], ?_, ?_, Or.inl ⟨Reader.noConfusion, ?_⟩⟩ }
  · rw [arrived, arrivals, List.append_cons]
  · rw [filterMap_append_singleton, passed, reader]
    simp [Arrival.packet?, Reader.held]
  · exact List.forall_mem_append.mpr ⟨all, List.forall_mem_singleton.mpr rfl⟩

/-- An error is either passed over, or ends the reader for good. -/
theorem failed (accounts : Accounts ourId acts journal current service) {error : ReceiveError}
    {rest : List Arrival} (reader : service.reader = .reading)
    (arrivals : service.arrivals = .error error :: rest) :
    Accounts ourId acts journal current { service with
      reader := if error.isTransient then .reading else .ended
      arrivals := rest } := by
  obtain ⟨read, arrived, passed, all⟩ := accounts.running (reader ▸ Reader.noConfusion)
  refine { accounts with packets := ⟨read ++ [.error error], ?_, ?_, ?_⟩ }
  · rw [arrived, arrivals, List.append_cons]
  · rw [filterMap_append_singleton, passed, reader]
    cases error.isTransient <;> simp [Arrival.packet?, Reader.held]
  · cases kind : error.isTransient with
    | true =>
      exact Or.inl ⟨Reader.noConfusion,
        List.forall_mem_append.mpr ⟨all, List.forall_mem_singleton.mpr kind⟩⟩
    | false => exact Or.inr ⟨rfl, read, error, rfl, all, kind⟩

/-- A packet that is passed on waits for the engine behind the others. -/
theorem forwarded (accounts : Accounts ourId acts journal current service) {packet : Packet}
    (reader : service.reader = .holding packet) :
    Accounts ourId acts journal current
      { service with reader := .reading, packets := service.packets ++ [packet] } := by
  obtain ⟨read, arrived, passed, all⟩ := accounts.running (reader ▸ Reader.noConfusion)
  refine { accounts with packets := ⟨read, arrived, ?_, Or.inl ⟨Reader.noConfusion, all⟩⟩ }
  rw [passed, reader]
  simp [Reader.held]

end Accounts

/-- Only the first entry can be about joining the network. -/
theorem Joins.append {journal : List Entry} {entry : Entry} (joins : Joins journal)
    (later : entry.stimulus ≠ none) : Joins (journal ++ [entry]) := by
  obtain ⟨first, rest, rfl, joined, others⟩ := joins
  refine ⟨first, rest ++ [entry], rfl, joined, ?_⟩
  rw [List.forall_mem_append]
  exact ⟨others, List.forall_mem_singleton.mpr later⟩

/-! ## The engine -/

namespace Service

variable {setup : Setup} {resolve : Resolver} {acts more : List Act} {service next : Service}

/-- The account of a service at any time. In the middle of a datagram the journal leads to the
search that received the datagram. -/
def Midway (setup : Setup) (resolve : Resolver) (acts : List Act) (service : Service) : Prop :=
  match service.phase with
  | .starting => service.search = .start ∧ Accounts setup.settings.ourId acts [] [] service
  | .serving => ∃ journal, Sequential setup resolve acts journal service
  | .publishing delivery => ∃ journal before heard packet,
    Run setup resolve journal before ∧ Joins journal ∧
      before.receive heard packet = (service.search, some delivery) ∧
      (∀ moment ∈ journal.flatMap Entry.moments, moment ≤ heard) ∧ heard ≤ service.now ∧
      Accounts setup.settings.ourId acts journal [packet] service
  | .ended => True

namespace Midway

/-- An unused service has accounts with nothing in them. -/
theorem of_unused (now : Moment) : Midway setup resolve [] (unused now) :=
  ⟨rfl, rfl, rfl, ⟨[], rfl, rfl, Or.inl ⟨Reader.noConfusion, List.forall_mem_nil _⟩⟩, rfl, rfl,
    List.Pairwise.nil, List.forall_mem_nil _⟩

/-- What leaves the engine alone, and the accounts in order, keeps the account. -/
theorem lift (midway : Midway setup resolve acts service) (phase : next.phase = service.phase)
    (search : next.search = service.search) (now : service.now ≤ next.now)
    (accounts : ∀ {journal current}, Accounts setup.settings.ourId acts journal current service →
      Accounts setup.settings.ourId more journal current next) :
    Midway setup resolve more next := by
  unfold Midway at midway ⊢
  rw [phase]
  split at midway
  · obtain ⟨start, account⟩ := midway
    exact ⟨search.trans start, accounts account⟩
  · obtain ⟨journal, sequential⟩ := midway
    exact ⟨journal, accounts sequential.toAccounts, search ▸ sequential.run, sequential.joins⟩
  · obtain ⟨journal, before, heard, packet, run, joins, received, after, past, account⟩ := midway
    exact ⟨journal, before, heard, packet, run, joins, search ▸ received, after,
      Nat.le_trans past now, accounts account⟩
  · trivial

/-- The engine handled a stimulus to its end. -/
theorem handled {journal : List Entry} {before : Search} {current : List Packet} {heard : Moment}
    {clock : Clock} {stimulus : Stimulus} {outcome : Outcome}
    (accounts : Accounts setup.settings.ourId acts journal current service)
    (run : Run setup resolve journal before) (joins : Joins journal)
    (done : before.handle? setup heard clock stimulus = some outcome)
    (after : ∀ moment ∈ journal.flatMap Entry.moments, moment ≤ heard)
    (ends : Entry.Ends ⟨heard, clock, some stimulus, before, outcome⟩ next.now)
    (handled : Handled setup.settings.ourId ⟨heard, clock, some stimulus, before, outcome⟩
      current service next)
    (phase : next.phase = .serving) (search : next.search = outcome.search) :
    Midway setup resolve acts next := by
  unfold Midway
  rw [phase]
  refine ⟨_, accounts.append handled after ends, ?_, ?_⟩
  · rw [search]
    exact run.handled heard clock done
  · exact joins.append (Option.some_ne_none stimulus)

/-- Before it joined the network, the engine has handled nothing. -/
theorem starting (midway : Midway setup resolve acts service) (phase : service.phase = .starting) :
    service.search = .start ∧ Accounts setup.settings.ourId acts [] [] service := by
  unfold Midway at midway
  rwa [phase] at midway

/-- Between two stimuli the engine is where a sequential search is that handled the same. -/
theorem serving (midway : Midway setup resolve acts service) (phase : service.phase = .serving) :
    ∃ journal, Sequential setup resolve acts journal service := by
  unfold Midway at midway
  rwa [phase] at midway

/-- While it hands a batch over, the engine is in the middle of one packet, behind a sequential
search that handled all before it. -/
theorem publishing (midway : Midway setup resolve acts service) {delivery : Delivery}
    (phase : service.phase = .publishing delivery) :
    ∃ journal before heard packet, Run setup resolve journal before ∧ Joins journal ∧
      before.receive heard packet = (service.search, some delivery) ∧
      (∀ moment ∈ journal.flatMap Entry.moments, moment ≤ heard) ∧ heard ≤ service.now ∧
      Accounts setup.settings.ourId acts journal [packet] service := by
  unfold Midway at midway
  rwa [phase] at midway

/-- Finishing a stimulus sends the datagrams of its outcome, in order. -/
theorem map_fst_sent_finish (setup : Setup) (service : Service) (outcome : Outcome) :
    (service.finish setup outcome).sent.map Prod.fst =
      service.sent.map Prod.fst ++ outcome.datagrams setup.settings.ourId := by
  rw [finish, List.map_append, List.map_map]
  exact congrArg _ (List.map_id _)

/-- A turn of a task keeps the account. -/
theorem taken {turn : Turn} (midway : Midway setup resolve acts service)
    (taken : Taken setup resolve service turn next) : Midway setup resolve acts next := by
  have now := Nat.le_refl service.now
  cases taken with
  | @joined result outcome phase joined =>
    obtain ⟨start, accounts⟩ := midway.starting phase
    rw [start] at joined
    have nothing := Search.batch_of_bootstrap? joined
    have handled : Handled setup.settings.ourId
        ⟨service.now, .still service.now, none, .start, outcome⟩ [] service
          (service.finish setup outcome) :=
      ⟨rfl, rfl, rfl, rfl, rfl, map_fst_sent_finish _ _ _, by simp [nothing, finish], now⟩
    have account := accounts.append handled (List.forall_mem_nil _)
      (.of_instant (Search.instant_of_bootstrap? joined) now)
    exact ⟨_, account, .joined service.now (.still service.now) _ joined, _, [], rfl, rfl,
      List.forall_mem_nil _⟩
  | @hinted contact rest outcome phase hints taken =>
    obtain ⟨journal, sequential⟩ := midway.serving phase
    have done : service.search.handle? setup service.now (.still service.now) (.hint contact) =
        some outcome := taken
    have nothing := Search.batch_of_hint? taken
    exact handled sequential.toAccounts sequential.run sequential.joins done sequential.past
      (.of_instant (Search.instant_of_hint? taken) now)
      ⟨hints, rfl, rfl, rfl, rfl, map_fst_sent_finish _ _ _, by simp [nothing, finish], now⟩ rfl rfl
  | @requested infoHash rest outcome phase requests taken =>
    obtain ⟨journal, sequential⟩ := midway.serving phase
    have done : service.search.handle? setup service.now (.still service.now) (.request infoHash) =
        some outcome := taken
    have nothing := Search.batch_of_request? taken
    exact handled sequential.toAccounts sequential.run sequential.joins done sequential.past
      (.of_instant (Search.instant_of_request? taken) now)
      ⟨rfl, requests, rfl, rfl, rfl, map_fst_sent_finish _ _ _, by simp [nothing, finish], now⟩
      rfl rfl
  | @received packet rest search pace phase packets received =>
    obtain ⟨journal, sequential⟩ := midway.serving phase
    have done : service.search.handle? setup service.now (.still service.now) (.packet packet) =
        some { search } := Search.handle?_of_none received
    exact handled sequential.toAccounts sequential.run sequential.joins done sequential.past
      (.of_instant (List.forall_mem_nil _) now)
      ⟨rfl, rfl, packets, rfl, rfl, (List.append_nil _).symm, (List.append_nil _).symm, now⟩ phase
      rfl
  | @followed packet rest search delivery outcome pace phase packets received quiet following =>
    obtain ⟨journal, sequential⟩ := midway.serving phase
    have nothing : delivery.batch? = none := by
      rw [Delivery.batch?, quiet]
      rfl
    exact handled sequential.toAccounts sequential.run sequential.joins
      (Search.handle?_of_delivery received following) sequential.past
      (.of_followAll? following now _)
      ⟨rfl, rfl, packets, rfl, rfl, map_fst_sent_finish _ _ _, by simp [nothing, finish],
        Moment.le_after _ _⟩ rfl rfl
  | @held packet rest search delivery pace phase packets received something =>
    obtain ⟨journal, sequential⟩ := midway.serving phase
    refine ⟨journal, service.search, service.now, packet, sequential.run, sequential.joins,
      received, sequential.past, now, { sequential.toAccounts with packets := ?_ }⟩
    obtain ⟨read, arrived, passed, took⟩ := sequential.packets
    exact ⟨read, arrived, by rw [passed, packets]; simp, took⟩
  | @lost delivery outcome pace phase gone following =>
    obtain ⟨journal, before, heard, packet, run, joins, received, after, past, accounts⟩ :=
      midway.publishing phase
    exact handled accounts run joins (Search.handle?_of_delivery received following) after
      (.of_followAll? following past _)
      ⟨rfl, rfl, rfl, rfl, rfl, map_fst_sent_finish _ _ _, rfl, Moment.le_after _ _⟩ rfl rfl
  | @published delivery outcome pace phase there room following =>
    obtain ⟨journal, before, heard, packet, run, joins, received, after, past, accounts⟩ :=
      midway.publishing phase
    exact handled accounts run joins (Search.handle?_of_delivery received following) after
      (.of_followAll? following past _)
      ⟨rfl, rfl, rfl, rfl, rfl, map_fst_sent_finish _ _ _, rfl, Moment.le_after _ _⟩ rfl rfl
  | stopped => trivial
  | read reader arrivals =>
    exact midway.lift rfl rfl (Nat.le_refl _) fun accounts => accounts.read reader arrivals
  | failed reader arrivals =>
    exact midway.lift rfl rfl (Nat.le_refl _) fun accounts => accounts.failed reader arrivals
  | forwarded reader =>
    exact midway.lift rfl rfl (Nat.le_refl _) fun accounts => accounts.forwarded reader
  | dropped reader ended =>
    unfold Midway
    dsimp only
    rw [ended]
    trivial

end Midway

/-! ## Courses -/

/-- A service before and after an act that only fills a queue, if it does anything to the engine and
the reader at all. -/
structure Queued (act : Act) (service next : Service) : Prop where
  hints : next.hints = service.hints ++ act.hint?.toList
  requests : next.requests = service.requests ++ act.request?.toList
  arrivals : next.arrivals = service.arrivals ++ act.arrival?.toList
  packets : next.packets = service.packets
  reader : next.reader = service.reader
  sent : next.sent = service.sent
  published : next.published = service.published
  phase : next.phase = service.phase
  search : next.search = service.search
  now : service.now ≤ next.now

/-- What clients and the socket queue is in the accounts as waiting. -/
theorem Midway.queued {act : Act} (midway : Midway setup resolve acts service)
    (queued : Queued act service next) : Midway setup resolve (acts ++ [act]) next := by
  refine midway.lift queued.phase queued.search queued.now fun accounts => ?_
  refine ⟨?_, ?_, ?_, ?_, ?_, accounts.order, fun moment member => ?_⟩
  · rw [queuedHints, filterMap_append_singleton, queued.hints, ← List.append_assoc,
      ← accounts.hints]
    rfl
  · rw [queuedRequests, filterMap_append_singleton, queued.requests, ← List.append_assoc,
      ← accounts.requests]
    rfl
  · obtain ⟨read, arrived, passed, took⟩ := accounts.packets
    refine ⟨read, ?_, by rwa [queued.packets, queued.reader], by rwa [queued.reader]⟩
    rw [arrivalsOf, filterMap_append_singleton, queued.arrivals, ← List.append_assoc, ← arrived]
    rfl
  · rw [queued.sent, accounts.sent]
  · rw [queued.published, accounts.published]
  · exact Nat.le_trans (accounts.past moment member) queued.now

/-- An act keeps the account. -/
theorem Midway.acted {act : Act} (midway : Midway setup resolve acts service)
    (acted : Acted setup resolve service act next) : Midway setup resolve (acts ++ [act]) next := by
  cases acted with
  | turn done =>
    refine (midway.taken (turn?_taken done)).queued ?_
    constructor <;> simp [Act.hint?, Act.request?, Act.arrival?]
  | hint held offered =>
    obtain ⟨-, -, rfl⟩ := offerHint_eq_ok offered
    refine midway.queued ?_
    constructor <;> simp [Act.hint?, Act.request?, Act.arrival?]
  | request held offered =>
    obtain ⟨-, -, rfl⟩ := offerRequest_eq_ok offered
    refine midway.queued ?_
    constructor <;> simp [Act.hint?, Act.request?, Act.arrival?]
  | take taken =>
    obtain ⟨rest, -, rfl⟩ := takeResult_eq_ok taken
    refine midway.queued ?_
    constructor <;> simp [Act.hint?, Act.request?, Act.arrival?]
  | cancel => trivial
  | stopListening | cloneHandle | dropHandle | wait | arrive | sending =>
    refine midway.queued ?_
    constructor <;> simp [Act.hint?, Act.request?, Act.arrival?, Service.stopListening,
      Service.cloneHandle, Service.dropHandle, Service.wait, Service.arrive]

/-- The batches on their way to the client. -/
structure Consumed (acts : List Act) (service : Service) : Prop where
  taken : takenBatches acts <+: service.published
  waiting : service.listening = true → takenBatches acts ++ service.results = service.published
  gone : service.listening = false → service.results = []

namespace Consumed

/-- The account of batches looks at what was taken, published and waits, and at nothing else. -/
theorem of_eq (consumed : Consumed acts service) (taken : takenBatches more = takenBatches acts)
    (published : next.published = service.published) (results : next.results = service.results)
    (listening : next.listening = service.listening) : Consumed more next := by
  constructor
  · rw [taken, published]
    exact consumed.taken
  · rw [listening, taken, results, published]
    exact consumed.waiting
  · rw [listening, results]
    exact consumed.gone

/-- Batches are taken in the order in which they are published, until the client stops listening. -/
theorem acted {act : Act} (consumed : Consumed acts service)
    (acted : Acted setup resolve service act next) : Consumed (acts ++ [act]) next := by
  have still (none : act.taken? = none) : takenBatches (acts ++ [act]) = takenBatches acts := by
    rw [takenBatches, filterMap_append_singleton, none]
    exact List.append_nil _
  cases acted with
  | turn done =>
    cases turn?_taken done with
    | @lost delivery outcome pace phase gone following =>
      refine ⟨?_, fun there => ?_, consumed.gone⟩
      · rw [still rfl]
        exact consumed.taken.trans (List.prefix_append _ _)
      · rw [finish, gone] at there
        cases there
    | @published delivery outcome pace phase there room following =>
      refine ⟨?_, fun _ => ?_, fun gone => ?_⟩
      · rw [still rfl]
        exact consumed.taken.trans (List.prefix_append _ _)
      · rw [still rfl, finish]
        simp only [← List.append_assoc, consumed.waiting there]
      · rw [finish, there] at gone
        cases gone
    | joined | hinted | requested | received | followed | held | stopped | read | failed | forwarded
    | dropped => exact consumed.of_eq (still rfl) rfl rfl rfl
  | hint held offered =>
    obtain ⟨-, -, rfl⟩ := offerHint_eq_ok offered
    exact consumed.of_eq (still rfl) rfl rfl rfl
  | request held offered =>
    obtain ⟨-, -, rfl⟩ := offerRequest_eq_ok offered
    exact consumed.of_eq (still rfl) rfl rfl rfl
  | @take batch _ taken =>
    obtain ⟨rest, results, rfl⟩ := takeResult_eq_ok taken
    have there : service.listening = true := by
      rw [← Bool.not_eq_false]
      intro gone
      rw [consumed.gone gone] at results
      cases results
    have one : takenBatches (acts ++ [.take batch]) = takenBatches acts ++ [batch] :=
      filterMap_append_singleton _ _ _
    have all := consumed.waiting there
    rw [results, List.append_cons, ← one] at all
    refine ⟨⟨rest, all⟩, fun _ => all, fun gone => ?_⟩
    rw [there] at gone
    cases gone
  | stopListening => exact ⟨still rfl ▸ consumed.taken, Bool.noConfusion, fun _ => rfl⟩
  | cloneHandle | dropHandle | cancel | wait | arrive | sending =>
    exact consumed.of_eq (still rfl) rfl rfl rfl

end Consumed

/-- However the tasks of a service take turns, and whatever clients and the network do, the service
did one thing after another whenever its engine waits for something to handle. -/
theorem refines {now : Moment} {portTaken : Bool} {first : Service}
    (bound : bind setup.settings now portTaken = .ok first)
    (course : first.acts? setup resolve acts = some service) :
    Refines setup resolve acts service := by
  obtain rfl := bind_eq_ok bound
  have account : Midway setup resolve acts service ∧ Consumed acts service := by
    refine acts?_induction course
      ⟨.of_unused now, List.nil_prefix, fun _ => rfl, fun _ => rfl⟩ ?_
    intro acts service act next both acted
    exact ⟨both.1.acted acted, both.2.acted acted⟩
  exact ⟨account.1.serving, account.2.taken, account.2.waiting⟩

end Service

/-! ## A sample

Two contents are asked about and answered. There is room for one batch, so the engine is stopped in
the middle of the second answer. Meanwhile time passes and a hint is queued, and then the client
takes the first batch.
-/

namespace Sample

def acts : List Act :=
  [.turn .bootstrap, .hint ⟨identifier 2, node⟩, .turn .takeHint, .request content,
    .cloneHandle, .request (identifier 8), .turn .takeRequest, .turn .takeRequest,
    .arrive (.packet (response node 0 [peer 1])), .arrive (.error .connectionReset),
    .arrive (.packet (response node 1 [peer 2])), .turn .read, .turn .forward, .turn .read,
    .turn .read, .turn (.takePacket []), .turn (.publish []), .turn .forward,
    .turn (.takePacket []), .wait 3, .hint ⟨identifier 3, node⟩, .take ⟨content, [peer 1]⟩,
    .turn (.publish [])]

end Sample

/-- In the sample one batch was taken and one waits, and so does a hint. -/
theorem Service.refines_sample :
    ∃ first service, Service.bind Sample.setup.settings 0 false = .ok first ∧
      first.acts? Sample.setup .literal Sample.acts = some service ∧
      service.phase = .serving ∧ service.hints = [⟨Sample.identifier 3, Sample.node⟩] ∧
      service.published = [⟨Sample.content, [Sample.peer 1]⟩,
        ⟨Sample.identifier 8, [Sample.peer 2]⟩] ∧
      Refines Sample.setup .literal Sample.acts service := by
  have bound : Service.bind Sample.setup.settings 0 false = .ok (unused 0) := rfl
  have told : ((unused 0).acts? Sample.setup .literal Sample.acts).map (fun service =>
      (service.phase, service.hints, service.published)) =
        some (.serving, [⟨Sample.identifier 3, Sample.node⟩],
          [⟨Sample.content, [Sample.peer 1]⟩, ⟨Sample.identifier 8, [Sample.peer 2]⟩]) := by
    decide +kernel
  obtain ⟨service, course, same⟩ := Option.map_eq_some_iff.mp told
  simp only [Prod.mk.injEq] at same
  obtain ⟨phase, hints, published⟩ := same
  exact ⟨_, service, bound, course, phase, hints, published, refines bound course⟩

end PeerDiscovery
