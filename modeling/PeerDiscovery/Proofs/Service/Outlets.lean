import PeerDiscovery.Proofs.Service.Sequential

/-!
# Failures on the way out

What a search finds goes to the client, and what it asks goes to the socket. The client may be slow,
stop taking results or never take any, and sends may fail. `Service.muted` is a service that knows
nothing of all this. What can happen to a service can happen to the muted one too, and comes to the
same (`acts?_muted`), so two services that do the same stay alike whatever becomes of what they give
away (`Setup.indifferent`). The one send whose failure counts is the ping of the router at the very
start, which is waited for; whether that one fails is therefore the same for both.
-/

namespace PeerDiscovery

/-- Whether an act is more than taking results, giving them up, or a change of what becomes of sent
datagrams. -/
def Act.steers : Act → Bool
  | .take _ | .stopListening | .sending _ => false
  | _ => true

/-- Up to the ping of the router the acts do not change whether sending fails. -/
def SteadyUntilPing (acts : List Act) : Prop :=
  ∀ act ∈ acts.takeWhile (· ≠ .turn .bootstrap), ∀ fails, act ≠ .sending fails

theorem SteadyUntilPing.tail {act : Act} {rest : List Act} (steady : SteadyUntilPing (act :: rest))
    (other : act ≠ .turn .bootstrap) :
    (∀ fails, act ≠ .sending fails) ∧ SteadyUntilPing rest := by
  have goesOn : (act :: rest).takeWhile (· ≠ .turn .bootstrap) =
      act :: rest.takeWhile (· ≠ .turn .bootstrap) :=
    List.takeWhile_cons_of_pos (by simpa using other)
  rw [SteadyUntilPing, goesOn] at steady
  exact List.forall_mem_cons.mp steady

namespace Service

variable {setup : Setup} {resolve : Resolver} {service next one other : Service} {turn : Turn}
  {act : Act} {fails : Bool}

/-! ## Alike services -/

/-- Two services did the same so far and are about to do the same: they differ at most in the
results that wait, in whether somebody takes them, and in which sends failed or fail. -/
structure Alike (one other : Service) : Prop where
  search_eq : one.search = other.search
  now_eq : one.now = other.now
  phase_eq : one.phase = other.phase
  reader_eq : one.reader = other.reader
  arrivals_eq : one.arrivals = other.arrivals
  packets_eq : one.packets = other.packets
  hints_eq : one.hints = other.hints
  requests_eq : one.requests = other.requests
  handles_eq : one.handles = other.handles
  published_eq : one.published = other.published
  /-- The same datagrams were dispatched in the same order. -/
  sent_eq : one.sent.map Prod.fst = other.sent.map Prod.fst

/-- The service as it would be if nobody took its results and all its sends went the same way. -/
def muted (fails : Bool) (service : Service) : Service :=
  { service with
    results := []
    listening := false
    sendFails := fails
    sent := (service.sent.map Prod.fst).map fun datagram => (datagram, fails) }

theorem map_fst_sent_muted (fails : Bool) (service : Service) :
    (service.muted fails).sent.map Prod.fst = service.sent.map Prod.fst := by
  rw [muted, List.map_map]
  exact List.map_id _

theorem alike_iff_muted (fails : Bool) :
    Alike one other ↔ one.muted fails = other.muted fails := by
  constructor
  · intro alike
    obtain ⟨search, now, phase, reader, arrivals, packets, hints, requests, handles, published,
      sent⟩ := alike
    unfold muted
    rw [search, now, phase, reader, arrivals, packets, hints, requests, handles, published, sent]
  · intro same
    have sent : one.sent.map Prod.fst = other.sent.map Prod.fst := by
      rw [← map_fst_sent_muted fails one, same, map_fst_sent_muted]
    rw [muted, muted, mk.injEq] at same
    obtain ⟨search, now, phase, reader, arrivals, packets, hints, requests, -, handles, -, -, -,
      published⟩ := same
    exact ⟨search, now, phase, reader, arrivals, packets, hints, requests, handles, published,
      sent⟩

theorem alike_muted (fails : Bool) (service : Service) : service.Alike (service.muted fails) :=
  ⟨rfl, rfl, rfl, rfl, rfl, rfl, rfl, rfl, rfl, rfl, (map_fst_sent_muted fails service).symm⟩

theorem muted_finish (setup : Setup) (fails : Bool) (service : Service) (outcome : Outcome) :
    (service.finish setup outcome).muted fails = (service.muted fails).finish setup outcome := by
  simp only [finish, muted, List.map_append, List.map_map, Function.comp_def, List.map_id']

/-! ## Acts of a muted service -/

/-- A turn that can be taken can be taken by the muted service as well, and comes to the same. -/
theorem turn?_muted (ping : service.phase = .starting → service.sendFails = fails)
    (done : service.turn? setup resolve turn = some next) :
    (service.muted fails).turn? setup resolve turn = some (next.muted fails) := by
  cases turn?_taken done with
  | joined phase joined =>
    rw [ping phase] at joined
    rw [muted_finish]
    simp only [turn?, muted, phase, joined]
    rfl
  | hinted phase hints handled =>
    rw [muted_finish]
    simp only [turn?, muted, phase, hints, handled]
    rfl
  | requested phase requests handled =>
    rw [muted_finish]
    simp only [turn?, muted, phase, requests, handled]
    rfl
  | received phase packets received =>
    simp only [turn?, muted, phase, packets, received]
  | followed phase packets received nothing following =>
    rw [muted_finish]
    simp only [turn?, muted, phase, packets, received, nothing, followDelivery?, following]
    rfl
  | held phase packets received something =>
    simp only [turn?, muted, phase, packets, received, List.isEmpty_iff, something]
    rfl
  | lost phase gone following =>
    rw [muted_finish]
    simp only [turn?, muted, phase, followDelivery?, following]
    rfl
  | published phase there room following =>
    rw [muted_finish]
    simp only [turn?, muted, phase, followDelivery?, following]
    rfl
  | stopped phase handles requests =>
    simp only [turn?, muted, phase, handles, requests]
    rfl
  | read reader arrivals =>
    simp only [turn?, muted, reader, arrivals]
  | failed reader arrivals =>
    simp only [turn?, muted, reader, arrivals]
  | forwarded reader alive room =>
    simp only [turn?, muted, reader, alive, room]
    rfl
  | dropped reader ended =>
    simp only [turn?, muted, reader, ended]
    rfl

/-- Whatever else than results and failures happens can happen to the muted service as well. -/
theorem act?_muted (steers : act.steers = true)
    (ping : service.phase = .starting → service.sendFails = fails)
    (done : service.act? setup resolve act = some next) :
    (service.muted fails).act? setup resolve act = some (next.muted fails) := by
  cases act?_acted done with
  | turn taken => exact turn?_muted ping taken
  | hint held offered =>
    obtain ⟨alive, room, rfl⟩ := offerHint_eq_ok offered
    simp only [act?, muted, held, if_true, offerHint, alive, if_false, Nat.not_le.mpr room]
    rfl
  | request held offered =>
    obtain ⟨alive, room, rfl⟩ := offerRequest_eq_ok offered
    simp only [act?, muted, held, if_true, offerRequest, alive, if_false, Nat.not_le.mpr room]
    rfl
  | cloneHandle held =>
    simp only [act?, muted, held, if_true]
    rfl
  | dropHandle held =>
    simp only [act?, muted, held, if_true]
    rfl
  | take | stopListening | sending => cases steers
  | cancel | wait | arrive => rfl

/-- Results and failures are what a muted service knows nothing of. -/
theorem muted_of_not_steers (fails : Bool) (outlet : act.steers = false)
    (done : service.act? setup resolve act = some next) :
    next.muted fails = service.muted fails := by
  cases act?_acted done with
  | take taken =>
    obtain ⟨rest, -, rfl⟩ := takeResult_eq_ok taken
    rfl
  | stopListening | sending => rfl
  | turn | hint | request | cloneHandle | dropHandle | cancel | wait | arrive => cases outlet

/-- A service that has not pinged the router yet did not do so before. -/
theorem starting_of_act? (done : service.act? setup resolve act = some next)
    (still : next.phase = .starting) :
    service.phase = .starting ∧ act ≠ .turn .bootstrap ∧
      ((∀ fails, act ≠ .sending fails) → next.sendFails = service.sendFails) := by
  cases act?_acted done with
  | turn taken =>
    cases turn?_taken taken with
    | joined | hinted | requested | followed | lost | published | held | stopped => cases still
    | received | read | failed | forwarded | dropped =>
      exact ⟨still, by rintro ⟨⟩, fun _ => rfl⟩
  | hint _ offered =>
    obtain ⟨-, -, rfl⟩ := offerHint_eq_ok offered
    exact ⟨still, by rintro ⟨⟩, fun _ => rfl⟩
  | request _ offered =>
    obtain ⟨-, -, rfl⟩ := offerRequest_eq_ok offered
    exact ⟨still, by rintro ⟨⟩, fun _ => rfl⟩
  | take taken =>
    obtain ⟨rest, -, rfl⟩ := takeResult_eq_ok taken
    exact ⟨still, by rintro ⟨⟩, fun _ => rfl⟩
  | cancel => cases still
  | stopListening | cloneHandle | dropHandle | wait | arrive =>
    exact ⟨still, by rintro ⟨⟩, fun _ => rfl⟩
  | sending => exact ⟨still, by rintro ⟨⟩, fun steady => absurd rfl (steady _)⟩

/-- What is left of a course without results and failures is a course of the muted service, which
comes to the same. -/
theorem acts?_muted {acts : List Act} {last : Service}
    (ping : service.phase = .starting → service.sendFails = fails ∧ SteadyUntilPing acts)
    (course : service.acts? setup resolve acts = some last) :
    (service.muted fails).acts? setup resolve (acts.filter Act.steers) =
      some (last.muted fails) := by
  induction acts generalizing service with
  | nil =>
    obtain rfl := Option.some.inj course
    rfl
  | cons act rest ih =>
    obtain ⟨next, done, others⟩ := Option.bind_eq_some_iff.mp course
    have later : next.phase = .starting → next.sendFails = fails ∧ SteadyUntilPing rest := by
      intro still
      obtain ⟨before, other, kept⟩ := starting_of_act? done still
      obtain ⟨same, steady⟩ := ping before
      obtain ⟨quiet, steady⟩ := steady.tail other
      exact ⟨(kept quiet).trans same, steady⟩
    have after := ih later others
    cases steers : act.steers with
    | true =>
      rw [List.filter_cons_of_pos steers, acts?,
        act?_muted steers (fun starting => (ping starting).1) done]
      exact after
    | false =>
      rw [List.filter_cons_of_neg (by rw [steers]; exact Bool.false_ne_true),
        ← muted_of_not_steers fails steers done]
      exact after

end Service

/-! ## Two courses -/

/-- What leaves a search does not act back on it: neither the client that stops taking results nor a
send that fails makes a difference to anything but what the client gets. -/
structure Indifferent (setup : Setup) (resolve : Resolver) : Prop where
  /-- Services stay alike as long as they do the same, but for what becomes of results and sends. -/
  services : ∀ {one other last last' : Service} {acts acts' : List Act}, one.Alike other →
    (one.phase = .starting →
      one.sendFails = other.sendFails ∧ SteadyUntilPing acts ∧ SteadyUntilPing acts') →
    one.acts? setup resolve acts = some last → other.acts? setup resolve acts' = some last' →
    acts.filter Act.steers = acts'.filter Act.steers → last.Alike last'
  /-- What a service does it could do just as well if nobody ever took a result. -/
  unhindered : ∀ {one last : Service} {acts : List Act},
    (one.phase = .starting → SteadyUntilPing acts) → one.acts? setup resolve acts = some last →
    ∃ quiet, (one.muted one.sendFails).acts? setup resolve (acts.filter Act.steers) = some quiet ∧
      last.Alike quiet

/-- Neither a client that stopped listening nor a send that fails shows in what the engine does. -/
theorem Setup.indifferent (setup : Setup) (resolve : Resolver) : Indifferent setup resolve where
  services := by
    intro one other last last' acts acts' alike ping course course' same
    have muted := (Service.alike_iff_muted other.sendFails).mp alike
    have first := Service.acts?_muted (fun starting =>
      ⟨(ping starting).1, (ping starting).2.1⟩) course
    have second := Service.acts?_muted (fun starting =>
      ⟨rfl, (ping (alike.phase_eq.trans starting)).2.2⟩) course'
    rw [same, muted, second] at first
    exact (Service.alike_iff_muted _).mpr (Option.some.inj first).symm
  unhindered := by
    intro one last acts ping course
    exact ⟨_, Service.acts?_muted (fun starting => ⟨rfl, ping starting⟩) course,
      Service.alike_muted _ last⟩

/-- In the sample the client takes one batch and leaves another behind. Where it goes away at once
and no datagram gets through after the start, the same happens otherwise. -/
theorem Setup.indifferent_sample :
    ∃ last last', (Service.unused 0).acts? Sample.setup .literal Sample.acts = some last ∧
      (Service.unused 0).acts? Sample.setup .literal
        (.stopListening :: .turn .bootstrap :: .sending true ::
          Sample.acts.tail.filter Act.steers) = some last' ∧
      last.results = [⟨Sample.identifier 8, [Sample.peer 2]⟩] ∧ last'.results = [] ∧
      last.sent.map Prod.snd = [false, false, false] ∧
      last'.sent.map Prod.snd = [true, true, true] ∧ last.Alike last' := by
  have told : ((Service.unused 0).acts? Sample.setup .literal Sample.acts).bind (fun last =>
      ((Service.unused 0).acts? Sample.setup .literal (.stopListening :: .turn .bootstrap ::
        .sending true :: Sample.acts.tail.filter Act.steers)).map fun last' =>
          ((last.results, last'.results), last.sent.map Prod.snd, last'.sent.map Prod.snd)) =
      some (([⟨Sample.identifier 8, [Sample.peer 2]⟩], []), [false, false, false],
        [true, true, true]) := by decide +kernel
  obtain ⟨last, course, told⟩ := Option.bind_eq_some_iff.mp told
  obtain ⟨last', course', told⟩ := Option.map_eq_some_iff.mp told
  simp only [Prod.mk.injEq] at told
  obtain ⟨⟨results, results'⟩, marks, marks'⟩ := told
  have alike : (Service.unused 0).Alike (Service.unused 0) :=
    (Service.alike_iff_muted false).mpr rfl
  have steady : SteadyUntilPing Sample.acts := List.forall_mem_nil _
  have steady' : SteadyUntilPing (.stopListening :: .turn .bootstrap :: .sending true ::
      Sample.acts.tail.filter Act.steers) := by
    rintro act member fails rfl
    simp at member
  have same : Sample.acts.filter Act.steers =
      (Act.stopListening :: .turn .bootstrap :: .sending true ::
        Sample.acts.tail.filter Act.steers).filter Act.steers := by decide
  exact ⟨last, last', course, course', results, results', marks, marks',
    (Setup.indifferent Sample.setup .literal).services alike (fun _ => ⟨rfl, steady, steady'⟩)
      course course' same⟩

end PeerDiscovery
