import PeerDiscovery.Proofs.CommandLine.Accounted
import PeerDiscovery.Proofs.Search.Budget

/-!
# When the program and its engine wait for each other

The program takes batches only while it waits for what comes. So while it waits for room for a
request, an engine that waits for room for a batch waits for ever, and the program with it
(`Session.Deadlocked.forever`). This can happen: it takes two answers with new peers before all the
first requests are queued, or reports that come due while the engine is held up.

It cannot happen while the program hints at nodes, as nothing is published before the first request,
and among the first requests only if there are at least two more than the queue holds
(`Session.deadlocked_when`).
-/

namespace PeerDiscovery

namespace Service

/-- The engine waits for room for a batch. -/
def AwaitsRoom (settings : Settings) (service : Service) : Prop :=
  ∃ delivery, service.phase = .publishing delivery ∧ service.listening = true ∧
    settings.resultCapacity ≤ service.results.length

/-- While the engine waits for room, only the reader of its service can take a turn. -/
theorem AwaitsRoom.of_turn {setup : Setup} {resolve : Resolver} {service after : Service}
    {turn : Turn} (waits : service.AwaitsRoom setup.settings)
    (done : service.turn? setup resolve turn = some after) :
    after.AwaitsRoom setup.settings ∧ after.phase = service.phase ∧ after.hints = service.hints ∧
      after.requests = service.requests := by
  obtain ⟨delivery, phase, there, full⟩ := waits
  cases turn?_taken done with
  | joined other | hinted other | requested other | received other | followed other | held other
    | stopped other =>
    rw [phase] at other
    cases other
  | lost _ gone =>
    rw [there] at gone
    cases gone
  | published _ _ room => exact absurd room (Nat.not_lt_of_le full)
  | dropped _ ended =>
    rw [phase] at ended
    cases ended
  | read | failed | forwarded => exact ⟨⟨delivery, phase, there, full⟩, rfl, rfl, rfl⟩

end Service

namespace CommandLine.Session

/-- The program waits for room for a command. -/
inductive AwaitsRoom (settings : Settings) (session : Session) : Prop
  | hint {contact : Contact} {rest : List Contact} : session.stage = .adding (contact :: rest) →
    session.service.offerHint settings contact = .error .full → AwaitsRoom settings session
  | request {infoHash : InfoHash} {rest : List InfoHash} :
    session.stage = .requesting (infoHash :: rest) →
    session.service.offerRequest settings infoHash = .error .full → AwaitsRoom settings session
  | repetition {infoHash : InfoHash} {rest : List InfoHash} :
    session.stage = .repeating (infoHash :: rest) →
    session.service.offerRequest settings infoHash = .error .full → AwaitsRoom settings session

/-- The program and the engine wait for each other. -/
structure Deadlocked (settings : Settings) (session : Session) : Prop where
  program : session.AwaitsRoom settings
  engine : session.service.AwaitsRoom settings

section Schedules

variable {setup : Setup} {resolve : Resolver} {session next : Session} {journal : List Entry}

/-! ## For ever -/

/-- Only the queues of its service and the life of the engine matter to a waiting program. -/
theorem AwaitsRoom.congr {settings : Settings} (waits : session.AwaitsRoom settings)
    (stage : next.stage = session.stage) (phase : next.service.phase = session.service.phase)
    (hints : next.service.hints = session.service.hints)
    (requests : next.service.requests = session.service.requests) : next.AwaitsRoom settings := by
  cases waits with
  | hint here full =>
    rw [Service.offerHint_eq_full_iff, ← phase, ← hints] at full
    exact .hint (stage.trans here) (Service.offerHint_eq_full_iff.mpr full)
  | request here full =>
    rw [Service.offerRequest_eq_full_iff, ← phase, ← requests] at full
    exact .request (stage.trans here) (Service.offerRequest_eq_full_iff.mpr full)
  | repetition here full =>
    rw [Service.offerRequest_eq_full_iff, ← phase, ← requests] at full
    exact .repetition (stage.trans here) (Service.offerRequest_eq_full_iff.mpr full)

/-- A program that waits for room makes no move of its own. -/
theorem AwaitsRoom.moved (waits : session.AwaitsRoom setup.settings)
    (alive : session.service.phase ≠ .ended) (moved : Moved setup resolve session next) :
    ∃ turn service, session.service.turn? setup resolve turn = some service ∧
      next = { session with service } := by
  cases moved with
  | service taken => exact ⟨_, _, taken, rfl⟩
  | failed ended | warned _ ended => exact absurd ended alive
  | hinted stage offered =>
    cases waits with
    | hint here full =>
      rw [here] at stage
      cases stage
      rw [full] at offered
      cases offered
    | request here | repetition here =>
      rw [here] at stage
      cases stage
  | requested stage offered =>
    cases waits with
    | request here full =>
      rw [here] at stage
      cases stage
      rw [full] at offered
      cases offered
    | hint here | repetition here =>
      rw [here] at stage
      cases stage
  | repeated stage offered =>
    cases waits with
    | repetition here full =>
      rw [here] at stage
      cases stage
      rw [full] at offered
      cases offered
    | hint here | request here =>
      rw [here] at stage
      cases stage
  | added stage | begun stage | resumed stage | took stage | reported stage | noticed stage
    | finished stage =>
    cases waits with
    | hint here | request here | repetition here =>
      rw [here] at stage
      cases stage

namespace Deadlocked

theorem step (deadlocked : session.Deadlocked setup.settings)
    (step : Step setup resolve session next) : next.Deadlocked setup.settings := by
  obtain ⟨waits, engine⟩ := deadlocked
  obtain ⟨delivery, phase, there, full⟩ := engine
  cases step with
  | turn turn done =>
    have alive : session.service.phase ≠ .ended := by
      rw [phase]
      exact Phase.noConfusion
    obtain ⟨turn, service, taken, rfl⟩ := waits.moved alive (turn?_moved done)
    have stuck : session.service.AwaitsRoom setup.settings := ⟨delivery, phase, there, full⟩
    obtain ⟨engine, same, hints, requests⟩ := stuck.of_turn taken
    exact ⟨waits.congr rfl same hints requests, engine⟩
  | interrupt left =>
    obtain ⟨stage, -⟩ := interrupt?_eq_some left
    cases waits with
    | hint here | request here | repetition here =>
      rw [here] at stage
      cases stage
  | wait | arrive | sending =>
    exact ⟨waits.congr rfl rfl rfl rfl, delivery, phase, there, full⟩

/-- Nothing ever frees the two. -/
theorem forever (deadlocked : session.Deadlocked setup.settings)
    (later : Leads setup resolve session next) :
    next.Deadlocked setup.settings := by
  induction later with
  | refl => exact deadlocked
  | tail _ step ih => exact ih.step step

end Deadlocked

/-! ## When it can happen -/

/-- An engine with something to publish has handled a request. -/
theorem Accounted.requested (accounted : Accounted setup resolve journal session)
    (engine : session.service.AwaitsRoom setup.settings) :
    ∃ infoHash, infoHash ∈ requestsOf journal := by
  obtain ⟨delivery, phase, -⟩ := engine
  obtain ⟨before, heard, packet, run, received⟩ := accounted.recorded.publishing phase
  have due : (before.receive heard packet).2 = some delivery := by rw [received]
  exact ⟨delivery.infoHash, mem_requestsOf.mpr (run.requested_of_delivery due)⟩

/-- A standstill is for ever. It needs a content to search for, and comes either while requests are
repeated or, if there are two more contents than the queue of requests holds, during the first. -/
theorem deadlocked_when {arguments : Arguments} {now : Moment} {portTaken : Bool}
    {first : Session} (started : start arguments setup now portTaken = .ok first)
    (later : Leads setup resolve first session)
    (deadlocked : session.Deadlocked setup.settings) :
    ((∃ infoHash rest, session.stage = .requesting (infoHash :: rest) ∧
        setup.settings.commandCapacity + 2 ≤ arguments.infoHashes.length) ∨
      ∃ infoHash rest, session.stage = .repeating (infoHash :: rest) ∧
        infoHash ∈ arguments.infoHashes) ∧
    ∀ next, Leads setup resolve session next →
      next.Deadlocked setup.settings := by
  obtain ⟨journal, accounted, same⟩ := exists_accounted started later
  obtain ⟨content, handled⟩ := accounted.requested deadlocked.engine
  refine ⟨?_, fun next after => deadlocked.forever after⟩
  cases deadlocked.program with
  | hint stage full =>
    have ahead : session.firstRequests = some session.arguments.infoHashes := by
      rw [firstRequests, stage]
    have account := congrArg List.length (accounted.first ahead)
    have some := List.length_pos_of_mem handled
    simp only [List.length_append] at account
    omega
  | @request infoHash rest stage full =>
    have ahead : session.firstRequests = some (infoHash :: rest) := by
      rw [firstRequests, stage]
    have account := congrArg List.length (accounted.first ahead)
    have some := List.length_pos_of_mem handled
    have queued := (Service.offerRequest_eq_full_iff.mp full).2
    simp only [List.length_append, List.length_cons, same] at account
    exact Or.inl ⟨infoHash, rest, stage, by omega⟩
  | repetition stage full =>
    exact Or.inr ⟨_, _, stage, same ▸ accounted.repeating stage List.mem_cons_self⟩

/-! ## Schedules that lead there -/

/-- A part of a schedule: turns, the first possible one of a list each time, or what comes from
outside. -/
inductive Scene where
  | turns (turns : List Turn) (count : Nat)
  | arrive (arrival : Arrival)
  | wait (span : Span)

/-- Plays scenes one after another. -/
def play (setup : Setup) (resolve : Resolver) : List Scene → Session → Session
  | [], session => session
  | .turns turns count :: rest, session =>
    play setup resolve rest (session.turns setup resolve turns count)
  | .arrive arrival :: rest, session =>
    play setup resolve rest { session with service := session.service.arrive arrival }
  | .wait span :: rest, session =>
    play setup resolve rest { session with service := session.service.wait span }

theorem leads_turns (turns : List Turn) (count : Nat) (session : Session) :
    Leads setup resolve session (session.turns setup resolve turns count) := by
  induction count generalizing session with
  | zero => exact .refl
  | succ count ih =>
    unfold Session.turns
    split
    · exact .refl
    · rename_i next found
      obtain ⟨turn, -, done⟩ := List.exists_of_findSome?_eq_some found
      exact .head (.turn turn done) (ih next)

theorem leads_play (scenes : List Scene) (session : Session) :
    Leads setup resolve session (session.play setup resolve scenes) := by
  induction scenes generalizing session with
  | nil => exact .refl
  | cons scene rest ih =>
    cases scene with
    | turns turns count => exact (leads_turns turns count session).trans (ih _)
    | arrive arrival => exact .head (.arrive arrival) (ih _)
    | wait span => exact .head (.wait span) (ih _)

theorem Deadlocked.of_full {settings : Settings} {infoHash : InfoHash} {rest : List InfoHash}
    {delivery : Delivery}
    (stage : session.stage = .requesting (infoHash :: rest) ∨
      session.stage = .repeating (infoHash :: rest))
    (phase : session.service.phase = .publishing delivery)
    (there : session.service.listening = true)
    (requests : settings.commandCapacity ≤ session.service.requests.length)
    (results : settings.resultCapacity ≤ session.service.results.length) :
    session.Deadlocked settings := by
  have alive : session.service.phase ≠ .ended := by
    rw [phase]
    exact Phase.noConfusion
  have full : session.service.offerRequest settings infoHash = .error .full :=
    Service.offerRequest_eq_full_iff.mpr ⟨alive, requests⟩
  refine ⟨?_, delivery, phase, there, results⟩
  exact stage.elim (fun here => .request here full) fun here => .repetition here full

end Schedules

/-! ### A sample

Sixty-seven contents are given. The router answers the first two requests, each with a new peer,
before the program comes to the others: the first peer waits for the program, the engine waits with
the second, and the last of the requests finds the queue full.

With one content it takes reports. Two answers come before the program takes the first, and then it
reports as long as reports are due, until the queue is full of the same request.
-/

namespace Standstill

open Sample

def argumentsFor (infoHashes : List InfoHash) : Arguments where
  nodeId := some (identifier 1)
  router := "10.0.0.1:6881"
  infoHashes

def manyContents : List InfoHash :=
  (List.range 67).map fun number => identifier (UInt8.ofNat number)

def setupFor (infoHashes : List InfoHash) : Setup :=
  ⟨(argumentsFor infoHashes).settings (identifier 1), setup.chance⟩

/-- An answer of the router, under a number, that lists a peer. -/
def routerAnswer (number : UInt16) (found : Address) : Arrival :=
  .packet {
    payload := (Message.response (Bytes.ofWord number)
      { id := identifier 2, token := none, values := some [found], nodes := none }).print
    sender := node }

def requestsAtOnce : List Scene :=
  [.turns [.addNode, .service .bootstrap] 2, .turns [.request] 2, .turns [.service .takeRequest] 2,
    .arrive (routerAnswer 0 (peer 1)), .arrive (routerAnswer 1 (peer 2)),
    .turns [.service .read, .service .forward, .service (.takePacket []), .service (.publish [])] 8,
    .turns [.request] 64]

def reportsAtOnce : List Scene :=
  [.turns [.addNode, .service .bootstrap] 2, .turns [.request] 2, .turns [.service .takeRequest] 1,
    .arrive (routerAnswer 0 (peer 1)),
    .turns [.service .read, .service .forward, .service (.takePacket []), .service (.publish [])] 4,
    .wait (2 * 60 * 60 * Span.second), .turns [.report, .repeatRequest] 3,
    .turns [.service .takeRequest] 1, .arrive (routerAnswer 1 (peer 2)),
    .turns [.service .read, .service .forward, .service (.takePacket [])] 3,
    .turns [.report, .repeatRequest] (65 * 3)]

/-- What contents and scenes come to: the phase of the engine, whether the program listens, how many
requests and results are queued, and the stage of the program. -/
def comesTo (infoHashes : List InfoHash) (scenes : List Scene) :
    Option (Phase × Bool × Nat × Nat × Stage) :=
  (start (argumentsFor infoHashes) (setupFor infoHashes) 0 false).toOption.map fun first =>
    let session := first.play (setupFor infoHashes) .literal scenes
    (session.service.phase, session.service.listening, session.service.requests.length,
      session.service.results.length, session.stage)

theorem deadlocked_of_comesTo {infoHashes rest : List InfoHash} {scenes : List Scene}
    {delivery : Delivery} {infoHash : InfoHash} {stage : Stage}
    (told : comesTo infoHashes scenes = some (.publishing delivery, true, 64, 1, stage))
    (waits : stage = .requesting (infoHash :: rest) ∨ stage = .repeating (infoHash :: rest)) :
    ∃ first session,
      start (argumentsFor infoHashes) (setupFor infoHashes) 0 false = .ok first ∧
        Leads (setupFor infoHashes) .literal first session ∧ session.stage = stage ∧
        session.Deadlocked (setupFor infoHashes).settings := by
  unfold comesTo at told
  cases started : start (argumentsFor infoHashes) (setupFor infoHashes) 0 false with
  | error causes =>
    rw [started] at told
    cases told
  | ok first =>
    rw [started] at told
    have account := Option.some.inj told
    simp only [Prod.mk.injEq] at account
    obtain ⟨phase, there, requests, results, rfl⟩ := account
    have deadlocked : (first.play (setupFor infoHashes) .literal scenes).Deadlocked
        (setupFor infoHashes).settings :=
      .of_full waits phase there (Nat.le_of_eq requests.symm) (Nat.le_of_eq results.symm)
    exact ⟨first, _, rfl, leads_play scenes first, rfl, deadlocked⟩

theorem requestsAtOnce_deadlocked :
    ∃ first session,
      start (argumentsFor manyContents) (setupFor manyContents) 0 false = .ok first ∧
        Leads (setupFor manyContents) .literal first session ∧
        session.stage = .requesting [identifier 66] ∧
        session.Deadlocked (setupFor manyContents).settings := by
  have told : comesTo manyContents requestsAtOnce = some (.publishing
      ⟨identifier 1, [peer 2], none⟩, true, 64, 1, .requesting [identifier 66]) := by decide +kernel
  exact deadlocked_of_comesTo told (Or.inl rfl)

/-- One content is enough where reports are late. -/
theorem reportsAtOnce_deadlocked :
    ∃ first session,
      start (argumentsFor [content]) (setupFor [content]) 0 false = .ok first ∧
        Leads (setupFor [content]) .literal first session ∧
        session.stage = .repeating [content] ∧
        session.Deadlocked (setupFor [content]).settings := by
  have told : comesTo [content] reportsAtOnce = some (.publishing ⟨content, [peer 2], none⟩, true,
      64, 1, .repeating [content]) := by decide +kernel
  exact deadlocked_of_comesTo told (Or.inr rfl)

end Standstill

open Standstill

/-- The program and its engine can come to wait for each other for ever. -/
theorem exists_deadlocked :
    ∃ first session,
      start (argumentsFor manyContents) (setupFor manyContents) 0 false = .ok first ∧
        Leads (setupFor manyContents) .literal first session ∧
        ∀ next, Leads (setupFor manyContents) .literal session next →
          next.Deadlocked (setupFor manyContents).settings := by
  obtain ⟨first, session, started, later, -, deadlocked⟩ := requestsAtOnce_deadlocked
  exact ⟨first, session, started, later, fun next after => deadlocked.forever after⟩

/-- A standstill during the first requests has at least two more contents than the queue holds. -/
theorem deadlocked_when_requesting :
    ∃ first session,
      start (argumentsFor manyContents) (setupFor manyContents) 0 false = .ok first ∧
        Leads (setupFor manyContents) .literal first session ∧
        session.Deadlocked (setupFor manyContents).settings ∧
        ((∃ infoHash rest, session.stage = .requesting (infoHash :: rest) ∧
            Default.commandCapacity + 2 ≤ manyContents.length) ∨
          ∃ infoHash rest, session.stage = .repeating (infoHash :: rest) ∧
            infoHash ∈ manyContents) := by
  obtain ⟨first, session, started, later, -, deadlocked⟩ := requestsAtOnce_deadlocked
  exact ⟨first, session, started, later, deadlocked, (deadlocked_when started later deadlocked).1⟩

end CommandLine.Session

end PeerDiscovery
