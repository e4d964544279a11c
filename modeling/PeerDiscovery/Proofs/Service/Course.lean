import PeerDiscovery.Proofs.Service.Inversion

/-!
# Courses of a service

An act is one thing that happens to a service: a task takes a turn, a client does something, or the
world does. An act tells what came of it, so that what was queued, what was taken and what the
socket was given can be read off a list of acts. Acts are the steps of schedules
(`step_iff_exists_act?`); a list of them that can happen one after another is a course.
-/

namespace PeerDiscovery

/-- One thing that happens to a service. -/
inductive Act where
  | turn (turn : Turn)
  /-- A client queues a hint. -/
  | hint (contact : Contact)
  /-- A client queues a request. -/
  | request (infoHash : InfoHash)
  /-- The client gets this batch. -/
  | take (batch : Batch)
  | stopListening
  | cloneHandle
  | dropHandle
  | cancel
  | wait (span : Span)
  | arrive (arrival : Arrival)
  /-- Sending fails from now on, or no longer. -/
  | sending (fails : Bool)
deriving DecidableEq

namespace Act

def hint? : Act → Option Contact
  | .hint contact => some contact
  | _ => none

def request? : Act → Option InfoHash
  | .request infoHash => some infoHash
  | _ => none

def taken? : Act → Option Batch
  | .take batch => some batch
  | _ => none

def arrival? : Act → Option Arrival
  | .arrive arrival => some arrival
  | _ => none

end Act

/-! ## What acts do -/

namespace Service

variable {setup : Setup} {resolve : Resolver} {service next : Service} {act : Act}

/-- The service after an act, if the act is possible. -/
def act? (setup : Setup) (resolve : Resolver) (act : Act) (service : Service) : Option Service :=
  match act with
  | .turn turn => service.turn? setup resolve turn
  | .hint contact =>
    if 0 < service.handles then (service.offerHint setup.settings contact).toOption else none
  | .request infoHash =>
    if 0 < service.handles then (service.offerRequest setup.settings infoHash).toOption else none
  | .take batch =>
    match service.takeResult with
    | .ok (first, next) => if first = batch then some next else none
    | .error _ => none
  | .stopListening => some service.stopListening
  | .cloneHandle => if 0 < service.handles then some service.cloneHandle else none
  | .dropHandle => if 0 < service.handles then some service.dropHandle else none
  | .cancel => some service.cancel
  | .wait span => some (service.wait span)
  | .arrive arrival => some (service.arrive arrival)
  | .sending fails => some { service with sendFails := fails }

/-- What an act makes of a service. -/
inductive Acted (setup : Setup) (resolve : Resolver) (service : Service) : Act → Service → Prop
  | turn {turn : Turn} {next : Service} : service.turn? setup resolve turn = some next →
    Acted setup resolve service (.turn turn) next
  | hint {contact : Contact} {next : Service} : 0 < service.handles →
    service.offerHint setup.settings contact = .ok next →
    Acted setup resolve service (.hint contact) next
  | request {infoHash : InfoHash} {next : Service} : 0 < service.handles →
    service.offerRequest setup.settings infoHash = .ok next →
    Acted setup resolve service (.request infoHash) next
  | take {batch : Batch} {next : Service} : service.takeResult = .ok (batch, next) →
    Acted setup resolve service (.take batch) next
  | stopListening : Acted setup resolve service .stopListening service.stopListening
  | cloneHandle : 0 < service.handles →
    Acted setup resolve service .cloneHandle service.cloneHandle
  | dropHandle : 0 < service.handles → Acted setup resolve service .dropHandle service.dropHandle
  | cancel : Acted setup resolve service .cancel service.cancel
  | wait {span : Span} : Acted setup resolve service (.wait span) (service.wait span)
  | arrive {arrival : Arrival} :
    Acted setup resolve service (.arrive arrival) (service.arrive arrival)
  | sending {fails : Bool} :
    Acted setup resolve service (.sending fails) { service with sendFails := fails }

theorem eq_ok_of_toOption {ε α : Type} {result : Except ε α} {value : α}
    (some : result.toOption = some value) : result = .ok value := by
  cases result with
  | error => cases some
  | ok => exact congrArg Except.ok (Option.some.inj some)

theorem act?_acted (done : service.act? setup resolve act = some next) :
    Acted setup resolve service act next := by
  cases act with
  | turn turn => exact .turn done
  | hint contact =>
    obtain ⟨held, offered⟩ := Option.ite_none_right_eq_some.mp done
    exact .hint held (eq_ok_of_toOption offered)
  | request infoHash =>
    obtain ⟨held, offered⟩ := Option.ite_none_right_eq_some.mp done
    exact .request held (eq_ok_of_toOption offered)
  | take batch =>
    rw [act?] at done
    split at done
    · rename_i first rest taken
      obtain ⟨rfl, same⟩ := Option.ite_none_right_eq_some.mp done
      obtain rfl := Option.some.inj same
      exact .take taken
    · cases done
  | cloneHandle =>
    obtain ⟨held, same⟩ := Option.ite_none_right_eq_some.mp done
    obtain rfl := Option.some.inj same
    exact .cloneHandle held
  | dropHandle =>
    obtain ⟨held, same⟩ := Option.ite_none_right_eq_some.mp done
    obtain rfl := Option.some.inj same
    exact .dropHandle held
  | stopListening | cancel | wait span | arrive arrival | sending fails =>
    obtain rfl := Option.some.inj done
    constructor

/-- Acts are the steps of schedules. -/
theorem step_iff_exists_act? :
    Step setup resolve service next ↔ ∃ act, service.act? setup resolve act = some next := by
  constructor
  · intro step
    cases step with
    | turn turn taken => exact ⟨.turn turn, taken⟩
    | hint contact held offered => exact ⟨.hint contact, by rw [act?, if_pos held, offered]; rfl⟩
    | request infoHash held offered =>
      exact ⟨.request infoHash, by rw [act?, if_pos held, offered]; rfl⟩
    | take batch taken => exact ⟨.take batch, by rw [act?, taken]; exact if_pos rfl⟩
    | stopListening => exact ⟨.stopListening, rfl⟩
    | cloneHandle held => exact ⟨.cloneHandle, if_pos held⟩
    | dropHandle held => exact ⟨.dropHandle, if_pos held⟩
    | cancel => exact ⟨.cancel, rfl⟩
    | wait span => exact ⟨.wait span, rfl⟩
    | arrive arrival => exact ⟨.arrive arrival, rfl⟩
    | sending fails => exact ⟨.sending fails, rfl⟩
  · intro given
    obtain ⟨act, done⟩ := given
    cases act?_acted done with
    | turn taken => exact .turn _ taken
    | hint held offered => exact .hint _ held offered
    | request held offered => exact .request _ held offered
    | take taken => exact .take _ taken
    | stopListening => exact .stopListening
    | cloneHandle held => exact .cloneHandle held
    | dropHandle held => exact .dropHandle held
    | cancel => exact .cancel
    | wait => exact .wait _
    | arrive => exact .arrive _
    | sending => exact .sending _

/-! ## Courses -/

/-- The service after acts one after another, if they are possible. -/
def acts? (setup : Setup) (resolve : Resolver) : List Act → Service → Option Service
  | [], service => some service
  | act :: rest, service => (service.act? setup resolve act).bind (acts? setup resolve rest)

/-- What holds at first and is kept by each act holds in the whole course. -/
@[elab_as_elim]
theorem acts?_induction {motive : List Act → Service → Prop} {first service : Service}
    {acts : List Act} (course : first.acts? setup resolve acts = some service)
    (start : motive [] first)
    (step : ∀ acts service act next, motive acts service → Acted setup resolve service act next →
      motive (acts ++ [act]) next) :
    motive acts service := by
  -- the acts so far come in front of the acts to come
  suffices ∀ done first, motive done first → first.acts? setup resolve acts = some service →
      motive (done ++ acts) service from this [] first start course
  clear course start
  induction acts with
  | nil =>
    intro done first holds same
    obtain rfl := Option.some.inj same
    rwa [List.append_nil]
  | cons act rest ih =>
    intro done first holds course
    obtain ⟨next, one, others⟩ := Option.bind_eq_some_iff.mp course
    have after := ih (done ++ [act]) next (step done first act next holds (act?_acted one)) others
    rwa [List.append_assoc] at after

end Service

end PeerDiscovery
