import Mathlib.Logic.Relation
import PeerDiscovery.Proofs.CommandLine.Inversion
import PeerDiscovery.Proofs.Service.Recorded

/-!
# What the program has requested

On every schedule the service of the program has a journal, and the requests of the journal, those
in the queue and those that the program still has to make are the contents of its command line in
their order, as long as each is requested for the first time (`Session.exists_accounted`). Later the
program only repeats them.
-/

namespace PeerDiscovery.CommandLine.Session

/-- A session comes to another on some schedule. -/
abbrev Leads (setup : Setup) (resolve : Resolver) : Session → Session → Prop :=
  Relation.ReflTransGen (Step setup resolve)

variable {setup : Setup} {resolve : Resolver} {session next : Session} {journal : List Entry}

/-- The first requests that are still to be made, as long as the program is busy with them. -/
def firstRequests (session : Session) : Option (List InfoHash) :=
  match session.stage with
  | .adding _ => some session.arguments.infoHashes
  | .requesting infoHashes => some infoHashes
  | _ => none

/-- The requests that were handled, those in the queue and those still to be made are the given
contents in their order, as long as each is requested for the first time. -/
structure Accounted (setup : Setup) (resolve : Resolver) (journal : List Entry)
    (session : Session) : Prop where
  recorded : session.service.Recorded setup resolve journal
  first : ∀ {rest}, session.firstRequests = some rest →
    requestsOf journal ++ session.service.requests ++ rest = session.arguments.infoHashes
  given : requestsOf journal ++ session.service.requests ⊆ session.arguments.infoHashes
  repeating : ∀ {rest}, session.stage = .repeating rest → rest ⊆ session.arguments.infoHashes

namespace Accounted

theorem of_start {arguments : Arguments} {now : Moment} {portTaken : Bool}
    (started : start arguments setup now portTaken = .ok session) :
    Accounted setup resolve [] session ∧ session.arguments = arguments := by
  obtain ⟨same, service, stage⟩ := start_eq_ok started
  refine ⟨⟨?_, ?_, ?_, ?_⟩, same⟩
  · rw [service]
    exact ⟨rfl, rfl⟩
  · intro rest ahead
    rw [firstRequests, stage] at ahead
    obtain rfl := Option.some.inj ahead
    rw [service]
    rfl
  · rw [service]
    exact List.nil_subset _
  · intro rest other
    rw [stage] at other
    cases other

/-- Where the engine handles nothing and the queue of requests stays, only the stage matters. -/
theorem idle (accounted : Accounted setup resolve journal session)
    (arguments : next.arguments = session.arguments)
    (phase : next.service.phase = session.service.phase)
    (search : next.service.search = session.service.search)
    (requests : next.service.requests = session.service.requests)
    (first : ∀ rest, next.firstRequests = some rest → session.firstRequests = some rest)
    (repeating : ∀ rest, next.stage = .repeating rest → rest ⊆ session.arguments.infoHashes) :
    ∃ entries, Accounted setup resolve (journal ++ entries) next ∧
      next.arguments = session.arguments := by
  refine ⟨[], ?_, arguments⟩
  rw [List.append_nil]
  refine ⟨accounted.recorded.of_eq phase search, ?_, ?_, ?_⟩
  · intro rest ahead
    rw [requests, arguments]
    exact accounted.first (first rest ahead)
  · rw [requests, arguments]
    exact accounted.given
  · intro rest stage
    rw [arguments]
    exact repeating rest stage

theorem moved (accounted : Accounted setup resolve journal session)
    (moved : Moved setup resolve session next) :
    ∃ entries, Accounted setup resolve (journal ++ entries) next ∧
      next.arguments = session.arguments := by
  cases moved with
  | @service turn service taken =>
    obtain ⟨entries, recorded, requests⟩ := accounted.recorded.step (Service.turn?_taken taken)
    have same : requestsOf (journal ++ entries) ++ service.requests =
        requestsOf journal ++ session.service.requests := by
      rw [requests, requestsOf_append, List.append_assoc]
    refine ⟨entries, ⟨recorded, ?_, ?_, accounted.repeating⟩, rfl⟩
    · intro rest ahead
      rw [same]
      exact accounted.first ahead
    · rw [same]
      exact accounted.given
  | hinted stage offered =>
    obtain ⟨-, -, rfl⟩ := Service.offerHint_eq_ok offered
    refine accounted.idle rfl rfl rfl rfl (fun rest ahead => ?_) (fun rest other => ?_)
    · rw [firstRequests, stage]
      exact ahead
    · cases other
  | added stage =>
    refine accounted.idle (arguments_announce ..) ?_ ?_ ?_ (fun rest ahead => ?_)
      (fun rest other => ?_)
    · rw [service_announce]
    · rw [service_announce]
    · rw [service_announce]
    · rw [firstRequests, stage_announce] at ahead
      rw [firstRequests, stage]
      exact ahead
    · rw [stage_announce] at other
      cases other
  | @requested infoHash others service stage offered =>
    obtain ⟨-, -, rfl⟩ := Service.offerRequest_eq_ok offered
    have ahead : session.firstRequests = some (infoHash :: others) := by
      rw [firstRequests, stage]
    have account := accounted.first ahead
    rw [List.append_cons] at account
    refine ⟨[], ⟨?_, ?_, ?_, ?_⟩, arguments_announce ..⟩
    · rw [List.append_nil, service_announce]
      exact accounted.recorded.of_eq rfl rfl
    · intro rest ahead
      rw [firstRequests, stage_announce] at ahead
      obtain rfl := Option.some.inj ahead
      rw [List.append_nil, service_announce, arguments_announce, ← List.append_assoc]
      exact account
    · rw [List.append_nil, service_announce, arguments_announce, ← List.append_assoc]
      rw [← account]
      exact List.subset_append_left ..
    · intro rest other
      rw [stage_announce] at other
      cases other
  | @repeated infoHash rest service stage offered =>
    obtain ⟨-, -, rfl⟩ := Service.offerRequest_eq_ok offered
    have given := accounted.repeating stage
    refine ⟨[], ⟨?_, ?_, ?_, ?_⟩, rfl⟩
    · rw [List.append_nil]
      exact accounted.recorded.of_eq rfl rfl
    · intro rest ahead
      cases ahead
    · rw [List.append_nil, ← List.append_assoc]
      refine List.append_subset.mpr ⟨accounted.given, fun content member => ?_⟩
      obtain rfl := List.mem_singleton.mp member
      exact given List.mem_cons_self
    · intro others other
      obtain rfl := Stage.repeating.inj other
      exact fun content member => given (List.mem_cons_of_mem _ member)
  | took stage taken =>
    obtain ⟨rest, -, rfl⟩ := Service.takeResult_eq_ok taken
    refine accounted.idle rfl rfl rfl rfl (fun rest ahead => ?_) (fun rest other => ?_)
    · rw [firstRequests, stage] at ahead
      cases ahead
    · exact accounted.repeating other
  | reported stage due =>
    refine accounted.idle rfl rfl rfl rfl (fun rest ahead => ?_) (fun rest other => ?_)
    · cases ahead
    · obtain rfl := Stage.repeating.inj other
      exact List.Subset.refl _
  | warned stage ended =>
    refine accounted.idle rfl rfl rfl rfl (fun rest ahead => ?_) (fun rest other => ?_)
    · cases ahead
    · obtain rfl := Stage.repeating.inj other
      exact fun content member => accounted.repeating stage (List.mem_cons_of_mem _ member)
  | begun | failed | resumed | noticed | finished =>
    refine accounted.idle rfl rfl rfl rfl (fun rest ahead => ?_) (fun rest other => ?_)
    · cases ahead
    · cases other

theorem step (accounted : Accounted setup resolve journal session)
    (step : Step setup resolve session next) :
    ∃ entries, Accounted setup resolve (journal ++ entries) next ∧
      next.arguments = session.arguments := by
  cases step with
  | turn turn done => exact accounted.moved (turn?_moved done)
  | interrupt left =>
    obtain ⟨-, rfl⟩ := interrupt?_eq_some left
    refine accounted.idle rfl rfl rfl rfl (fun rest ahead => ?_) (fun rest other => ?_)
    · cases ahead
    · cases other
  | wait | arrive | sending =>
    exact accounted.idle rfl rfl rfl rfl (fun rest ahead => ahead)
      (fun rest other => accounted.repeating other)

end Accounted

/-- Every session of the program has a journal that accounts for its requests. -/
theorem exists_accounted {arguments : Arguments} {now : Moment} {portTaken : Bool}
    {first : Session} (started : start arguments setup now portTaken = .ok first)
    (later : Leads setup resolve first session) :
    ∃ journal, Accounted setup resolve journal session ∧ session.arguments = arguments := by
  induction later with
  | refl =>
    obtain ⟨accounted, arguments⟩ := Accounted.of_start started
    exact ⟨[], accounted, arguments⟩
  | tail _ step ih =>
    obtain ⟨journal, accounted, arguments⟩ := ih
    obtain ⟨entries, accounted, same⟩ := accounted.step step
    exact ⟨journal ++ entries, accounted, same.trans arguments⟩

end PeerDiscovery.CommandLine.Session
