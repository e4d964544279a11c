import PeerDiscovery.CommandLine.Session
import PeerDiscovery.Proofs.Service.Inversion

/-!
# What a session can have done

`Session.Moved` lists everything that a turn of the program can come to, and what the program and
its service were like before.
-/

namespace PeerDiscovery

namespace CommandLine.Session

variable {setup : Setup} {resolve : Resolver} {session next : Session}

theorem service_announce (session : Session) (infoHashes : List InfoHash) :
    (session.announce infoHashes).service = session.service := by
  cases infoHashes <;> rfl

theorem arguments_announce (session : Session) (infoHashes : List InfoHash) :
    (session.announce infoHashes).arguments = session.arguments := by
  cases infoHashes <;> rfl

theorem stage_announce (session : Session) (infoHashes : List InfoHash) :
    (session.announce infoHashes).stage = .requesting infoHashes := by
  cases infoHashes <;> rfl

/-- A session that has just begun. -/
theorem start_eq_ok {arguments : Arguments} {now : Moment} {portTaken : Bool}
    (started : start arguments setup now portTaken = .ok session) :
    session.arguments = arguments ∧ session.service = Service.unused now ∧
      session.stage = .adding arguments.nodes := by
  unfold start at started
  split at started
  · cases started
  · rename_i service bound
    obtain rfl := Except.ok.inj started
    exact ⟨rfl, Service.bind_eq_ok bound, rfl⟩

theorem interrupt?_eq_some (left : session.interrupt? = some next) :
    session.stage = .waiting ∧
      next = (session.record .info "Received shutdown signal, exiting gracefully").leave := by
  unfold interrupt? at left
  split at left
  · rename_i stage
    exact ⟨stage, (Option.some.inj left).symm⟩
  · cases left

/-- What a turn makes of a session. -/
inductive Moved (setup : Setup) (resolve : Resolver) (session : Session) : Session → Prop
  /-- A task of the service took a turn. -/
  | service {turn : PeerDiscovery.Turn} {service : Service} :
    session.service.turn? setup resolve turn = some service →
    Moved setup resolve session { session with service }
  | hinted {contact : Contact} {rest : List Contact} {service : Service} :
    session.stage = .adding (contact :: rest) →
    session.service.offerHint setup.settings contact = .ok service →
    Moved setup resolve session { session with service, stage := .adding rest }
  /-- All nodes are hinted at. -/
  | added : session.stage = .adding [] →
    Moved setup resolve session (session.announce session.arguments.infoHashes)
  | requested {infoHash : InfoHash} {rest : List InfoHash} {service : Service} :
    session.stage = .requesting (infoHash :: rest) →
    session.service.offerRequest setup.settings infoHash = .ok service →
    Moved setup resolve session ({ session with service }.announce rest)
  /-- All first requests are made. -/
  | begun : session.stage = .requesting [] →
    Moved setup resolve session { session with
      stage := .waiting
      nextReport := session.service.now + session.arguments.reportSpan }
  /-- The engine is gone before the first requests are made. -/
  | failed : session.service.phase = .ended →
    Moved setup resolve session { session with stage := .over engineFailure }
  | took {batch : Batch} {service : Service} : session.stage = .waiting →
    session.service.takeResult = .ok (batch, service) →
    Moved setup resolve session { session with
      service
      log := session.log ++ batch.peers.map (peerRecord batch.infoHash) }
  | reported : session.stage = .waiting → session.nextReport ≤ session.service.now →
    Moved setup resolve session ({ session with
      stage := .repeating session.arguments.infoHashes
      nextReport := session.nextReport + session.arguments.reportSpan }.record .info
        (reportText session.service.search.stats))
  | repeated {infoHash : InfoHash} {rest : List InfoHash} {service : Service} :
    session.stage = .repeating (infoHash :: rest) →
    session.service.offerRequest setup.settings infoHash = .ok service →
    Moved setup resolve session { session with service, stage := .repeating rest }
  /-- The engine is gone before a request is repeated. -/
  | warned {infoHash : InfoHash} {rest : List InfoHash} :
    session.stage = .repeating (infoHash :: rest) → session.service.phase = .ended →
    Moved setup resolve session ({ session with stage := .repeating rest }.record .warn
      ("Peer request failed error=" ++ Service.stoppedMessage))
  /-- All requests are repeated. -/
  | resumed : session.stage = .repeating [] →
    Moved setup resolve session { session with stage := .waiting }
  | noticed : session.stage = .waiting → session.service.takeResult = .error .disconnected →
    Moved setup resolve session (session.record .warn "DHT engine stopped").leave
  | finished : session.stage = .leaving → session.service.engineEnded = true →
    Moved setup resolve session { session with stage := .over [] }

theorem turn?_moved {turn : Turn} (done : session.turn? setup resolve turn = some next) :
    Moved setup resolve session next := by
  unfold turn? at done
  split at done
  · obtain ⟨service, taken, same⟩ := Option.bind_eq_some_iff.mp done
    obtain rfl := Option.some.inj same
    exact .service taken
  · rename_i nodes stage
    unfold addNode? at done
    split at done
    · obtain rfl := Option.some.inj done
      exact .added stage
    split at done
    · rename_i service offered
      obtain rfl := Option.some.inj done
      exact .hinted stage offered
    · cases done
    · rename_i stopped
      obtain rfl := Option.some.inj done
      exact .failed (Service.ended_of_offerHint stopped)
  · rename_i infoHashes stage
    unfold request? at done
    split at done
    · obtain rfl := Option.some.inj done
      exact .begun stage
    split at done
    · rename_i service offered
      obtain rfl := Option.some.inj done
      exact .requested stage offered
    · cases done
    · rename_i stopped
      obtain rfl := Option.some.inj done
      exact .failed (Service.ended_of_offerRequest stopped)
  · rename_i stage
    split at done
    · rename_i batch service taken
      obtain rfl := Option.some.inj done
      exact .took stage taken
    · cases done
  · rename_i stage
    split at done
    · rename_i due
      obtain rfl := Option.some.inj done
      exact .reported stage due
    · cases done
  · rename_i infoHashes stage
    unfold repeatRequest? at done
    split at done
    · obtain rfl := Option.some.inj done
      exact .resumed stage
    split at done
    · rename_i service offered
      obtain rfl := Option.some.inj done
      exact .repeated stage offered
    · cases done
    · rename_i stopped
      obtain rfl := Option.some.inj done
      exact .warned stage (Service.ended_of_offerRequest stopped)
  · rename_i stage
    split at done
    · rename_i gone
      obtain rfl := Option.some.inj done
      exact .noticed stage gone
    · cases done
  · rename_i stage
    split at done
    · rename_i ended
      obtain rfl := Option.some.inj done
      exact .finished stage ended
    · cases done
  · cases done

end CommandLine.Session

end PeerDiscovery
