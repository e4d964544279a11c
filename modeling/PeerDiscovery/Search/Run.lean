import PeerDiscovery.Search.Bootstrap
import PeerDiscovery.Search.Reply

/-!
# Runs of a search

A run takes stimuli one after another, each at its moments and under the conditions of the
surroundings at that time: whether the client still takes results, and which datagrams cannot be
sent. The surroundings decide what becomes of an outcome, never what the outcome is.
-/

namespace PeerDiscovery

/-- What a search reacts to. -/
inductive Stimulus where
  | hint (contact : Contact)
  | request (infoHash : InfoHash)
  | packet (packet : Packet)
deriving DecidableEq

/-- What the surroundings do while a stimulus is handled. -/
structure Conditions where
  /-- Whether the client still takes results. -/
  listening : Bool
  /-- Whether sending the datagram of this place in the order of the outcome fails. -/
  sendFails : Nat → Bool

/-- What becomes of an outcome. -/
structure Report where
  /-- The datagrams sent, with a mark on those that failed. -/
  sent : List (Datagram × Bool)
  /-- The batch that reached the client. -/
  delivered : Option Batch

/-- What becomes of an outcome under some conditions. -/
def Outcome.report (ourId : Identifier) (conditions : Conditions) (outcome : Outcome) : Report where
  sent := (outcome.datagrams ourId).mapIdx fun place datagram =>
    (datagram, conditions.sendFails place)
  delivered := if conditions.listening then outcome.batch else none

namespace Search

/-- Handles a stimulus that is heard at some moment; the clock tells the moments at which the
references of an answer are followed. -/
def handle? (setup : Setup) (heard : Moment) (clock : Clock) (stimulus : Stimulus)
    (search : Search) : Option Outcome :=
  match stimulus with
  | .hint contact => search.hint? setup contact
  | .request infoHash => search.request? setup heard infoHash
  | .packet packet => search.packet? setup heard clock packet

/-- A stimulus, its moments, and the conditions of the surroundings. -/
structure Event where
  heard : Moment
  clock : Clock
  stimulus : Stimulus
  conditions : Conditions

/-- Handles events one after another and reports what became of each. -/
def run? (setup : Setup) : List Event → Search → Option (Search × List Report)
  | [], search => some (search, [])
  | event :: rest, search => do
    let outcome ← search.handle? setup event.heard event.clock event.stimulus
    let report := outcome.report setup.settings.ourId event.conditions
    let (last, reports) ← run? setup rest outcome.search
    return (last, report :: reports)

end Search

end PeerDiscovery
