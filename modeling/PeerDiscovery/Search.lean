import PeerDiscovery.Krpc.MessageReader
import PeerDiscovery.Selection
import PeerDiscovery.Settings
import Std.Data.ExtTreeSet

/-!
# The search

What a client knows while it searches: the table of nodes, the peers found for each content, the
automatic rounds each content has left, and counters of what happened. The modules below this one
say how hints, requests and datagrams change it.

A query needs a free transaction number. As a node whose 65536 numbers all belong to open queries
has none, and looking for one would never end, every function that asks a node yields `none` in that
case.
-/

namespace PeerDiscovery

/-- A set of endpoints. -/
abbrev AddressSet := Std.ExtTreeSet Address compare

/-- Counters of what happened since the start. They wrap. -/
structure Stats where
  nodesCreated : UInt64 := 0
  duplicateNodes : UInt64 := 0
  peersFound : UInt64 := 0
  getPeersSent : UInt64 := 0
  pingsSent : UInt64 := 0
  responsesMatched : UInt64 := 0
  staleResponses : UInt64 := 0
deriving DecidableEq

/-- What a search knows and counts. -/
structure Search where
  table : NodeTable
  /-- The peers found for each content so far. -/
  found : Std.ExtTreeMap InfoHash AddressSet compare
  /-- The automatic rounds that each content has left. -/
  budgets : Std.ExtTreeMap InfoHash Nat compare
  stats : Stats

/-- What stays the same during a search: the choices of the client, and what is left to chance. -/
structure Setup where
  settings : Settings
  chance : Chance

/-- A message and the endpoint it goes to. -/
structure Datagram where
  destination : Address
  message : Message
deriving DecidableEq

/-- A datagram that came in. -/
structure Packet where
  payload : Bytes
  sender : Address
deriving DecidableEq

/-- Peers of a content that were not known before. -/
structure Batch where
  infoHash : InfoHash
  peers : List Address
deriving DecidableEq

/-- What a search does towards the network. -/
inductive Activity where
  /-- It pings a node. -/
  | ping (destination : Address) (transaction : UInt16)
  /-- It reads the clock and holds a round for a content, asking the listed nodes in this order. -/
  | round (now : Moment) (infoHash : InfoHash) (asked : List (Address × UInt16))
deriving DecidableEq

/-- The datagrams of an activity, in the order in which they are sent. -/
def Activity.datagrams (ourId : Identifier) : Activity → List Datagram
  | .ping destination transaction => [⟨destination, .ping (Bytes.ofWord transaction) ourId⟩]
  | .round _ infoHash asked => asked.map fun query =>
    ⟨query.1, .getPeers (Bytes.ofWord query.2) ourId infoHash⟩

/-- What handling a stimulus leads to. -/
structure Outcome where
  search : Search
  /-- The new peers to hand to the client. -/
  batch : Option Batch := none
  activities : List Activity := []

/-- The datagrams of an outcome, in the order in which they are sent. -/
def Outcome.datagrams (ourId : Identifier) (outcome : Outcome) : List Datagram :=
  outcome.activities.flatMap (Activity.datagrams ourId)

namespace Search

/-- A search that knows nothing. -/
def start : Search where
  table := .empty
  found := ∅
  budgets := ∅
  stats := {}

/-- The peers found for a content. -/
def peersOf (search : Search) (infoHash : InfoHash) : AddressSet :=
  search.found[infoHash]?.getD ∅

/-- How many peers were found for a content. -/
def knownPeers (search : Search) (infoHash : InfoHash) : Nat := (search.peersOf infoHash).size

/-- How many automatic rounds a content has left. -/
def budget (search : Search) (infoHash : InfoHash) : Nat := search.budgets[infoHash]?.getD 0

/-- The bounds of a selection that the settings give. -/
def limits (settings : Settings) : SelectionLimits where
  fanOut := settings.fanOut
  maxPending := settings.maxPending
  cooldown := settings.cooldown

end Search

end PeerDiscovery
