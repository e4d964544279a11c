import PeerDiscovery.Identifier
import PeerDiscovery.Time

/-!
# Settings

What a client may choose, with the defaults of a client that only asks the network for peers.
-/

namespace PeerDiscovery

/-! ## Defaults -/

namespace Default

/-- How the command line client names itself. -/
def userAgent : String := "trackerless/0.1.0"

/-- The port to listen on. -/
def port : UInt16 := 6881

/-- The well-known node that is pinged once at the start. -/
def router : String := "router.bittorrent.com:6881"

/-- The largest datagram that is taken in, in octets. -/
def maxDatagram : Nat := 65535

/-- Nodes asked in one round. -/
def fanOut : Nat := 5

/-- With fewer known peers than this, every newly learned node starts another round. -/
def wantedPeers : Nat := 100

/-- A node with more open queries than this is passed over. -/
def maxPending : Nat := 5

/-- How long a node is not asked again about the same content. -/
def cooldown : Span := 30 * 60 * Span.second

/-- Automatic rounds for a content between two requests for it. -/
def maxExpansions : Nat := 64

/-- Batches of peers that may wait for the client. -/
def resultCapacity : Nat := 1

/-- Hints that may wait, and requests that may wait. -/
def commandCapacity : Nat := 64

/-- Datagrams that may wait between the socket and the search. -/
def packetCapacity : Nat := 256

end Default

/-- The choices of a client. -/
structure Settings where
  /-- Our own identifier. -/
  ourId : Identifier
  /-- The port to listen on; 0 leaves the choice to the system. -/
  port : UInt16
  /-- The node, given as host and port, that is pinged before anything else, if there is one. -/
  router : Option String := some Default.router
  fanOut : Nat := Default.fanOut
  wantedPeers : Nat := Default.wantedPeers
  maxPending : Nat := Default.maxPending
  cooldown : Span := Default.cooldown
  maxExpansions : Nat := Default.maxExpansions
  resultCapacity : Nat := Default.resultCapacity
  commandCapacity : Nat := Default.commandCapacity

/-- Why settings are refused. -/
inductive SettingsError where
  | noCommandCapacity
  | noResultCapacity
deriving DecidableEq, Repr

/-- The wording of each error. -/
def SettingsError.message : SettingsError → String
  | .noCommandCapacity => "invalid config: command_capacity must be at least 1"
  | .noResultCapacity => "invalid config: result_capacity must be at least 1"

namespace Settings

/-- Gives the results room for at least one batch. -/
def withResultCapacity (settings : Settings) (capacity : Nat) : Settings :=
  { settings with resultCapacity := max capacity 1 }

/-- Gives the commands room for at least one of each kind. -/
def withCommandCapacity (settings : Settings) (capacity : Nat) : Settings :=
  { settings with commandCapacity := max capacity 1 }

/-- Settings under which nothing could ever be queued are refused. -/
def check (settings : Settings) : Except SettingsError Unit :=
  if settings.commandCapacity = 0 then .error .noCommandCapacity
  else if settings.resultCapacity = 0 then .error .noResultCapacity
  else .ok ()

end Settings

end PeerDiscovery
