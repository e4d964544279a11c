import PeerDiscovery.Identifier

/-!
# Remote methods

The four methods of the protocol, and a query as it is remembered by the side that sent it.
-/

namespace PeerDiscovery

/-- A method that one node can call on another. -/
inductive Method where
  | ping
  | getPeers
  | findNode
  | announcePeer
deriving DecidableEq, Repr

namespace Method

/-- The name on the wire. -/
def name : Method → String
  | .ping => "ping"
  | .getPeers => "get_peers"
  | .findNode => "find_node"
  | .announcePeer => "announce_peer"

/-- The method of a name. -/
def ofName? (name : String) : Option Method :=
  [.ping, .getPeers, .findNode, .announcePeer].find? fun method => method.name == name

end Method

/-- A query that was sent: the transaction number it is recognised by, its method, and the content
it asks about. -/
structure Query where
  transaction : UInt16
  method : Method
  infoHash : Option InfoHash
deriving DecidableEq

/-- Whether a query asks for the peers of a content. -/
def Query.asksPeersOf (query : Query) (infoHash : InfoHash) : Bool :=
  query.method = .getPeers && query.infoHash = some infoHash

end PeerDiscovery
