import PeerDiscovery.Address.Compact
import PeerDiscovery.Bencode.Printer
import PeerDiscovery.Krpc.Method

/-!
# Messages

A message is a query, a response or an error, under a transaction identifier chosen by the side
that asked. `Message.value` is its bencode dictionary. `Message.WellFormed` singles out the messages
that read back from their written form.
-/

namespace PeerDiscovery

open Bencode (Value Dictionary)

/-- What a query asks. -/
inductive Request where
  | ping
  | getPeers (infoHash : InfoHash)
  /-- A method that is neither sent nor answered. -/
  | other (method : String)
deriving DecidableEq

/-- The name of the method of a request. -/
def Request.method : Request → String
  | .ping => Method.ping.name
  | .getPeers _ => Method.getPeers.name
  | .other method => method

/-- What a response carries. It does not tell which query it answers, so all but the identifier of
the responder is optional. -/
structure Reply where
  id : Identifier
  token : Option Bytes
  /-- Peers of a content. -/
  values : Option (List Address)
  /-- A compact list of contacts. -/
  nodes : Option Bytes
deriving DecidableEq

/-- The three kinds of message. -/
inductive Body where
  | query (request : Request)
  | response (reply : Reply)
  | error (code : Int64) (text : String)
deriving DecidableEq

/-- A message of the protocol. -/
structure Message where
  transaction : Bytes
  sender : Option Identifier
  body : Body
deriving DecidableEq

namespace Message

/-! ## Building -/

/-- A ping. -/
def ping (transaction : Bytes) (ourId : Identifier) : Message :=
  ⟨transaction, some ourId, .query .ping⟩

/-- A query for the peers of a content. -/
def getPeers (transaction : Bytes) (ourId : Identifier) (infoHash : InfoHash) : Message :=
  ⟨transaction, some ourId, .query (.getPeers infoHash)⟩

/-- A response. Its sender is the responder. -/
def response (transaction : Bytes) (reply : Reply) : Message :=
  ⟨transaction, some reply.id, .response reply⟩

/-- An error message. -/
def error (transaction : Bytes) (code : Int64) (text : String) : Message :=
  ⟨transaction, none, .error code text⟩

/-! ## Written form -/

/-- The entry of an optional octet string, if it is there. -/
def optionalEntry (key : String) (octets : Option Bytes) : List (Bytes × Value) :=
  (octets.map fun b => (Bytes.ofText key, Value.bytes b)).toList

/-- The arguments of a query. -/
def arguments (sender : Option Identifier) (request : Request) : Dictionary Value :=
  Dictionary.ofList <|
    optionalEntry "id" (sender.map Identifier.bytes) ++
    match request with
    | .getPeers infoHash => [(Bytes.ofText "info_hash", .bytes infoHash.bytes)]
    | _ => []

/-- The fields of a response. -/
def fields (reply : Reply) : Dictionary Value :=
  Dictionary.ofList <|
    (Bytes.ofText "id", .bytes reply.id.bytes) ::
    optionalEntry "token" reply.token ++
    (reply.values.map fun peers =>
      (Bytes.ofText "values", Value.list (peers.map fun peer => .bytes peer.compact))).toList ++
    optionalEntry "nodes" reply.nodes

/-- The bencode dictionary of a message. -/
def value (message : Message) : Value :=
  .dictionary <| Dictionary.ofList <|
    (Bytes.ofText "t", .bytes message.transaction) ::
    match message.body with
    | .query request =>
      [(Bytes.ofText "y", .text "q"), (Bytes.ofText "q", .text request.method),
        (Bytes.ofText "a", .dictionary (arguments message.sender request))]
    | .response reply =>
      [(Bytes.ofText "y", .text "r"), (Bytes.ofText "r", .dictionary (fields reply))]
    | .error code text =>
      [(Bytes.ofText "y", .text "e"), (Bytes.ofText "e", .list [.integer code, .text text])]

/-- The octets of a message. -/
def print (message : Message) : Bytes := message.value.print

/-! ## Well-formed messages -/

/-- A message that reads back as itself: a query under its own name, a response whose sender is the
responder and whose peers have neither flow label nor scope, or an error without a sender. -/
def WellFormed (message : Message) : Prop :=
  match message.body with
  | .query .ping => True
  | .query (.getPeers _) => True
  | .query (.other method) => method ≠ Method.ping.name ∧ method ≠ Method.getPeers.name
  | .response reply =>
    message.sender = some reply.id ∧ ∀ peers, reply.values = some peers →
      ∀ peer ∈ peers, peer.unscoped = peer
  | .error _ _ => message.sender = none

end Message

end PeerDiscovery
