import PeerDiscovery.Address
import PeerDiscovery.Krpc.Method
import PeerDiscovery.Time
import Std.Data.ExtTreeMap

/-!
# Known nodes

What is remembered about one node of the network: its identifier once it is known, whether it ever
answered and when it last did, and every query sent to it. A query is open until a response with
its transaction number comes in; then it moves to the past. Numbers are 16 bits wide and start
anywhere; a new query takes the next number that no open query has.
-/

namespace PeerDiscovery

/-- Queries under their transaction numbers. -/
abbrev QueryMap := Std.ExtTreeMap UInt16 Query compare

/-- What is remembered about a node. -/
structure KnownNode where
  id : Option Identifier
  address : Address
  /-- Whether it ever answered a query. -/
  reachable : Bool
  /-- When it last answered. -/
  lastContact : Option Moment
  /-- The number to try first for the next query. -/
  nextTransaction : UInt16
  pending : QueryMap
  past : QueryMap

namespace KnownNode

/-- A node that nothing was sent to yet; its numbers start at `firstTransaction`. -/
def new (id : Option Identifier) (address : Address) (firstTransaction : UInt16) : KnownNode where
  id
  address
  reachable := false
  lastContact := none
  nextTransaction := firstTransaction
  pending := ∅
  past := ∅

/-! ## Transaction numbers -/

/-- How many transaction numbers there are. -/
def transactionCount : Nat := UInt16.size

/-- The first number from `start` on, in cyclic order, that no query of `taken` has, if one of the
first `tries` numbers is such. -/
def freeFrom? (taken : QueryMap) : (tries : Nat) → (start : UInt16) → Option UInt16
  | 0, _ => none
  | tries + 1, start =>
    if taken.contains start then freeFrom? taken tries (start + 1) else some start

/-- The number for the next query; there is none while every number belongs to an open query. -/
def freeTransaction? (node : KnownNode) : Option UInt16 :=
  freeFrom? node.pending transactionCount node.nextTransaction

/-! ## Queries -/

/-- Opens a query, and gives its number with the node. Without a free number the query can never be
opened. -/
def ask? (node : KnownNode) (method : Method) (infoHash : Option InfoHash) :
    Option (UInt16 × KnownNode) := do
  let transaction ← node.freeTransaction?
  return (transaction, { node with
    nextTransaction := transaction + 1
    pending := node.pending.insert transaction ⟨transaction, method, infoHash⟩ })

/-- Closes the open query of a number: it moves to the past, and the node counts as reachable and
last heard of at `now`. -/
def answer? (node : KnownNode) (transaction : UInt16) (now : Moment) :
    Option (Query × KnownNode) :=
  node.pending[transaction]?.map fun query => (query, { node with
    reachable := true
    lastContact := some now
    pending := node.pending.erase transaction
    past := node.past.insert transaction query })

/-- Closes the open query that a transaction identifier off the wire names. -/
def resolve? (node : KnownNode) (transaction : Bytes) (now : Moment) :
    Option (Query × KnownNode) :=
  (Bytes.toWord? transaction).bind fun number => node.answer? number now

/-- The node with its identifier, which is taken from `id` if it was unknown. -/
def identified (node : KnownNode) (id : Identifier) : KnownNode :=
  { node with id := some (node.id.getD id) }

/-! ## Views -/

/-- How many queries are open. -/
def pendingCount (node : KnownNode) : Nat := node.pending.size

/-- Whether an open query asks for the peers of a content. -/
def awaitsPeersOf (node : KnownNode) (infoHash : InfoHash) : Bool :=
  node.pending.toList.any fun entry => entry.2.asksPeersOf infoHash

/-- Whether a past query asked for the peers of a content. -/
def askedPeersOf (node : KnownNode) (infoHash : InfoHash) : Bool :=
  node.past.toList.any fun entry => entry.2.asksPeersOf infoHash

end KnownNode

end PeerDiscovery
