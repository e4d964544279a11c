import PeerDiscovery.Search.Round

/-!
# Taking in datagrams

A datagram matters only if it is a response of a known node. It then closes the query that it
answers. The answer to a question for peers is used in two steps: first its new peers go to the
client, which may have to wait until the client takes them, and then the nodes it refers to are
followed. `packet?` is both steps together. Time passes in between, and from one reference to the
next: each round that a reference starts reads the clock anew.
-/

namespace PeerDiscovery

/-- What a matched answer brings for a content: its new peers, and the references to nodes that are
still to be followed. -/
structure Delivery where
  infoHash : InfoHash
  fresh : List Address
  nodes : Option Bytes
deriving DecidableEq

/-- The batch of the new peers, if there are any. -/
def Delivery.batch? (delivery : Delivery) : Option Batch :=
  if delivery.fresh.isEmpty then none else some ⟨delivery.infoHash, delivery.fresh⟩

namespace Search

/-! ## The answer -/

/-- The peers that are not in `seen`, each at its first place in the list, and `seen` with them. -/
def freshPeers (seen : AddressSet) : List Address → List Address × AddressSet
  | [] => ([], seen)
  | peer :: rest =>
    if seen.contains peer then freshPeers seen rest
    else
      let (fresh, seen) := freshPeers (seen.insert peer) rest
      (peer :: fresh, seen)

/-- Takes the peers of an answer about a content. -/
def takePeers (search : Search) (infoHash : InfoHash) (reply : Reply) : Search × Delivery :=
  match reply.values with
  | none => (search, ⟨infoHash, [], reply.nodes⟩)
  | some values =>
    let (fresh, seen) := freshPeers (search.peersOf infoHash) values
    ({ search with
        found := search.found.insert infoHash seen
        stats.peersFound := search.stats.peersFound + UInt64.ofNat fresh.length },
      ⟨infoHash, fresh, reply.nodes⟩)

/-- Takes the response of a known node: it gives the node its identifier if that was unknown, and
closes the query that it answers, if there is one. -/
def takeReply (search : Search) (now : Moment) (node : KnownNode) (transaction : Bytes)
    (reply : Reply) : Search × Option Delivery :=
  let node := node.identified reply.id
  match node.resolve? transaction now with
  | none =>
    ({ search with
        table := search.table.replace node
        stats.staleResponses := search.stats.staleResponses + 1 }, none)
  | some (query, node) =>
    let search := { search with
      table := search.table.replace node
      stats.responsesMatched := search.stats.responsesMatched + 1 }
    match query.method, query.infoHash with
    | .getPeers, some infoHash =>
      let (search, delivery) := search.takePeers infoHash reply
      (search, some delivery)
    | _, _ => (search, none)

/-- Takes a datagram. What is no message, comes from an unknown node, or is no response changes
nothing. -/
def receive (now : Moment) (packet : Packet) (search : Search) : Search × Option Delivery :=
  match Message.parse packet.payload, search.table.get? packet.sender with
  | .ok ⟨transaction, _, .response reply⟩, some node =>
    search.takeReply now node transaction reply
  | _, _ => (search, none)

/-! ## The references -/

/-- Holds an automatic round for a content, if it has one left. -/
def expand? (setup : Setup) (now : Moment) (infoHash : InfoHash) (search : Search) :
    Option Outcome :=
  match search.budget infoHash with
  | 0 => some { search }
  | left + 1 =>
    round? setup now infoHash { search with budgets := search.budgets.insert infoHash left }

/-- Follows one reference: a node that was unknown joins the table, and starts an automatic round
while the content has too few peers. -/
def follow? (setup : Setup) (now : Moment) (infoHash : InfoHash) (contact : Contact)
    (search : Search) : Option Outcome :=
  if search.table.contains contact.address then
    some { search := { search with stats.duplicateNodes := search.stats.duplicateNodes + 1 } }
  else
    let search := { search with
      table := search.table.addContact setup.chance contact
      stats.nodesCreated := search.stats.nodesCreated + 1 }
    if search.knownPeers infoHash < setup.settings.wantedPeers then
      expand? setup now infoHash search
    else some { search }

/-- Follows references one after another, each at the next moment that the clock shows. -/
def followAll? (setup : Setup) (clock : Clock) (infoHash : InfoHash) :
    List Contact → Search → Option Outcome
  | [], search => some { search }
  | contact :: rest, search => do
    let first ← follow? setup (clock 0) infoHash contact search
    let others ← followAll? setup clock.rest infoHash rest first.search
    return { others with activities := first.activities ++ others.activities }

/-- The references of a compact list. A list of uneven length refers to nobody. -/
def references (nodes : Option Bytes) : List Contact :=
  match nodes with
  | none => []
  | some bytes => (Contact.listOfCompact bytes).toOption.getD []

/-! ## Both steps -/

/-- Takes a datagram when it is heard, and then follows its references by the clock. -/
def packet? (setup : Setup) (heard : Moment) (clock : Clock) (packet : Packet) (search : Search) :
    Option Outcome :=
  match search.receive heard packet with
  | (search, none) => some { search }
  | (search, some delivery) => do
    let outcome ← followAll? setup clock delivery.infoHash (references delivery.nodes) search
    return { outcome with batch := delivery.batch? }

end Search

end PeerDiscovery
