import PeerDiscovery.Identifier.Metric
import PeerDiscovery.NodeTable

/-!
# Whom to ask

The nodes to ask about a content are the closest ones among those that may be asked: nodes without
too many open queries, without an open query about the content, and not asked about it lately.
-/

namespace PeerDiscovery

/-- The bounds of a selection. -/
structure SelectionLimits where
  fanOut : Nat
  maxPending : Nat
  cooldown : Span

namespace Selection

/-- The rank of a node relative to a content. -/
def rank (infoHash : InfoHash) (node : KnownNode) : Rank := Rank.of infoHash node.id

/-- Nodes in ascending rank; nodes of equal rank keep their order. -/
def sortByRank (infoHash : InfoHash) (nodes : List KnownNode) : List KnownNode :=
  nodes.mergeSort fun a b => (compare (rank infoHash a) (rank infoHash b)).isLE

/-- How long ago a node was last heard of. -/
def silence (now : Moment) (node : KnownNode) : Span :=
  match node.lastContact with
  | some earlier => Span.between earlier now
  | none => Span.longest

/-- Whether a node may be asked about a content. -/
def isEligible (limits : SelectionLimits) (infoHash : InfoHash) (now : Moment)
    (node : KnownNode) : Bool :=
  node.pendingCount ≤ limits.maxPending
    && !node.awaitsPeersOf infoHash
    && (!node.askedPeersOf infoHash || limits.cooldown ≤ silence now node)

/-- The wording for a selection from no nodes at all. -/
def noKnownNodes : String := "no remote nodes are known yet"

/-- The addresses of the closest nodes that may be asked, as many as the limits allow; there is no
selection from no nodes at all. -/
def select? (limits : SelectionLimits) (infoHash : InfoHash) (now : Moment)
    (nodes : List KnownNode) : Option (List Address) :=
  if nodes.isEmpty then none
  else
    let eligible := nodes.filter (isEligible limits infoHash now)
    some (((sortByRank infoHash eligible).take limits.fanOut).map KnownNode.address)

end Selection

end PeerDiscovery
