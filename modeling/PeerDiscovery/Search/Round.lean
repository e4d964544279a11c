import PeerDiscovery.Search

/-!
# Asking nodes

A round asks the closest nodes that may be asked about a content. A request for peers holds a round
and refills the budget of automatic rounds; a hint adds a node and pings it, once.
-/

namespace PeerDiscovery.Search

/-- Opens a query at the node of an address, which joins the table if it was unknown. -/
def openQuery? (setup : Setup) (search : Search) (address : Address) (method : Method)
    (infoHash : Option InfoHash) : Option (UInt16 × Search) := do
  let table := search.table.addAddress setup.chance address
  let node ← table.get? address
  let (transaction, node) ← node.ask? method infoHash
  return (transaction, { search with table := table.replace node })

/-- Pings the node of an address. -/
def ping? (setup : Setup) (search : Search) (address : Address) : Option Outcome := do
  let (transaction, search) ← search.openQuery? setup address .ping none
  return {
    search := { search with stats.pingsSent := search.stats.pingsSent + 1 }
    activities := [.ping address transaction] }

/-- Asks the nodes of the addresses, one after another, about a content. -/
def askAll? (setup : Setup) (infoHash : InfoHash) :
    List Address → Search → Option (List (Address × UInt16) × Search)
  | [], search => some ([], search)
  | address :: rest, search => do
    let (transaction, search) ← search.openQuery? setup address .getPeers (some infoHash)
    let search := { search with stats.getPeersSent := search.stats.getPeersSent + 1 }
    let (asked, search) ← askAll? setup infoHash rest search
    return ((address, transaction) :: asked, search)

/-- Holds a round for a content. With an empty table nobody is asked. -/
def round? (setup : Setup) (now : Moment) (infoHash : InfoHash) (search : Search) :
    Option Outcome := do
  let targets := (Selection.select? (limits setup.settings) infoHash now
    (search.table.walk setup.chance)).getD []
  let (asked, search) ← askAll? setup infoHash targets search
  return { search, activities := [.round now infoHash asked] }

/-- Takes a request for peers: the content gets its full budget, and a round is held. -/
def request? (setup : Setup) (now : Moment) (infoHash : InfoHash) (search : Search) :
    Option Outcome :=
  round? setup now infoHash
    { search with budgets := search.budgets.insert infoHash setup.settings.maxExpansions }

/-- Takes a hint: a node that was unknown joins the table and is pinged. -/
def hint? (setup : Setup) (contact : Contact) (search : Search) : Option Outcome :=
  if search.table.contains contact.address then some { search }
  else
    ping? setup
      { search with
        table := search.table.addContact setup.chance contact
        stats.nodesCreated := search.stats.nodesCreated + 1 }
      contact.address

end PeerDiscovery.Search
