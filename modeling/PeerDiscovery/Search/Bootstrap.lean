import PeerDiscovery.Search.Round

/-!
# Joining the network

Before anything else a search pings the router of its settings, if there is one, and waits until the
ping is sent. If the router cannot be found or the ping cannot be sent, the search goes on without.
-/

namespace PeerDiscovery

/-- Finds the addresses of a host and port; `none` if the lookup fails. -/
abbrev Resolver := String → Option (List Address)

/-- The resolver that knows no names: only an address given as such is found. -/
def Resolver.literal : Resolver := fun text => (Address.parse? text).map fun address => [address]

/-- Why the router was not pinged. -/
inductive BootstrapError where
  | lookupFailed
  /-- The lookup gave no address. -/
  | noAddress (router : String)
  | sendFailed
deriving DecidableEq, Repr

namespace Search

/-- Pings the router. The ping counts as sent only if sending it does not fail. -/
def bootstrap? (setup : Setup) (resolve : Resolver) (sendFails : Bool) (search : Search) :
    Option (Except BootstrapError Unit × Outcome) :=
  match setup.settings.router with
  | none => some (.ok (), { search })
  | some router =>
    match resolve router with
    | none => some (.error .lookupFailed, { search })
    | some [] => some (.error (.noAddress router), { search })
    | some (address :: _) => do
      let created : UInt64 := if search.table.contains address then 0 else 1
      let search := { search with stats.nodesCreated := search.stats.nodesCreated + created }
      let (transaction, search) ← search.openQuery? setup address .ping none
      let activities : List Activity := [.ping address transaction]
      if sendFails then return (.error .sendFailed, { search, activities })
      else
        let search := { search with stats.pingsSent := search.stats.pingsSent + 1 }
        return (.ok (), { search, activities })

end Search

end PeerDiscovery
