import PeerDiscovery.Proofs.KnownNode.Minting
import PeerDiscovery.Proofs.Search.Counting

/-!
# Failing to join the network

A search that does not find its router has done nothing yet. A search whose ping to the router
cannot be sent has already recorded it: a query is recorded before its datagram goes out and stays
open until it is answered, whatever becomes of the datagram. So the two ways to fail differ in what
they leave behind (`Search.fails_with`), and after the second one the search is the one that a sent
ping leads to, but for the count of pings.
-/

namespace PeerDiscovery

/-! ## Nodes that are known or join -/

namespace NodeTable

/-- The node of an address, as it is in the table or as it would join it. -/
def nodeAt (chance : Chance) (table : NodeTable) (address : Address) : KnownNode :=
  (table.get? address).getD (.new none address (chance.firstTransaction address))

variable {chance : Chance} {table : NodeTable} {address : Address}

theorem address_nodeAt : (table.nodeAt chance address).address = address := by
  unfold nodeAt
  cases found : table.get? address with
  | none => rfl
  | some node => exact (get?_eq_some_iff.mp found).2

theorem get?_addAddress (other : Address) :
    (table.addAddress chance address).get? other =
      if address = other then some (table.nodeAt chance address) else table.get? other := by
  cases found : table.get? address with
  | none =>
    rw [addAddress, get?_add found, nodeAt, found]
    rfl
  | some node =>
    rw [Search.addAddress_of_known found, nodeAt, found]
    split
    · rename_i same
      rw [← same, found]
      rfl
    · rfl

end NodeTable

/-! ## Pinging in vain -/

/-- A search after a ping to the node of an address that was recorded and could not be sent. The
node is known and waits for the answer, and the ping is not counted; nothing else happened. -/
structure PingedInVain (setup : Setup) (address : Address) (transaction : UInt16)
    (search next : Search) : Prop where
  free : transaction ∉ (search.table.nodeAt setup.chance address).pending
  recorded : ∃ asked, next.table.get? address = some asked ∧
    (search.table.nodeAt setup.chance address).Records ⟨transaction, .ping, none⟩ asked
  others : ∀ other, other ≠ address → next.table.get? other = search.table.get? other
  found : next.found = search.found
  budgets : next.budgets = search.budgets
  stats : next.stats = { search.stats with
    nodesCreated := search.stats.nodesCreated + if search.table.contains address then 0 else 1 }

namespace Search

section Failing

variable {setup : Setup} {resolve : Resolver} {search next : Search} {outcome : Outcome}
  {address : Address} {router : String} {others : List Address}

/-- The search that pings the router of an address. -/
def meeting (search : Search) (address : Address) : Search :=
  { search with stats.nodesCreated :=
      search.stats.nodesCreated + if search.table.contains address then 0 else 1 }

theorem pingedInVain {transaction : UInt16}
    (opened : (search.meeting address).openQuery? setup address .ping none =
      some (transaction, next)) :
    PingedInVain setup address transaction search next := by
  obtain ⟨node, asked, met, recorded, rfl⟩ := openQuery?_eq_some_iff.mp opened
  change (search.table.addAddress setup.chance address).get? address = some node at met
  rw [NodeTable.get?_addAddress, if_pos rfl, Option.some.injEq] at met
  subst met
  have own : asked.address = address :=
    (KnownNode.address_of_ask? recorded).trans NodeTable.address_nodeAt
  refine ⟨?_, ⟨asked, ?_, KnownNode.records_of_ask? recorded⟩, ?_, rfl, rfl, rfl⟩
  · rw [Std.ExtTreeMap.mem_iff_isSome_getElem?, KnownNode.pending_of_ask? recorded]
    exact Bool.false_ne_true
  · change ((search.table.addAddress setup.chance address).replace asked).get? address = some asked
    rw [NodeTable.get?_replace, if_pos own, NodeTable.get?_addAddress, if_pos rfl]
    rfl
  · intro other different
    change ((search.table.addAddress setup.chance address).replace asked).get? other = _
    rw [NodeTable.get?_replace, own, if_neg different.symm, NodeTable.get?_addAddress,
      if_neg different.symm]

/-- A router that is found is pinged, and only then does it matter whether sending fails. -/
theorem bootstrap?_of_resolve (chosen : setup.settings.router = some router)
    (resolved : resolve router = some (address :: others)) (sendFails : Bool) :
    search.bootstrap? setup resolve sendFails =
      ((search.meeting address).openQuery? setup address .ping none).map fun opened =>
        if sendFails then
          (.error .sendFailed, { search := opened.2, activities := [.ping address opened.1] })
        else
          (.ok (), {
            search := { opened.2 with stats.pingsSent := opened.2.stats.pingsSent + 1 }
            activities := [.ping address opened.1] }) := by
  unfold bootstrap?
  simp only [chosen, resolved]
  change ((search.meeting address).openQuery? setup address .ping none >>= _) = _
  cases (search.meeting address).openQuery? setup address .ping none with
  | none => rfl
  | some opened => cases sendFails <;> rfl

/-! ## Failing -/

/-- What a search that did not join the network has done, for each reason. -/
def FailsWith (setup : Setup) (resolve : Resolver) (search : Search) (outcome : Outcome) :
    BootstrapError → Prop
  | .lookupFailed => outcome = { search } ∧
    ∃ router, setup.settings.router = some router ∧ resolve router = none
  | .noAddress router => outcome = { search } ∧
    setup.settings.router = some router ∧ resolve router = some []
  | .sendFailed => ∃ router address others transaction,
    setup.settings.router = some router ∧ resolve router = some (address :: others) ∧
      outcome = { search := outcome.search, activities := [.ping address transaction] } ∧
      PingedInVain setup address transaction search outcome.search ∧
      search.bootstrap? setup resolve false = some (.ok (), { outcome with
        search.stats.pingsSent := outcome.search.stats.pingsSent + 1 })

/-- A search that fails to join the network is unchanged, unless its ping could not be sent. -/
theorem fails_with {sendFails : Bool} {error : BootstrapError}
    (failed : search.bootstrap? setup resolve sendFails = some (.error error, outcome)) :
    FailsWith setup resolve search outcome error := by
  cases chosen : setup.settings.router with
  | none =>
    simp only [bootstrap?, chosen] at failed
    cases failed
  | some router =>
    cases resolved : resolve router with
    | none =>
      simp only [bootstrap?, chosen, resolved] at failed
      cases failed
      exact ⟨rfl, router, chosen, resolved⟩
    | some addresses =>
      cases addresses with
      | nil =>
        simp only [bootstrap?, chosen, resolved] at failed
        cases failed
        exact ⟨rfl, chosen, resolved⟩
      | cons address others =>
        rw [bootstrap?_of_resolve chosen resolved] at failed
        obtain ⟨⟨transaction, opened⟩, opening, same⟩ := Option.map_eq_some_iff.mp failed
        cases sendFails with
        | false => cases same
        | true =>
          cases same
          refine ⟨router, address, others, transaction, chosen, resolved, rfl,
            pingedInVain opening, ?_⟩
          rw [bootstrap?_of_resolve chosen resolved, opening]
          rfl

end Failing

namespace Joining

/-- A setup whose router is given by its address. -/
def setup : Setup where
  settings := { ourId := ⟨List.replicate 20 5, rfl⟩, port := 0, router := some "10.9.9.9:6881" }
  chance := .ofSeed 65535

/-- A setup whose router is given by a name. -/
def strayed : Setup where
  settings := { setup.settings with router := some Default.router }
  chance := setup.chance

theorem exists_unsent :
    ∃ outcome, Search.start.bootstrap? setup .literal true = some (.error .sendFailed, outcome) ∧
      outcome.search.table.size = 1 ∧ outcome.search.table.openCount = 1 ∧
      outcome.search.stats.nodesCreated = 1 := by
  have told : (Search.start.bootstrap? setup .literal true).map (fun joined =>
      (joined.1, joined.2.search.table.size, joined.2.search.table.openCount,
        joined.2.search.stats.nodesCreated)) = some (.error .sendFailed, 1, 1, 1) := by
    decide +kernel
  obtain ⟨⟨result, outcome⟩, failed, same⟩ := Option.map_eq_some_iff.mp told
  simp only [Prod.mk.injEq] at same
  obtain ⟨rfl, size, waiting, created⟩ := same
  exact ⟨outcome, failed, size, waiting, created⟩

end Joining

/-- Where no name is known nothing is done for a router with a name; a ping to the other router is
recorded, sent or not. -/
theorem fails_with_sample :
    FailsWith Joining.strayed .literal .start { search := .start } .lookupFailed ∧
      ∃ outcome, Search.start.bootstrap? Joining.setup .literal true =
          some (.error .sendFailed, outcome) ∧
        FailsWith Joining.setup .literal .start outcome .sendFailed := by
  constructor
  · have unknown : Resolver.literal Default.router = none := by decide +kernel
    have failed : Search.start.bootstrap? Joining.strayed .literal false =
        some (.error .lookupFailed, { search := .start }) := by
      simp only [bootstrap?, Joining.strayed, unknown]
    exact fails_with failed
  · obtain ⟨outcome, failed, -⟩ := Joining.exists_unsent
    exact ⟨outcome, failed, fails_with failed⟩

/-- A search that cannot send its first ping knows a node, counts it, and waits for an answer. -/
theorem changed_by_failure :
    ∃ outcome, Search.start.bootstrap? Joining.setup .literal true =
        some (.error .sendFailed, outcome) ∧
      Search.start.table.size = 0 ∧ outcome.search.table.size = 1 ∧
      Search.start.table.openCount = 0 ∧ outcome.search.table.openCount = 1 ∧
      Search.start.stats.nodesCreated = 0 ∧ outcome.search.stats.nodesCreated = 1 := by
  obtain ⟨outcome, failed, size, waiting, created⟩ := Joining.exists_unsent
  exact ⟨outcome, failed, rfl, size, rfl, waiting, rfl, created⟩

end Search

end PeerDiscovery
