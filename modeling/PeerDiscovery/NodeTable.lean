import PeerDiscovery.Contact
import PeerDiscovery.KnownNode

/-!
# The node table

Every node ever heard of, at most one for each address, in the order in which they came in. Nodes
are never removed.
-/

namespace PeerDiscovery

/-- What is left to chance: the number that the queries to a node start with, and the order in which
the table is walked, which decides between nodes of equal rank. -/
structure Chance where
  /-- The first transaction number for each address. -/
  firstTransaction : Address → UInt16
  /-- Where an address comes when a table that holds the listed addresses is walked. -/
  place : List Address → Address → Nat

/-- A choice in which a seed scatters the first numbers over the addresses, and nodes are walked in
the order in which they came in. -/
def Chance.ofSeed (seed : UInt16) : Chance where
  firstTransaction address :=
    address.key.foldl (fun number part => (number + UInt16.ofNat part) * 40503) seed
  place _ _ := 0

/-- Nodes with distinct addresses. -/
structure NodeTable where
  nodes : List KnownNode
  distinct : (nodes.map KnownNode.address).Nodup

namespace NodeTable

/-- The table without nodes. -/
def empty : NodeTable := ⟨[], List.nodup_nil⟩

/-- The addresses of the nodes. -/
def addresses (table : NodeTable) : List Address := table.nodes.map KnownNode.address

/-- How many nodes are known. -/
def size (table : NodeTable) : Nat := table.nodes.length

def isEmpty (table : NodeTable) : Bool := table.nodes.isEmpty

/-- How many nodes ever answered. -/
def reachableCount (table : NodeTable) : Nat := table.nodes.countP KnownNode.reachable

/-- The node of an address. -/
def get? (table : NodeTable) (address : Address) : Option KnownNode :=
  table.nodes.find? fun node => node.address = address

/-- Whether the node of an address is known. -/
def contains (table : NodeTable) (address : Address) : Bool := table.addresses.contains address

/-- Adds a node, unless its address is known. -/
def add (table : NodeTable) (node : KnownNode) : NodeTable :=
  if known : table.contains node.address then table
  else
    { nodes := table.nodes ++ [node]
      distinct := by
        rw [List.map_append, List.nodup_append]
        refine ⟨table.distinct, by simp, ?_⟩
        intro address old other new
        obtain rfl : other = node.address := by simpa using new
        rintro rfl
        exact known (by simpa [contains, addresses] using old) }

theorem map_replace_addresses (nodes : List KnownNode) (node : KnownNode) :
    (nodes.map fun old => if old.address = node.address then node else old).map
      KnownNode.address = nodes.map KnownNode.address := by
  rw [List.map_map]
  apply List.map_congr_left
  intro old _
  by_cases same : old.address = node.address
  · simp [same]
  · simp [same]

/-- Puts a node in place of the one of the same address. -/
def replace (table : NodeTable) (node : KnownNode) : NodeTable where
  nodes := table.nodes.map fun old => if old.address = node.address then node else old
  distinct := by
    rw [map_replace_addresses]
    exact table.distinct

/-- Adds the node of a contact, unless its address is known. -/
def addContact (chance : Chance) (table : NodeTable) (contact : Contact) : NodeTable :=
  table.add (.new (some contact.id) contact.address (chance.firstTransaction contact.address))

/-- Adds a node without identifier, unless its address is known. -/
def addAddress (chance : Chance) (table : NodeTable) (address : Address) : NodeTable :=
  table.add (.new none address (chance.firstTransaction address))

/-- The nodes in the order in which the table is walked. -/
def walk (chance : Chance) (table : NodeTable) : List KnownNode :=
  table.nodes.mergeSort fun a b =>
    chance.place table.addresses a.address ≤ chance.place table.addresses b.address

end NodeTable

end PeerDiscovery
