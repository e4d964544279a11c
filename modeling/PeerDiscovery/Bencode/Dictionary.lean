import PeerDiscovery.Bytes

/-!
# Dictionaries with octet-string keys

A dictionary is an association list whose keys ascend in the lexicographic order of octets, a
shorter key before its extensions. `Ascending` is that rule; `insert` keeps it and lets the last
value of a key win.
-/

namespace PeerDiscovery.Bencode

/-- The entries of a dictionary, keys in ascending order. -/
abbrev Dictionary (α : Type) := List (Bytes × α)

namespace Dictionary

variable {α : Type}

/-- The value under a key. -/
def get? (entries : Dictionary α) (key : Bytes) : Option α := entries.lookup key

/-- Puts a value under a key at its place in the order, over the value that was there. -/
def insert (key : Bytes) (value : α) : Dictionary α → Dictionary α
  | [] => [(key, value)]
  | (k, v) :: rest =>
    match compare key k with
    | .lt => (key, value) :: (k, v) :: rest
    | .eq => (key, value) :: rest
    | .gt => (k, v) :: insert key value rest

/-- The dictionary of a list of entries in any order; the last of equal keys wins. -/
def ofList (entries : List (Bytes × α)) : Dictionary α :=
  entries.foldl (fun dictionary entry => dictionary.insert entry.1 entry.2) []

/-- The keys ascend strictly. -/
def Ascending (entries : Dictionary α) : Prop :=
  entries.Pairwise fun a b => compare a.1 b.1 = .lt

end Dictionary

end PeerDiscovery.Bencode
