import PeerDiscovery.Bencode.Dictionary
import PeerDiscovery.Text.Utf8

/-!
# Bencode values

The four kinds of value, their views, and their nesting depth. `Value.Ordered` says that the keys
of every dictionary in a value ascend.
-/

namespace PeerDiscovery.Bencode

/-- A bencode value. The octet strings are usually not text: identifiers, tokens and compact
addresses travel in them. -/
inductive Value where
  | integer (number : Int64)
  | bytes (octets : Bytes)
  | list (items : List Value)
  | dictionary (entries : List (Bytes × Value))
deriving Inhabited

namespace Value

/-- The octet string of a text. -/
def text (content : String) : Value := .bytes (Utf8.encode content)

/-! ## Views -/

def integer? : Value → Option Int64
  | .integer number => some number
  | _ => none

def bytes? : Value → Option Bytes
  | .bytes octets => some octets
  | _ => none

def list? : Value → Option (List Value)
  | .list items => some items
  | _ => none

def dictionary? : Value → Option (Dictionary Value)
  | .dictionary entries => some entries
  | _ => none

/-- The text of an octet string that is UTF-8. -/
def text? (value : Value) : Option String := value.bytes?.bind Utf8.decode?

/-- The value under a key of a dictionary. -/
def get? (value : Value) (key : Bytes) : Option Value :=
  value.dictionary?.bind fun entries => entries.get? key

/-! ## Depth and order -/

mutual

/-- How many containers deep the deepest element of a value lies: 0 for a value without elements. -/
def nesting : Value → Nat
  | .integer _ => 0
  | .bytes _ => 0
  | .list items => nestingOfItems items
  | .dictionary entries => nestingOfEntries entries

/-- One more than the deepest of the items, 0 if there is none. -/
def nestingOfItems : List Value → Nat
  | [] => 0
  | item :: rest => max (item.nesting + 1) (nestingOfItems rest)

/-- One more than the deepest of the values, 0 if there is none. -/
def nestingOfEntries : List (Bytes × Value) → Nat
  | [] => 0
  | (_, value) :: rest => max (value.nesting + 1) (nestingOfEntries rest)

end

mutual

/-- Every dictionary in the value has ascending keys. -/
def Ordered : Value → Prop
  | .integer _ => True
  | .bytes _ => True
  | .list items => OrderedItems items
  | .dictionary entries => Dictionary.Ascending entries ∧ OrderedEntries entries

/-- Every item is ordered. -/
def OrderedItems : List Value → Prop
  | [] => True
  | item :: rest => item.Ordered ∧ OrderedItems rest

/-- Every value of the entries is ordered. -/
def OrderedEntries : List (Bytes × Value) → Prop
  | [] => True
  | (_, value) :: rest => value.Ordered ∧ OrderedEntries rest

end

end Value

end PeerDiscovery.Bencode
