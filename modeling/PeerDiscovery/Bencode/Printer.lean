import PeerDiscovery.Bencode.Value
import PeerDiscovery.Text.Numeral

/-!
# Writing bencode

The canonical form: shortest digits in numbers and lengths, entries in the order of the dictionary.
-/

namespace PeerDiscovery.Bencode

/-- An octet string behind its length and a colon. -/
def printBytes (octets : Bytes) : Bytes :=
  Bytes.ofChars (Numeral.ofNat octets.length) ++ ':'.toUInt8 :: octets

mutual

/-- The octets of a value. -/
def Value.print : Value → Bytes
  | .integer number => 'i'.toUInt8 :: Bytes.ofChars (Numeral.ofInt number.toInt) ++ ['e'.toUInt8]
  | .bytes octets => printBytes octets
  | .list items => 'l'.toUInt8 :: printItems items ++ ['e'.toUInt8]
  | .dictionary entries => 'd'.toUInt8 :: printEntries entries ++ ['e'.toUInt8]

/-- The items one after another. -/
def printItems : List Value → Bytes
  | [] => []
  | item :: rest => item.print ++ printItems rest

/-- The keys and values one after another. -/
def printEntries : List (Bytes × Value) → Bytes
  | [] => []
  | (key, value) :: rest => printBytes key ++ value.print ++ printEntries rest

end

end PeerDiscovery.Bencode
