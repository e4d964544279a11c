import PeerDiscovery.Bytes

/-!
# Hexadecimal text

Octets are written as two lower-case hexadecimal digits each. Reading takes digits of either case
and refuses everything else, an odd number of digits included.
-/

namespace PeerDiscovery.Hex

/-- The lower-case digit of a value below sixteen. -/
def digit (value : Nat) : Char := Nat.digitChar value

/-- The value of a hexadecimal digit of either case. -/
def value? (c : Char) : Option Nat :=
  if '0' ≤ c ∧ c ≤ '9' then some (c.toNat - '0'.toNat)
  else if 'a' ≤ c ∧ c ≤ 'f' then some (c.toNat - 'a'.toNat + 10)
  else if 'A' ≤ c ∧ c ≤ 'F' then some (c.toNat - 'A'.toNat + 10)
  else none

/-- The two digits of an octet. -/
def ofOctet (octet : UInt8) : List Char := [digit (octet.toNat / 16), digit (octet.toNat % 16)]

/-- Two lower-case digits for every octet. -/
def encode (bytes : Bytes) : List Char := bytes.flatMap ofOctet

/-- The octets that pairs of digits stand for. -/
def decode? : List Char → Option Bytes
  | [] => some []
  | [_] => none
  | high :: low :: rest => do
    let h ← value? high
    let l ← value? low
    let octets ← decode? rest
    return UInt8.ofNat (16 * h + l) :: octets

/-- The hexadecimal text of an octet string. -/
def text (bytes : Bytes) : String := String.ofList (encode bytes)

theorem length_encode (bytes : Bytes) : (encode bytes).length = 2 * bytes.length := by
  induction bytes with
  | nil => rfl
  | cons octet rest ih =>
    rw [encode, List.flatMap_cons, List.length_append, ← encode, ih]
    simp only [ofOctet, List.length_cons, List.length_nil]
    omega

end PeerDiscovery.Hex
