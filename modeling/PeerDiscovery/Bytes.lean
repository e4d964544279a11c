/-!
# Octet strings

Everything that crosses the network is a list of octets. This module fixes that representation,
the octets of a text of small characters, and the two-octet big-endian form of a 16-bit word:
`toWord?_eq_some_iff` says that each word has exactly one such form.
-/

namespace PeerDiscovery

/-- A string of octets. -/
abbrev Bytes := List UInt8

namespace Bytes

/-- The octets of a text made of characters below U+0100, one octet for each character. -/
def ofChars (text : List Char) : Bytes := text.map Char.toUInt8

/-- Each octet as the character of the same number. -/
def toChars (bytes : Bytes) : List Char := bytes.map fun octet => Char.ofNat octet.toNat

/-- The octets of a text made of ASCII characters, for the fixed keys and names of the wire
format. -/
def ofText (text : String) : Bytes := ofChars text.toList

/-- The value of an octet string read as one big-endian number. -/
def toNat (bytes : Bytes) : Nat := bytes.foldl (fun value octet => 256 * value + octet.toNat) 0

/-! ## Big-endian words -/

/-- The two octets of a 16-bit word, the high one first. -/
def ofWord (word : UInt16) : Bytes :=
  [UInt8.ofNat (word.toNat / 256), UInt8.ofNat (word.toNat % 256)]

/-- The 16-bit word whose high octet is `high` and whose low octet is `low`. -/
def toWord (high low : UInt8) : UInt16 := UInt16.ofNat (256 * high.toNat + low.toNat)

/-- The word written in exactly two octets; no other length writes a word. -/
def toWord? : Bytes → Option UInt16
  | [high, low] => some (toWord high low)
  | _ => none

theorem toWord?_ofWord (word : UInt16) : toWord? (ofWord word) = some word := by
  have bound : word.toNat < 65536 := word.toNat_lt
  simp only [ofWord, toWord?, toWord, UInt8.toNat_ofNat', Option.some.injEq]
  apply UInt16.toNat.inj
  rw [UInt16.toNat_ofNat']
  omega

theorem ofWord_toWord (high low : UInt8) : ofWord (toWord high low) = [high, low] := by
  have highBound : high.toNat < 256 := high.toNat_lt
  have lowBound : low.toNat < 256 := low.toNat_lt
  have value : (toWord high low).toNat = 256 * high.toNat + low.toNat := by
    rw [toWord, UInt16.toNat_ofNat']
    omega
  simp only [ofWord, value, List.cons.injEq, and_true]
  constructor <;> apply UInt8.toNat.inj <;> rw [UInt8.toNat_ofNat'] <;> omega

theorem toWord?_eq_some_iff {bytes : Bytes} {word : UInt16} :
    toWord? bytes = some word ↔ bytes = ofWord word := by
  constructor
  · intro read
    match bytes, read with
    | [high, low], read =>
      obtain rfl : toWord high low = word := by simpa [toWord?] using read
      exact (ofWord_toWord high low).symm
  · rintro rfl
    exact toWord?_ofWord word

end Bytes

end PeerDiscovery
