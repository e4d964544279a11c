import PeerDiscovery.Text.Hex

/-!
# Quoted characters

A character from U+0000 to U+00FF between single quotes, as messages about malformed input show it.
The characters that have a short escape use it, other unprintable ones are written by number.
-/

namespace PeerDiscovery.Quoted

/-- Characters below U+0100 that print as nothing: the controls, the no-break space and the soft
hyphen. -/
def isUnprintable (c : Char) : Bool :=
  c.toNat < 0x20 || (0x7F ≤ c.toNat && c.toNat ≤ 0x9F) || c.toNat = 0xA0 || c.toNat = 0xAD

/-- The form of a character inside single quotes. -/
def escape (c : Char) : List Char :=
  if c = '\x00' then ['\\', '0']
  else if c = '\t' then ['\\', 't']
  else if c = '\n' then ['\\', 'n']
  else if c = '\r' then ['\\', 'r']
  else if c = '\'' then ['\\', '\'']
  else if c = '\\' then ['\\', '\\']
  else if isUnprintable c then ['\\', 'u', '\x7b'] ++ Nat.toDigits 16 c.toNat ++ ['\x7d']
  else [c]

/-- The quoted form of a character below U+0100. -/
def text (c : Char) : String := String.ofList ('\'' :: escape c ++ ['\''])

end PeerDiscovery.Quoted
