/-!
# Decimal numerals

Writing gives the shortest digits. Reading takes an optional sign and digits, leading zeros
allowed, and refuses a number outside the bounds that the reader asks for. Characters are checked
from the left, so of two faults the one met first is reported.
-/

namespace PeerDiscovery.Numeral

/-- Why a text is no number of the wanted range. -/
inductive Fault where
  | empty
  | invalidDigit
  | tooLarge
  | tooSmall
deriving DecidableEq, Repr

/-- The wording of each fault. -/
def Fault.message : Fault → String
  | .empty => "cannot parse integer from empty string"
  | .invalidDigit => "invalid digit found in string"
  | .tooLarge => "number too large to fit in target type"
  | .tooSmall => "number too small to fit in target type"

/-- The largest value of an unsigned 16-bit number. -/
def max16 : Nat := UInt16.size - 1

/-- The largest value of an unsigned 32-bit number. -/
def max32 : Nat := UInt32.size - 1

/-- The largest value of an unsigned 64-bit number. -/
def max64 : Nat := UInt64.size - 1

/-- The largest value of a signed 64-bit number. -/
def maxInt64 : Nat := UInt64.size / 2 - 1

/-- The value of a decimal digit. -/
def digit? (c : Char) : Option Nat := if c.isDigit then some (c.toNat - '0'.toNat) else none

/-- Reads digits behind the value `value` read so far; `overflow` reports a value above `limit`. -/
def magnitude (limit : Nat) (overflow : Fault) (value : Nat) : List Char → Except Fault Nat
  | [] => .ok value
  | c :: rest =>
    match digit? c with
    | none => .error .invalidDigit
    | some d =>
      if limit < 10 * value + d then .error overflow
      else magnitude limit overflow (10 * value + d) rest

/-- Reads a number from 0 to `limit`, with an optional plus sign. -/
def readNat (limit : Nat) : List Char → Except Fault Nat
  | [] => .error .empty
  | ['+'] => .error .invalidDigit
  | '+' :: digits => magnitude limit .tooLarge 0 digits
  | digits => magnitude limit .tooLarge 0 digits

/-- Reads a signed 64-bit number, with an optional sign. -/
def readInt64 : List Char → Except Fault Int
  | [] => .error .empty
  | ['+'] => .error .invalidDigit
  | ['-'] => .error .invalidDigit
  | '+' :: digits => (magnitude maxInt64 .tooLarge 0 digits).map Int.ofNat
  | '-' :: digits => (magnitude (maxInt64 + 1) .tooSmall 0 digits).map fun n => -Int.ofNat n
  | digits => (magnitude maxInt64 .tooLarge 0 digits).map Int.ofNat

/-- The decimal digits of a natural number. -/
def ofNat (n : Nat) : List Char := Nat.toDigits 10 n

/-- The decimal digits of an integer, behind a minus sign where it is negative. -/
def ofInt : Int → List Char
  | .ofNat n => ofNat n
  | .negSucc n => '-' :: ofNat (n + 1)

end PeerDiscovery.Numeral
