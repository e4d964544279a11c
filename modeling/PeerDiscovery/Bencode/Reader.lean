import PeerDiscovery.Bencode.Value
import PeerDiscovery.Text.Numeral
import PeerDiscovery.Text.Quoted

/-!
# Reading bencode

`Value.parse` reads exactly one value that spans its whole input. It takes more spellings than the
printer writes: a plus sign, leading zeros in lengths, dictionary keys in any order and more than
once. Values may lie 64 containers deep.

A reading function takes what is left of the input and hands back what is left after it, with a
proof that something was read, so that every loop ends. Positions are counted from the length of
the whole input.
-/

namespace PeerDiscovery.Bencode

/-- Why an input is no bencode value. -/
inductive ReadError where
  /-- The input ends inside a value. -/
  | unexpectedEnd (position : Nat)
  /-- What stands between the marks of an integer is no 64-bit integer. -/
  | invalidInteger (text : String)
  /-- What stands before the colon of an octet string is no length. -/
  | invalidLength (position : Nat)
  /-- No value starts with this character. -/
  | unexpectedCharacter (c : Char) (position : Nat)
  /-- A dictionary key is no octet string. -/
  | keyNotString (position : Nat)
  /-- Octets follow the value. -/
  | trailing (count : Nat)
  /-- A value lies too many containers deep. -/
  | tooDeep
deriving DecidableEq, Repr

/-- The wording of each error. -/
def ReadError.message : ReadError → String
  | .unexpectedEnd position => s!"unexpected end of input at byte {position}"
  | .invalidInteger text => "invalid integer: " ++ text
  | .invalidLength position => s!"invalid string length at byte {position}"
  | .unexpectedCharacter c position =>
    "unexpected character " ++ Quoted.text c ++ s!" at byte {position}"
  | .keyNotString position => s!"dictionary key is not a byte string at byte {position}"
  | .trailing count => s!"{count} bytes of trailing data after value"
  | .tooDeep => "nesting too deep"

/-- How many containers deep a value may lie. -/
def maxNesting : Nat := 64

/-- What was read off the front of an input, and the shorter rest. -/
structure Parsed (α : Type) (input : Bytes) where
  value : α
  rest : Bytes
  shorter : rest.length < input.length

/-- A function that reads something off the front of any input. -/
abbrev Reader (α : Type) := (input : Bytes) → Except ReadError (Parsed α input)

/-- The digits of numbers and lengths. -/
def isDigit (octet : UInt8) : Bool := '0'.toUInt8 ≤ octet && octet ≤ '9'.toUInt8

theorem length_tail_lt {rest tail : Bytes} {mark : UInt8} {p : UInt8 → Bool}
    (found : rest.dropWhile p = mark :: tail) : tail.length < rest.length := by
  have bound : (rest.dropWhile p).length ≤ rest.length := (List.dropWhile_sublist p).length_le
  rw [found, List.length_cons] at bound
  omega

theorem length_drop_lt {rest tail : Bytes} {mark : UInt8} {p : UInt8 → Bool} (count : Nat)
    (found : rest.dropWhile p = mark :: tail) : (tail.drop count).length < rest.length := by
  have shorter := length_tail_lt found
  rw [List.length_drop]
  omega

/-! ## Integers and octet strings -/

/-- The 64-bit integer that a text spells. A leading zero is refused unless it stands alone or
behind a plus sign. -/
def spelledInteger? (text : List Char) : Option Int64 :=
  let digits := match text with
    | '-' :: rest => rest
    | _ => text
  if digits.isEmpty || (digits.head? = some '0' && 1 < text.length) then none
  else match Numeral.readInt64 text with
    | .ok number => some (Int64.ofInt number)
    | .error _ => none

/-- The length that a text spells. -/
def spelledLength? (text : List Char) : Option Nat :=
  (Numeral.readNat Numeral.max64 text).toOption

/-- Reads an integer and its end mark; `size` is the length of the whole input. -/
def readInteger (size : Nat) : Reader Int64 := fun input =>
  match found : input.dropWhile (· != 'e'.toUInt8) with
  | [] => .error (.unexpectedEnd size)
  | _ :: rest =>
    let spelled := input.takeWhile (· != 'e'.toUInt8)
    match spelledInteger? (Bytes.toChars spelled) with
    | none => .error (.invalidInteger (Utf8.decodeLenient spelled))
    | some number => .ok ⟨number, rest, length_tail_lt found⟩

/-- Reads an octet string: its length, a colon, and as many octets. -/
def readBytes (size : Nat) : Reader Bytes := fun input =>
  match found : input.dropWhile (· != ':'.toUInt8) with
  | [] => .error (.unexpectedEnd size)
  | _ :: rest =>
    match spelledLength? (Bytes.toChars (input.takeWhile (· != ':'.toUInt8))) with
    | none => .error (.invalidLength (size - input.length))
    | some length =>
      let octets := rest.take length
      if octets.length < length then .error (.unexpectedEnd size)
      else .ok ⟨octets, rest.drop length, length_drop_lt length found⟩

/-! ## Containers -/

/-- Reads items up to and with the end mark, each by `read`. -/
def readItems (size : Nat) (read : Reader Value) : Reader (List Value)
  | [] => .error (.unexpectedEnd size)
  | first :: rest =>
    if first = 'e'.toUInt8 then .ok ⟨[], rest, Nat.lt_succ_self _⟩
    else do
      let item ← read (first :: rest)
      let others ← readItems size read item.rest
      return ⟨item.value :: others.value, others.rest, Nat.lt_trans others.shorter item.shorter⟩
termination_by input => input.length
decreasing_by exact item.shorter

/-- Reads keys and values up to and with the end mark, each value by `read`, into the entries
`known` that came before. -/
def readEntries (size : Nat) (read : Reader Value) (known : Dictionary Value) :
    Reader (Dictionary Value)
  | [] => .error (.unexpectedEnd size)
  | first :: rest =>
    if first = 'e'.toUInt8 then .ok ⟨known, rest, Nat.lt_succ_self _⟩
    else if !isDigit first then .error (.keyNotString (size - (rest.length + 1)))
    else do
      let key ← readBytes size (first :: rest)
      let item ← read key.rest
      let all ← readEntries size read (known.insert key.value item.value) item.rest
      return ⟨all.value, all.rest,
        Nat.lt_trans all.shorter (Nat.lt_trans item.shorter key.shorter)⟩
termination_by input => input.length
decreasing_by exact Nat.lt_trans item.shorter key.shorter

/-! ## Values -/

/-- Turns what was read behind a mark into a value read with the mark. -/
def Parsed.behind {α : Type} {rest : Bytes} (wrap : α → Value) (mark : UInt8)
    (parsed : Parsed α rest) : Parsed Value (mark :: rest) :=
  ⟨wrap parsed.value, parsed.rest, Nat.lt_succ_of_lt parsed.shorter⟩

/-- Reads one value that may hold `levels - 1` containers within each other. -/
def readValue (size : Nat) : (levels : Nat) → Reader Value
  | 0, _ => .error .tooDeep
  | _ + 1, [] => .error (.unexpectedEnd size)
  | levels + 1, first :: rest =>
    if first = 'i'.toUInt8 then (readInteger size rest).map (.behind .integer first)
    else if first = 'l'.toUInt8 then
      (readItems size (readValue size levels) rest).map (.behind .list first)
    else if first = 'd'.toUInt8 then
      (readEntries size (readValue size levels) [] rest).map (.behind .dictionary first)
    else if isDigit first then
      (readBytes size (first :: rest)).map fun parsed =>
        ⟨.bytes parsed.value, parsed.rest, parsed.shorter⟩
    else .error (.unexpectedCharacter (Char.ofNat first.toNat) (size - (rest.length + 1)))

/-- Reads the one value that spans the whole input. -/
def Value.parse (input : Bytes) : Except ReadError Value := do
  let parsed ← readValue input.length (maxNesting + 1) input
  if parsed.rest.isEmpty then return parsed.value
  else .error (.trailing parsed.rest.length)

end PeerDiscovery.Bencode
