import PeerDiscovery.Bencode.Reader

/-!
# Reading at a cursor

A reader that is handed what is left of its input cannot look outside it. A machine keeps the whole
input in memory and a position in it, so more can go wrong: a slice may reach outside the input, a
sum of positions may be too large for a word, and a loop that does not move forward never ends. This
module reads bencode in that way and keeps each of these apart. A slice or a sum that fails is a
`Stop.fault` and a refused input a `Stop.refused`. A reading works to a limit: a loop has no more
rounds than the limit says, and a value within another one is read with a limit that is one lower.
A reading is `none` where that is not enough, so one that never ends is `none` at every limit.

The cursor also records every call, with the calls that are active at the time, and for every call
that succeeds where it began and where it ended. `Event.Safe` says when nothing is wrong with that.
-/

namespace PeerDiscovery.Bencode

/-- The routines of the reading. Those that read a value or a container are told how many containers
deep it lies. -/
inductive Routine where
  | peek
  | upTo (mark : UInt8)
  | value (depth : Nat)
  | integer
  | bytes
  | list (depth : Nat)
  | dictionary (depth : Nat)
deriving DecidableEq, Repr

namespace Routine

/-- How many containers deep a routine reads, 0 for one that is not told. -/
def depth : Routine → Nat
  | .value depth | .list depth | .dictionary depth => depth
  | .peek | .upTo _ | .integer | .bytes => 0

/-- Whether the routine reads a value of any kind. -/
def isValue : Routine → Bool
  | .value _ => true
  | _ => false

end Routine

/-! ## Events -/

/-- What a run leaves behind for each call. -/
inductive Event where
  /-- A routine is called at a position. The calls that have not ended, this one first, are
  `active`. -/
  | entered (routine : Routine) (position : Nat) (active : List Routine)
  /-- A routine that was called at `start` succeeds at `stop`. -/
  | left (routine : Routine) (start stop : Nat)
deriving DecidableEq, Repr

/-- How many values are being read within each other. -/
def valueCalls (calls : List Routine) : Nat := calls.countP Routine.isValue

theorem valueCalls_cons {routine : Routine} {calls : List Routine}
    (other : routine.isValue = false) : valueCalls (routine :: calls) = valueCalls calls :=
  List.countP_cons_of_neg (by rw [other]; exact Bool.false_ne_true)

theorem valueCalls_value (depth : Nat) (calls : List Routine) :
    valueCalls (.value depth :: calls) = valueCalls calls + 1 :=
  List.countP_cons_of_pos rfl

/-- A call is made inside the input or at its end, no more than one container deeper than values may
lie, and with no more values being read within each other than there are such depths. A success ends
inside the input or at its end, and behind its start unless it only looked at an octet. -/
def Event.Safe (size : Nat) : Event → Prop
  | .entered routine position active =>
    position ≤ size ∧ routine.depth ≤ maxNesting + 1 ∧ valueCalls active ≤ maxNesting + 2
  | .left routine start stop => (routine = .peek ∨ start < stop) ∧ start ≤ stop ∧ stop ≤ size

/-! ## Cursors -/

/-- Why a reading stops without a value. -/
inductive Stop where
  /-- A slice reached outside the input, or a sum or a difference outside the words. -/
  | fault
  /-- The input was refused. -/
  | refused (cause : ReadError)

/-- A position in an input, and what has happened so far. -/
structure Cursor where
  position : Nat
  /-- The calls that have not ended, the last one first. -/
  active : List Routine
  /-- The last event first. -/
  events : List Event

namespace Cursor

/-- A program over a cursor. From a cursor it reaches its limit, stops at another one, or comes to a
result at another one. -/
abbrev Reading := ExceptT Stop (StateT Cursor Option)

/-- The cursor before any reading. -/
def start : Cursor := ⟨0, [], []⟩

/-- The cursor in the body of a routine. -/
def enter (routine : Routine) (before : Cursor) : Cursor :=
  { before with
    active := routine :: before.active
    events := .entered routine before.position (routine :: before.active) :: before.events }

/-- The cursor behind a routine that was called at the cursor `before`. -/
def leave (routine : Routine) (before after : Cursor) : Cursor :=
  { after with
    active := before.active
    events := .left routine before.position after.position :: after.events }

/-! ## Machine operations -/

section Operations

variable {α : Type}

def fault : Reading α := throw .fault

def refuse (cause : ReadError) : Reading α := throw (.refused cause)

def unfinished : Reading α := fun _ => none

/-- The position of the cursor. -/
def here : Reading Nat := return (← get).position

/-- Puts the cursor at a position. -/
def moveTo (position : Nat) : Reading Unit := modify ({ · with position })

/-- The sum of two words, if it is a word itself. -/
def sum? (a b : Nat) : Option Nat := if a + b ≤ Numeral.max64 then some (a + b) else none

def sum (a b : Nat) : Reading Nat :=
  match sum? a b with
  | some total => return total
  | none => fault

def difference (a b : Nat) : Reading Nat := if b ≤ a then return a - b else fault

/-- The octets of an input from one position up to another. -/
def slice (data : Bytes) (start stop : Nat) : Reading Bytes :=
  if start ≤ stop ∧ stop ≤ data.length then return data.extract start stop else fault

/-- Moves the cursor over one octet. -/
def advance : Reading Unit := do moveTo (← sum (← here) 1)

/-- Runs the body of a routine. The call is active until the body succeeds. -/
abbrev within (routine : Routine) (body : Reading α) : Reading α := do
  let before ← get
  set (before.enter routine)
  let result ← body
  modify (before.leave routine)
  return result

end Operations

/-! ## Routines -/

variable (data : Bytes)

/-- The octet at the cursor. -/
def peek : Reading UInt8 := within .peek do
  match data[← here]? with
  | some octet => return octet
  | none => refuse (.unexpectedEnd (← here))

/-- Reads the octets before the first mark, and the mark. -/
def upTo (mark : UInt8) : Reading Bytes := within (.upTo mark) do
  let start ← here
  let ahead ← slice data start data.length
  match ahead.findIdx? (· == mark) with
  | none => refuse (.unexpectedEnd data.length)
  | some length =>
    moveTo (← sum (← sum start length) 1)
    slice data start (← sum start length)

/-- Reads an integer from its start mark on. -/
def integer : Reading Value := within .integer do
  advance
  let spelled ← upTo data 'e'.toUInt8
  match spelledInteger? (Bytes.toChars spelled) with
  | none => refuse (.invalidInteger (Utf8.decodeLenient spelled))
  | some number => return .integer number

/-- Reads an octet string. An announced end that is no word lies behind the input as well. -/
def bytes : Reading Bytes := within .bytes do
  let start ← here
  let digits ← upTo data ':'.toUInt8
  match spelledLength? (Bytes.toChars digits) with
  | none => refuse (.invalidLength start)
  | some length =>
    match (sum? (← here) length).filter (· ≤ data.length) with
    | none => refuse (.unexpectedEnd data.length)
    | some stop =>
      let octets ← slice data (← here) stop
      moveTo stop
      return octets

section Containers

variable (inner : Nat → Reading Value) (depth : Nat)

/-- Reads items behind those that are `known` up to and with the end mark. -/
def items : Nat → List Value → Reading Value
  | 0, _ => unfinished
  | limit + 1, known => do
    let first ← peek data
    if first = 'e'.toUInt8 then
      advance
      return .list known
    else
      let item ← inner (← sum depth 1)
      items limit (known ++ [item])

/-- Reads a list from its start mark on. -/
def list (limit : Nat) : Reading Value := within (.list depth) do
  advance
  items data inner depth limit []

/-- Reads keys and values into the entries `known` up to and with the end mark. -/
def entries : Nat → Dictionary Value → Reading Value
  | 0, _ => unfinished
  | limit + 1, known => do
    let first ← peek data
    if first = 'e'.toUInt8 then
      advance
      return .dictionary known
    else
      let mark ← peek data
      if !isDigit mark then refuse (.keyNotString (← here))
      else
        let key ← bytes data
        let item ← inner (← sum depth 1)
        entries limit (known.insert key item)

/-- Reads a dictionary from its start mark on. -/
def dictionary (limit : Nat) : Reading Value := within (.dictionary depth) do
  advance
  entries data inner depth limit []

end Containers

/-- Reads a value that lies `depth` containers deep. -/
def value : Nat → Nat → Reading Value
  | 0, _ => unfinished
  | limit + 1, depth => within (.value depth) do
    if maxNesting < depth then refuse .tooDeep
    else
      let first ← peek data
      if first = 'i'.toUInt8 then integer data
      else if first = 'l'.toUInt8 then list data (value limit) depth limit
      else if first = 'd'.toUInt8 then dictionary data (value limit) depth limit
      else if isDigit first then Value.bytes <$> bytes data
      else refuse (.unexpectedCharacter (Char.ofNat first.toNat) (← here))

/-- Reads the one value that spans the whole input. -/
def parse (limit : Nat) : Reading Value := do
  let read ← value data limit 0
  let stop ← here
  if stop ≠ data.length then refuse (.trailing (← difference data.length stop))
  else return read

end Cursor

end PeerDiscovery.Bencode
