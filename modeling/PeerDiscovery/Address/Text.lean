import PeerDiscovery.Address
import PeerDiscovery.Text.Hex
import PeerDiscovery.Text.Numeral

/-!
# Addresses as text

Written forms: `1.2.3.4:5`, `[v6]:port`, and `[v6%scope]:port` where the scope is not zero. A
version 6 address is written with lower-case groups without leading zeros, and the longest run of
two or more zero groups, the first of equal ones, becomes `::`. Addresses that map version 4 end in
dotted form. The flow label has no written form.

Reading is strict and takes the whole text: octets have no leading zeros, `::` stands for at least
one group, and the last two groups may be dotted.
-/

namespace PeerDiscovery

/-! ## Writing -/

/-- The dotted form. -/
def Ipv4.chars (ip : Ipv4) : List Char :=
  List.intercalate ['.'] (ip.octets.map fun octet => Numeral.ofNat octet.toNat)

namespace Ipv6

/-- How many zero groups stand from `start` on. -/
def zerosFrom (groups : List UInt16) (start : Nat) : Nat :=
  ((groups.drop start).takeWhile (· == 0)).length

/-- The first of the longest runs of zero groups: where it starts, and its length. -/
def longestZeros (groups : List UInt16) : Nat × Nat :=
  (List.range groups.length).foldl
    (fun best start =>
      let count := zerosFrom groups start
      if best.2 < count then (start, count) else best)
    (0, 0)

/-- Groups in hexadecimal digits with colons between them. -/
def groupChars (groups : List UInt16) : List Char :=
  List.intercalate [':'] (groups.map fun group => Nat.toDigits 16 group.toNat)

/-- The version 4 address that a mapped address stands for. -/
def mapped? (ip : Ipv6) : Option Ipv4 :=
  match ip.octets with
  | [0, 0, 0, 0, 0, 0, 0, 0, 0, 0, 0xFF, 0xFF, a, b, c, d] => some ⟨a, b, c, d⟩
  | _ => none

/-- The written form of a version 6 address. -/
def chars (ip : Ipv6) : List Char :=
  match ip.mapped? with
  | some ip4 => [':', ':', 'f', 'f', 'f', 'f', ':'] ++ ip4.chars
  | none =>
    let (start, count) := longestZeros ip.groups
    if 1 < count then
      groupChars (ip.groups.take start) ++ [':', ':'] ++ groupChars (ip.groups.drop (start + count))
    else groupChars ip.groups

end Ipv6

/-- The characters of the written form. -/
def Address.chars : Address → List Char
  | .v4 ip port => ip.chars ++ ':' :: Numeral.ofNat port.toNat
  | .v6 ip port _ scope =>
    '[' :: ip.chars
      ++ (if scope = 0 then [] else '%' :: Numeral.ofNat scope.toNat)
      ++ [']', ':'] ++ Numeral.ofNat port.toNat

/-- The written form of an endpoint. -/
def Address.text (address : Address) : String := String.ofList address.chars

/-! ## Reading -/

namespace Address.Reader

/-- What is read off the front of a text, with the rest, if it is there. -/
abbrev Reads (α : Type) := List Char → Option (α × List Char)

/-- The value of a digit in the given radix. -/
def digit? (radix : Nat) (c : Char) : Option Nat :=
  (Hex.value? c).filter (· < radix)

/-- The digits at the front of a text, and the rest. -/
def digits (radix : Nat) : List Char → List Nat × List Char
  | [] => ([], [])
  | c :: rest =>
    match digit? radix c with
    | none => ([], c :: rest)
    | some d => let (more, after) := digits radix rest; (d :: more, after)

/-- The number that digits stand for. -/
def valueOf (radix : Nat) (ds : List Nat) : Nat := ds.foldl (fun value d => radix * value + d) 0

/-- A number of at most `limit`, in any number of digits. -/
def number (limit : Nat) : Reads Nat := fun text =>
  match digits 10 text with
  | ([], _) => none
  | (ds, rest) => if valueOf 10 ds ≤ limit then some (valueOf 10 ds, rest) else none

/-- An octet in one to three decimal digits, without a leading zero. -/
def octet : Reads UInt8 := fun text =>
  match digits 10 text with
  | ([], _) => none
  | (d :: more, rest) =>
    if d = 0 ∧ more ≠ [] ∨ 2 < more.length ∨ 255 < valueOf 10 (d :: more) then none
    else some (UInt8.ofNat (valueOf 10 (d :: more)), rest)

/-- A group in one to four hexadecimal digits. -/
def group : Reads UInt16 := fun text =>
  match digits 16 text with
  | ([], _) => none
  | (ds, rest) => if 4 < ds.length then none else some (UInt16.ofNat (valueOf 16 ds), rest)

/-- The rest behind one given character. -/
def skip (c : Char) : List Char → Option (List Char)
  | [] => none
  | first :: rest => if first = c then some rest else none

/-- A dotted address. -/
def ipv4 : Reads Ipv4 := fun text => do
  let (a, text) ← octet text
  let (b, text) ← octet (← skip '.' text)
  let (c, text) ← octet (← skip '.' text)
  let (d, text) ← octet (← skip '.' text)
  return (⟨a, b, c, d⟩, text)

/-- Up to `room` groups, with a colon before each but the first; the flag tells that the last two
came in dotted form, which ends the groups. `inner` says that a group came before. -/
def groups : (room : Nat) → (inner : Bool) → List Char → List UInt16 × Bool × List Char
  | 0, _, text => ([], false, text)
  | room + 1, inner, text =>
    match if inner then skip ':' text else some text with
    | none => ([], false, text)
    | some start =>
      match if room = 0 then none else ipv4 start with
      | some (ip, rest) => ([Bytes.toWord ip.a ip.b, Bytes.toWord ip.c ip.d], true, rest)
      | none =>
        match group start with
        | none => ([], false, text)
        | some (g, rest) =>
          let (more, dotted, after) := groups room true rest
          (g :: more, dotted, after)

/-- A version 6 address: eight groups, or fewer around a `::`. -/
def ipv6 : Reads Ipv6 := fun text =>
  let (head, dotted, rest) := groups 8 false text
  if head.length = 8 then (Ipv6.ofGroups? head).map (·, rest)
  else if dotted then none
  else do
    let text ← skip ':' (← skip ':' rest)
    let (tail, _, rest) := groups (7 - head.length) false text
    let ip ← Ipv6.ofGroups? (head ++ List.replicate (8 - head.length - tail.length) 0 ++ tail)
    return (ip, rest)

/-- A scope behind a percent sign. -/
def scope : Reads UInt32 := fun text => do
  let (value, rest) ← number Numeral.max32 (← skip '%' text)
  return (UInt32.ofNat value, rest)

/-- A port behind a colon. -/
def port : Reads UInt16 := fun text => do
  let (value, rest) ← number Numeral.max16 (← skip ':' text)
  return (UInt16.ofNat value, rest)

/-- An endpoint of version 4. -/
def addressV4 : Reads Address := fun text => do
  let (ip, text) ← ipv4 text
  let (port, text) ← port text
  return (.v4 ip port, text)

/-- An endpoint of version 6. -/
def addressV6 : Reads Address := fun text => do
  let (ip, text) ← ipv6 (← skip '[' text)
  let (scope, text) := (scope text).getD (0, text)
  let (port, text) ← port (← skip ']' text)
  return (.v6 ip port 0 scope, text)

end Address.Reader

/-- The endpoint that a whole text spells. -/
def Address.parse? (content : String) : Option Address :=
  match Reader.addressV4 content.toList <|> Reader.addressV6 content.toList with
  | some (address, []) => some address
  | _ => none

/-- The wording for a text that is no endpoint. -/
def Address.malformed : String := "invalid socket address syntax"

end PeerDiscovery
