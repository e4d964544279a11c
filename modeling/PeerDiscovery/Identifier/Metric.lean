import PeerDiscovery.Identifier

/-!
# The XOR metric

The distance of two identifiers is their octet-wise exclusive or. Distances compare octet by octet
from the left, which is their order as big-endian numbers. Ranks extend the distances to a target
by one value below them all, for a node whose identifier is not known yet.
-/

namespace PeerDiscovery

/-- How far two identifiers lie apart. -/
structure Distance where
  bytes : Bytes
  length_eq : bytes.length = 20

namespace Distance

theorem ext {a b : Distance} (same : a.bytes = b.bytes) : a = b := by
  cases a
  cases b
  cases same
  rfl

instance : DecidableEq Distance := fun a b =>
  if same : a.bytes = b.bytes then .isTrue (ext same)
  else .isFalse fun equal => same (congrArg bytes equal)

/-- The distance as a number. -/
def toNat (distance : Distance) : Nat := Bytes.toNat distance.bytes

/-- No distance at all. -/
def zero : Distance := ⟨List.replicate 20 0, rfl⟩

/-- The first two octets, as a short form for people. -/
def summary (distance : Distance) : String :=
  "Distance(" ++ Hex.text (distance.bytes.take 2) ++ "..)"

/-- The distance of two octet strings that must both be identifiers and differ: no distance of an
identifier to itself is given, as it orders nothing. -/
def between (a b : Bytes) : Except IdentifierError Distance :=
  if fits : a.length = 20 ∧ b.length = 20 then
    if a = b then .error .identical
    else .ok ⟨List.zipWith (· ^^^ ·) a b, by simp [fits.1, fits.2]⟩
  else .error (.wrongLength a.length b.length)

instance : Ord Distance where
  compare a b := compare a.bytes b.bytes

end Distance

/-- The distance to another identifier. -/
def Identifier.distance (a b : Identifier) : Except IdentifierError Distance :=
  Distance.between a.bytes b.bytes

/-- Where a node stands relative to a target. -/
inductive Rank where
  /-- The identifier of the node is not known yet. -/
  | unknown
  | known (distance : Distance)
deriving DecidableEq

namespace Rank

/-- The rank relative to `target`. The target itself stands at distance zero. -/
def of (target : InfoHash) : Option Identifier → Rank
  | none => .unknown
  | some id =>
    match target.distance id with
    | .ok distance => .known distance
    | .error _ => .known .zero

/-- The unknown rank comes first, the others in the order of their distances. -/
protected def compare : Rank → Rank → Ordering
  | .unknown, .unknown => .eq
  | .unknown, .known _ => .lt
  | .known _, .unknown => .gt
  | .known a, .known b => compare a b

instance : Ord Rank where
  compare := Rank.compare

/-- The rank as text: the distance in hexadecimal digits, if it is known. -/
def text : Rank → String
  | .unknown => "unknown"
  | .known distance => Hex.text distance.bytes

end Rank

end PeerDiscovery
