import PeerDiscovery.Text.Hex

/-!
# Identifiers

Nodes and contents share one space of 160-bit identifiers. An identifier is exactly twenty octets;
its text is forty hexadecimal digits, written in lower case and read in either case.
-/

namespace PeerDiscovery

/-- A name in the common space of nodes and contents. -/
structure Identifier where
  bytes : Bytes
  length_eq : bytes.length = 20
deriving DecidableEq

/-- The identifier of a content to find peers for. -/
abbrev InfoHash := Identifier

/-- Why octets or texts name nothing, or cannot be compared. -/
inductive IdentifierError where
  /-- The two lengths in octets; the second is the wanted one where a single identifier is read. -/
  | wrongLength (first second : Nat)
  /-- Both sides of a comparison are the same identifier. -/
  | identical
deriving DecidableEq, Repr

/-- The wording of each error. -/
def IdentifierError.message : IdentifierError → String
  | .wrongLength first second => s!"invalid identifier length(s): {first} {second}"
  | .identical => "zero distance between identical ids"

namespace Identifier

/-- How many octets an identifier has. -/
def size : Nat := 20

theorem ext {a b : Identifier} (same : a.bytes = b.bytes) : a = b := by
  cases a
  cases b
  cases same
  rfl

/-- The identifier made of exactly twenty octets. -/
def ofBytes (bytes : Bytes) : Except IdentifierError Identifier :=
  if fits : bytes.length = 20 then .ok ⟨bytes, fits⟩
  else .error (.wrongLength bytes.length size)

/-- The identifier made of exactly twenty octets, if there are twenty. -/
def ofBytes? (bytes : Bytes) : Option Identifier :=
  if fits : bytes.length = 20 then some ⟨bytes, fits⟩ else none

theorem ofBytes?_eq_some_iff {bytes : Bytes} {id : Identifier} :
    ofBytes? bytes = some id ↔ bytes = id.bytes := by
  unfold ofBytes?
  split
  · rw [Option.some.injEq]
    exact ⟨fun same => congrArg Identifier.bytes same, fun same => ext same⟩
  · rename_i unfit
    refine iff_of_false (by rintro ⟨⟩) fun same => ?_
    exact unfit (same ▸ id.length_eq)

/-- Forty lower-case hexadecimal digits. -/
def text (id : Identifier) : String := Hex.text id.bytes

/-- Reads forty hexadecimal digits. A text that is no sequence of octets is reported with half its
length in octets. -/
def parse (content : String) : Except IdentifierError Identifier :=
  match Hex.decode? content.toList with
  | some bytes => ofBytes bytes
  | none => .error (.wrongLength (content.utf8ByteSize / 2) size)

/-- The first two octets, as a short form for people. -/
def summary (id : Identifier) : String := "NodeId(" ++ Hex.text (id.bytes.take 2) ++ "..)"

/-! ## Order -/

instance : Ord Identifier where
  compare a b := compare a.bytes b.bytes

theorem compare_eq (a b : Identifier) : compare a b = compare a.bytes b.bytes := rfl

instance : Std.TransOrd Identifier where
  eq_swap := by
    intro a b
    rw [compare_eq, compare_eq]
    exact Std.OrientedCmp.eq_swap
  isLE_trans := by
    intro a b c first second
    rw [compare_eq] at first second ⊢
    exact Std.TransCmp.isLE_trans first second

instance : Std.LawfulEqOrd Identifier where
  compare_self := by
    intro a
    rw [compare_eq]
    exact Std.ReflCmp.compare_self
  eq_of_compare := by
    intro a b same
    rw [compare_eq] at same
    exact ext (Std.LawfulEqOrd.eq_of_compare same)

end Identifier

end PeerDiscovery
