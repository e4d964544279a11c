import PeerDiscovery.Address.Compact
import PeerDiscovery.Address.Text
import PeerDiscovery.Identifier

/-!
# Contacts

A contact is a reference to a node: its identifier and its address. In compact form it takes 26
octets and exists for version 4 addresses only; a list of contacts is their compact forms one after
another. A contact is given by hand as identifier, `@` and address.
-/

namespace PeerDiscovery

/-- A reference to a node. -/
structure Contact where
  id : Identifier
  address : Address
deriving DecidableEq

/-- Why octets are no list of contacts: their number is no multiple of the size of a contact. -/
structure UnevenList where
  length : Nat
deriving DecidableEq, Repr

/-- The wording for octets that are no list of contacts. -/
def UnevenList.message (error : UnevenList) : String :=
  s!"malformed compact node list of {error.length} bytes"

/-- Why a text is no contact. -/
inductive ContactTextError where
  /-- The text has no `@`. -/
  | unseparated
  /-- What stands before the `@` is no identifier. -/
  | identifier (cause : IdentifierError)
  /-- What stands behind the `@` is no address. -/
  | address
deriving DecidableEq, Repr

/-- What went wrong, followed by its cause where there is one. -/
def ContactTextError.chain : ContactTextError → List String
  | .unseparated => ["node must be given as ID@IP:PORT"]
  | .identifier cause => ["node id must be 40 hex characters", cause.message]
  | .address => ["invalid socket address", Address.malformed]

namespace Contact

/-- How many octets a compact contact has. -/
def compactSize : Nat := 26

/-- The compact form: the identifier, then the compact address. -/
def compact? (contact : Contact) : Option Bytes :=
  if contact.address.isV4 then some (contact.id.bytes ++ contact.address.compact) else none

/-- The contact that 26 octets stand for. -/
def ofCompact? (bytes : Bytes) : Option Contact := do
  let id ← Identifier.ofBytes? (bytes.take Identifier.size)
  match bytes.drop Identifier.size with
  | [a, b, c, d, high, low] => return ⟨id, .v4 ⟨a, b, c, d⟩ (Bytes.toWord high low)⟩
  | _ => none

/-- The first `count` pieces of the size of a contact. -/
def pieces : (count : Nat) → Bytes → List Bytes
  | 0, _ => []
  | count + 1, bytes => bytes.take compactSize :: pieces count (bytes.drop compactSize)

/-- The contacts of a compact list, which is refused whole if its length is uneven. -/
def listOfCompact (bytes : Bytes) : Except UnevenList (List Contact) :=
  if bytes.length % compactSize = 0 then
    .ok ((pieces (bytes.length / compactSize) bytes).filterMap ofCompact?)
  else .error ⟨bytes.length⟩

/-- The compact list of the contacts that have a compact form. -/
def compactList (contacts : List Contact) : Bytes := (contacts.filterMap compact?).flatten

/-! ## Text -/

/-- Identifier, `@` and address. -/
def text (contact : Contact) : String := contact.id.text ++ "@" ++ contact.address.text

/-- Reads a contact; the first `@` separates identifier and address. -/
def parse (content : String) : Except ContactTextError Contact :=
  let chars := content.toList
  match chars.dropWhile (· != '@') with
  | [] => .error .unseparated
  | _ :: rest =>
    match Identifier.parse (String.ofList (chars.takeWhile (· != '@'))) with
    | .error cause => .error (.identifier cause)
    | .ok id =>
      match Address.parse? (String.ofList rest) with
      | none => .error .address
      | some address => .ok ⟨id, address⟩

end Contact

end PeerDiscovery
