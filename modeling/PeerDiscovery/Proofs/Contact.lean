import PeerDiscovery.Contact
import PeerDiscovery.Proofs.Address.Compact

/-!
# Compact contacts read back

A contact of version 4 and its 26 octets are each other's forms (`Contact.ofCompact?_eq_some_iff`),
and so are a list of such contacts and the octets of their forms one after another, as a list of
pieces of one size is given back by cutting what they make up (`pieces_flatten`, `flatten_pieces`).
-/

namespace PeerDiscovery.Contact

/-! ## One contact -/

theorem ofCompact?_eq_some_iff {bytes : Bytes} {contact : Contact} :
    ofCompact? bytes = some contact ↔ contact.compact? = some bytes := by
  constructor
  · intro read
    simp only [ofCompact?, Option.bind_eq_bind, Option.bind_eq_some_iff,
      Identifier.ofBytes?_eq_some_iff] at read
    obtain ⟨id, front, back⟩ := read
    split at back
    · rename_i a b c d high low shown
      obtain rfl := Option.some.inj back
      have port := Bytes.ofWord_toWord high low
      change some (id.bytes ++ ([a, b, c, d] ++ Bytes.ofWord (Bytes.toWord high low))) = some bytes
      rw [port, ← front]
      change some (_ ++ [a, b, c, d, high, low]) = some bytes
      rw [← shown, List.take_append_drop]
    · cases back
  · intro form
    obtain ⟨id, address⟩ := contact
    cases address with
    | v6 => cases form
    | v4 ip port =>
      obtain rfl := Option.some.inj form
      have back : Bytes.toWord (UInt8.ofNat (port.toNat / 256)) (UInt8.ofNat (port.toNat % 256)) =
          port := Option.some.inj (Bytes.toWord?_ofWord port)
      have front : ∀ rest, (id.bytes ++ rest).take Identifier.size = id.bytes := fun rest =>
        List.take_left' id.length_eq
      have behind : ∀ rest, (id.bytes ++ rest).drop Identifier.size = rest := fun rest =>
        List.drop_left' id.length_eq
      have named : Identifier.ofBytes? id.bytes = some id :=
        Identifier.ofBytes?_eq_some_iff.mpr rfl
      rw [ofCompact?, front, behind, named]
      exact congrArg (fun port => some (Contact.mk id (.v4 ip port))) back

/-- Only a contact of version 4 has a form, and is given back by it. -/
theorem compact?_bind_ofCompact? (contact : Contact) :
    contact.compact?.bind ofCompact? =
      Option.guard (fun contact => contact.address.isV4) contact := by
  cases version : contact.address.isV4 with
  | true =>
    have form : contact.compact? = some (contact.id.bytes ++ contact.address.compact) :=
      if_pos version
    rw [form, Option.bind_some, ofCompact?_eq_some_iff.mpr form, Option.guard, version]
    rfl
  | false =>
    rw [compact?, version, Option.guard, version]
    rfl

theorem length_of_compact? {bytes : Bytes} {contact : Contact}
    (form : contact.compact? = some bytes) : bytes.length = compactSize := by
  unfold compact? at form
  split at form
  · rename_i four
    obtain rfl := Option.some.inj form
    rw [List.length_append, contact.id.length_eq, contact.address.length_compact, if_pos four]
    rfl
  · cases form

/-- Octets of the size of a contact always stand for one. -/
theorem exists_ofCompact? {bytes : Bytes} (length : bytes.length = compactSize) :
    ∃ contact, ofCompact? bytes = some contact := by
  have front : (bytes.take Identifier.size).length = 20 := by
    rw [List.length_take, length]
    rfl
  have back : (bytes.drop Identifier.size).length = 6 := by
    rw [List.length_drop, length]
    rfl
  obtain ⟨a, b, c, d, high, low, shown⟩ : ∃ a b c d high low,
      bytes.drop Identifier.size = [a, b, c, d, high, low] := by
    match bytes.drop Identifier.size, back with
    | [a, b, c, d, high, low], _ => exact ⟨a, b, c, d, high, low, rfl⟩
  refine ⟨⟨⟨_, front⟩, .v4 ⟨a, b, c, d⟩ (Bytes.toWord high low)⟩, ?_⟩
  rw [ofCompact?, Identifier.ofBytes?, dif_pos front, Option.bind_eq_bind, Option.bind_some, shown]
  rfl

/-! ## Pieces of one size -/

/-- Every piece is as long as a compact contact. -/
def Sized (forms : List Bytes) : Prop := ∀ form ∈ forms, form.length = compactSize

theorem length_flatten {forms : List Bytes} (sized : Sized forms) :
    forms.flatten.length = compactSize * forms.length := by
  induction forms with
  | nil => rfl
  | cons form rest ih =>
    obtain ⟨first, others⟩ := List.forall_mem_cons.mp sized
    rw [List.flatten_cons, List.length_append, first, ih others, List.length_cons, Nat.mul_succ,
      Nat.add_comm]

/-- What pieces of one size make up is cut into them again. -/
theorem pieces_flatten {forms : List Bytes} (sized : Sized forms) :
    pieces forms.length forms.flatten = forms := by
  induction forms with
  | nil => rfl
  | cons form rest ih =>
    obtain ⟨first, others⟩ := List.forall_mem_cons.mp sized
    rw [List.length_cons, List.flatten_cons, pieces, List.take_left' first,
      List.drop_left' first, ih others]

/-- Octets of an even length are made up of pieces. -/
theorem exists_sized {bytes : Bytes} {count : Nat} (length : bytes.length = compactSize * count) :
    ∃ forms, Sized forms ∧ forms.length = count ∧ forms.flatten = bytes := by
  induction count generalizing bytes with
  | zero =>
    obtain rfl := List.eq_nil_of_length_eq_zero length
    exact ⟨[], List.forall_mem_nil _, rfl, rfl⟩
  | succ count ih =>
    rw [Nat.mul_succ] at length
    have first : (bytes.take compactSize).length = compactSize := by
      rw [List.length_take]
      omega
    have others : (bytes.drop compactSize).length = compactSize * count := by
      rw [List.length_drop]
      omega
    obtain ⟨forms, sized, counted, whole⟩ := ih others
    refine ⟨bytes.take compactSize :: forms, List.forall_mem_cons.mpr ⟨first, sized⟩, ?_, ?_⟩
    · rw [List.length_cons, counted]
    · rw [List.flatten_cons, whole, List.take_append_drop]

/-! ## Lists -/

theorem listOfCompact_flatten {forms : List Bytes} (sized : Sized forms) :
    listOfCompact forms.flatten = .ok (forms.filterMap ofCompact?) := by
  have size := length_flatten sized
  have even : forms.flatten.length % compactSize = 0 := by
    rw [size, Nat.mul_mod_right]
  have count : forms.flatten.length / compactSize = forms.length := by
    rw [size, Nat.mul_div_cancel_left _ (by decide)]
  rw [listOfCompact, if_pos even, count, pieces_flatten sized]

/-- No piece is dropped, and each contact has the piece it was read from for its form. -/
theorem map_compact?_filterMap {forms : List Bytes} (sized : Sized forms) :
    (forms.filterMap ofCompact?).map compact? = forms.map some := by
  induction forms with
  | nil => rfl
  | cons form rest ih =>
    obtain ⟨first, others⟩ := List.forall_mem_cons.mp sized
    obtain ⟨contact, read⟩ := exists_ofCompact? first
    rw [List.filterMap_cons_some read, List.map_cons, List.map_cons, ih others,
      ofCompact?_eq_some_iff.mp read]

theorem exists_listOfCompact {bytes : Bytes} (even : bytes.length % compactSize = 0) :
    ∃ (contacts : List Contact) (forms : List Bytes), listOfCompact bytes = .ok contacts ∧
      contacts.length = bytes.length / compactSize ∧
      contacts.map compact? = forms.map some ∧ forms.flatten = bytes := by
  have whole : bytes.length = compactSize * (bytes.length / compactSize) := by
    have parts := Nat.div_add_mod bytes.length compactSize
    omega
  obtain ⟨forms, sized, counted, rfl⟩ := exists_sized whole
  have kept := map_compact?_filterMap sized
  refine ⟨forms.filterMap ofCompact?, forms, listOfCompact_flatten sized, ?_, kept, rfl⟩
  rw [← counted]
  simpa using congrArg List.length kept

theorem listOfCompact_compactList (contacts : List Contact) :
    listOfCompact (compactList contacts) =
      .ok (contacts.filter fun contact => contact.address.isV4) := by
  have sized : Sized (contacts.filterMap compact?) := by
    intro form member
    obtain ⟨contact, -, here⟩ := List.mem_filterMap.mp member
    exact length_of_compact? here
  have back : (fun contact : Contact => contact.compact?.bind ofCompact?) =
      Option.guard fun contact => contact.address.isV4 := funext compact?_bind_ofCompact?
  rw [compactList, listOfCompact_flatten sized, List.filterMap_filterMap, back,
    List.filterMap_eq_filter]

/-- Compact forms and what they stand for determine each other: a list of contacts gives back those
of version 4, an even list of octets gives back itself and no other list is taken in part, and an
endpoint without flow label and scope is the same as its six or eighteen octets. -/
theorem compact_forms_invertible :
    (∀ contacts : List Contact, listOfCompact (compactList contacts) =
        .ok (contacts.filter fun contact => contact.address.isV4)) ∧
      (∀ bytes : Bytes, if bytes.length % 26 = 0 then
        ∃ (contacts : List Contact) (forms : List Bytes), listOfCompact bytes = .ok contacts ∧
          contacts.length = bytes.length / 26 ∧
          contacts.map compact? = forms.map some ∧ forms.flatten = bytes
        else listOfCompact bytes = .error ⟨bytes.length⟩) ∧
      (∀ address : Address, Address.ofCompact? address.compact = some address.unscoped) ∧
      ∀ bytes : Bytes, if bytes.length = 6 ∨ bytes.length = 18 then
        ∃ address, Address.ofCompact? bytes = some address ∧ address.compact = bytes
        else Address.ofCompact? bytes = none := by
  refine ⟨listOfCompact_compactList, fun bytes => ?_, Address.ofCompact?_compact, fun bytes => ?_⟩
  · split
    · rename_i even
      exact exists_listOfCompact even
    · rename_i odd
      exact if_neg odd
  · split
    · rename_i sized
      obtain ⟨address, read⟩ := Address.exists_ofCompact?_iff.mpr sized
      exact ⟨address, read, (Address.ofCompact?_eq_some_iff.mp read).1.symm⟩
    · rename_i unsized
      exact Option.eq_none_iff_forall_ne_some.mpr fun address read =>
        unsized (Address.exists_ofCompact?_iff.mp ⟨address, read⟩)

end PeerDiscovery.Contact
