import PeerDiscovery.Contact
import PeerDiscovery.Proofs.Address.Alphabet
import PeerDiscovery.Proofs.Identifier.Text

/-!
# Contacts read back

A contact is spelled by an identifier, an `@` and an address, and by nothing else
(`parse_eq_ok_iff`). Neither part holds an `@` itself, so a text has one such division at most.
-/

namespace PeerDiscovery.Contact

/-- No digit is an `@`, so the first one of a contact stands behind the identifier. -/
theorem ne_at_of_spelled {front : String} (spelled : Identifier.Spelled front) :
    ∀ c ∈ front.toList, (c != '@') = true := by
  intro c member
  rw [bne_iff_ne]
  rintro rfl
  exact absurd (spelled.isDigit _ member) (by unfold Hex.IsDigit; decide)

theorem parse_eq_ok_iff {content : String} {contact : Contact} :
    parse content = .ok contact ↔
      ∃ front back, content = front ++ "@" ++ back ∧ Identifier.parse front = .ok contact.id ∧
        Address.parse? back = some contact.address := by
  constructor
  · intro read
    unfold parse at read
    dsimp only at read
    split at read
    · cases read
    · rename_i c rest behind
      split at read
      · cases read
      · rename_i id front
        split at read
        · cases read
        · rename_i address back
          obtain rfl := Except.ok.inj read
          have first : (c != '@') = false := by
            have stop := List.head?_dropWhile_not (· != '@') content.toList
            rw [behind] at stop
            exact stop
          obtain rfl : c = '@' := bne_eq_false_iff_eq.mp first
          have whole := List.takeWhile_append_dropWhile (p := (· != '@')) (l := content.toList)
          rw [behind] at whole
          refine ⟨_, _, String.toList_inj.mp (whole.symm.trans ?_), front, back⟩
          simp
  · rintro ⟨front, back, rfl, id, address⟩
    have noAt := ne_at_of_spelled (Identifier.exists_parse_iff.mp ⟨_, id⟩)
    have chars : (front ++ "@" ++ back).toList = front.toList ++ '@' :: back.toList := by
      simp
    have before : (front.toList ++ '@' :: back.toList).takeWhile (· != '@') = front.toList := by
      rw [List.takeWhile_append_of_pos noAt]
      simp
    have behind : (front.toList ++ '@' :: back.toList).dropWhile (· != '@') =
        '@' :: back.toList := by
      rw [List.dropWhile_append_of_pos noAt]
      simp
    rw [parse]
    simp only [chars, before, behind, String.ofList_toList, id, address]

theorem parse_text {contact : Contact}
    (back : Address.parse? contact.address.text = some contact.address) :
    parse contact.text = .ok contact :=
  parse_eq_ok_iff.mpr ⟨_, _, rfl, Identifier.parse_text contact.id, back⟩

/-- Identifiers and contacts have the text forms of their grammar and no others, and what is written
reads back. An address of version 6 is written without its flow label, so a contact comes back where
its address does, and that is up to the flow label. -/
theorem text_forms :
    (∀ content,
      ((∃ id, Identifier.parse content = .ok id) ↔ Identifier.Spelled content) ∧
      (∀ id, Identifier.parse content = .ok id → id.text = content.toLower) ∧
      (¬ Identifier.Spelled content →
        Identifier.parse content = .error (.wrongLength (content.utf8ByteSize / 2) 20))) ∧
    (∀ id : Identifier, Identifier.parse id.text = .ok id) ∧
    (∀ content contact, parse content = .ok contact ↔
      ∃ front back, content = front ++ "@" ++ back ∧ Identifier.Spelled front ∧
        Identifier.parse front = .ok contact.id ∧ Address.parse? back = some contact.address) ∧
    (∀ contact : Contact, Address.parse? contact.address.text = some contact.address →
      parse contact.text = .ok contact) ∧
    (∀ address : Address, Address.parse? address.text = some address.unlabelled) ∧
    (∀ content address, Address.parse? content = some address → '@' ∉ content.toList) := by
  refine ⟨fun content => ⟨Identifier.exists_parse_iff, fun _ => Identifier.text_of_parse,
    Identifier.parse_of_not_spelled⟩, Identifier.parse_text, ?_, fun _ => parse_text,
    Address.parse?_text, ?_⟩
  · intro content contact
    rw [parse_eq_ok_iff]
    constructor
    · rintro ⟨front, back, same, id, address⟩
      exact ⟨front, back, same, Identifier.exists_parse_iff.mp ⟨_, id⟩, id, address⟩
    · rintro ⟨front, back, same, -, id, address⟩
      exact ⟨front, back, same, id, address⟩
  · intro content address read member
    exact absurd (Address.mem_alphabet_of_parse? read member)
      (by unfold Address.Alphabet Hex.IsDigit; decide)

namespace TextForms

/-- Forty digits in upper case. -/
def content : String := String.ofList (List.replicate 40 'A')

theorem spelled_content : Identifier.Spelled content := by
  have chars : content.toList = List.replicate 40 'A' := String.toList_ofList
  constructor
  · rw [chars, List.length_replicate]
  · intro c member
    rw [chars] at member
    rw [List.eq_of_mem_replicate member]
    exact Or.inr (Or.inr (by decide))

/-- A contact whose address has a run of zero groups to leave out, and a scope. -/
def contact : Contact where
  id := ⟨List.replicate 20 0xAA, rfl⟩
  address := .v6 ⟨[0x2001, 0xDB8, 0, 0, 0, 0, 0, 1], rfl⟩ 6881 0 3

end TextForms

open TextForms in
theorem text_forms_sample :
    (∃ id, Identifier.parse content = .ok id ∧ id.text = content.toLower) ∧
    Identifier.parse "é" = .error (.wrongLength 1 20) ∧
    parse contact.text = .ok contact ∧ '@' ∉ contact.address.text.toList := by
  obtain ⟨ids, -, -, contacts, addresses, plain⟩ := text_forms
  have back := addresses contact.address
  obtain ⟨id, read⟩ := (ids content).1.mpr spelled_content
  have short : ¬ Identifier.Spelled "é" := fun spelled => absurd spelled.length_eq (by decide)
  have refused := (ids "é").2.2 short
  have half : "é".utf8ByteSize / 2 = 1 := by decide
  rw [half] at refused
  exact ⟨⟨id, read, (ids content).2.1 id read⟩, refused, contacts contact back, plain _ _ back⟩

end PeerDiscovery.Contact
