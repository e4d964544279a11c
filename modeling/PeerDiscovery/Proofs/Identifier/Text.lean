import PeerDiscovery.Identifier
import PeerDiscovery.Proofs.Text.Hex

/-!
# Identifiers read back

Forty hexadecimal digits of either case spell an identifier, whose text is the same digits in lower
case, and nothing else spells one (`exists_parse_iff`). A text that is no sequence of octets and one
of another number of octets are refused in two places, and both report half the length of the text
(`parse_of_not_spelled`).
-/

namespace PeerDiscovery.Identifier

/-- Forty hexadecimal digits of either case. -/
structure Spelled (content : String) : Prop where
  length_eq : content.toList.length = 40
  isDigit : ∀ c ∈ content.toList, Hex.IsDigit c

variable {content : String} {id : Identifier}

theorem parse_eq_ok_iff :
    parse content = .ok id ↔ Hex.decode? content.toList = some id.bytes := by
  unfold parse
  split
  · rename_i bytes read
    rw [read, Option.some.injEq, ofBytes]
    split
    · rw [Except.ok.injEq]
      exact ⟨fun same => congrArg Identifier.bytes same, fun same => ext same⟩
    · rename_i unfit
      exact iff_of_false (by rintro ⟨⟩) fun same => unfit (same ▸ id.length_eq)
  · rename_i unread
    rw [unread]
    exact iff_of_false (by rintro ⟨⟩) (by rintro ⟨⟩)

theorem exists_parse_iff : (∃ id, parse content = .ok id) ↔ Spelled content := by
  constructor
  · rintro ⟨id, read⟩
    rw [parse_eq_ok_iff] at read
    have length := Hex.length_of_decode? read
    rw [id.length_eq] at length
    exact ⟨length, (Hex.exists_decode?_iff.mp ⟨_, read⟩).2⟩
  · intro spelled
    have even : content.toList.length % 2 = 0 := by rw [spelled.length_eq]
    obtain ⟨bytes, read⟩ := Hex.exists_decode?_iff.mpr ⟨even, spelled.isDigit⟩
    have length := Hex.length_of_decode? read
    rw [spelled.length_eq] at length
    have fits : bytes.length = 20 := by omega
    exact ⟨⟨bytes, fits⟩, parse_eq_ok_iff.mpr read⟩

/-- Case is all that a text may differ in from the text of its identifier. -/
theorem text_of_parse (read : parse content = .ok id) : id.text = content.toLower := by
  have lower : content.toLower.toList = content.toList.map Char.toLower := String.toList_map
  rw [← String.toList_inj, text, Hex.text, String.toList_ofList, lower]
  exact Hex.encode_of_decode? (parse_eq_ok_iff.mp read)

theorem parse_text (id : Identifier) : parse id.text = .ok id := by
  rw [parse_eq_ok_iff, text, Hex.text, String.toList_ofList, Hex.decode?_encode]

/-- Digits in pairs are one octet each, so the number of octets read is half that of the text. -/
theorem parse_of_not_spelled (other : ¬ Spelled content) :
    parse content = .error (.wrongLength (content.utf8ByteSize / 2) size) := by
  unfold parse
  split
  · rename_i bytes read
    have digits := (Hex.exists_decode?_iff.mp ⟨bytes, read⟩).2
    have unfit : bytes.length ≠ 20 := fun fits =>
      other (exists_parse_iff.mp ⟨⟨bytes, fits⟩, parse_eq_ok_iff.mpr read⟩)
    rw [ofBytes, dif_neg unfit, Hex.utf8ByteSize_of_isDigit digits, Hex.length_of_decode? read,
      Nat.mul_div_cancel_left _ (by decide)]
  · rfl

end PeerDiscovery.Identifier
