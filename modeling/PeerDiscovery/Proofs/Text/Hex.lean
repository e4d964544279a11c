import Mathlib.Data.String.Basic
import PeerDiscovery.Text.Hex

/-!
# Hexadecimal text read back

A text stands for octets exactly if it has an even number of characters, all of them hexadecimal
digits (`exists_decode?_iff`), and writing the octets gives the text back in lower case
(`encode_of_decode?`). What is written for octets reads back as these octets.
-/

namespace PeerDiscovery.Hex

/-! ## Digits -/

/-- A hexadecimal digit of either case. -/
def IsDigit (c : Char) : Prop :=
  '0' ≤ c ∧ c ≤ '9' ∨ 'a' ≤ c ∧ c ≤ 'f' ∨ 'A' ≤ c ∧ c ≤ 'F'

theorem exists_value?_iff {c : Char} : (∃ v, value? c = some v) ↔ IsDigit c := by
  rw [value?, IsDigit]
  split
  · rename_i decimal
    exact iff_of_true ⟨_, rfl⟩ (Or.inl decimal)
  split
  · rename_i lower
    exact iff_of_true ⟨_, rfl⟩ (Or.inr (Or.inl lower))
  split
  · rename_i upper
    exact iff_of_true ⟨_, rfl⟩ (Or.inr (Or.inr upper))
  · rename_i noDecimal noLower noUpper
    exact iff_of_false (by rintro ⟨v, ⟨⟩⟩) (not_or.mpr ⟨noDecimal, not_or.mpr ⟨noLower, noUpper⟩⟩)

theorem value?_eq_none_iff {c : Char} : value? c = none ↔ ¬ IsDigit c := by
  rw [← exists_value?_iff, ← Option.isSome_iff_exists, Bool.not_eq_true, Option.isSome_eq_false_iff,
    Option.isNone_iff_eq_none]

/-- No digit stands above the lower-case `f`. -/
theorem IsDigit.le {c : Char} (digit : IsDigit c) : c ≤ 'f' := by
  rcases digit with ⟨-, high⟩ | ⟨-, high⟩ | ⟨-, high⟩
  · exact Char.le_trans high (by decide)
  · exact high
  · exact Char.le_trans high (by decide)

theorem IsDigit.utf8Size_eq {c : Char} (digit : IsDigit c) : c.utf8Size = 1 :=
  Char.utf8Size_eq_one_iff.mpr (UInt32.le_trans digit.le (by decide))

theorem value?_digit {v : Nat} (small : v < 16) : value? (digit v) = some v := by
  revert v
  decide

/-- A digit is written in lower case. -/
theorem digit_of_value? {c : Char} {v : Nat} (read : value? c = some v) :
    v < 16 ∧ digit v = c.toLower := by
  have below : c.toNat < 103 := Nat.lt_succ_of_le (exists_value?_iff.mp ⟨v, read⟩).le
  have all : ∀ n < 103,
      (value? (Char.ofNat n)).all fun v => v < 16 ∧ digit v = (Char.ofNat n).toLower := by decide
  have here := all c.toNat below
  rw [Char.ofNat_toNat, read] at here
  simpa using here

/-! ## Octets -/

theorem decode?_cons_cons_eq_some_iff {high low : Char} {rest : List Char} {bytes : Bytes} :
    decode? (high :: low :: rest) = some bytes ↔
      ∃ h l octets, value? high = some h ∧ value? low = some l ∧ decode? rest = some octets ∧
        UInt8.ofNat (16 * h + l) :: octets = bytes := by
  simp only [decode?, Option.bind_eq_bind, Option.bind_eq_some_iff, Option.pure_def,
    Option.some.injEq]
  grind

theorem decode?_encode (bytes : Bytes) : decode? (encode bytes) = some bytes := by
  induction bytes with
  | nil => rfl
  | cons octet rest ih =>
    have bound : octet.toNat < 256 := octet.toNat_lt
    have high : value? (digit (octet.toNat / 16)) = some (octet.toNat / 16) :=
      value?_digit (by omega)
    have low : value? (digit (octet.toNat % 16)) = some (octet.toNat % 16) :=
      value?_digit (by omega)
    refine decode?_cons_cons_eq_some_iff.mpr ⟨_, _, rest, high, low, ih, ?_⟩
    rw [Nat.div_add_mod, UInt8.ofNat_toNat]

theorem encode_of_decode? {text : List Char} {bytes : Bytes} (read : decode? text = some bytes) :
    encode bytes = text.map Char.toLower := by
  fun_induction decode? text generalizing bytes with
  | case1 =>
    obtain rfl := Option.some.inj read
    rfl
  | case2 => cases read
  | case3 high low rest ih =>
    obtain ⟨h, l, octets, first, second, others, rfl⟩ := decode?_cons_cons_eq_some_iff.mp read
    obtain ⟨hSmall, hDigit⟩ := digit_of_value? first
    obtain ⟨lSmall, lDigit⟩ := digit_of_value? second
    have value : (UInt8.ofNat (16 * h + l)).toNat = 16 * h + l :=
      UInt8.toNat_ofNat_of_lt' (show 16 * h + l < 256 by omega)
    rw [encode, List.flatMap_cons, ← encode, ih others, ofOctet, value,
      Nat.mul_add_div (by decide), Nat.div_eq_of_lt lSmall, Nat.mul_add_mod,
      Nat.mod_eq_of_lt lSmall, Nat.add_zero, hDigit, lDigit]
    rfl

theorem length_of_decode? {text : List Char} {bytes : Bytes} (read : decode? text = some bytes) :
    text.length = 2 * bytes.length := by
  rw [← length_encode, encode_of_decode? read, List.length_map]

/-- Octets are spelled by digits in pairs, and by nothing else. -/
theorem exists_decode?_iff {text : List Char} :
    (∃ bytes, decode? text = some bytes) ↔ text.length % 2 = 0 ∧ ∀ c ∈ text, IsDigit c := by
  fun_induction decode? text with
  | case1 => exact iff_of_true ⟨[], rfl⟩ ⟨rfl, List.forall_mem_nil _⟩
  | case2 c => exact iff_of_false (by rintro ⟨bytes, ⟨⟩⟩) (by rintro ⟨⟨⟩, -⟩)
  | case3 high low rest ih =>
    rw [List.length_cons, List.length_cons, Nat.add_assoc, Nat.add_mod_right, List.forall_mem_cons,
      List.forall_mem_cons, ← exists_value?_iff, ← exists_value?_iff]
    constructor
    · rintro ⟨bytes, read⟩
      obtain ⟨h, l, octets, first, second, others, -⟩ := decode?_cons_cons_eq_some_iff.mp read
      obtain ⟨even, digits⟩ := ih.mp ⟨octets, others⟩
      exact ⟨even, ⟨h, first⟩, ⟨l, second⟩, digits⟩
    · rintro ⟨even, ⟨h, first⟩, ⟨l, second⟩, digits⟩
      obtain ⟨octets, others⟩ := ih.mpr ⟨even, digits⟩
      exact ⟨_, decode?_cons_cons_eq_some_iff.mpr ⟨h, l, octets, first, second, others, rfl⟩⟩

/-- A text of hexadecimal digits has as many octets as characters. -/
theorem utf8ByteSize_of_isDigit {content : String} (digits : ∀ c ∈ content.toList, IsDigit c) :
    content.utf8ByteSize = content.toList.length := by
  have octets : ∀ text : List Char, (∀ c ∈ text, IsDigit c) →
      String.utf8Len text = text.length := by
    intro text
    induction text with
    | nil => exact fun _ => rfl
    | cons c rest ih =>
      intro digits
      obtain ⟨here, others⟩ := List.forall_mem_cons.mp digits
      rw [String.utf8Len_cons, ih others, here.utf8Size_eq, List.length_cons]
  rw [← octets _ digits, ← String.utf8ByteSize_ofList, String.ofList_toList]

end PeerDiscovery.Hex
