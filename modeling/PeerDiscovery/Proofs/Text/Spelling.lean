import Mathlib.Algebra.Group.Int.Defs
import Mathlib.Algebra.Group.Nat.Defs
import Mathlib.Data.List.Induction
import PeerDiscovery.Proofs.Text.Numeral

/-!
# Spellings of numbers

A number has one shortest spelling and, by leading zeros, many longer ones. The readers of numerals
take all of them, and nothing but digits behind a sign: `magnitude_eq_ok_iff` says so for the
digits, `readNat_eq_ok_iff` for a number without a sign, and one lemma for each sign for an integer.
`Digits.eq_ofNat` picks out the spelling that is written. -/

namespace PeerDiscovery.Numeral

/-- One or more decimal digits, leading zeros allowed. -/
structure Digits (text : List Char) : Prop where
  ne_nil : text ≠ []
  isDigit : ∀ c ∈ text, c.isDigit = true

/-- The number that digits spell. -/
def value (digits : List Char) : Nat := Nat.ofDigitChars 10 digits 0

/-- A zero leads other digits. -/
def Padded (digits : List Char) : Prop := digits.head? = some '0' ∧ 1 < digits.length

/-! ## Digits -/

section Digits

variable {limit n : Nat} {overflow : Fault} {text digits : List Char}

/-- Only digits are read. -/
theorem isDigit_of_magnitude {start : Nat} (read : magnitude limit overflow start text = .ok n) :
    ∀ c ∈ text, c.isDigit = true := by
  induction text generalizing start with
  | nil => exact List.forall_mem_nil _
  | cons c rest ih =>
    rw [magnitude] at read
    split at read
    · cases read
    · rename_i d digit
      split at read
      · cases read
      · have here : c.isDigit = true := by
          rw [digit?, Option.ite_none_right_eq_some] at digit
          exact digit.1
        exact List.forall_mem_cons.mpr ⟨here, ih read⟩

/-- Digits are read exactly if they spell a number up to the limit. -/
theorem magnitude_eq_ok_iff :
    magnitude limit overflow 0 text = .ok n ↔
      (∀ c ∈ text, c.isDigit = true) ∧ value text = n ∧ n ≤ limit := by
  constructor
  · intro read
    have digits := isDigit_of_magnitude read
    have small := le_of_magnitude (Nat.zero_le _) read
    rw [magnitude_eq overflow digits (Nat.zero_le _)] at read
    split at read
    · cases read
    · exact ⟨digits, Except.ok.inj read, small⟩
  · intro given
    rcases given with ⟨digits, rfl, small⟩
    rw [magnitude_eq overflow digits (Nat.zero_le _)]
    exact if_neg (Nat.not_lt_of_le small)

theorem Digits.of_cons {c : Char} (spelled : Digits (c :: digits)) : c.isDigit = true :=
  spelled.isDigit c List.mem_cons_self

theorem Digits.ofNat (n : Nat) : Digits (ofNat n) := ⟨ofNat_ne_nil n, fun _ => isDigit_of_mem_ofNat⟩

/-- A number that is written out spells itself. -/
theorem value_ofNat (n : Nat) : value (ofNat n) = n := Nat.ofDigitChars_ten_toDigits

theorem digitChar_of_isDigit {c : Char} (digit : c.isDigit = true) :
    c.toNat - '0'.toNat < 10 ∧ (c.toNat - '0'.toNat).digitChar = c := by
  obtain ⟨low, high⟩ := Char.isDigit_iff_toNat.mp digit
  change 48 ≤ c.toNat at low
  change c.toNat ≤ 57 at high
  have small : c.toNat - '0'.toNat < 10 := by
    change c.toNat - 48 < 10
    omega
  refine ⟨small, Char.toNat_inj.mp ?_⟩
  rw [Nat.toNat_digitChar_of_lt_ten small]
  change 48 + (c.toNat - 48) = c.toNat
  omega

/-- A further digit makes those before it count ten times as much. -/
theorem value_append_singleton (front : List Char) (c : Char) :
    value (front ++ [c]) = 10 * value front + (c.toNat - '0'.toNat) := by
  rw [value, Nat.ofDigitChars_append, Nat.ofDigitChars_cons, Nat.ofDigitChars_nil]
  rfl

/-- Digits that no superfluous zero leads are the ones that are written. -/
theorem Digits.eq_ofNat (spelled : Digits digits) (short : ¬ Padded digits) :
    digits = Numeral.ofNat (value digits) := by
  induction digits using List.reverseRecOn with
  | nil => exact absurd rfl spelled.ne_nil
  | append_singleton front c ih =>
    obtain ⟨small, last⟩ := digitChar_of_isDigit (spelled.isDigit c (by simp))
    have total := value_append_singleton front c
    cases front with
    | nil =>
      have alone : value ([] ++ [c]) = c.toNat - '0'.toNat := by
        rw [total]
        exact Nat.zero_add _
      rw [alone, Numeral.ofNat, Nat.toDigits_of_lt_base small, last]
      rfl
    | cons first rest =>
      have noZero : first ≠ '0' := by
        rintro rfl
        exact short ⟨rfl, by simp⟩
      have before := ih
        ⟨List.cons_ne_nil _ _, fun c member => spelled.isDigit c (List.mem_append_left _ member)⟩
        (fun padded => noZero (Option.some.inj padded.1))
      -- the digits in front do not spell zero, so one more digit moves them one place up
      have positive : value (first :: rest) ≠ 0 := by
        intro zero
        rw [zero] at before
        exact noZero (List.head_eq_of_cons_eq before)
      rw [total, Numeral.ofNat, Nat.toDigits_eq_if (by decide), if_neg (by omega),
        Nat.mul_add_div (by decide), Nat.mul_add_mod, Nat.div_eq_of_lt small,
        Nat.mod_eq_of_lt small, Nat.add_zero, last, ← Numeral.ofNat, ← before]

/-- Digits spell less than the power of ten with as many zeros. -/
theorem value_lt_pow (spelled : ∀ c ∈ digits, c.isDigit = true) :
    value digits < 10 ^ digits.length := by
  induction digits using List.reverseRecOn with
  | nil => decide
  | append_singleton front c ih =>
    obtain ⟨small, -⟩ := digitChar_of_isDigit (spelled c (by simp))
    have before := ih fun c member => spelled c (List.mem_append_left _ member)
    rw [value_append_singleton, List.length_append, List.length_singleton, Nat.pow_succ]
    omega

/-- No digits that spell a number are fewer than those that are written. -/
theorem Digits.length_ofNat_le (spelled : Digits digits) :
    (Numeral.ofNat (value digits)).length ≤ digits.length :=
  (Nat.length_toDigits_le_iff (by decide) (List.length_pos_iff.mpr spelled.ne_nil)).mpr
    (value_lt_pow spelled.isDigit)

end Digits

/-! ## Signs -/

section Signs

variable {limit n : Nat} {text : List Char} {i : Int}

/-- Without a sign the digits are the whole text. -/
theorem readNat_of_head?_ne (some : text ≠ []) (unsigned : text.head? ≠ Option.some '+') :
    readNat limit text = magnitude limit .tooLarge 0 text := by
  unfold readNat
  split
  · exact absurd rfl some
  · exact absurd rfl unsigned
  · exact absurd rfl unsigned
  · rfl

/-- Behind a first character that is no sign, the digits are read as they are. -/
theorem readNat_eq_ok_iff (unsigned : text.head? ≠ some '+') :
    readNat limit text = .ok n ↔ Digits text ∧ value text = n ∧ n ≤ limit := by
  by_cases nothing : text = []
  · subst nothing
    refine iff_of_false (by rintro ⟨⟩) fun given => given.1.ne_nil rfl
  · rw [readNat_of_head?_ne nothing unsigned, magnitude_eq_ok_iff]
    constructor
    · intro given
      rcases given with ⟨digits, rest⟩
      exact ⟨⟨nothing, digits⟩, rest⟩
    · intro given
      exact ⟨given.1.isDigit, given.2⟩

/-- A sign before the digits does not matter for whether they are read. -/
theorem map_magnitude_eq_ok_iff {overflow : Fault} (sign : Nat → Int) (some : text ≠ []) :
    (magnitude limit overflow 0 text).map sign = .ok i ↔
      Digits text ∧ value text ≤ limit ∧ sign (value text) = i := by
  cases read : magnitude limit overflow 0 text with
  | error fault =>
    refine iff_of_false (by rintro ⟨⟩) ?_
    intro given
    rcases given with ⟨digits, small, -⟩
    have good : magnitude limit overflow 0 text = .ok (value text) :=
      magnitude_eq_ok_iff.mpr ⟨digits.isDigit, rfl, small⟩
    rw [read] at good
    cases good
  | ok n =>
    obtain ⟨digits, rfl, small⟩ := magnitude_eq_ok_iff.mp read
    constructor
    · intro same
      exact ⟨⟨some, digits⟩, small, Except.ok.inj same⟩
    · intro given
      exact congrArg Except.ok given.2.2

/-- Behind a plus sign, digits are read up to the largest word. -/
theorem readInt64_plus_eq_ok_iff {digits : List Char} :
    readInt64 ('+' :: digits) = .ok i ↔
      Digits digits ∧ value digits ≤ maxInt64 ∧ Int.ofNat (value digits) = i := by
  cases digits with
  | nil => exact iff_of_false (by rintro ⟨⟩) fun given => given.1.ne_nil rfl
  | cons c rest => exact map_magnitude_eq_ok_iff Int.ofNat (List.cons_ne_nil c rest)

/-- Behind a minus sign they are read up to one more. -/
theorem readInt64_minus_eq_ok_iff {digits : List Char} :
    readInt64 ('-' :: digits) = .ok i ↔
      Digits digits ∧ value digits ≤ maxInt64 + 1 ∧ -Int.ofNat (value digits) = i := by
  cases digits with
  | nil => exact iff_of_false (by rintro ⟨⟩) fun given => given.1.ne_nil rfl
  | cons c rest =>
    exact map_magnitude_eq_ok_iff (fun n => -Int.ofNat n) (List.cons_ne_nil c rest)

/-- Without a sign they are read as behind a plus sign. -/
theorem readInt64_unsigned_eq_ok_iff (noPlus : text.head? ≠ some '+')
    (noMinus : text.head? ≠ some '-') :
    readInt64 text = .ok i ↔
      Digits text ∧ value text ≤ maxInt64 ∧ Int.ofNat (value text) = i := by
  by_cases nothing : text = []
  · subst nothing
    exact iff_of_false (by rintro ⟨⟩) fun given => given.1.ne_nil rfl
  · have unsigned : readInt64 text = (magnitude maxInt64 .tooLarge 0 text).map Int.ofNat := by
      unfold readInt64
      split
      · exact absurd rfl nothing
      · exact absurd rfl noPlus
      · exact absurd rfl noMinus
      · exact absurd rfl noPlus
      · exact absurd rfl noMinus
      · rfl
    rw [unsigned]
    exact map_magnitude_eq_ok_iff Int.ofNat nothing

/-- A text starts with a plus sign, with a minus sign, or with no sign. -/
theorem sign_cases (text : List Char) :
    (∃ digits, text = '+' :: digits) ∨ (∃ digits, text = '-' :: digits) ∨
      text.head? ≠ some '+' ∧ text.head? ≠ some '-' := by
  by_cases plus : text.head? = some '+'
  · exact Or.inl (List.head?_eq_some_iff.mp plus)
  by_cases minus : text.head? = some '-'
  · exact Or.inr (Or.inl (List.head?_eq_some_iff.mp minus))
  · exact Or.inr (Or.inr ⟨plus, minus⟩)

/-- What is read as a 64-bit integer is one. -/
theorem bounds_of_readInt64 {text : List Char} {i : Int} (read : readInt64 text = .ok i) :
    -2 ^ 63 ≤ i ∧ i < 2 ^ 63 := by
  have bound : maxInt64 = 2 ^ 63 - 1 := rfl
  rcases sign_cases text with ⟨digits, rfl⟩ | ⟨digits, rfl⟩ | ⟨noPlus, noMinus⟩
  · obtain ⟨-, small, rfl⟩ := readInt64_plus_eq_ok_iff.mp read
    rw [Int.ofNat_eq_natCast]
    omega
  · obtain ⟨-, small, rfl⟩ := readInt64_minus_eq_ok_iff.mp read
    rw [Int.ofNat_eq_natCast]
    omega
  · obtain ⟨-, small, rfl⟩ := (readInt64_unsigned_eq_ok_iff noPlus noMinus).mp read
    rw [Int.ofNat_eq_natCast]
    omega

end Signs

end PeerDiscovery.Numeral
