import PeerDiscovery.Text.Numeral

/-!
# Numerals read back

Digits are read from the left into a value that only grows, so a limit is exceeded on the way
exactly if it is exceeded at the end (`magnitude_eq`). What is written in shortest digits reads back
as long as it lies within the limit.
-/

namespace PeerDiscovery.Numeral

/-! ## Digits -/

theorem digit?_of_isDigit {c : Char} (digit : c.isDigit = true) :
    digit? c = some (c.toNat - '0'.toNat) := by
  rw [digit?, if_pos digit]

theorem le_ofDigitChars (value : Nat) (digits : List Char) :
    value ≤ Nat.ofDigitChars 10 digits value := by
  induction digits generalizing value with
  | nil => exact Nat.le_of_eq Nat.ofDigitChars_nil.symm
  | cons c rest ih =>
    rw [Nat.ofDigitChars_cons]
    have grown := ih (10 * value + (c.toNat - '0'.toNat))
    omega

theorem magnitude_eq {limit value : Nat} (overflow : Fault) {text : List Char}
    (digits : ∀ c ∈ text, c.isDigit = true) (start : value ≤ limit) :
    magnitude limit overflow value text =
      if limit < Nat.ofDigitChars 10 text value then .error overflow
      else .ok (Nat.ofDigitChars 10 text value) := by
  induction text generalizing value with
  | nil => rw [magnitude, Nat.ofDigitChars_nil, if_neg (Nat.not_lt_of_le start)]
  | cons c rest ih =>
    have others : ∀ c ∈ rest, c.isDigit = true := fun c member =>
      digits c (List.mem_cons_of_mem _ member)
    rw [magnitude, digit?_of_isDigit (digits c List.mem_cons_self), Nat.ofDigitChars_cons]
    dsimp only
    split
    · rename_i high
      have higher := le_ofDigitChars (10 * value + (c.toNat - '0'.toNat)) rest
      rw [if_pos (Nat.lt_of_lt_of_le high higher)]
    · rename_i low
      exact ih others (Nat.le_of_not_lt low)

theorem le_of_magnitude {limit value n : Nat} {overflow : Fault} {text : List Char}
    (start : value ≤ limit) (read : magnitude limit overflow value text = .ok n) : n ≤ limit := by
  induction text generalizing value with
  | nil =>
    obtain rfl := Except.ok.inj read
    exact start
  | cons c rest ih =>
    rw [magnitude] at read
    split at read
    · cases read
    split at read
    · cases read
    · rename_i low
      exact ih (Nat.le_of_not_lt low) read

/-! ## Natural numbers -/

theorem le_of_readNat {limit n : Nat} {text : List Char} (read : readNat limit text = .ok n) :
    n ≤ limit := by
  unfold readNat at read
  split at read
  · cases read
  · cases read
  · exact le_of_magnitude (Nat.zero_le _) read
  · exact le_of_magnitude (Nat.zero_le _) read

theorem isDigit_of_mem_ofNat {n : Nat} {c : Char} (member : c ∈ ofNat n) : c.isDigit = true :=
  Nat.isDigit_of_mem_toDigits (by decide) (by decide) member

theorem ofNat_ne_nil (n : Nat) : ofNat n ≠ [] := Nat.toDigits_ne_nil

/-- Shortest digits start with a zero only for zero itself. -/
theorem eq_zero_of_head?_ofNat {n : Nat} (zero : (ofNat n).head? = some '0') : n = 0 := by
  induction n using Nat.strongRecOn with
  | ind n ih =>
    rw [ofNat, Nat.toDigits_eq_if (by decide)] at zero
    split at zero
    · simpa using zero
    · rename_i large
      have shorter : n / 10 < n := Nat.div_lt_self (by omega) (by decide)
      rw [List.head?_append, List.head?_eq_some_head Nat.toDigits_ne_nil, Option.some_or,
        ← List.head?_eq_some_head] at zero
      have small := ih (n / 10) shorter zero
      omega

theorem toNat_of_mem_ofNat {n : Nat} {c : Char} (member : c ∈ ofNat n) :
    '0'.toNat ≤ c.toNat ∧ c.toNat ≤ '9'.toNat :=
  Char.isDigit_iff_toNat.mp (isDigit_of_mem_ofNat member)

theorem magnitude_ofNat {limit n : Nat} (overflow : Fault) (small : n ≤ limit) :
    magnitude limit overflow 0 (ofNat n) = .ok n := by
  rw [magnitude_eq overflow (fun _ => isDigit_of_mem_ofNat) (Nat.zero_le _), ofNat,
    Nat.ofDigitChars_ten_toDigits, if_neg (Nat.not_lt_of_le small)]

/-- A text of digits starts with no sign. -/
theorem readNat_of_isDigit {limit : Nat} {text : List Char} (some : text ≠ [])
    (digits : ∀ c ∈ text, c.isDigit = true) :
    readNat limit text = magnitude limit .tooLarge 0 text := by
  unfold readNat
  split
  · exact absurd rfl some
  · exact absurd (digits '+' (by simp)) (by decide)
  · exact absurd (digits '+' (by simp)) (by decide)
  · rfl

theorem readNat_ofNat {limit n : Nat} (small : n ≤ limit) : readNat limit (ofNat n) = .ok n := by
  rw [readNat_of_isDigit (ofNat_ne_nil n) fun _ => isDigit_of_mem_ofNat, magnitude_ofNat _ small]

/-! ## Integers -/

theorem readInt64_of_isDigit {text : List Char} (some : text ≠ [])
    (digits : ∀ c ∈ text, c.isDigit = true) :
    readInt64 text = (magnitude maxInt64 .tooLarge 0 text).map Int.ofNat := by
  unfold readInt64
  split
  · exact absurd rfl some
  · exact absurd (digits '+' (by simp)) (by decide)
  · exact absurd (digits '-' (by simp)) (by decide)
  · exact absurd (digits '+' (by simp)) (by decide)
  · exact absurd (digits '-' (by simp)) (by decide)
  · rfl

theorem readInt64_negative {digits : List Char} (some : digits ≠ []) :
    readInt64 ('-' :: digits) =
      (magnitude (maxInt64 + 1) .tooSmall 0 digits).map fun n => -Int.ofNat n := by
  cases digits with
  | nil => exact absurd rfl some
  | cons c rest => rfl

theorem readInt64_ofInt (number : Int64) : readInt64 (ofInt number.toInt) = .ok number.toInt := by
  have low := number.le_toInt
  have high := number.toInt_lt
  have bound : maxInt64 = 9223372036854775807 := rfl
  cases value : number.toInt with
  | ofNat n =>
    rw [value, Int.ofNat_eq_natCast] at high
    have small : n ≤ maxInt64 := by omega
    rw [ofInt, readInt64_of_isDigit (ofNat_ne_nil n) fun _ => isDigit_of_mem_ofNat,
      magnitude_ofNat _ small]
    rfl
  | negSucc n =>
    rw [value] at low
    have small : n + 1 ≤ maxInt64 + 1 := by omega
    rw [ofInt, readInt64_negative (ofNat_ne_nil _), magnitude_ofNat _ small]
    rfl

/-- Integers are written in digits and a minus sign. -/
theorem toNat_of_mem_ofInt {number : Int} {c : Char} (member : c ∈ ofInt number) :
    c.toNat ≤ '9'.toNat := by
  cases number with
  | ofNat n => exact (toNat_of_mem_ofNat member).2
  | negSucc n =>
    rcases List.mem_cons.mp member with rfl | digit
    · decide
    · exact (toNat_of_mem_ofNat digit).2

end PeerDiscovery.Numeral
