import Mathlib.Data.Nat.Bitwise
import PeerDiscovery.Bytes

/-!
# Octet strings as numbers

Among octet strings of one length, big-endian reading is a bijection onto the numbers that fit. It
takes the order octet by octet from the left to the order of the numbers, and the exclusive or octet
by octet to the exclusive or of the numbers. Both hold one octet at a time: the leading octet stands
above a power of two that the rest stays below, so nothing is ever carried between them.
-/

namespace PeerDiscovery.Bytes

/-! ## The leading octet and the rest -/

theorem foldl_toNat (bytes : Bytes) (value : Nat) :
    bytes.foldl (fun value octet => 256 * value + octet.toNat) value =
      2 ^ (8 * bytes.length) * value + bytes.toNat := by
  induction bytes generalizing value with
  | nil => simp [toNat]
  | cons octet rest ih =>
    rw [toNat, List.foldl_cons, List.foldl_cons, ih, ih (256 * 0 + octet.toNat), List.length_cons,
      Nat.mul_succ, Nat.pow_add, Nat.mul_zero, Nat.zero_add, Nat.mul_add, ← Nat.mul_assoc,
      Nat.add_assoc]

theorem toNat_cons (octet : UInt8) (rest : Bytes) :
    toNat (octet :: rest) = 2 ^ (8 * rest.length) * octet.toNat + rest.toNat := by
  rw [toNat, List.foldl_cons, foldl_toNat, Nat.mul_zero, Nat.zero_add]

/-- A number has one place less to fill below its leading digit. -/
theorem lt_pow_succ_iff {value size : Nat} :
    value < 2 ^ (8 * (size + 1)) ↔ value / 2 ^ (8 * size) < 256 := by
  rw [Nat.div_lt_iff_lt_mul (Nat.two_pow_pos _), Nat.mul_succ, Nat.pow_add, Nat.mul_comm]

theorem toNat_lt (bytes : Bytes) : bytes.toNat < 2 ^ (8 * bytes.length) := by
  induction bytes with
  | nil => exact Nat.one_pos
  | cons octet rest ih =>
    rw [toNat_cons, List.length_cons, lt_pow_succ_iff, Nat.mul_add_div (Nat.two_pow_pos _),
      Nat.div_eq_of_lt ih]
    exact octet.toNat_lt

/-- Every number that fits is written in exactly the given number of octets. -/
theorem exists_toNat_eq {size value : Nat} (fits : value < 2 ^ (8 * size)) :
    ∃ bytes : Bytes, bytes.length = size ∧ bytes.toNat = value := by
  induction size generalizing value with
  | zero =>
    obtain rfl : value = 0 := Nat.lt_one_iff.mp fits
    exact ⟨[], rfl, rfl⟩
  | succ size ih =>
    obtain ⟨rest, rfl, low⟩ := ih (Nat.mod_lt value (Nat.two_pow_pos (8 * size)))
    refine ⟨UInt8.ofNat (value / 2 ^ (8 * rest.length)) :: rest, rfl, ?_⟩
    rw [toNat_cons, low, UInt8.toNat_ofNat_of_lt' (lt_pow_succ_iff.mp fits), Nat.div_add_mod]

/-- Induction over two octet strings of one length, from the last octets to the first. -/
@[elab_as_elim]
theorem induction_of_length_eq {motive : (a b : Bytes) → a.length = b.length → Prop}
    (nil : motive [] [] rfl)
    (cons : ∀ {octet octet' : UInt8} {rest rest' : Bytes} (same : rest.length = rest'.length),
      motive rest rest' same → motive (octet :: rest) (octet' :: rest') (congrArg Nat.succ same))
    (a b : Bytes) (same : a.length = b.length) : motive a b same := by
  induction a generalizing b with
  | nil =>
    obtain rfl : b = [] := List.eq_nil_of_length_eq_zero same.symm
    exact nil
  | cons octet rest ih =>
    cases b with
    | nil => cases same
    | cons octet' rest' => exact cons (Nat.succ.inj same) (ih rest' (Nat.succ.inj same))

/-! ## Order -/

/-- Numbers are compared by their leading parts first. -/
theorem compare_mul_add {bound high high' low low' : Nat} (fits : low < bound)
    (fits' : low' < bound) :
    compare (bound * high + low) (bound * high' + low') =
      (compare high high').then (compare low low') := by
  rcases Nat.lt_trichotomy high high' with below | rfl | above
  · rw [Nat.compare_eq_lt.mpr below, Ordering.lt_then, Nat.compare_eq_lt]
    have room := Nat.mul_le_mul_left bound below
    rw [Nat.mul_succ] at room
    omega
  · rw [Nat.compare_eq_eq.mpr rfl, Ordering.eq_then]
    simp only [Nat.compare_eq_ite_lt, Nat.add_lt_add_iff_left]
  · rw [Nat.compare_eq_gt.mpr above, Ordering.gt_then, Nat.compare_eq_gt]
    have room := Nat.mul_le_mul_left bound above
    rw [Nat.mul_succ] at room
    omega

/-- Octet strings of one length are ordered as the numbers they write. -/
theorem compare_eq_compare_toNat {a b : Bytes} (same : a.length = b.length) :
    compare a b = compare a.toNat b.toNat := by
  induction a, b, same using induction_of_length_eq with
  | nil => rfl
  | @cons _ _ rest rest' same ih =>
    rw [List.compare_cons_cons, UInt8.compare_eq_toNat_compare_toNat, ih, toNat_cons, toNat_cons,
      same]
    exact (compare_mul_add (same ▸ toNat_lt rest) (toNat_lt rest')).symm

theorem toNat_inj {a b : Bytes} (same : a.length = b.length) : a.toNat = b.toNat ↔ a = b := by
  rw [← Nat.compare_eq_eq, ← compare_eq_compare_toNat same, Std.LawfulEqOrd.compare_eq_iff_eq]

/-! ## Exclusive or -/

/-- An exclusive or is a sum without its carries. -/
theorem xor_le_add (a b : Nat) : a ^^^ b ≤ a + b := by
  induction a using Nat.strongRecOn generalizing b with
  | _ a ih =>
    obtain rfl | positive := Nat.eq_zero_or_pos a
    · rw [Nat.zero_xor, Nat.zero_add]
    · have halves : (a ^^^ b) / 2 ≤ a / 2 + b / 2 := by
        rw [Nat.xor_div_two]
        exact ih (a / 2) (Nat.div_lt_self positive Nat.one_lt_two) (b / 2)
      have last : (a ^^^ b) % 2 = (a + b) % 2 := Nat.xor_mod_two_eq
      omega

theorem xor_two_pow_mul_add {size high high' low low' : Nat} (fits : low < 2 ^ size)
    (fits' : low' < 2 ^ size) :
    (2 ^ size * high + low) ^^^ (2 ^ size * high' + low') =
      2 ^ size * (high ^^^ high') + (low ^^^ low') := by
  apply Nat.eq_of_testBit_eq
  intro place
  rw [Nat.testBit_xor, Nat.testBit_two_pow_mul_add _ fits, Nat.testBit_two_pow_mul_add _ fits',
    Nat.testBit_two_pow_mul_add _ (Nat.xor_lt_two_pow fits fits')]
  split <;> rw [Nat.testBit_xor]

/-- The exclusive or of octet strings of one length writes that of the numbers. -/
theorem toNat_zipWith_xor {a b : Bytes} (same : a.length = b.length) :
    toNat (List.zipWith (· ^^^ ·) a b) = a.toNat ^^^ b.toNat := by
  induction a, b, same using induction_of_length_eq with
  | nil => rfl
  | @cons _ _ rest rest' same ih =>
    rw [List.zipWith_cons_cons, toNat_cons, List.length_zipWith, ← same, Nat.min_self, ih,
      UInt8.toNat_xor, toNat_cons, toNat_cons, ← same]
    exact (xor_two_pow_mul_add (toNat_lt rest) (same ▸ toNat_lt rest')).symm

/-- The exclusive or with one string takes itself back. -/
theorem zipWith_xor_cancel {a b : Bytes} (same : a.length = b.length) :
    List.zipWith (· ^^^ ·) a (List.zipWith (· ^^^ ·) a b) = b := by
  induction a, b, same using induction_of_length_eq with
  | nil => rfl
  | cons same ih =>
    rw [List.zipWith_cons_cons, List.zipWith_cons_cons, ih, ← UInt8.xor_assoc, UInt8.xor_self,
      UInt8.zero_xor]

end PeerDiscovery.Bytes
