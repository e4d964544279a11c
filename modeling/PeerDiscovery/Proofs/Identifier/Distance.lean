import PeerDiscovery.Proofs.Bytes
import PeerDiscovery.Proofs.Identifier.Metric

/-!
# Distances as numbers

Twenty octets write a number of 160 bits. The distance of two identifiers writes the exclusive or of
their numbers, so it is a metric in which every identifier has exactly one other at each distance;
and distances, which compare octet by octet, compare as numbers. Only the distance zero is never
handed out: an identifier has no distance to itself.
-/

namespace PeerDiscovery.Distance

variable {a b c : Bytes} {distance : Distance}

/-! ## The number of a distance -/

/-- A distance is a number of 160 bits. -/
theorem toNat_lt (distance : Distance) : distance.toNat < 2 ^ 160 := by
  have fits := Bytes.toNat_lt distance.bytes
  rwa [distance.length_eq] at fits

/-- Every number of 160 bits is a distance. -/
theorem exists_toNat_eq {value : Nat} (fits : value < 2 ^ 160) :
    ∃ distance : Distance, distance.toNat = value := by
  obtain ⟨bytes, size, written⟩ := Bytes.exists_toNat_eq (show value < 2 ^ (8 * 20) from fits)
  exact ⟨⟨bytes, size⟩, written⟩

/-- Distances are told apart by their numbers. -/
theorem toNat_inj {distance other : Distance} :
    distance.toNat = other.toNat ↔ distance = other := by
  rw [toNat, toNat, Bytes.toNat_inj (distance.length_eq.trans other.length_eq.symm)]
  exact ⟨ext, congrArg bytes⟩

theorem toNat_zero : toNat zero = 0 := rfl

/-- Distances are compared as their numbers are. -/
theorem compare_eq_compare_toNat (distance other : Distance) :
    compare distance other = compare distance.toNat other.toNat :=
  Bytes.compare_eq_compare_toNat (distance.length_eq.trans other.length_eq.symm)

/-! ## The distance of two octet strings -/

/-- Two strings are apart exactly if both have 20 octets and they differ, and then the distance is
their exclusive or. -/
theorem between_eq_ok_iff :
    between a b = .ok distance ↔
      a.length = 20 ∧ b.length = 20 ∧ a ≠ b ∧ List.zipWith (· ^^^ ·) a b = distance.bytes := by
  unfold between
  split
  · rename_i fits
    split
    · rename_i same
      exact iff_of_false (by rintro ⟨⟩) fun ⟨_, _, distinct, _⟩ => distinct same
    · rename_i distinct
      rw [Except.ok.injEq]
      exact ⟨fun here => ⟨fits.1, fits.2, distinct, congrArg bytes here⟩,
        fun ⟨_, _, _, here⟩ => ext here⟩
  · rename_i unfit
    exact iff_of_false (by rintro ⟨⟩) fun ⟨fitsA, fitsB, _⟩ => unfit ⟨fitsA, fitsB⟩

/-- A string is at no distance from itself. -/
theorem between_self (fits : a.length = 20) : between a a = .error .identical := by
  rw [between, dif_pos ⟨fits, fits⟩, if_pos rfl]

/-- Strings of any other length are refused, and the error says their lengths. -/
theorem between_of_unfit (unfit : ¬(a.length = 20 ∧ b.length = 20)) :
    between a b = .error (.wrongLength a.length b.length) :=
  dif_neg unfit

/-- Different strings of 20 octets are apart. -/
theorem exists_between (fitsA : a.length = 20) (fitsB : b.length = 20) (distinct : a ≠ b) :
    ∃ distance, between a b = .ok distance := by
  refine ⟨⟨List.zipWith (· ^^^ ·) a b, ?_⟩, between_eq_ok_iff.mpr ⟨fitsA, fitsB, distinct, rfl⟩⟩
  rw [List.length_zipWith, fitsA, fitsB, Nat.min_self]

/-- The number of a distance is the exclusive or of the two numbers. -/
theorem toNat_eq_xor (apart : between a b = .ok distance) :
    distance.toNat = a.toNat ^^^ b.toNat := by
  obtain ⟨fitsA, fitsB, -, here⟩ := between_eq_ok_iff.mp apart
  rw [toNat, ← here, Bytes.toNat_zipWith_xor (fitsA.trans fitsB.symm)]

/-- No distance is zero. -/
theorem toNat_ne_zero (apart : between a b = .ok distance) : distance.toNat ≠ 0 := by
  obtain ⟨fitsA, fitsB, distinct, -⟩ := between_eq_ok_iff.mp apart
  rw [toNat_eq_xor apart, Ne, Nat.xor_eq_zero_iff, Bytes.toNat_inj (fitsA.trans fitsB.symm)]
  exact distinct

/-- A distance is the same from either side. -/
theorem between_comm (fitsA : a.length = 20) (fitsB : b.length = 20) :
    between a b = between b a := by
  obtain rfl | distinct := eq_or_ne a b
  · rfl
  · obtain ⟨distance, apart⟩ := exists_between fitsA fitsB distinct
    obtain ⟨other, apart'⟩ := exists_between fitsB fitsA distinct.symm
    have same : distance = other := by
      rw [← toNat_inj, toNat_eq_xor apart, toNat_eq_xor apart', Nat.xor_comm]
    rw [apart, apart', same]

/-- The way over a third identifier is no shorter. -/
theorem toNat_le_add {ab bc ac : Distance} (first : between a b = .ok ab)
    (second : between b c = .ok bc) (whole : between a c = .ok ac) :
    ac.toNat ≤ ab.toNat + bc.toNat := by
  have through : a.toNat ^^^ c.toNat = (a.toNat ^^^ b.toNat) ^^^ (b.toNat ^^^ c.toNat) := by
    rw [Nat.xor_assoc, Nat.xor_xor_cancel_left]
  rw [toNat_eq_xor first, toNat_eq_xor second, toNat_eq_xor whole, through]
  exact Bytes.xor_le_add _ _

/-- The identifier at a given distance is the exclusive or with it. -/
theorem eq_zipWith_of_between (apart : between a b = .ok distance) :
    b = List.zipWith (· ^^^ ·) a distance.bytes := by
  obtain ⟨fitsA, fitsB, -, here⟩ := between_eq_ok_iff.mp apart
  rw [← here, Bytes.zipWith_xor_cancel (fitsA.trans fitsB.symm)]

/-- At each distance from a string there is another one, which is found by exclusive or. -/
theorem between_zipWith (fits : a.length = 20) (apart : distance ≠ zero) :
    between a (List.zipWith (· ^^^ ·) a distance.bytes) = .ok distance := by
  have size : a.length = distance.bytes.length := fits.trans distance.length_eq.symm
  have back := Bytes.zipWith_xor_cancel size
  refine between_eq_ok_iff.mpr ⟨fits, ?_, fun same => apart ?_, back⟩
  · rw [List.length_zipWith, ← size, Nat.min_self, fits]
  · -- Were the other identifier the same one, the distance would be zero.
    rw [← same] at back
    rw [← toNat_inj, toNat, ← back, Bytes.toNat_zipWith_xor rfl, Nat.xor_self, toNat_zero]

/-- Nothing else stands where one identifier stands relative to a target. -/
theorem between_left_injective (fitsB : b.length = 20) (fitsC : c.length = 20)
    (fits : a.length = 20) (same : between a b = between a c) : b = c := by
  obtain rfl | distinct := eq_or_ne a b
  · by_contra distinct
    obtain ⟨distance, apart⟩ := exists_between fits fitsC distinct
    rw [between_self fits, apart] at same
    cases same
  · obtain ⟨distance, apart⟩ := exists_between fits fitsB distinct
    have apart' : between a c = .ok distance := same.symm.trans apart
    exact (eq_zipWith_of_between apart).trans (eq_zipWith_of_between apart').symm

/-! ## The metric -/

/-- A distance of octet strings that is the exclusive or of the 160-bit numbers they write. -/
structure XorMetric (between : Bytes → Bytes → Except IdentifierError Distance) : Prop where
  /-- The distances are the numbers of 160 bits. -/
  numbers : ∀ value : Nat, (∃! distance : Distance, distance.toNat = value) ↔ value < 2 ^ 160
  order : ∀ distance other : Distance,
    compare distance other = compare distance.toNat other.toNat
  xor : ∀ {a b : Bytes}, a.length = 20 → b.length = 20 → a ≠ b →
    ∃ distance, between a b = .ok distance ∧ distance.toNat = a.toNat ^^^ b.toNat ∧
      distance.toNat ≠ 0
  symm : ∀ {a b : Bytes}, a.length = 20 → b.length = 20 → between a b = between b a
  triangle : ∀ {a b c : Bytes}, a.length = 20 → b.length = 20 → c.length = 20 →
    a ≠ b → b ≠ c → a ≠ c →
    ∃ ab bc ac, between a b = .ok ab ∧ between b c = .ok bc ∧ between a c = .ok ac ∧
      ac.toNat ≤ ab.toNat + bc.toNat
  /-- Every identifier has exactly one other at each distance. -/
  existsUnique : ∀ {a : Bytes} {distance : Distance}, a.length = 20 → distance.toNat ≠ 0 →
    ∃! b, between a b = .ok distance
  /-- No two identifiers are equally far from a third. -/
  injective : ∀ {a b c : Bytes}, a.length = 20 → b.length = 20 → c.length = 20 →
    between a b = between a c → b = c
  identical : ∀ {a : Bytes}, a.length = 20 → between a a = .error .identical
  wrongLength : ∀ {a b : Bytes}, a.length ≠ 20 ∨ b.length ≠ 20 →
    between a b = .error (.wrongLength a.length b.length)

/-- The distance of identifiers is a metric by exclusive or. -/
theorem between_xorMetric : XorMetric between where
  numbers value := by
    constructor
    · rintro ⟨distance, rfl, -⟩
      exact distance.toNat_lt
    · intro fits
      obtain ⟨distance, rfl⟩ := exists_toNat_eq fits
      exact ⟨distance, rfl, fun _ same => toNat_inj.mp same⟩
  order := compare_eq_compare_toNat
  xor fitsA fitsB distinct := by
    obtain ⟨distance, apart⟩ := exists_between fitsA fitsB distinct
    exact ⟨distance, apart, toNat_eq_xor apart, toNat_ne_zero apart⟩
  symm := between_comm
  triangle fitsA fitsB fitsC distinct distinct' distinct'' := by
    obtain ⟨ab, first⟩ := exists_between fitsA fitsB distinct
    obtain ⟨bc, second⟩ := exists_between fitsB fitsC distinct'
    obtain ⟨ac, whole⟩ := exists_between fitsA fitsC distinct''
    exact ⟨ab, bc, ac, first, second, whole, toNat_le_add first second whole⟩
  existsUnique fits apart :=
    ⟨_, between_zipWith fits fun same => apart (same ▸ toNat_zero),
      fun _ here => eq_zipWith_of_between here⟩
  injective fits fitsB fitsC same := between_left_injective fitsB fitsC fits same
  identical := between_self
  wrongLength unfit := between_of_unfit (not_and_or.mpr unfit)

/-- An identifier with a given first and last octet and zeros between them. -/
def sampleOctets (first last : UInt8) : Bytes := first :: (List.replicate 18 0 ++ [last])

/-- Two identifiers that differ in the last octet are nearer than two that differ in the first bit
only, and the way over the third one is no shorter. -/
theorem between_xorMetric_sample :
    ∃ near far rest, between (sampleOctets 0 1) (sampleOctets 0 255) = .ok near ∧
      between (sampleOctets 0 1) (sampleOctets 128 1) = .ok far ∧
      between (sampleOctets 0 255) (sampleOctets 128 1) = .ok rest ∧
      near.toNat = 254 ∧ far.toNat = 2 ^ 159 ∧ compare near far = .lt ∧
      far.toNat ≤ near.toNat + rest.toNat := by
  have metric := between_xorMetric
  obtain ⟨near, rest, far, first, second, whole, through⟩ :=
    metric.triangle (a := sampleOctets 0 1) (b := sampleOctets 0 255) (c := sampleOctets 128 1)
      rfl rfl rfl (by decide) (by decide) (by decide)
  have small : near.toNat = 254 := by
    obtain ⟨_, same, number, -⟩ := metric.xor (a := sampleOctets 0 1) (b := sampleOctets 0 255)
      rfl rfl (by decide)
    rw [Except.ok.inj (first.symm.trans same), number]
    decide +kernel
  have large : far.toNat = 2 ^ 159 := by
    obtain ⟨_, same, number, -⟩ := metric.xor (a := sampleOctets 0 1) (b := sampleOctets 128 1)
      rfl rfl (by decide)
    rw [Except.ok.inj (whole.symm.trans same), number]
    decide +kernel
  refine ⟨near, far, rest, first, whole, second, small, large, ?_, through⟩
  rw [metric.order, small, large]
  decide +kernel

end PeerDiscovery.Distance
