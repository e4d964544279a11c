import PeerDiscovery.Proofs.Bencode.Derivation
import PeerDiscovery.Proofs.Bencode.Inversion

/-!
# What the reader accepts

The reader takes the octets of every lawful derivation off the front of any input
(`Derivation.Lawful.takes`), and whatever it takes has been spelled by one (`readValue_spelled`).
So it accepts exactly the grammar, and as the grammar is unambiguous there is one derivation for
each accepted input (`Value.parse_eq_ok_iff_existsUnique`).
-/

namespace PeerDiscovery.Bencode

/-! ## Every derivation is read -/

theorem StringToken.Lawful.spelledLength?_eq {token : StringToken} (lawful : token.Lawful) :
    spelledLength? token.digits = some token.octets.length := by
  have unsigned : token.digits.head? ≠ some '+' := fun plus =>
    absurd (lawful.digits.isDigit '+' (List.mem_of_mem_head? plus)) (by decide)
  rw [spelledLength?, Numeral.readNat_eq_ok_iff unsigned |>.mpr
    ⟨lawful.digits, lawful.value_eq, lawful.small⟩]
  rfl

theorem StringToken.Lawful.takes {token : StringToken} (lawful : token.Lawful) (size : Nat) :
    Takes (readBytes size) token.spelling token.octets :=
  readBytes_takes_spelled size (low_of_digits lawful.digits) lawful.spelledLength?_eq

namespace Derivation

section Takes

variable {depth : Nat} {read : Reader Value}

theorem items_take (size : Nat) {items : List Derivation}
    (lawful : ∀ item ∈ items, item.Lawful depth)
    (taken : ∀ item ∈ items, Takes read item.octets item.value) :
    Takes (readItems size read) (octetsOfItems items ++ ['e'.toUInt8]) (valuesOfItems items) := by
  induction items with
  | nil => exact .noItems size read
  | cons item items ih =>
    obtain ⟨here, others⟩ := List.forall_mem_cons.mp lawful
    obtain ⟨one, more⟩ := List.forall_mem_cons.mp taken
    rw [octetsOfItems, valuesOfItems, List.append_assoc]
    exact one.items here.head?_ne (ih others more)

theorem entries_take (size : Nat) {entries : List (StringToken × Derivation)}
    (keys : ∀ entry ∈ entries, entry.1.Lawful)
    (taken : ∀ entry ∈ entries, Takes read entry.2.octets entry.2.value)
    (known : Dictionary Value) :
    Takes (readEntries size read known) (octetsOfEntries entries ++ ['e'.toUInt8])
      ((valuesOfEntries entries).foldl (fun all entry => all.insert entry.1 entry.2) known) := by
  induction entries generalizing known with
  | nil => exact .noEntries size read known
  | cons entry entries ih =>
    obtain ⟨key, item⟩ := entry
    obtain ⟨here, others⟩ := List.forall_mem_cons.mp keys
    obtain ⟨one, more⟩ := List.forall_mem_cons.mp taken
    rw [octetsOfEntries, valuesOfEntries, List.foldl_cons, List.append_assoc]
    exact .entries (here.takes size) here.exists_head? one (ih others more _)

/-- Where a value may lie, the reader has a level left for it, and the others for what it holds. -/
theorem exists_levels {levels : Nat} (shallow : depth ≤ maxNesting)
    (left : depth + levels = maxNesting + 1) :
    ∃ below, levels = below + 1 ∧ depth + 1 + below = maxNesting + 1 :=
  ⟨maxNesting - depth, by omega, by omega⟩

/-- What a derivation spells is read off the front of any input, if the depth of the derivation and
the levels left to the reader make up the whole. -/
theorem Lawful.takes {tree : Derivation} (lawful : tree.Lawful depth) (size : Nat) {levels : Nat}
    (left : depth + levels = maxNesting + 1) :
    Takes (readValue size levels) tree.octets tree.value := by
  induction lawful generalizing levels with
  | integer shallow spelled =>
    obtain ⟨below, rfl, -⟩ := exists_levels shallow left
    have taken := readInteger_takes_spelled size spelled.low
      (spelledInteger?_eq_some_iff.mpr spelled)
    exact taken.behind fun rest => by rw [readValue, if_pos rfl]
  | bytes shallow token =>
    obtain ⟨below, rfl, -⟩ := exists_levels shallow left
    exact .octetString (token.takes size) token.exists_head?
  | list shallow lawful ih =>
    obtain ⟨below, rfl, inner⟩ := exists_levels shallow left
    have taken := items_take size lawful fun item member => ih item member inner
    exact taken.behind fun rest => by rw [readValue, if_neg (by decide), if_pos rfl]
  | dictionary shallow keys lawful ih =>
    obtain ⟨below, rfl, inner⟩ := exists_levels shallow left
    have taken := entries_take size keys (fun entry member => ih entry member inner) []
    exact taken.behind fun rest => by
      rw [readValue, if_neg (by decide), if_neg (by decide), if_pos rfl]

end Takes

end Derivation

/-! ## Whatever is read has a derivation -/

theorem ofChars_toChars (octets : Bytes) : Bytes.ofChars (Bytes.toChars octets) = octets := by
  have back : ∀ octet : UInt8, (Char.ofNat octet.toNat).toUInt8 = octet := by
    intro octet
    have small := octet.toNat_lt
    have valid : octet.toNat.isValidChar := Or.inl (by omega)
    have same : (Char.ofNat octet.toNat).toNat = octet.toNat := by
      rw [Char.ofNat, dif_pos valid]
      exact UInt32.toNat_ofNatLT
    apply UInt8.toNat.inj
    rw [Char.toUInt8, UInt32.toNat_toUInt8]
    change (Char.ofNat octet.toNat).toNat % 256 = octet.toNat
    omega
  simp [Bytes.ofChars, Bytes.toChars, Function.comp_def, back]

/-- An input is the text before a mark, the mark, and what stands behind it. -/
theorem eq_of_dropWhile_mark {input rest : Bytes} {mark octet : UInt8}
    (found : input.dropWhile (· != mark) = octet :: rest) :
    input = Bytes.ofChars (Bytes.toChars (input.takeWhile (· != mark))) ++ mark :: rest := by
  have stopped : (octet != mark) = false := by
    have head := List.head?_dropWhile_not (· != mark) input
    rw [found] at head
    simpa using head
  obtain rfl : octet = mark := by simpa using stopped
  rw [ofChars_toChars, ← found, List.takeWhile_append_dropWhile]

section Spelled

variable {depth size : Nat} {read : Reader Value} {input : Bytes}

theorem readInteger_spelled {parsed : Parsed Int64 input}
    (done : readInteger size input = .ok parsed) :
    ∃ text, SpellsInteger text parsed.value.toInt ∧
      input = Bytes.ofChars text ++ 'e'.toUInt8 :: parsed.rest := by
  obtain ⟨mark, found, spelled⟩ := readInteger_eq_ok done
  exact ⟨_, spelledInteger?_eq_some_iff.mp spelled, eq_of_dropWhile_mark found⟩

/-- Where an octet string is read, a digit stands in front, so its length has no sign. -/
theorem readBytes_spelled {first : UInt8} {parsed : Parsed Bytes input}
    (start : input.head? = some first) (digit : isDigit first = true)
    (done : readBytes size input = .ok parsed) :
    ∃ token : StringToken, token.Lawful ∧ token.octets = parsed.value ∧
      input = token.spelling ++ parsed.rest := by
  obtain ⟨mark, rest, length, found, spelled, enough, value, behind⟩ := readBytes_eq_ok done
  have whole := eq_of_dropWhile_mark found
  generalize Bytes.toChars (input.takeWhile (· != ':'.toUInt8)) = digits at spelled whole
  have unsigned : digits.head? ≠ some '+' := by
    intro plus
    obtain ⟨others, rfl⟩ := List.head?_eq_some_iff.mp plus
    rw [whole] at start
    obtain rfl := Option.some.inj start
    cases digit
  rw [spelledLength?_eq_some_iff, Numeral.readNat_eq_ok_iff unsigned] at spelled
  obtain ⟨all, total, small⟩ := spelled
  have size : (rest.take length).length = length := by
    rw [List.length_take]
    omega
  refine ⟨⟨digits, parsed.value⟩, ⟨all, ?_, ?_⟩, rfl, ?_⟩
  · change Numeral.value digits = parsed.value.length
    rw [total, value, size]
  · change parsed.value.length ≤ Numeral.max64
    rw [value, size]
    exact small
  · rw [StringToken.spelling, value, behind, List.append_assoc, List.cons_append,
      List.take_append_drop]
    exact whole

/-- Whatever a reader of values reads, a lawful derivation spells. -/
def Spelled (read : Reader Value) (depth : Nat) : Prop :=
  ∀ (input : Bytes) (parsed : Parsed Value input), read input = .ok parsed →
    ∃ tree : Derivation, tree.Lawful depth ∧ tree.value = parsed.value ∧
      input = tree.octets ++ parsed.rest

theorem readItems_spelled (spelled : Spelled read depth) {parsed : Parsed (List Value) input}
    (done : readItems size read input = .ok parsed) :
    ∃ items, (∀ item ∈ items, item.Lawful depth) ∧
      Derivation.valuesOfItems items = parsed.value ∧
      input = Derivation.octetsOfItems items ++ 'e'.toUInt8 :: parsed.rest := by
  induction length : input.length using Nat.strongRecOn generalizing input with
  | ind n ih =>
    rcases readItems_eq_ok done with ⟨whole, none⟩ | ⟨item, others, -, one, more, value, behind⟩
    · exact ⟨[], List.forall_mem_nil _, none.symm, whole⟩
    · obtain ⟨tree, lawful, same, front⟩ := spelled _ _ one
      obtain ⟨trees, lawfulToo, values, back⟩ := ih _ (length ▸ item.shorter) more rfl
      refine ⟨tree :: trees, List.forall_mem_cons.mpr ⟨lawful, lawfulToo⟩, ?_, ?_⟩
      · rw [Derivation.valuesOfItems, same, values, value]
      · rw [Derivation.octetsOfItems, List.append_assoc, behind, ← back]
        exact front

theorem readEntries_spelled (spelled : Spelled read depth) {known : Dictionary Value}
    {parsed : Parsed (Dictionary Value) input}
    (done : readEntries size read known input = .ok parsed) :
    ∃ entries, (∀ entry ∈ entries, entry.1.Lawful) ∧
      (∀ entry ∈ entries, entry.2.Lawful depth) ∧
      (Derivation.valuesOfEntries entries).foldl (fun all entry => all.insert entry.1 entry.2)
        known = parsed.value ∧
      input = Derivation.octetsOfEntries entries ++ 'e'.toUInt8 :: parsed.rest := by
  induction length : input.length using Nat.strongRecOn generalizing input known with
  | ind n ih =>
    rcases readEntries_eq_ok done with
      ⟨whole, none⟩ | ⟨first, key, item, all, start, digit, named, one, more, value, behind⟩
    · exact ⟨[], List.forall_mem_nil _, List.forall_mem_nil _, none.symm, whole⟩
    · obtain ⟨token, lawfulKey, octets, front⟩ := readBytes_spelled start digit named
      obtain ⟨tree, lawful, same, middle⟩ := spelled _ _ one
      have shorter := Nat.lt_trans item.shorter key.shorter
      obtain ⟨entries, keys, lawfulToo, values, back⟩ := ih _ (length ▸ shorter) more rfl
      refine ⟨(token, tree) :: entries, List.forall_mem_cons.mpr ⟨lawfulKey, keys⟩,
        List.forall_mem_cons.mpr ⟨lawful, lawfulToo⟩, ?_, ?_⟩
      · rw [Derivation.valuesOfEntries, List.foldl_cons, octets, same, values, value]
      · rw [Derivation.octetsOfEntries, List.append_assoc, List.append_assoc, behind, ← back,
          ← middle]
        exact front

theorem readValue_spelled (size : Nat) {levels : Nat} (left : depth + levels = maxNesting + 1) :
    Spelled (readValue size levels) depth := by
  induction levels generalizing depth with
  | zero =>
    intro input parsed done
    cases done
  | succ levels ih =>
    intro input parsed done
    have shallow : depth ≤ maxNesting := by omega
    have inner := ih (by omega : depth + 1 + levels = maxNesting + 1)
    obtain ⟨below, first, rest, same, rfl, kinds⟩ := readValue_eq_ok done
    obtain rfl : levels = below := Nat.succ.inj same
    rcases kinds with ⟨number, rfl, read, value, behind⟩ | ⟨items, rfl, read, value, behind⟩ |
      ⟨entries, rfl, read, value, behind⟩ | ⟨octets, digit, read, value, behind⟩
    · obtain ⟨text, spelled, whole⟩ := readInteger_spelled read
      refine ⟨.integer text number.value, .integer shallow spelled, value.symm, ?_⟩
      simpa [behind, Derivation.octets] using whole
    · obtain ⟨trees, lawful, values, whole⟩ := readItems_spelled inner read
      refine ⟨.list trees, .list shallow lawful, ?_, ?_⟩
      · rw [Derivation.value, values, value]
      · simpa [behind, Derivation.octets] using whole
    · obtain ⟨trees, keys, lawful, values, whole⟩ := readEntries_spelled inner read
      refine ⟨.dictionary trees, .dictionary shallow keys lawful, ?_, ?_⟩
      · rw [Derivation.value, Dictionary.ofList, values, value]
      · simpa [behind, Derivation.octets] using whole
    · obtain ⟨token, lawful, same, whole⟩ := readBytes_spelled rfl digit read
      refine ⟨.bytes token, .bytes shallow lawful, ?_, ?_⟩
      · rw [Derivation.value, same, value]
      · rw [behind, Derivation.octets]
        exact whole

end Spelled

/-! ## The whole input -/

/-- The reader accepts the octets of the lawful derivations, each for its value. -/
theorem Value.parse_eq_ok_iff_exists {input : Bytes} {value : Value} :
    Value.parse input = .ok value ↔
      ∃ tree : Derivation, tree.Lawful 0 ∧ tree.octets = input ∧ tree.value = value := by
  rw [parse_eq_ok_iff]
  constructor
  · intro given
    obtain ⟨shorter, read⟩ := given
    obtain ⟨tree, lawful, same, whole⟩ :=
      readValue_spelled input.length (Nat.zero_add _) _ _ read
    exact ⟨tree, lawful, by simpa using whole.symm, same⟩
  · intro given
    obtain ⟨tree, lawful, rfl, rfl⟩ := given
    have taken := lawful.takes tree.octets.length (Nat.zero_add _) []
    rw [List.append_nil] at taken
    exact taken

/-- An input is accepted for a value if and only if exactly one lawful derivation spells it and the
value. In the value of a dictionary the keys ascend, and each has the value of its last entry. -/
theorem Value.parse_eq_ok_iff_existsUnique :
    (∀ (input : Bytes) (value : Value), Value.parse input = .ok value ↔
      ∃! tree : Derivation, tree.Lawful 0 ∧ tree.octets = input ∧ tree.value = value) ∧
    ∀ entries : List (StringToken × Derivation), ∃ known : Dictionary Value,
      (Derivation.dictionary entries).value = .dictionary known ∧ known.Ascending ∧
        ∀ key, known.get? key = (Derivation.valuesOfEntries entries).reverse.lookup key := by
  refine ⟨fun input value => ?_, fun entries => ?_⟩
  · rw [Value.parse_eq_ok_iff_exists]
    refine ⟨fun given => ?_, fun given => given.exists⟩
    obtain ⟨tree, lawful, octets, same⟩ := given
    refine ⟨tree, ⟨lawful, octets, same⟩, fun other spelling => ?_⟩
    exact spelling.1.unique lawful (spelling.2.1.trans octets.symm)
  · exact ⟨_, rfl, Dictionary.ascending_ofList _, Dictionary.get?_ofList _⟩

end PeerDiscovery.Bencode
