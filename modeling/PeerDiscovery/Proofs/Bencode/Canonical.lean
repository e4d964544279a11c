import PeerDiscovery.Proofs.Bencode.Acceptance

/-!
# Writing what was read

What was read is written back in canonical form. Among the derivations whose lengths have no
superfluous zero and whose keys ascend, the ones that are written back as they are are those without
a plus sign (`Derivation.Lawful.print_value_eq_iff`): the printer never writes one, so where one was
read fewer octets are written. The reader refuses superfluous zeros only where they are the first
character, and a plus sign in front lets both the sign and the zeros through.
-/

namespace PeerDiscovery.Bencode

/-! ## Spellings of one integer -/

/-- Every integer has one spelling without a plus sign, the one that is written. -/
theorem spellsInteger_iff {text : List Char} {number : Int} :
    SpellsInteger text number ↔ text = Numeral.ofInt number ∨
      ∃ digits, text = '+' :: digits ∧ Numeral.Digits digits ∧ number = Numeral.value digits := by
  have shortest : ∀ {digits : List Char}, Numeral.Digits digits → digits.head? ≠ some '0' →
      digits = Numeral.ofNat (Numeral.value digits) := fun spelled noZero =>
    spelled.eq_ofNat fun padded => noZero padded.1
  constructor
  · intro spelled
    cases spelled with
    | zero => exact Or.inl rfl
    | plain spelled noZero => exact Or.inl (shortest spelled noZero)
    | plus spelled => exact Or.inr ⟨_, rfl, spelled, rfl⟩
    | @minus digits spelled noZero =>
      have same := shortest spelled noZero
      obtain ⟨below, positive⟩ : ∃ below, Numeral.value digits = below + 1 := by
        refine Nat.exists_eq_succ_of_ne_zero fun zero => ?_
        rw [zero] at same
        exact noZero (by rw [same]; rfl)
      rw [positive] at same ⊢
      exact Or.inl (congrArg ('-' :: ·) same)
  · intro given
    rcases given with rfl | ⟨digits, rfl, spelled, rfl⟩
    · cases number with
      | ofNat n =>
        by_cases zero : n = 0
        · subst zero
          exact .zero
        · have plain := SpellsInteger.plain (Numeral.Digits.ofNat n) fun head =>
            zero (Numeral.eq_zero_of_head?_ofNat head)
          rw [Numeral.value_ofNat] at plain
          exact plain
      | negSucc n =>
        have minus := SpellsInteger.minus (Numeral.Digits.ofNat (n + 1)) fun head =>
          Nat.succ_ne_zero n (Numeral.eq_zero_of_head?_ofNat head)
        rw [Numeral.value_ofNat] at minus
        exact minus
    · exact .plus spelled

/-- A plus sign makes a text longer than what is written. -/
theorem SpellsInteger.length_ofInt_lt {digits : List Char} {number : Int}
    (spelled : SpellsInteger ('+' :: digits) number) :
    (Numeral.ofInt number).length < ('+' :: digits).length := by
  cases spelled with
  | plain digits => exact absurd digits.of_cons (by decide)
  | plus spelled => exact Nat.lt_succ_of_le spelled.length_ofNat_le

/-! ## Choices made in a derivation -/

namespace StringToken

/-- No superfluous zero leads the length. -/
def Tidy (token : StringToken) : Prop := ¬ Numeral.Padded token.digits

theorem Lawful.spelling_eq {token : StringToken} (lawful : token.Lawful) (tidy : token.Tidy) :
    token.spelling = printBytes token.octets := by
  rw [spelling, printBytes, ← lawful.value_eq, ← lawful.digits.eq_ofNat tidy]

end StringToken

namespace Derivation

/-- No length has a superfluous leading zero, and the keys of every dictionary ascend. -/
inductive Tidy : Derivation → Prop
  | integer {text : List Char} {number : Int64} : Tidy (.integer text number)
  | bytes {token : StringToken} : token.Tidy → Tidy (.bytes token)
  | list {items : List Derivation} : (∀ item ∈ items, Tidy item) → Tidy (.list items)
  | dictionary {entries : List (StringToken × Derivation)} :
    (∀ entry ∈ entries, entry.1.Tidy) → Dictionary.Ascending (valuesOfEntries entries) →
    (∀ entry ∈ entries, Tidy entry.2) → Tidy (.dictionary entries)

/-- No integer has a plus sign. -/
inductive Plain : Derivation → Prop
  | integer {text : List Char} {number : Int64} :
    text.head? ≠ some '+' → Plain (.integer text number)
  | bytes {token : StringToken} : Plain (.bytes token)
  | list {items : List Derivation} : (∀ item ∈ items, Plain item) → Plain (.list items)
  | dictionary {entries : List (StringToken × Derivation)} :
    (∀ entry ∈ entries, Plain entry.2) → Plain (.dictionary entries)

end Derivation

/-! ## Plain derivations -/

/-- Entries whose keys ascend make up a dictionary as they come. -/
theorem Dictionary.ofList_of_ascending {α : Type} {entries : List (Bytes × α)}
    (ascending : Dictionary.Ascending entries) : Dictionary.ofList entries = entries := by
  have spread : ∀ known : Dictionary α, Dictionary.Ascending (known ++ entries) →
      entries.foldl (fun all entry => all.insert entry.1 entry.2) known = known ++ entries := by
    clear ascending
    induction entries with
    | nil => exact fun known _ => (List.append_nil known).symm
    | cons entry rest ih =>
      intro known ascending
      have below : ∀ other ∈ known, compare other.1 entry.1 = .lt := fun other member =>
        (List.pairwise_append.mp ascending).2.2 other member entry List.mem_cons_self
      rw [List.append_cons] at ascending ⊢
      rw [List.foldl_cons, insert_of_forall_lt below]
      exact ih _ ascending
  exact spread [] ascending

namespace Derivation

theorem printItems_valuesOfItems {items : List Derivation}
    (same : ∀ item ∈ items, item.value.print = item.octets) :
    printItems (valuesOfItems items) = octetsOfItems items := by
  induction items with
  | nil => rfl
  | cons item items ih =>
    obtain ⟨here, others⟩ := List.forall_mem_cons.mp same
    rw [valuesOfItems, printItems, octetsOfItems, here, ih others]

theorem printEntries_valuesOfEntries {entries : List (StringToken × Derivation)}
    (keys : ∀ entry ∈ entries, entry.1.Lawful) (tidy : ∀ entry ∈ entries, entry.1.Tidy)
    (same : ∀ entry ∈ entries, entry.2.value.print = entry.2.octets) :
    printEntries (valuesOfEntries entries) = octetsOfEntries entries := by
  induction entries with
  | nil => rfl
  | cons entry entries ih =>
    obtain ⟨key, item⟩ := entry
    obtain ⟨lawful, keys⟩ := List.forall_mem_cons.mp keys
    obtain ⟨short, tidy⟩ := List.forall_mem_cons.mp tidy
    obtain ⟨here, others⟩ := List.forall_mem_cons.mp same
    rw [valuesOfEntries, printEntries, octetsOfEntries, here, ih keys tidy others,
      lawful.spelling_eq short]

variable {depth : Nat} {tree : Derivation}

theorem Lawful.print_value_eq (lawful : tree.Lawful depth) (tidy : tree.Tidy) (plain : tree.Plain) :
    tree.value.print = tree.octets := by
  induction lawful with
  | integer _ spelled =>
    obtain ⟨unsigned⟩ := plain
    rcases spellsInteger_iff.mp spelled with rfl | ⟨digits, rfl, -⟩
    · rfl
    · exact absurd rfl unsigned
  | bytes _ token =>
    cases tidy with
    | bytes short => exact (token.spelling_eq short).symm
  | list _ _ ih =>
    cases tidy with
    | list tidy =>
      cases plain with
      | list plain =>
        rw [value, Value.print, octets,
          printItems_valuesOfItems fun item member => ih item member (tidy item member)
            (plain item member)]
        rfl
  | dictionary _ keys _ ih =>
    cases tidy with
    | dictionary short ascending tidy =>
      cases plain with
      | dictionary plain =>
        rw [value, Value.print, octets, Dictionary.ofList_of_ascending ascending,
          printEntries_valuesOfEntries keys short fun entry member => ih entry member
            (tidy entry member) (plain entry member)]
        rfl

/-! ## Fewer octets for a plus sign -/

/-- What is written for a derivation is no longer than the derivation, and if it is as long, there
is no plus sign in it. -/
def Shortened (tree : Derivation) : Prop :=
  tree.value.print.length ≤ tree.octets.length ∧
    (tree.value.print.length = tree.octets.length → tree.Plain)

theorem items_shortened {items : List Derivation} (shortened : ∀ item ∈ items, item.Shortened) :
    (printItems (valuesOfItems items)).length ≤ (octetsOfItems items).length ∧
      ((printItems (valuesOfItems items)).length = (octetsOfItems items).length →
        ∀ item ∈ items, item.Plain) := by
  induction items with
  | nil => exact ⟨Nat.le_refl _, fun _ => List.forall_mem_nil _⟩
  | cons item items ih =>
    obtain ⟨⟨shorter, plain⟩, others⟩ := List.forall_mem_cons.mp shortened
    obtain ⟨shorterToo, plainToo⟩ := ih others
    rw [valuesOfItems, printItems, octetsOfItems, List.length_append, List.length_append]
    refine ⟨Nat.add_le_add shorter shorterToo, fun same => ?_⟩
    exact List.forall_mem_cons.mpr ⟨plain (by omega), plainToo (by omega)⟩

theorem entries_shortened {entries : List (StringToken × Derivation)}
    (keys : ∀ entry ∈ entries, entry.1.Lawful) (tidy : ∀ entry ∈ entries, entry.1.Tidy)
    (shortened : ∀ entry ∈ entries, entry.2.Shortened) :
    (printEntries (valuesOfEntries entries)).length ≤ (octetsOfEntries entries).length ∧
      ((printEntries (valuesOfEntries entries)).length = (octetsOfEntries entries).length →
        ∀ entry ∈ entries, entry.2.Plain) := by
  induction entries with
  | nil => exact ⟨Nat.le_refl _, fun _ => List.forall_mem_nil _⟩
  | cons entry entries ih =>
    obtain ⟨key, item⟩ := entry
    obtain ⟨lawful, keys⟩ := List.forall_mem_cons.mp keys
    obtain ⟨short, tidy⟩ := List.forall_mem_cons.mp tidy
    obtain ⟨⟨shorter, plain⟩, others⟩ := List.forall_mem_cons.mp shortened
    obtain ⟨shorterToo, plainToo⟩ := ih keys tidy others
    rw [valuesOfEntries, printEntries, octetsOfEntries, lawful.spelling_eq short]
    dsimp only at shorter plain
    simp only [List.length_append]
    refine ⟨by omega, fun same => ?_⟩
    exact List.forall_mem_cons.mpr ⟨plain (by omega), plainToo (by omega)⟩

theorem Lawful.shortened (lawful : tree.Lawful depth) (tidy : tree.Tidy) : tree.Shortened := by
  induction lawful with
  | @integer depth text number shallow spelled =>
    by_cases plus : text.head? = some '+'
    · obtain ⟨digits, rfl⟩ := List.head?_eq_some_iff.mp plus
      have shorter := spelled.length_ofInt_lt
      have longer : (Derivation.integer ('+' :: digits) number).value.print.length <
          (Derivation.integer ('+' :: digits) number).octets.length := by
        simpa [value, Value.print, octets, Bytes.ofChars] using shorter
      exact ⟨Nat.le_of_lt longer, fun same => absurd same (Nat.ne_of_lt longer)⟩
    · have plain : (Derivation.integer text number).Plain := .integer plus
      have same := (Lawful.integer shallow spelled).print_value_eq tidy plain
      exact ⟨Nat.le_of_eq (congrArg List.length same), fun _ => plain⟩
  | bytes shallow token =>
    have same := (Lawful.bytes shallow token).print_value_eq tidy .bytes
    exact ⟨Nat.le_of_eq (congrArg List.length same), fun _ => .bytes⟩
  | list _ _ ih =>
    cases tidy with
    | list tidy =>
      obtain ⟨shorter, plain⟩ := items_shortened fun item member =>
        ih item member (tidy item member)
      refine ⟨?_, fun same => .list (plain ?_)⟩
      · simpa [value, Value.print, octets] using shorter
      · simpa [value, Value.print, octets] using same
  | dictionary _ keys _ ih =>
    cases tidy with
    | dictionary short ascending tidy =>
      obtain ⟨shorter, plain⟩ := entries_shortened keys short fun entry member =>
        ih entry member (tidy entry member)
      rw [← Dictionary.ofList_of_ascending ascending] at shorter plain
      refine ⟨?_, fun same => .dictionary (plain ?_)⟩
      · simpa [value, Value.print, octets] using shorter
      · simpa [value, Value.print, octets] using same

theorem Lawful.print_value_eq_iff (lawful : tree.Lawful depth) (tidy : tree.Tidy) :
    tree.value.print = tree.octets ↔ tree.Plain :=
  ⟨fun same => (lawful.shortened tidy).2 (congrArg List.length same),
    lawful.print_value_eq tidy⟩

end Derivation

/-! ## Read and written back -/

/-- What was read has one derivation, and if that is tidy, it is written back as it was if and only
if no integer in it has a plus sign. An integer without a plus sign has one accepted spelling. -/
theorem Value.print_of_parse {input : Bytes} {value : Value}
    (read : Value.parse input = .ok value) :
    (∃! tree : Derivation, tree.Lawful 0 ∧ tree.octets = input ∧ tree.value = value ∧
      (tree.Tidy → (value.print = input ↔ tree.Plain))) ∧
    ∀ (text : List Char) (number : Int64), text.head? ≠ some '+' →
      (spelledInteger? text = some number ↔ text = Numeral.ofInt number.toInt) := by
  constructor
  · obtain ⟨tree, lawful, rfl, rfl⟩ := Value.parse_eq_ok_iff_exists.mp read
    refine ⟨tree, ⟨lawful, rfl, rfl, lawful.print_value_eq_iff⟩, fun other spelling => ?_⟩
    exact spelling.1.unique lawful spelling.2.1
  · intro text number unsigned
    rw [spelledInteger?_eq_some_iff, spellsInteger_iff, or_iff_left]
    intro signed
    obtain ⟨digits, rfl, -⟩ := signed
    exact unsigned rfl

/-- An integer behind a minus sign is written back as it was read. -/
theorem Value.print_of_parse_minus :
    Value.parse (Bytes.ofText "i-7e") = .ok (.integer (-7)) ∧
      (Value.integer (-7)).print = Bytes.ofText "i-7e" := by
  have read : Value.parse (Bytes.ofText "i-7e") = .ok (.integer (-7)) := rfl
  obtain ⟨⟨tree, ⟨lawful, octets, -, written⟩, -⟩, -⟩ := Value.print_of_parse read
  have plain : (Derivation.integer ['-', '7'] (-7)).Plain := .integer (by decide)
  have spelled : SpellsInteger ['-', '7'] (-7) := spellsInteger_iff.mpr (Or.inl rfl)
  have same : tree = .integer ['-', '7'] (-7) :=
    lawful.unique (.integer (Nat.zero_le _) spelled) octets
  subst same
  exact ⟨read, (written .integer).mpr plain⟩

/-- A plus sign and the zeros behind it are read and not written back, though nothing else in the
input is out of place. -/
theorem Value.plus_sign_not_written :
    ∃ tree : Derivation, tree.Lawful 0 ∧ tree.Tidy ∧ tree.octets = Bytes.ofText "i+05e" ∧
      Value.parse (Bytes.ofText "i+05e") = .ok (.integer 5) ∧
      (Value.integer 5).print = Bytes.ofText "i5e" ∧
      (Value.integer 5).print ≠ Bytes.ofText "i+05e" := by
  have digits : Numeral.Digits ['0', '5'] :=
    ⟨List.cons_ne_nil _ _, List.forall_mem_cons.mpr ⟨rfl, List.forall_mem_singleton.mpr rfl⟩⟩
  exact ⟨.integer ['+', '0', '5'] 5, .integer (Nat.zero_le _) (.plus digits), .integer, rfl, rfl,
    rfl, by decide⟩

end PeerDiscovery.Bencode
