import PeerDiscovery.Proofs.Bencode.RoundTrip
import PeerDiscovery.Proofs.Text.Spelling

/-!
# The grammar of bencode

A value can be spelled in many ways: integers may carry a plus sign, lengths may carry leading
zeros, and the keys of a dictionary may come in any order and more than once. A derivation is a
value together with all these choices. `Derivation.octets` is what it spells, `Derivation.value` the
value that it spells, and `Derivation.Lawful` says that each of its tokens is one of the grammar and
that none of its values lies too deep.

The grammar is unambiguous: whatever stands behind them, octets are spelled by at most one
derivation (`Derivation.Lawful.unique`). Each token ends at a mark that it cannot hold or after a
length that it announces, and each derivation shows its kind by its first octet.
-/

namespace PeerDiscovery.Bencode

/-! ## Tokens -/

/-- The texts that may stand between the marks of an integer, with the integer: a lone zero, digits
that start with no zero, the same behind a minus sign, or a plus sign and any digits. -/
inductive SpellsInteger : List Char → Int → Prop
  | zero : SpellsInteger ['0'] 0
  | plain {digits : List Char} :
    Numeral.Digits digits → digits.head? ≠ some '0' →
    SpellsInteger digits (Numeral.value digits)
  | minus {digits : List Char} :
    Numeral.Digits digits → digits.head? ≠ some '0' →
    SpellsInteger ('-' :: digits) (-Numeral.value digits)
  | plus {digits : List Char} :
    Numeral.Digits digits → SpellsInteger ('+' :: digits) (Numeral.value digits)

/-- An octet string with the digits that announce its length. -/
structure StringToken where
  digits : List Char
  octets : Bytes

namespace StringToken

/-- The digits, a colon, and the octets. -/
def spelling (token : StringToken) : Bytes :=
  Bytes.ofChars token.digits ++ ':'.toUInt8 :: token.octets

/-- The digits announce the length of the octets, and the length can be read. -/
structure Lawful (token : StringToken) : Prop where
  digits : Numeral.Digits token.digits
  value_eq : Numeral.value token.digits = token.octets.length
  small : token.octets.length ≤ Numeral.max64

end StringToken

/-! ## Derivations -/

/-- A value with every choice made in spelling it. -/
inductive Derivation where
  | integer (text : List Char) (number : Int64)
  | bytes (token : StringToken)
  | list (items : List Derivation)
  | dictionary (entries : List (StringToken × Derivation))

namespace Derivation

mutual

/-- The octets that a derivation spells. -/
def octets : Derivation → Bytes
  | .integer text _ => 'i'.toUInt8 :: (Bytes.ofChars text ++ ['e'.toUInt8])
  | .bytes token => token.spelling
  | .list items => 'l'.toUInt8 :: (octetsOfItems items ++ ['e'.toUInt8])
  | .dictionary entries => 'd'.toUInt8 :: (octetsOfEntries entries ++ ['e'.toUInt8])

/-- The items one after another. -/
def octetsOfItems : List Derivation → Bytes
  | [] => []
  | item :: rest => item.octets ++ octetsOfItems rest

/-- The keys and values one after another. -/
def octetsOfEntries : List (StringToken × Derivation) → Bytes
  | [] => []
  | (key, item) :: rest => key.spelling ++ item.octets ++ octetsOfEntries rest

end

mutual

/-- The value that a derivation spells. In a dictionary the last entry of a key wins. -/
def value : Derivation → Value
  | .integer _ number => .integer number
  | .bytes token => .bytes token.octets
  | .list items => .list (valuesOfItems items)
  | .dictionary entries => .dictionary (Dictionary.ofList (valuesOfEntries entries))

/-- The values of the items. -/
def valuesOfItems : List Derivation → List Value
  | [] => []
  | item :: rest => item.value :: valuesOfItems rest

/-- The keys and values as they come, a key as often as it comes. -/
def valuesOfEntries : List (StringToken × Derivation) → List (Bytes × Value)
  | [] => []
  | (key, item) :: rest => (key.octets, item.value) :: valuesOfEntries rest

end

/-- The tokens of a derivation are those of the grammar, and no value lies too deep. The number is
the depth of the derivation itself; what it contains lies one deeper. -/
inductive Lawful : Nat → Derivation → Prop
  | integer {depth : Nat} {text : List Char} {number : Int64} :
    depth ≤ maxNesting → SpellsInteger text number.toInt → Lawful depth (.integer text number)
  | bytes {depth : Nat} {token : StringToken} :
    depth ≤ maxNesting → token.Lawful → Lawful depth (.bytes token)
  | list {depth : Nat} {items : List Derivation} :
    depth ≤ maxNesting → (∀ item ∈ items, Lawful (depth + 1) item) → Lawful depth (.list items)
  | dictionary {depth : Nat} {entries : List (StringToken × Derivation)} :
    depth ≤ maxNesting → (∀ entry ∈ entries, entry.1.Lawful) →
    (∀ entry ∈ entries, Lawful (depth + 1) entry.2) → Lawful depth (.dictionary entries)

end Derivation

/-! ## What tokens look like -/

theorem low_of_digits {digits : List Char} (spelled : Numeral.Digits digits) :
    ∀ c ∈ digits, c.toNat ≤ '9'.toNat := fun c member =>
  (Char.isDigit_iff_toNat.mp (spelled.isDigit c member)).2

theorem SpellsInteger.low {text : List Char} {number : Int} (spelled : SpellsInteger text number) :
    ∀ c ∈ text, c.toNat ≤ '9'.toNat := by
  cases spelled with
  | zero => exact List.forall_mem_singleton.mpr (by decide)
  | plain digits => exact low_of_digits digits
  | minus digits => exact List.forall_mem_cons.mpr ⟨by decide, low_of_digits digits⟩
  | plus digits => exact List.forall_mem_cons.mpr ⟨by decide, low_of_digits digits⟩

/-- The check for a superfluous zero stands in front of the reading. -/
theorem guarded_eq_some_iff {text : List Char} {number : Int64} {refused : Prop}
    [Decidable refused] :
    (if refused then none
      else match Numeral.readInt64 text with
        | .ok i => some (Int64.ofInt i)
        | .error _ => none) = some number ↔
      ¬ refused ∧ Numeral.readInt64 text = .ok number.toInt := by
  split
  · rename_i yes
    exact iff_of_false (by rintro ⟨⟩) fun given => given.1 yes
  · rename_i no
    split
    · rename_i i read
      obtain ⟨low, high⟩ := Numeral.bounds_of_readInt64 read
      rw [Option.some.injEq, ← Int64.toInt_inj, Int64.toInt_ofInt_of_le low high, read,
        Except.ok.injEq]
      exact ⟨fun same => ⟨no, same⟩, fun given => given.2⟩
    · rename_i read
      refine iff_of_false (by rintro ⟨⟩) fun given => ?_
      rw [read] at given
      cases given.2

theorem spelledInteger?_minus {digits : List Char} {number : Int64} :
    spelledInteger? ('-' :: digits) = some number ↔
      digits.head? ≠ some '0' ∧ Numeral.readInt64 ('-' :: digits) = .ok number.toInt := by
  have passes : spelledInteger? ('-' :: digits) = some number ↔
      ¬ (digits.isEmpty || (digits.head? = some '0' && 1 < ('-' :: digits).length)) = true ∧
        Numeral.readInt64 ('-' :: digits) = .ok number.toInt := guarded_eq_some_iff
  rw [passes]
  refine and_congr_left fun read => ?_
  have digits := (Numeral.readInt64_minus_eq_ok_iff.mp read).1
  have some := List.length_pos_iff.mpr digits.ne_nil
  simp [digits.ne_nil, some]

theorem spelledInteger?_of_head?_ne {text : List Char} {number : Int64}
    (noMinus : text.head? ≠ some '-') :
    spelledInteger? text = some number ↔
      ¬ Numeral.Padded text ∧ Numeral.readInt64 text = .ok number.toInt := by
  have passes : spelledInteger? text = some number ↔
      ¬ (text.isEmpty || (text.head? = some '0' && 1 < text.length)) = true ∧
        Numeral.readInt64 text = .ok number.toInt := by
    unfold spelledInteger?
    split
    · exact absurd rfl noMinus
    · exact guarded_eq_some_iff
  rw [passes]
  refine and_congr_left fun read => ?_
  cases text with
  | nil => cases read
  | cons c rest => simp [Numeral.Padded]

/-- What the reader takes for an integer is what the grammar has for one. -/
theorem spelledInteger?_eq_some_iff {text : List Char} {number : Int64} :
    spelledInteger? text = some number ↔ SpellsInteger text number.toInt := by
  have low := number.le_toInt
  have high := number.toInt_lt
  have bound : Numeral.maxInt64 = 2 ^ 63 - 1 := rfl
  constructor
  · intro spelled
    rcases Numeral.sign_cases text with ⟨digits, rfl⟩ | ⟨digits, rfl⟩ | ⟨noPlus, noMinus⟩
    · obtain ⟨-, read⟩ := (spelledInteger?_of_head?_ne (by simp)).mp spelled
      obtain ⟨digits, -, same⟩ := Numeral.readInt64_plus_eq_ok_iff.mp read
      rw [← same]
      exact .plus digits
    · obtain ⟨short, read⟩ := spelledInteger?_minus.mp spelled
      obtain ⟨digits, -, same⟩ := Numeral.readInt64_minus_eq_ok_iff.mp read
      rw [← same]
      exact .minus digits short
    · obtain ⟨short, read⟩ := (spelledInteger?_of_head?_ne noMinus).mp spelled
      obtain ⟨digits, -, same⟩ := (Numeral.readInt64_unsigned_eq_ok_iff noPlus noMinus).mp read
      rw [← same]
      by_cases zero : text.head? = some '0'
      · obtain ⟨rest, rfl⟩ := List.head?_eq_some_iff.mp zero
        cases rest with
        | nil => exact .zero
        | cons d rest => exact absurd ⟨zero, by simp⟩ short
      · exact .plain digits zero
  · intro spelled
    generalize shown : number.toInt = i at spelled
    cases spelled with
    | zero =>
      rw [spelledInteger?_of_head?_ne (by decide), shown]
      exact ⟨fun padded => absurd padded.2 (by decide), rfl⟩
    | plain spelled noZero =>
      have digit : ∀ {c : Char}, text.head? = some c → c.isDigit = true := fun head =>
        spelled.isDigit _ (List.mem_of_mem_head? head)
      have noPlus : text.head? ≠ some '+' := fun head => absurd (digit head) (by decide)
      have noMinus : text.head? ≠ some '-' := fun head => absurd (digit head) (by decide)
      rw [spelledInteger?_of_head?_ne noMinus,
        Numeral.readInt64_unsigned_eq_ok_iff noPlus noMinus]
      exact ⟨fun padded => noZero padded.1, spelled, by omega, shown.symm⟩
    | minus spelled noZero =>
      rw [spelledInteger?_minus, Numeral.readInt64_minus_eq_ok_iff]
      exact ⟨noZero, spelled, by omega, shown.symm⟩
    | plus spelled =>
      rw [spelledInteger?_of_head?_ne (by simp), Numeral.readInt64_plus_eq_ok_iff]
      exact ⟨by simp [Numeral.Padded], spelled, by omega, shown.symm⟩

theorem SpellsInteger.unique {text : List Char} {number other : Int64}
    (spelled : SpellsInteger text number.toInt) (spelledToo : SpellsInteger text other.toInt) :
    number = other := by
  rw [← spelledInteger?_eq_some_iff] at spelled spelledToo
  exact Option.some.inj (spelled.symm.trans spelledToo)

/-- A text without a mark ends at the first one. -/
theorem text_eq_of_mark {text other : List Char} {mark : Char} {rest others : Bytes}
    (low : ∀ c ∈ text, c.toNat ≤ '9'.toNat) (lowToo : ∀ c ∈ other, c.toNat ≤ '9'.toNat)
    (above : '9'.toNat < mark.toNat) (byte : mark.toNat < 256)
    (same : Bytes.ofChars text ++ mark.toUInt8 :: rest =
      Bytes.ofChars other ++ mark.toUInt8 :: others) :
    text = other ∧ rest = others := by
  have one := toChars_takeWhile_mark low above byte rest
  have behind := dropWhile_mark low above byte rest
  rw [same, toChars_takeWhile_mark lowToo above byte others] at one
  rw [same, dropWhile_mark lowToo above byte others] at behind
  exact ⟨one.symm, (List.tail_eq_of_cons_eq behind).symm⟩

namespace StringToken

variable {token other : StringToken}

theorem Lawful.exists_head? (lawful : token.Lawful) :
    ∃ first, isDigit first = true ∧ ∀ rest, (token.spelling ++ rest).head? = some first := by
  rw [spelling]
  cases shown : token.digits with
  | nil => exact absurd shown lawful.digits.ne_nil
  | cons c rest =>
    have digits := lawful.digits
    rw [shown] at digits
    exact ⟨c.toUInt8, isDigit_toUInt8 digits.of_cons, fun _ => rfl⟩

/-- The digits of an octet string say where it ends. -/
theorem Lawful.unique (lawful : token.Lawful) (lawfulToo : other.Lawful) {rest others : Bytes}
    (same : token.spelling ++ rest = other.spelling ++ others) : token = other ∧ rest = others := by
  simp only [spelling, List.append_assoc, List.cons_append] at same
  obtain ⟨digits, behind⟩ := text_eq_of_mark (low_of_digits lawful.digits)
    (low_of_digits lawfulToo.digits) (by decide) (by decide) same
  have length : token.octets.length = other.octets.length := by
    rw [← lawful.value_eq, ← lawfulToo.value_eq, digits]
  obtain ⟨octets, rest⟩ := List.append_inj behind length
  cases token
  cases other
  obtain rfl : _ = _ := digits
  obtain rfl : _ = _ := octets
  exact ⟨rfl, rest⟩

end StringToken

/-! ## One derivation for each spelling -/

/-- The kinds of value. -/
inductive Kind where
  | integer
  | bytes
  | list
  | dictionary

/-- The kind of the value that starts with an octet, if one can. -/
def Kind.of? (first : UInt8) : Option Kind :=
  if first = 'i'.toUInt8 then some .integer
  else if first = 'l'.toUInt8 then some .list
  else if first = 'd'.toUInt8 then some .dictionary
  else if isDigit first then some .bytes
  else none

theorem Kind.of?_of_isDigit {first : UInt8} (digit : isDigit first = true) :
    Kind.of? first = some .bytes := by
  have noMark : ∀ mark, isDigit mark = false → first ≠ mark := by
    rintro mark none rfl
    rw [digit] at none
    cases none
  rw [of?, if_neg (noMark _ (by decide)), if_neg (noMark _ (by decide)),
    if_neg (noMark _ (by decide)), if_pos digit]

namespace Derivation

variable {depth level : Nat} {tree other : Derivation} {rest others : Bytes}

def kind : Derivation → Kind
  | .integer .. => .integer
  | .bytes _ => .bytes
  | .list _ => .list
  | .dictionary _ => .dictionary

theorem Lawful.kind_of_head? (lawful : tree.Lawful depth) (rest : Bytes) :
    (tree.octets ++ rest).head?.bind Kind.of? = some tree.kind := by
  cases lawful with
  | integer => rfl
  | bytes _ token =>
    obtain ⟨first, digit, start⟩ := token.exists_head?
    rw [octets, start, Option.bind_some, Kind.of?_of_isDigit digit]
    rfl
  | list => rfl
  | dictionary => rfl

/-- A derivation starts with an octet of its own, which is not the end mark of a container. -/
theorem Lawful.head?_ne (lawful : tree.Lawful depth) (rest : Bytes) :
    (tree.octets ++ rest).head? ≠ some 'e'.toUInt8 := by
  intro mark
  have kind := lawful.kind_of_head? rest
  rw [mark] at kind
  cases kind

/-- Whatever stands behind it, a derivation can be told from its octets. -/
def Separable (tree : Derivation) : Prop :=
  ∀ {level : Nat} {other : Derivation} {rest others : Bytes}, other.Lawful level →
    tree.octets ++ rest = other.octets ++ others → tree = other ∧ rest = others

theorem items_unique {items trees : List Derivation} (lawful : ∀ item ∈ items, item.Lawful depth)
    (separable : ∀ item ∈ items, item.Separable) (lawfulToo : ∀ tree ∈ trees, tree.Lawful level)
    (same : octetsOfItems items ++ 'e'.toUInt8 :: rest =
      octetsOfItems trees ++ 'e'.toUInt8 :: others) :
    items = trees ∧ rest = others := by
  induction items generalizing trees with
  | nil =>
    cases trees with
    | nil => exact ⟨rfl, List.tail_eq_of_cons_eq same⟩
    | cons tree trees =>
      rw [octetsOfItems, octetsOfItems, List.append_assoc] at same
      exact absurd (congrArg List.head? same).symm
        ((lawfulToo tree List.mem_cons_self).head?_ne _)
  | cons item items ih =>
    cases trees with
    | nil =>
      rw [octetsOfItems, octetsOfItems, List.append_assoc] at same
      exact absurd (congrArg List.head? same) ((lawful item List.mem_cons_self).head?_ne _)
    | cons tree trees =>
      rw [octetsOfItems, octetsOfItems, List.append_assoc, List.append_assoc] at same
      obtain ⟨rfl, behind⟩ := separable item List.mem_cons_self
        (lawfulToo tree List.mem_cons_self) same
      obtain ⟨rfl, final⟩ := ih (fun item member => lawful item (List.mem_cons_of_mem _ member))
        (fun item member => separable item (List.mem_cons_of_mem _ member))
        (fun tree member => lawfulToo tree (List.mem_cons_of_mem _ member)) behind
      exact ⟨rfl, final⟩

theorem entries_unique {entries trees : List (StringToken × Derivation)}
    (keys : ∀ entry ∈ entries, entry.1.Lawful)
    (separable : ∀ entry ∈ entries, entry.2.Separable)
    (keysToo : ∀ entry ∈ trees, entry.1.Lawful)
    (lawfulToo : ∀ entry ∈ trees, entry.2.Lawful level)
    (same : octetsOfEntries entries ++ 'e'.toUInt8 :: rest =
      octetsOfEntries trees ++ 'e'.toUInt8 :: others) :
    entries = trees ∧ rest = others := by
  -- a key starts with a digit, the end mark is none
  have start : ∀ {key : StringToken}, key.Lawful → ∀ behind,
      (key.spelling ++ behind).head? ≠ some 'e'.toUInt8 := by
    intro key lawful behind mark
    obtain ⟨first, digit, head⟩ := lawful.exists_head?
    rw [head] at mark
    obtain rfl := Option.some.inj mark
    cases digit
  induction entries generalizing trees with
  | nil =>
    cases trees with
    | nil => exact ⟨rfl, List.tail_eq_of_cons_eq same⟩
    | cons entry trees =>
      rw [octetsOfEntries, octetsOfEntries, List.append_assoc, List.append_assoc] at same
      exact absurd (congrArg List.head? same).symm (start (keysToo entry List.mem_cons_self) _)
  | cons entry entries ih =>
    cases trees with
    | nil =>
      rw [octetsOfEntries, octetsOfEntries, List.append_assoc, List.append_assoc] at same
      exact absurd (congrArg List.head? same) (start (keys entry List.mem_cons_self) _)
    | cons tree trees =>
      obtain ⟨key, item⟩ := entry
      obtain ⟨name, tree⟩ := tree
      rw [octetsOfEntries, octetsOfEntries, List.append_assoc, List.append_assoc,
        List.append_assoc, List.append_assoc] at same
      obtain ⟨rfl, named⟩ := (keys _ List.mem_cons_self).unique
        (keysToo _ List.mem_cons_self) same
      obtain ⟨rfl, behind⟩ := separable _ List.mem_cons_self
        (lawfulToo _ List.mem_cons_self) named
      obtain ⟨rfl, final⟩ := ih (fun entry member => keys entry (List.mem_cons_of_mem _ member))
        (fun entry member => separable entry (List.mem_cons_of_mem _ member))
        (fun entry member => keysToo entry (List.mem_cons_of_mem _ member))
        (fun entry member => lawfulToo entry (List.mem_cons_of_mem _ member)) behind
      exact ⟨rfl, final⟩

theorem Lawful.kind_eq (lawful : tree.Lawful depth) (lawfulToo : other.Lawful level)
    (same : tree.octets ++ rest = other.octets ++ others) : tree.kind = other.kind := by
  have kind := lawful.kind_of_head? rest
  rw [same, lawfulToo.kind_of_head?] at kind
  exact (Option.some.inj kind).symm

theorem Lawful.separable (lawful : tree.Lawful depth) : tree.Separable := by
  induction lawful with
  | integer shallow spelled =>
    intro level other rest others lawfulToo same
    have kind := (Lawful.integer shallow spelled).kind_eq lawfulToo same
    cases lawfulToo with
    | integer _ spelledToo =>
      simp only [octets, List.cons_append, List.append_assoc, List.nil_append] at same
      obtain ⟨rfl, behind⟩ := text_eq_of_mark spelled.low spelledToo.low (by decide) (by decide)
        (List.tail_eq_of_cons_eq same)
      obtain rfl := spelled.unique spelledToo
      exact ⟨rfl, behind⟩
    | bytes | list | dictionary => cases kind
  | bytes shallow token =>
    intro level other rest others lawfulToo same
    have kind := (Lawful.bytes shallow token).kind_eq lawfulToo same
    cases lawfulToo with
    | bytes _ tokenToo =>
      obtain ⟨rfl, behind⟩ := token.unique tokenToo same
      exact ⟨rfl, behind⟩
    | integer | list | dictionary => cases kind
  | list shallow items ih =>
    intro level other rest others lawfulToo same
    have kind := (Lawful.list shallow items).kind_eq lawfulToo same
    cases lawfulToo with
    | list _ trees =>
      simp only [octets, List.cons_append, List.append_assoc, List.nil_append] at same
      obtain ⟨rfl, behind⟩ := items_unique items ih trees (List.tail_eq_of_cons_eq same)
      exact ⟨rfl, behind⟩
    | integer | bytes | dictionary => cases kind
  | dictionary shallow keys items ih =>
    intro level other rest others lawfulToo same
    have kind := (Lawful.dictionary shallow keys items).kind_eq lawfulToo same
    cases lawfulToo with
    | dictionary _ names trees =>
      simp only [octets, List.cons_append, List.append_assoc, List.nil_append] at same
      obtain ⟨rfl, behind⟩ := entries_unique keys ih names trees (List.tail_eq_of_cons_eq same)
      exact ⟨rfl, behind⟩
    | integer | bytes | list => cases kind

/-- No two derivations spell the same octets. -/
theorem Lawful.unique (lawful : tree.Lawful depth) (lawfulToo : other.Lawful level)
    (same : tree.octets = other.octets) : tree = other := by
  have spread : tree.octets ++ [] = other.octets ++ [] := by rw [same]
  exact (lawful.separable lawfulToo spread).1

end Derivation

end PeerDiscovery.Bencode
