import PeerDiscovery.Bencode.Printer
import PeerDiscovery.Bencode.Reader
import PeerDiscovery.Proofs.Bencode.Dictionary
import PeerDiscovery.Proofs.Text.Numeral

/-!
# Written values read back

`Value.parse_print`: the reader gives back every value whose dictionaries are ordered, whose octet
strings have lengths that can be read, and that lies no deeper than the reader goes. What is written
for a value is read off the front of any input, so the proof follows the value and never looks at
what comes behind it.
-/

namespace PeerDiscovery.Bencode

/-! ## Characters and octets -/

/-- Characters below U+0100 and octets are the same. -/
theorem toChars_ofChars {text : List Char} (small : ∀ c ∈ text, c.toNat < 256) :
    Bytes.toChars (Bytes.ofChars text) = text := by
  induction text with
  | nil => rfl
  | cons c rest ih =>
    have here := small c List.mem_cons_self
    have back : Char.ofNat c.toUInt8.toNat = c := by
      have same : c.toUInt8.toNat = c.toNat := by
        rw [Char.toUInt8, UInt32.toNat_toUInt8]
        exact Nat.mod_eq_of_lt here
      rw [same, Char.ofNat_toNat]
    rw [Bytes.ofChars, Bytes.toChars, List.map_cons, List.map_cons, back]
    exact congrArg (c :: ·) (ih fun c member => small c (List.mem_cons_of_mem _ member))

/-- Different characters of one octet are different octets. -/
theorem toUInt8_ne {c : Char} {mark : Char} (small : c.toNat < 256) (smallToo : mark.toNat < 256)
    (different : c ≠ mark) : c.toUInt8 ≠ mark.toUInt8 := by
  intro same
  have values := congrArg UInt8.toNat same
  rw [Char.toUInt8, Char.toUInt8, UInt32.toNat_toUInt8, UInt32.toNat_toUInt8] at values
  apply different
  apply Char.toNat_inj.mp
  change c.toNat % 256 = mark.toNat % 256 at values
  omega

section Mark

variable {mark : UInt8} {front : Bytes}

/-- In front of the first mark there is none. -/
theorem ne_of_not_mem (unmarked : mark ∉ front) : ∀ octet ∈ front, (octet != mark) = true := by
  intro octet member
  rw [bne_iff_ne]
  rintro rfl
  exact unmarked member

/-- Without a mark everything is passed over. -/
theorem dropWhile_of_not_mem (unmarked : mark ∉ front) : front.dropWhile (· != mark) = [] := by
  rw [← List.append_nil front, List.dropWhile_append_of_pos (ne_of_not_mem unmarked),
    List.dropWhile_nil]

/-- Passing over what is no mark stops at the first mark. -/
theorem dropWhile_append_mark (unmarked : mark ∉ front) (rest : Bytes) :
    (front ++ mark :: rest).dropWhile (· != mark) = mark :: rest := by
  rw [List.dropWhile_append_of_pos (ne_of_not_mem unmarked),
    List.dropWhile_cons_of_neg (by simp)]

/-- What was passed over is what stands in front of the mark. -/
theorem takeWhile_append_mark (unmarked : mark ∉ front) (rest : Bytes) :
    (front ++ mark :: rest).takeWhile (· != mark) = front := by
  rw [List.takeWhile_append_of_pos (ne_of_not_mem unmarked),
    List.takeWhile_cons_of_neg (by simp), List.append_nil]

end Mark

section TextMark

variable {text : List Char} {mark : Char}

/-- A text of characters up to the digit nine holds no mark above it. -/
theorem mark_not_mem (low : ∀ c ∈ text, c.toNat ≤ '9'.toNat) (above : '9'.toNat < mark.toNat)
    (byte : mark.toNat < 256) : mark.toUInt8 ∉ Bytes.ofChars text := by
  intro member
  obtain ⟨c, here, same⟩ := List.mem_map.mp member
  have bound := low c here
  refine toUInt8_ne (by omega) byte ?_ same
  rintro rfl
  omega

/-- The text before the first mark of an input. -/
theorem toChars_takeWhile_mark (low : ∀ c ∈ text, c.toNat ≤ '9'.toNat)
    (above : '9'.toNat < mark.toNat) (byte : mark.toNat < 256) (rest : Bytes) :
    Bytes.toChars ((Bytes.ofChars text ++ mark.toUInt8 :: rest).takeWhile (· != mark.toUInt8)) =
      text := by
  have small : ∀ c ∈ text, c.toNat < 256 := fun c member =>
    Nat.lt_of_le_of_lt (low c member) (by decide)
  rw [takeWhile_append_mark (mark_not_mem low above byte), toChars_ofChars small]

/-- Digits and signs lie below the marks that end them, so a text of them ends at its mark. -/
theorem dropWhile_mark (low : ∀ c ∈ text, c.toNat ≤ '9'.toNat) (above : '9'.toNat < mark.toNat)
    (byte : mark.toNat < 256) (rest : Bytes) :
    (Bytes.ofChars text ++ mark.toUInt8 :: rest).dropWhile (· != mark.toUInt8) =
      mark.toUInt8 :: rest :=
  dropWhile_append_mark (mark_not_mem low above byte) rest

end TextMark

/-! ## Octet strings and integers -/

/-- Reading takes some octets off the front of an input, whatever stands behind them, and gives a
value for them. -/
def Takes {α : Type} (read : Reader α) (octets : Bytes) (value : α) : Prop :=
  ∀ rest, ∃ shorter, read (octets ++ rest) = .ok ⟨value, rest, shorter⟩

/-- An octet string is read if its length is spelled out and as many octets are there. -/
theorem readBytes_eq {size length : Nat} {input rest : Bytes} {mark : UInt8}
    (found : input.dropWhile (· != ':'.toUInt8) = mark :: rest)
    (spelled : spelledLength? (Bytes.toChars (input.takeWhile (· != ':'.toUInt8))) = some length)
    (enough : length ≤ rest.length) :
    readBytes size input =
      .ok ⟨rest.take length, rest.drop length, length_drop_lt length found⟩ := by
  unfold readBytes
  split
  · rename_i none
    rw [found] at none
    cases none
  · rename_i other tail foundToo
    obtain ⟨-, rfl⟩ := List.cons.inj (found.symm.trans foundToo)
    rw [spelled]
    dsimp only
    rw [if_neg (by rw [List.length_take]; omega)]

/-- Reading takes an octet string behind any text that spells its length. -/
theorem readBytes_takes_spelled (size : Nat) {digits : List Char} {octets : Bytes}
    (low : ∀ c ∈ digits, c.toNat ≤ '9'.toNat)
    (spelled : spelledLength? digits = some octets.length) :
    Takes (readBytes size) (Bytes.ofChars digits ++ ':'.toUInt8 :: octets) octets := by
  intro rest
  have found := dropWhile_mark low (by decide : '9'.toNat < ':'.toNat) (by decide) (octets ++ rest)
  rw [← toChars_takeWhile_mark low (by decide : '9'.toNat < ':'.toNat) (by decide)
    (octets ++ rest)] at spelled
  have enough : octets.length ≤ (octets ++ rest).length := by simp
  rw [List.append_assoc, List.cons_append, readBytes_eq found spelled enough]
  refine ⟨?_, ?_⟩
  · simp only [List.length_append, List.length_cons]
    omega
  · simp only [List.take_left, List.drop_left]

/-- An octet string is read back. -/
theorem readBytes_takes (size : Nat) {octets : Bytes} (small : octets.length ≤ Numeral.max64) :
    Takes (readBytes size) (printBytes octets) octets := by
  refine readBytes_takes_spelled size (fun c member => (Numeral.toNat_of_mem_ofNat member).2) ?_
  rw [spelledLength?, Numeral.readNat_ofNat small]
  rfl

/-- An integer is written without a superfluous zero, so it passes the check for one. -/
theorem spelledInteger?_ofInt (number : Int64) :
    spelledInteger? (Numeral.ofInt number.toInt) = some number := by
  have read := Numeral.readInt64_ofInt number
  have back : Int64.ofInt number.toInt = number := Int64.ofInt_toInt number
  unfold spelledInteger?
  rw [read]
  cases value : number.toInt with
  | ofNat n =>
    have start : ∀ digits, Numeral.ofNat n ≠ '-' :: digits := by
      intro digits sign
      exact absurd (Numeral.isDigit_of_mem_ofNat (sign ▸ List.mem_cons_self)) (by decide)
    have zero : ¬ ((Numeral.ofNat n).head? = some '0' ∧ 1 < (Numeral.ofNat n).length) := by
      intro given
      rcases given with ⟨zero, long⟩
      obtain rfl := Numeral.eq_zero_of_head?_ofNat zero
      exact absurd long (by decide)
    have shown : Numeral.ofInt (.ofNat n) = Numeral.ofNat n := rfl
    rw [value] at back
    rw [shown]
    split
    · rename_i digits sign
      exact absurd sign (start digits)
    · rw [if_neg]
      · exact congrArg some back
      · simpa [Numeral.ofNat_ne_nil] using zero
  | negSucc n =>
    have zero : (Numeral.ofNat (n + 1)).head? ≠ some '0' := by
      intro zero
      cases Numeral.eq_zero_of_head?_ofNat zero
    have shown : Numeral.ofInt (.negSucc n) = '-' :: Numeral.ofNat (n + 1) := rfl
    rw [value] at back
    rw [shown]
    dsimp only
    rw [if_neg]
    · exact congrArg some back
    · simp [zero, Numeral.ofNat_ne_nil]

/-- An integer is read if what stands in front of the end mark spells one. -/
theorem readInteger_eq {size : Nat} {input rest : Bytes} {mark : UInt8} {number : Int64}
    (found : input.dropWhile (· != 'e'.toUInt8) = mark :: rest)
    (spelled :
      spelledInteger? (Bytes.toChars (input.takeWhile (· != 'e'.toUInt8))) = some number) :
    readInteger size input = .ok ⟨number, rest, length_tail_lt found⟩ := by
  unfold readInteger
  split
  · rename_i none
    rw [found] at none
    cases none
  · rename_i other tail foundToo
    obtain ⟨-, rfl⟩ := List.cons.inj (found.symm.trans foundToo)
    dsimp only
    rw [spelled]

/-- Reading takes any text that spells an integer, with its end mark. -/
theorem readInteger_takes_spelled (size : Nat) {text : List Char} {number : Int64}
    (low : ∀ c ∈ text, c.toNat ≤ '9'.toNat) (spelled : spelledInteger? text = some number) :
    Takes (readInteger size) (Bytes.ofChars text ++ ['e'.toUInt8]) number := by
  intro rest
  have found := dropWhile_mark low (by decide : '9'.toNat < 'e'.toNat) (by decide) rest
  rw [← toChars_takeWhile_mark low (by decide : '9'.toNat < 'e'.toNat) (by decide) rest]
    at spelled
  rw [List.append_assoc, List.singleton_append, readInteger_eq found spelled]
  exact ⟨_, rfl⟩

/-- An integer is read back. -/
theorem readInteger_takes (size : Nat) (number : Int64) :
    Takes (readInteger size) (Bytes.ofChars (Numeral.ofInt number.toInt) ++ ['e'.toUInt8])
      number :=
  readInteger_takes_spelled size (fun _ => Numeral.toNat_of_mem_ofInt)
    (spelledInteger?_ofInt number)

/-! ## First octets -/

/-- A digit of a text is a digit of the input. -/
theorem isDigit_toUInt8 {c : Char} (digit : c.isDigit = true) : isDigit c.toUInt8 = true := by
  obtain ⟨low, high⟩ := Char.isDigit_iff_toNat.mp digit
  change 48 ≤ c.toNat at low
  change c.toNat ≤ 57 at high
  have same : c.toUInt8.toNat = c.toNat := by
    rw [Char.toUInt8, UInt32.toNat_toUInt8]
    change c.toNat % 256 = c.toNat
    omega
  rw [isDigit, Bool.and_eq_true, decide_eq_true_eq, decide_eq_true_eq, UInt8.le_iff_toNat_le,
    UInt8.le_iff_toNat_le, same]
  exact ⟨low, high⟩

/-- A printed octet string starts with a digit. -/
theorem head?_printBytes (octets : Bytes) :
    ∃ first, isDigit first = true ∧ ∀ rest, (printBytes octets ++ rest).head? = some first := by
  rw [printBytes]
  cases digits : Numeral.ofNat octets.length with
  | nil => exact absurd digits (Numeral.ofNat_ne_nil _)
  | cons c rest =>
    refine ⟨c.toUInt8, isDigit_toUInt8 ?_, fun _ => rfl⟩
    exact Numeral.isDigit_of_mem_ofNat (digits ▸ List.mem_cons_self)

/-- A value starts with an octet of its own, which is not the end mark of a container. -/
theorem exists_head?_print (value : Value) :
    ∃ first, first ≠ 'e'.toUInt8 ∧ ∀ rest, (value.print ++ rest).head? = some first := by
  cases value with
  | integer number => exact ⟨'i'.toUInt8, by decide, fun _ => rfl⟩
  | bytes octets =>
    obtain ⟨first, digit, start⟩ := head?_printBytes octets
    refine ⟨first, ?_, start⟩
    rintro rfl
    cases digit
  | list items => exact ⟨'l'.toUInt8, by decide, fun _ => rfl⟩
  | dictionary entries => exact ⟨'d'.toUInt8, by decide, fun _ => rfl⟩

/-- No printed value starts with the end mark. -/
theorem head?_print (value : Value) (rest : Bytes) :
    (value.print ++ rest).head? ≠ some 'e'.toUInt8 := by
  obtain ⟨first, other, start⟩ := exists_head?_print value
  rw [start]
  exact fun same => other (Option.some.inj same)

/-- A printed value is not empty. -/
theorem print_ne_nil (value : Value) : value.print ≠ [] := by
  obtain ⟨first, -, start⟩ := exists_head?_print value
  intro nothing
  have head := start []
  rw [nothing] at head
  cases head

/-! ## Containers -/

/-- A list goes on with each item that is read. -/
theorem readItems_cons {size : Nat} {read : Reader Value} {input : Bytes}
    {item : Parsed Value input} {others : Parsed (List Value) item.rest}
    (start : input.head? ≠ some 'e'.toUInt8) (one : read input = .ok item)
    (more : readItems size read item.rest = .ok others) :
    readItems size read input = .ok ⟨item.value :: others.value, others.rest,
      Nat.lt_trans others.shorter item.shorter⟩ := by
  cases input with
  | nil => exact absurd item.shorter (Nat.not_lt_zero _)
  | cons first rest =>
    have other : first ≠ 'e'.toUInt8 := fun same => start (congrArg some same)
    rw [readItems, if_neg other, one]
    simp only [bind, Except.bind, more]
    rfl

/-- A dictionary goes on with each key and value that are read. -/
theorem readEntries_cons {size : Nat} {read : Reader Value} {known : Dictionary Value}
    {input : Bytes} {first : UInt8} {key : Parsed Bytes input} {item : Parsed Value key.rest}
    {all : Parsed (Dictionary Value) item.rest} (start : input.head? = some first)
    (digit : isDigit first = true) (named : readBytes size input = .ok key)
    (one : read key.rest = .ok item)
    (more : readEntries size read (known.insert key.value item.value) item.rest = .ok all) :
    readEntries size read known input = .ok ⟨all.value, all.rest,
      Nat.lt_trans all.shorter (Nat.lt_trans item.shorter key.shorter)⟩ := by
  cases input with
  | nil => cases start
  | cons head rest =>
    obtain rfl := Option.some.inj start
    have other : head ≠ 'e'.toUInt8 := by
      rintro rfl
      cases digit
    rw [readEntries, if_neg other, digit, named]
    simp only [Bool.not_true, Bool.false_eq_true, if_false, bind, Except.bind, one, more]
    rfl

/-- A digit starts no other value than an octet string. -/
theorem readValue_of_isDigit {size levels : Nat} {first : UInt8} {rest : Bytes}
    (digit : isDigit first = true) :
    readValue size (levels + 1) (first :: rest) =
      (readBytes size (first :: rest)).map fun parsed =>
        ⟨.bytes parsed.value, parsed.rest, parsed.shorter⟩ := by
  have noMark : ∀ mark, isDigit mark = false → first ≠ mark := by
    rintro mark none rfl
    rw [digit] at none
    cases none
  rw [readValue, if_neg (noMark _ (by decide)), if_neg (noMark _ (by decide)),
    if_neg (noMark _ (by decide)), if_pos digit]

namespace Takes

variable {size : Nat} {read : Reader Value} {octets others : Bytes}

theorem noItems (size : Nat) (read : Reader Value) :
    Takes (readItems size read) ['e'.toUInt8] [] := by
  intro rest
  change ∃ _, readItems size read ('e'.toUInt8 :: rest) = _
  rw [readItems, if_pos rfl]
  exact ⟨_, rfl⟩

/-- A list is read item by item. -/
theorem items {item : Value} {rest : List Value} (one : Takes read octets item)
    (start : ∀ rest, (octets ++ rest).head? ≠ some 'e'.toUInt8)
    (more : Takes (readItems size read) others rest) :
    Takes (readItems size read) (octets ++ others) (item :: rest) := by
  intro behind
  obtain ⟨_, first⟩ := one (others ++ behind)
  obtain ⟨_, last⟩ := more behind
  rw [List.append_assoc]
  exact ⟨_, readItems_cons (start _) first last⟩

theorem noEntries (size : Nat) (read : Reader Value) (known : Dictionary Value) :
    Takes (readEntries size read known) ['e'.toUInt8] known := by
  intro rest
  change ∃ _, readEntries size read known ('e'.toUInt8 :: rest) = _
  rw [readEntries, if_pos rfl]
  exact ⟨_, rfl⟩

/-- A dictionary is read entry by entry, each added to those before it. -/
theorem entries {known all : Dictionary Value} {spelling key : Bytes} {value : Value}
    (named : Takes (readBytes size) spelling key)
    (start : ∃ first, isDigit first = true ∧ ∀ rest, (spelling ++ rest).head? = some first)
    (one : Takes read octets value)
    (more : Takes (readEntries size read (known.insert key value)) others all) :
    Takes (readEntries size read known) (spelling ++ octets ++ others) all := by
  intro behind
  obtain ⟨first, digit, start⟩ := start
  obtain ⟨_, named⟩ := named (octets ++ (others ++ behind))
  obtain ⟨_, second⟩ := one (others ++ behind)
  obtain ⟨_, last⟩ := more behind
  rw [List.append_assoc, List.append_assoc]
  exact ⟨_, readEntries_cons (start _) digit named second last⟩

/-- What stands behind the mark of a value decides how far the value goes. -/
theorem behind {α : Type} {inner : Reader α} {outer : Reader Value} {wrap : α → Value}
    {mark : UInt8} {value : α} (taken : Takes inner octets value)
    (step : ∀ rest, outer (mark :: rest) = (inner rest).map (.behind wrap mark)) :
    Takes outer (mark :: octets) (wrap value) := by
  intro rest
  obtain ⟨shorter, read⟩ := taken rest
  refine ⟨Nat.lt_succ_of_lt shorter, ?_⟩
  change outer (mark :: (octets ++ rest)) = _
  rw [step, read]
  rfl

/-- What reads as an octet string reads as a value. -/
theorem octetString {levels : Nat} {spelling : Bytes}
    (named : Takes (readBytes size) spelling octets)
    (start : ∃ first, isDigit first = true ∧ ∀ rest, (spelling ++ rest).head? = some first) :
    Takes (readValue size (levels + 1)) spelling (.bytes octets) := by
  intro rest
  obtain ⟨first, digit, start⟩ := start
  obtain ⟨shorter, read⟩ := named rest
  have begins := start rest
  generalize spelling ++ rest = input at shorter read begins ⊢
  cases input with
  | nil => cases begins
  | cons head tail =>
    obtain rfl := Option.some.inj begins
    rw [readValue_of_isDigit digit, read]
    exact ⟨_, rfl⟩

end Takes

/-! ## Values -/

namespace Value

mutual

/-- Every octet string in the value has a length that can be read. -/
def Fits : Value → Prop
  | .integer _ => True
  | .bytes octets => octets.length ≤ Numeral.max64
  | .list items => FitsItems items
  | .dictionary entries => FitsEntries entries

def FitsItems : List Value → Prop
  | [] => True
  | item :: rest => item.Fits ∧ FitsItems rest

def FitsEntries : List (Bytes × Value) → Prop
  | [] => True
  | (key, value) :: rest => key.length ≤ Numeral.max64 ∧ value.Fits ∧ FitsEntries rest

end

end Value

/-! ## Items and entries -/

namespace Value

section Items

variable {items : List Value}

/-- A list is as deep as its deepest item, and one level more. -/
theorem nestingOfItems_le_iff {levels : Nat} :
    nestingOfItems items ≤ levels ↔ ∀ item ∈ items, item.nesting < levels := by
  induction items with
  | nil => simp [nestingOfItems]
  | cons item rest ih =>
    rw [nestingOfItems, Nat.max_le, ih, List.forall_mem_cons, Nat.add_one_le_iff]

theorem orderedItems_iff : OrderedItems items ↔ ∀ item ∈ items, item.Ordered := by
  induction items with
  | nil => simp [OrderedItems]
  | cons item rest ih => rw [OrderedItems, ih, List.forall_mem_cons]

theorem fitsItems_iff : FitsItems items ↔ ∀ item ∈ items, item.Fits := by
  induction items with
  | nil => simp [FitsItems]
  | cons item rest ih => rw [FitsItems, ih, List.forall_mem_cons]

end Items

section Entries

variable {entries : List (Bytes × Value)}

/-- A dictionary is as deep as its deepest value, and one level more. -/
theorem nestingOfEntries_le_iff {levels : Nat} :
    nestingOfEntries entries ≤ levels ↔ ∀ entry ∈ entries, entry.2.nesting < levels := by
  induction entries with
  | nil => simp [nestingOfEntries]
  | cons entry rest ih =>
    obtain ⟨key, value⟩ := entry
    rw [nestingOfEntries, Nat.max_le, ih, List.forall_mem_cons, Nat.add_one_le_iff]

theorem orderedEntries_iff : OrderedEntries entries ↔ ∀ entry ∈ entries, entry.2.Ordered := by
  induction entries with
  | nil => simp [OrderedEntries]
  | cons entry rest ih =>
    obtain ⟨key, value⟩ := entry
    rw [OrderedEntries, ih, List.forall_mem_cons]

/-- The entries of a dictionary fit one by one, and their keys are no longer than a length can say.
-/
theorem fitsEntries_iff :
    FitsEntries entries ↔ ∀ entry ∈ entries, entry.1.length ≤ Numeral.max64 ∧ entry.2.Fits := by
  induction entries with
  | nil => simp [FitsEntries]
  | cons entry rest ih =>
    obtain ⟨key, value⟩ := entry
    rw [FitsEntries, ih, List.forall_mem_cons, and_assoc]

end Entries

end Value

/-! ## Reading values back -/

mutual

/-- Every value that is ordered and fits is read back, within the levels that it needs. -/
theorem readValue_takes (size : Nat) : ∀ (value : Value) (levels : Nat), value.nesting ≤ levels →
    value.Ordered → value.Fits → Takes (readValue size (levels + 1)) value.print value
  | .integer number, levels, _, _, _ => (readInteger_takes size number).behind fun rest => by
    rw [readValue, if_pos rfl]
  | .bytes octets, levels, _, _, fits =>
    .octetString (readBytes_takes size fits) (head?_printBytes octets)
  | .list items, levels, deep, ordered, fits =>
    (readItems_takes size items levels deep ordered fits).behind fun rest => by
      rw [readValue, if_neg (by decide), if_pos rfl]
  | .dictionary entries, levels, deep, ordered, fits =>
    (readEntries_takes size entries levels [] deep ordered.1 ordered.2 fits).behind
      fun rest => by rw [readValue, if_neg (by decide), if_neg (by decide), if_pos rfl]

/-- So are the items of a list. -/
theorem readItems_takes (size : Nat) : ∀ (items : List Value) (levels : Nat),
    Value.nestingOfItems items ≤ levels → Value.OrderedItems items → Value.FitsItems items →
    Takes (readItems size (readValue size levels)) (printItems items ++ ['e'.toUInt8]) items
  | [], levels, _, _, _ => .noItems size _
  | item :: others, 0, deep, _, _ => by
    rw [Value.nestingOfItems] at deep
    omega
  | item :: others, levels + 1, deep, ordered, fits => by
    rw [Value.nestingOfItems] at deep
    have one := readValue_takes size item levels (by omega) ordered.1 fits.1
    have more := readItems_takes size others (levels + 1) (by omega) ordered.2 fits.2
    rw [printItems, List.append_assoc]
    exact one.items (head?_print item) more

/-- So are the entries of a dictionary. As they ascend, each goes behind those that were read
before. -/
theorem readEntries_takes (size : Nat) : ∀ (entries : List (Bytes × Value)) (levels : Nat)
    (known : Dictionary Value), Value.nestingOfEntries entries ≤ levels →
    Dictionary.Ascending (known ++ entries) → Value.OrderedEntries entries →
    Value.FitsEntries entries →
    Takes (readEntries size (readValue size levels) known) (printEntries entries ++ ['e'.toUInt8])
      (known ++ entries)
  | [], levels, known, _, _, _, _ => by
    rw [List.append_nil]
    exact .noEntries size _ known
  | (key, value) :: others, 0, known, deep, _, _, _ => by
    rw [Value.nestingOfEntries] at deep
    omega
  | (key, value) :: others, levels + 1, known, deep, ascending, ordered, fits => by
    rw [Value.nestingOfEntries] at deep
    have below : ∀ entry ∈ known, compare entry.1 key = .lt := fun entry member =>
      (List.pairwise_append.mp ascending).2.2 entry member (key, value) List.mem_cons_self
    have one := readValue_takes size value levels (by omega) ordered.1 fits.2.1
    have grown : known ++ (key, value) :: others = known ++ [(key, value)] ++ others :=
      List.append_cons ..
    rw [grown] at ascending ⊢
    have more := readEntries_takes size others (levels + 1) (known ++ [(key, value)]) (by omega)
      ascending ordered.2 fits.2.2
    rw [← Dictionary.insert_of_forall_lt below] at more ⊢
    rw [printEntries, List.append_assoc]
    exact .entries (readBytes_takes size fits.1) (head?_printBytes key) one more

end

/-- What is written for a value reads back as the value. -/
theorem Value.parse_print {value : Value} (ordered : value.Ordered)
    (shallow : value.nesting ≤ maxNesting) (fits : value.Fits) :
    Value.parse value.print = .ok value := by
  have taken := readValue_takes value.print.length value maxNesting shallow ordered fits []
  rw [List.append_nil] at taken
  obtain ⟨shorter, read⟩ := taken
  rw [parse, read]
  rfl

end PeerDiscovery.Bencode
