import PeerDiscovery.Proofs.Bencode.Inversion
import PeerDiscovery.Proofs.Bencode.RoundTrip

/-!
# How deep values lie

A reader meets the containers of a written value in the order in which they are written. It stops at
the first one that lies too deep, and everything before that reads back as usual, so how deep a
value may lie does not depend on its shape (`readValue_refuses`). Whatever a reader returns could
have been written: it lies no deeper than the reader goes, its dictionaries are ordered, and its
octet strings have lengths that can be read, however the input spelled all that
(`readValue_within`). `Value.parse_undoes_print` puts the two together.
-/

namespace PeerDiscovery.Bencode

/-! ## Too deep -/

/-- Reading gives up on some octets because of their depth, whatever stands behind them. -/
def Refuses {α : Type} (read : Reader α) (octets : Bytes) : Prop :=
  ∀ rest, read (octets ++ rest) = .error .tooDeep

namespace Refuses

variable {size : Nat} {read : Reader Value} {octets others : Bytes} {value : Value}

/-- What is refused behind a mark is refused with the mark. -/
theorem behind {α : Type} {inner : Reader α} {outer : Reader Value} {wrap : α → Value}
    {mark : UInt8} (refused : Refuses inner octets)
    (step : ∀ rest, outer (mark :: rest) = (inner rest).map (.behind wrap mark)) :
    Refuses outer (mark :: octets) := by
  intro rest
  rw [List.cons_append, step, refused]
  rfl

/-- The first item is refused. -/
theorem item (refused : Refuses read value.print) (others : Bytes) :
    Refuses (readItems size read) (value.print ++ others) := by
  intro rest
  have one := refused (others ++ rest)
  rw [List.append_assoc]
  exact readItems_of_item_error (head?_print value _)
    (List.append_ne_nil_of_left_ne_nil (print_ne_nil value) _) one

/-- An item behind the first is refused. -/
theorem items (one : Takes read value.print value)
    (refused : Refuses (readItems size read) others) :
    Refuses (readItems size read) (value.print ++ others) := by
  intro rest
  obtain ⟨_, taken⟩ := one (others ++ rest)
  rw [List.append_assoc]
  exact readItems_of_others_error (head?_print value _) taken (refused rest)

variable {known : Dictionary Value} {key : Bytes}

/-- The value under the first key is refused. -/
theorem entry (small : key.length ≤ Numeral.max64) (refused : Refuses read octets)
    (others : Bytes) :
    Refuses (readEntries size read known) (printBytes key ++ octets ++ others) := by
  intro rest
  obtain ⟨first, digit, start⟩ := head?_printBytes key
  obtain ⟨_, named⟩ := readBytes_takes size small (octets ++ (others ++ rest))
  rw [List.append_assoc, List.append_assoc]
  exact readEntries_of_item_error (start _) digit named (refused _)

/-- The value under a later key is refused. -/
theorem entries (small : key.length ≤ Numeral.max64) (one : Takes read octets value)
    (refused : Refuses (readEntries size read (known.insert key value)) others) :
    Refuses (readEntries size read known) (printBytes key ++ octets ++ others) := by
  intro rest
  obtain ⟨first, digit, start⟩ := head?_printBytes key
  obtain ⟨_, named⟩ := readBytes_takes size small (octets ++ (others ++ rest))
  obtain ⟨_, taken⟩ := one (others ++ rest)
  rw [List.append_assoc, List.append_assoc]
  exact readEntries_of_others_error (start _) digit named taken (refused _)

end Refuses

mutual

/-- A value that is deeper than the levels left is refused, whatever follows it. -/
theorem readValue_refuses (size : Nat) : ∀ (value : Value) (levels : Nat), levels ≤ value.nesting →
    value.Ordered → value.Fits → Refuses (readValue size levels) value.print
  | _, 0, _, _, _ => fun _ => rfl
  | .integer _, levels + 1, deep, _, _ => absurd deep (Nat.not_succ_le_zero levels)
  | .bytes _, levels + 1, deep, _, _ => absurd deep (Nat.not_succ_le_zero levels)
  | .list items, levels + 1, deep, ordered, fits =>
    (readItems_refuses size items levels deep ordered fits).behind fun rest => by
      rw [readValue, if_neg (by decide), if_pos rfl]
  | .dictionary entries, levels + 1, deep, ordered, fits =>
    (readEntries_refuses size entries levels [] deep ordered.2 fits).behind fun rest => by
      rw [readValue, if_neg (by decide), if_neg (by decide), if_pos rfl]

/-- A list is refused at its first item that is too deep, as those before it are read. -/
theorem readItems_refuses (size : Nat) : ∀ (items : List Value) (levels : Nat),
    levels < Value.nestingOfItems items → Value.OrderedItems items → Value.FitsItems items →
    Refuses (readItems size (readValue size levels)) (printItems items ++ ['e'.toUInt8])
  | [], levels, deep, _, _ => absurd deep (Nat.not_lt_zero levels)
  | item :: others, levels, deep, ordered, fits => by
    rw [Value.nestingOfItems] at deep
    rw [printItems, List.append_assoc]
    rcases Nat.lt_or_ge item.nesting levels with shallow | here
    · obtain ⟨below, rfl⟩ := Nat.exists_eq_add_of_lt shallow
      have one := readValue_takes size item (item.nesting + below) (by omega) ordered.1 fits.1
      exact .items one (readItems_refuses size others _ (by omega) ordered.2 fits.2)
    · exact (readValue_refuses size item levels here ordered.1 fits.1).item _

/-- A dictionary is refused at its first value that is too deep. -/
theorem readEntries_refuses (size : Nat) : ∀ (entries : List (Bytes × Value)) (levels : Nat)
    (known : Dictionary Value), levels < Value.nestingOfEntries entries →
    Value.OrderedEntries entries → Value.FitsEntries entries →
    Refuses (readEntries size (readValue size levels) known)
      (printEntries entries ++ ['e'.toUInt8])
  | [], levels, _, deep, _, _ => absurd deep (Nat.not_lt_zero levels)
  | (key, value) :: others, levels, known, deep, ordered, fits => by
    rw [Value.nestingOfEntries] at deep
    rw [printEntries, List.append_assoc]
    rcases Nat.lt_or_ge value.nesting levels with shallow | here
    · obtain ⟨below, rfl⟩ := Nat.exists_eq_add_of_lt shallow
      have one := readValue_takes size value (value.nesting + below) (by omega) ordered.1 fits.2.1
      exact .entries fits.1 one
        (readEntries_refuses size others _ (known.insert key value) (by omega) ordered.2 fits.2.2)
    · exact (readValue_refuses size value levels here ordered.1 fits.2.1).entry fits.1 _

end

/-- A value that lies too deep is refused as such. -/
theorem Value.parse_print_of_lt {value : Value} (ordered : value.Ordered)
    (deep : maxNesting < value.nesting) (fits : value.Fits) :
    Value.parse value.print = .error .tooDeep := by
  have refused := readValue_refuses value.print.length value (maxNesting + 1) deep ordered fits []
  rw [List.append_nil] at refused
  rw [parse, refused]
  rfl

/-! ## What is read -/

namespace Value

/-- A value that a reader of some levels could have returned. -/
structure Within (levels : Nat) (value : Value) : Prop where
  nesting_lt : value.nesting < levels
  ordered : value.Ordered
  fits : value.Fits

namespace Within

variable {levels : Nat}

theorem integer (number : Int64) : (Value.integer number).Within (levels + 1) :=
  ⟨Nat.zero_lt_succ _, trivial, trivial⟩

theorem bytes {octets : Bytes} (small : octets.length ≤ Numeral.max64) :
    (Value.bytes octets).Within (levels + 1) :=
  ⟨Nat.zero_lt_succ _, trivial, small⟩

theorem list {items : List Value} (within : ∀ item ∈ items, item.Within levels) :
    (Value.list items).Within (levels + 1) where
  nesting_lt := Nat.lt_succ_of_le <| nestingOfItems_le_iff.mpr fun item member =>
    (within item member).nesting_lt
  ordered := orderedItems_iff.mpr fun item member => (within item member).ordered
  fits := fitsItems_iff.mpr fun item member => (within item member).fits

theorem dictionary {entries : Dictionary Value} (ascending : entries.Ascending)
    (within : ∀ entry ∈ entries, entry.1.length ≤ Numeral.max64 ∧ entry.2.Within levels) :
    (Value.dictionary entries).Within (levels + 1) where
  nesting_lt := Nat.lt_succ_of_le <| nestingOfEntries_le_iff.mpr fun entry member =>
    (within entry member).2.nesting_lt
  ordered := ⟨ascending, orderedEntries_iff.mpr fun entry member => (within entry member).2.ordered⟩
  fits := fitsEntries_iff.mpr fun entry member =>
    ⟨(within entry member).1, (within entry member).2.fits⟩

/-- A dictionary that is made of entries in any order is in order. -/
theorem ofList {entries : List (Bytes × Value)}
    (within : ∀ entry ∈ entries, entry.1.length ≤ Numeral.max64 ∧ entry.2.Within levels) :
    (Value.dictionary (Dictionary.ofList entries)).Within (levels + 1) :=
  .dictionary (Dictionary.ascending_ofList entries) fun entry member =>
    within entry (Dictionary.mem_ofList member)

end Within

end Value

/-- Whatever a reader returns is of some kind. -/
def Yields {α : Type} (read : Reader α) (kind : α → Prop) : Prop :=
  ∀ {input : Bytes} {parsed : Parsed α input}, read input = .ok parsed → kind parsed.value

/-- An octet string that was read is no longer than its length could say. -/
theorem readBytes_yields (size : Nat) :
    Yields (readBytes size) fun octets => octets.length ≤ Numeral.max64 := by
  intro input parsed done
  obtain ⟨mark, rest, length, -, spelled, -, value, -⟩ := readBytes_eq_ok done
  have small := Numeral.le_of_readNat (spelledLength?_eq_some_iff.mp spelled)
  rw [value, List.length_take]
  omega

section Containers

variable {size levels : Nat} {read : Reader Value}

/-- What holds of every value that is read holds of all items. -/
theorem readItems_yields {kind : Value → Prop} (yields : Yields read kind) :
    Yields (readItems size read) fun items => ∀ item ∈ items, kind item := by
  intro input parsed done
  induction bound : input.length using Nat.strongRecOn generalizing input with
  | ind length ih =>
    rcases readItems_eq_ok done with ⟨-, none⟩ | ⟨item, others, -, one, more, all, -⟩
    · rw [none]
      exact List.forall_mem_nil _
    · have shorter := item.shorter
      rw [all, List.forall_mem_cons]
      exact ⟨yields one, ih _ (by omega) more rfl⟩

/-- A dictionary is filled entry by entry, and stays ordered. -/
theorem readEntries_yields {kind : Value → Prop} (yields : Yields read kind)
    {known : Dictionary Value} {input : Bytes} {parsed : Parsed (Dictionary Value) input}
    (done : readEntries size read known input = .ok parsed) (ascending : known.Ascending)
    (before : ∀ entry ∈ known, entry.1.length ≤ Numeral.max64 ∧ kind entry.2) :
    parsed.value.Ascending ∧
      ∀ entry ∈ parsed.value, entry.1.length ≤ Numeral.max64 ∧ kind entry.2 := by
  induction bound : input.length using Nat.strongRecOn generalizing input known with
  | ind length ih =>
    rcases readEntries_eq_ok done with
      ⟨-, same⟩ | ⟨first, key, item, all, -, -, named, one, more, filled, -⟩
    · rw [same]
      exact ⟨ascending, before⟩
    · have shorter := Nat.lt_trans item.shorter key.shorter
      rw [filled]
      refine ih _ (by omega) more (ascending.insert key.value item.value) ?_ rfl
      intro entry member
      rcases Dictionary.mem_insert member with rfl | old
      · exact ⟨readBytes_yields size named, yields one⟩
      · exact before entry old

end Containers

/-- A value that was read is within the levels that were left. -/
theorem readValue_within (size levels : Nat) :
    Yields (readValue size levels) (Value.Within levels) := by
  induction levels with
  | zero =>
    intro input parsed done
    cases done
  | succ levels ih =>
    intro input parsed done
    obtain ⟨below, first, rest, same, rfl, ways⟩ := readValue_eq_ok done
    obtain rfl := Nat.succ.inj same
    rcases ways with ⟨number, -, -, value, -⟩ | ⟨items, -, inner, value, -⟩ |
      ⟨entries, -, inner, value, -⟩ | ⟨octets, -, inner, value, -⟩
    · rw [value]
      exact .integer number.value
    · rw [value]
      exact .list (readItems_yields ih inner)
    · obtain ⟨ascending, within⟩ := readEntries_yields ih inner List.Pairwise.nil (by simp)
      rw [value]
      exact .dictionary ascending within
    · rw [value]
      exact .bytes (readBytes_yields size inner)

namespace Value

/-- What `parse` returns is within its limit, ordered, and fits. -/
theorem within_of_parse {input : Bytes} {value : Value} (read : parse input = .ok value) :
    value.Within (maxNesting + 1) := by
  obtain ⟨shorter, done⟩ := parse_eq_ok_iff.mp read
  exact readValue_within _ _ done

/-- So it is read back when it is printed. -/
theorem parse_print_of_within {value : Value} {levels : Nat} (within : value.Within levels)
    (shallow : levels ≤ maxNesting + 1) : parse value.print = .ok value :=
  parse_print within.ordered
    (Nat.le_of_lt_succ (Nat.lt_of_lt_of_le within.nesting_lt shallow)) within.fits

/-- Reading undoes writing exactly for the values that do not lie too deep, and every value that was
read is one of these. -/
theorem parse_undoes_print :
    (∀ value : Value, value.Ordered → value.Fits →
        parse value.print =
          if value.nesting ≤ maxNesting then .ok value else .error .tooDeep) ∧
      ∀ input value, parse input = .ok value →
        value.nesting ≤ maxNesting ∧ value.Ordered ∧ parse value.print = .ok value := by
  constructor
  · intro value ordered fits
    split
    · rename_i shallow
      exact parse_print ordered shallow fits
    · rename_i deep
      exact parse_print_of_lt ordered (Nat.lt_of_not_le deep) fits
  · intro input value read
    have within := within_of_parse read
    exact ⟨Nat.le_of_lt_succ within.nesting_lt, within.ordered,
      parse_print_of_within within (Nat.le_refl _)⟩

/-! ### A sample -/

/-- The least integer, that many lists deep. -/
def wrapped : Nat → Value
  | 0 => .integer Int64.minValue
  | depth + 1 => .list [wrapped depth]

theorem wrapped_within (depth : Nat) :
    (wrapped depth).nesting = depth ∧ (wrapped depth).Ordered ∧ (wrapped depth).Fits := by
  induction depth with
  | zero => exact ⟨rfl, trivial, trivial⟩
  | succ depth ih =>
    obtain ⟨nesting, ordered, fits⟩ := ih
    have one : (wrapped (depth + 1)).nesting = max ((wrapped depth).nesting + 1) 0 := rfl
    exact ⟨by rw [one, nesting, Nat.max_zero], ⟨ordered, trivial⟩, ⟨fits, trivial⟩⟩

/-- The limit is met exactly, and a spelling with a plus sign, a leading zero, and one key twice and
out of order reads as the same value as its canonical form. -/
theorem parse_undoes_print_sample :
    parse (wrapped 64).print = .ok (wrapped 64) ∧
      parse (wrapped 65).print = .error .tooDeep ∧
      ∃ value, parse (Bytes.ofText "d1:bi+7e2:ab00:1:ble01:bi7ee") = .ok value ∧
        value.print = Bytes.ofText "d2:ab0:1:bi7ee" ∧ parse value.print = .ok value := by
  obtain ⟨nesting, ordered, fits⟩ := wrapped_within 64
  obtain ⟨nestingToo, orderedToo, fitsToo⟩ := wrapped_within 65
  have shallow := parse_undoes_print.1 _ ordered fits
  have deep := parse_undoes_print.1 _ orderedToo fitsToo
  rw [if_pos (by rw [nesting]; decide)] at shallow
  rw [if_neg (by rw [nestingToo]; decide)] at deep
  refine ⟨shallow, deep, ?_⟩
  have told : (parse (Bytes.ofText "d1:bi+7e2:ab00:1:ble01:bi7ee")).toOption.map print =
      some (Bytes.ofText "d2:ab0:1:bi7ee") := by decide +kernel
  obtain ⟨value, read, printed⟩ := Option.map_eq_some_iff.mp told
  rw [toOption_eq_some_iff] at read
  exact ⟨value, read, printed, (parse_undoes_print.2 _ value read).2.2⟩

end Value

end PeerDiscovery.Bencode
