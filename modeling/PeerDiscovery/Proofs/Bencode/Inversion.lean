import PeerDiscovery.Bencode.Reader

/-!
# What reading can have done

One inversion lemma for each reading function: it names what was read off the input on the way to a
result, so that no other proof unfolds the function.
-/

namespace PeerDiscovery

section Results

variable {ε α β : Type} {first : Except ε α}

/-- Two steps succeed exactly if both do. -/
theorem bind_eq_ok_iff {next : α → Except ε β} {result : β} :
    first.bind next = .ok result ↔ ∃ value, first = .ok value ∧ next value = .ok result := by
  cases first <;> simp [Except.bind]

/-- A wrapped result is one exactly if there was one to wrap. -/
theorem map_eq_ok_iff {f : α → β} {result : β} :
    first.map f = .ok result ↔ ∃ value, first = .ok value ∧ f value = result := by
  cases first <;> simp [Except.map]

theorem toOption_eq_some_iff {value : α} : first.toOption = some value ↔ first = .ok value := by
  cases first <;> simp [Except.toOption]

end Results

namespace Bencode

variable {size levels : Nat} {read : Reader Value} {input : Bytes}

/-- A length is a number that fits 64 bits. -/
theorem spelledLength?_eq_some_iff {text : List Char} {length : Nat} :
    spelledLength? text = some length ↔ Numeral.readNat Numeral.max64 text = .ok length :=
  toOption_eq_some_iff

/-- An integer that was read is spelled in front of the first end mark. -/
theorem readInteger_eq_ok {parsed : Parsed Int64 input}
    (done : readInteger size input = .ok parsed) :
    ∃ mark, input.dropWhile (· != 'e'.toUInt8) = mark :: parsed.rest ∧
      spelledInteger? (Bytes.toChars (input.takeWhile (· != 'e'.toUInt8))) = some parsed.value := by
  unfold readInteger at done
  split at done
  · cases done
  · rename_i mark rest found
    dsimp only at done
    split at done
    · cases done
    · rename_i number spelled
      obtain rfl := Except.ok.inj done
      exact ⟨mark, found, spelled⟩

/-- An octet string that was read has the length that is spelled in front of the first colon, and as
many octets were there. -/
theorem readBytes_eq_ok {parsed : Parsed Bytes input} (done : readBytes size input = .ok parsed) :
    ∃ mark rest length, input.dropWhile (· != ':'.toUInt8) = mark :: rest ∧
      spelledLength? (Bytes.toChars (input.takeWhile (· != ':'.toUInt8))) = some length ∧
      length ≤ rest.length ∧ parsed.value = rest.take length ∧ parsed.rest = rest.drop length := by
  unfold readBytes at done
  split at done
  · cases done
  · rename_i mark rest found
    split at done
    · cases done
    · rename_i length spelled
      dsimp only at done
      split at done
      · cases done
      · rename_i enough
        obtain rfl := Except.ok.inj done
        rw [List.length_take, Nat.not_lt] at enough
        exact ⟨mark, rest, length, found, spelled, by omega, rfl, rfl⟩

/-! ## Views -/

namespace Value

variable {value : Value}

theorem integer?_eq_some_iff {number : Int64} :
    value.integer? = some number ↔ value = .integer number := by
  cases value <;> simp [integer?]

theorem bytes?_eq_some_iff {octets : Bytes} :
    value.bytes? = some octets ↔ value = .bytes octets := by
  cases value <;> simp [bytes?]

theorem list?_eq_some_iff {items : List Value} :
    value.list? = some items ↔ value = .list items := by
  cases value <;> simp [list?]

theorem dictionary?_eq_some_iff {entries : Dictionary Value} :
    value.dictionary? = some entries ↔ value = .dictionary entries := by
  cases value <;> simp [dictionary?]

theorem text?_eq_some_iff {content : String} :
    value.text? = some content ↔ value = .text content := by
  rw [text?, Option.bind_eq_some_iff]
  constructor
  · intro found
    obtain ⟨octets, view, decoded⟩ := found
    rw [bytes?_eq_some_iff.mp view, text, Utf8.encode_of_decode? decoded]
  · rintro rfl
    exact ⟨Utf8.encode content, rfl, Utf8.decode?_encode content⟩

end Value

/-! ## Containers -/

/-- A list that was read ends at once, or has an item and goes on. -/
theorem readItems_eq_ok {parsed : Parsed (List Value) input}
    (done : readItems size read input = .ok parsed) :
    (input = 'e'.toUInt8 :: parsed.rest ∧ parsed.value = []) ∨
      ∃ (item : Parsed Value input) (others : Parsed (List Value) item.rest),
        input.head? ≠ some 'e'.toUInt8 ∧ read input = .ok item ∧
          readItems size read item.rest = .ok others ∧
          parsed.value = item.value :: others.value ∧ parsed.rest = others.rest := by
  cases input with
  | nil =>
    rw [readItems] at done
    cases done
  | cons first rest =>
    rw [readItems] at done
    split at done
    · rename_i mark
      obtain rfl := Except.ok.inj done
      exact Or.inl ⟨by rw [mark], rfl⟩
    · rename_i other
      simp only [bind, bind_eq_ok_iff] at done
      obtain ⟨item, one, others, more, same⟩ := done
      obtain rfl := Except.ok.inj same
      exact Or.inr ⟨item, others, by simpa using other, one, more, rfl, rfl⟩

/-- A dictionary that was read ends at once, or has a key and a value and goes on. -/
theorem readEntries_eq_ok {known : Dictionary Value} {parsed : Parsed (Dictionary Value) input}
    (done : readEntries size read known input = .ok parsed) :
    (input = 'e'.toUInt8 :: parsed.rest ∧ parsed.value = known) ∨
      ∃ (first : UInt8) (key : Parsed Bytes input) (item : Parsed Value key.rest)
        (all : Parsed (Dictionary Value) item.rest),
        input.head? = some first ∧ isDigit first = true ∧ readBytes size input = .ok key ∧
          read key.rest = .ok item ∧
          readEntries size read (known.insert key.value item.value) item.rest = .ok all ∧
          parsed.value = all.value ∧ parsed.rest = all.rest := by
  cases input with
  | nil =>
    rw [readEntries] at done
    cases done
  | cons first rest =>
    rw [readEntries] at done
    split at done
    · rename_i mark
      obtain rfl := Except.ok.inj done
      exact Or.inl ⟨by rw [mark], rfl⟩
    split at done
    · cases done
    · rename_i other digit
      simp only [bind, bind_eq_ok_iff] at done
      obtain ⟨key, named, item, one, all, more, same⟩ := done
      obtain rfl := Except.ok.inj same
      exact Or.inr ⟨first, key, item, all, rfl, by simpa using digit, named, one, more, rfl, rfl⟩

/-! ## Failures inside containers -/

section Failures

variable {cause : ReadError}

/-- A list fails with its first item that cannot be read. -/
theorem readItems_of_item_error (start : input.head? ≠ some 'e'.toUInt8) (some : input ≠ [])
    (one : read input = .error cause) : readItems size read input = .error cause := by
  cases input with
  | nil => exact absurd rfl some
  | cons first rest =>
    rw [readItems, if_neg (by simpa using start), one]
    rfl

/-- A list fails as what follows its first item does. -/
theorem readItems_of_others_error {item : Parsed Value input}
    (start : input.head? ≠ some 'e'.toUInt8) (one : read input = .ok item)
    (more : readItems size read item.rest = .error cause) :
    readItems size read input = .error cause := by
  cases input with
  | nil => exact absurd item.shorter (Nat.not_lt_zero _)
  | cons first rest =>
    rw [readItems, if_neg (by simpa using start), one]
    simp only [bind, Except.bind, more]

variable {known : Dictionary Value} {first : UInt8} {key : Parsed Bytes input}

/-- A dictionary fails with its first key that cannot be read. -/
theorem readEntries_of_key_error (start : input.head? = some first)
    (digit : isDigit first = true) (named : readBytes size input = .error cause) :
    readEntries size read known input = .error cause := by
  cases input with
  | nil => cases start
  | cons head rest =>
    obtain rfl := Option.some.inj start
    have other : head ≠ 'e'.toUInt8 := by
      rintro rfl
      cases digit
    rw [readEntries, if_neg other, digit, named]
    rfl

/-- A dictionary fails with its first value that cannot be read. -/
theorem readEntries_of_item_error (start : input.head? = some first)
    (digit : isDigit first = true) (named : readBytes size input = .ok key)
    (one : read key.rest = .error cause) : readEntries size read known input = .error cause := by
  cases input with
  | nil => cases start
  | cons head rest =>
    obtain rfl := Option.some.inj start
    have other : head ≠ 'e'.toUInt8 := by
      rintro rfl
      cases digit
    rw [readEntries, if_neg other, digit, named]
    simp only [Bool.not_true, Bool.false_eq_true, if_false, bind, Except.bind, one]

/-- A dictionary fails as what follows its first entry does. -/
theorem readEntries_of_others_error {item : Parsed Value key.rest}
    (start : input.head? = some first) (digit : isDigit first = true)
    (named : readBytes size input = .ok key) (one : read key.rest = .ok item)
    (more : readEntries size read (known.insert key.value item.value) item.rest = .error cause) :
    readEntries size read known input = .error cause := by
  cases input with
  | nil => cases start
  | cons head rest =>
    obtain rfl := Option.some.inj start
    have other : head ≠ 'e'.toUInt8 := by
      rintro rfl
      cases digit
    rw [readEntries, if_neg other, digit, named]
    simp only [Bool.not_true, Bool.false_eq_true, if_false, bind, Except.bind, one, more]

end Failures

/-! ## Values -/

/-- A value is read by its first octet. -/
theorem readValue_eq_ok {parsed : Parsed Value input}
    (done : readValue size levels input = .ok parsed) :
    ∃ below first rest, levels = below + 1 ∧ input = first :: rest ∧
      ((∃ number : Parsed Int64 rest, first = 'i'.toUInt8 ∧ readInteger size rest = .ok number ∧
          parsed.value = .integer number.value ∧ parsed.rest = number.rest) ∨
        (∃ items : Parsed (List Value) rest, first = 'l'.toUInt8 ∧
          readItems size (readValue size below) rest = .ok items ∧
          parsed.value = .list items.value ∧ parsed.rest = items.rest) ∨
        (∃ entries : Parsed (Dictionary Value) rest, first = 'd'.toUInt8 ∧
          readEntries size (readValue size below) [] rest = .ok entries ∧
          parsed.value = .dictionary entries.value ∧ parsed.rest = entries.rest) ∨
        ∃ octets : Parsed Bytes (first :: rest), isDigit first = true ∧
          readBytes size (first :: rest) = .ok octets ∧
          parsed.value = .bytes octets.value ∧ parsed.rest = octets.rest) := by
  cases levels with
  | zero => cases done
  | succ below =>
    cases input with
    | nil => cases done
    | cons first rest =>
      refine ⟨below, first, rest, rfl, rfl, ?_⟩
      rw [readValue] at done
      split at done
      · rename_i mark
        obtain ⟨number, inner, rfl⟩ := map_eq_ok_iff.mp done
        exact Or.inl ⟨number, mark, inner, rfl, rfl⟩
      split at done
      · rename_i mark
        obtain ⟨items, inner, rfl⟩ := map_eq_ok_iff.mp done
        exact Or.inr (Or.inl ⟨items, mark, inner, rfl, rfl⟩)
      split at done
      · rename_i mark
        obtain ⟨entries, inner, rfl⟩ := map_eq_ok_iff.mp done
        exact Or.inr (Or.inr (Or.inl ⟨entries, mark, inner, rfl, rfl⟩))
      split at done
      · rename_i digit
        obtain ⟨octets, inner, rfl⟩ := map_eq_ok_iff.mp done
        exact Or.inr (Or.inr (Or.inr ⟨octets, digit, inner, rfl, rfl⟩))
      · cases done

/-- The one value spans the whole input. -/
theorem parse_eq_ok_iff {value : Value} :
    Value.parse input = .ok value ↔
      ∃ shorter, readValue input.length (maxNesting + 1) input = .ok ⟨value, [], shorter⟩ := by
  unfold Value.parse
  cases read : readValue input.length (maxNesting + 1) input with
  | error cause => simp [bind, Except.bind]
  | ok parsed =>
    obtain ⟨found, rest, shorter⟩ := parsed
    cases rest with
    | cons first others => simp [bind, Except.bind]
    | nil =>
      constructor
      · intro done
        obtain rfl := Except.ok.inj done
        exact ⟨shorter, rfl⟩
      · intro given
        obtain ⟨_, same⟩ := given
        obtain rfl := congrArg Parsed.value (Except.ok.inj same)
        rfl

end Bencode

end PeerDiscovery
