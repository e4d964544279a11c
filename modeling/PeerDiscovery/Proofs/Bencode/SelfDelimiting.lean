import PeerDiscovery.Proofs.Bencode.Acceptance

/-!
# Where a value ends

An accepted input shows by itself where it ends. Every token of its derivation ends at a mark or
after a length that it announces, so a reader that meets a part of the input finds no mark, too few
octets, or nothing at all where the next token should start, and reports the end of what it was
given (`Derivation.Lawful.runsOut`). What stands behind the input is never looked at, and is
reported by its length. So no accepted input is the start of another one
(`Value.parse_self_delimiting`).
-/

namespace PeerDiscovery.Bencode

/-! ## Parts -/

/-- A part of two strings stops inside the first, or takes all of it and stops in the second. -/
theorem cut_cases {part missing front back : Bytes} (cut : part ++ missing = front ++ back) :
    (∃ others, others ≠ [] ∧ part ++ others = front) ∨
      ∃ more, part = front ++ more ∧ more ++ missing = back := by
  rcases List.append_eq_append_iff.mp cut with ⟨others, whole, behind⟩ | ⟨more, whole, behind⟩
  · by_cases none : others = []
    · subst none
      rw [List.append_nil] at whole
      exact Or.inr ⟨[], by rw [whole, List.append_nil], behind⟩
    · exact Or.inl ⟨others, none, whole.symm⟩
  · exact Or.inr ⟨more, whole, behind.symm⟩

/-- What misses some of the end of a marked string misses the mark. -/
theorem cut_before_mark {part missing : Bytes} (front : Bytes) {mark : UInt8} (some : missing ≠ [])
    (cut : part ++ missing = front ++ [mark]) : ∃ others, part ++ others = front := by
  refine ⟨missing.dropLast, ?_⟩
  rw [← List.dropLast_append_of_ne_nil some, cut, List.dropLast_concat]

/-- Reading any part of some octets that misses some of their end reports the end of the input. -/
def RunsOut {α : Type} (size : Nat) (read : Reader α) (octets : Bytes) : Prop :=
  ∀ part missing, missing ≠ [] → part ++ missing = octets →
    read part = .error (.unexpectedEnd size)

/-! ## Tokens -/

section Tokens

variable {text : List Char} {part others : Bytes}

/-- A number that is cut off has no mark behind it. -/
theorem dropWhile_of_cut {mark : Char} (low : ∀ c ∈ text, c.toNat ≤ '9'.toNat)
    (above : '9'.toNat < mark.toNat) (byte : mark.toNat < 256)
    (cut : part ++ others = Bytes.ofChars text) :
    part.dropWhile (· != mark.toUInt8) = [] := by
  apply dropWhile_of_not_mem
  intro member
  apply mark_not_mem low above byte
  rw [← cut]
  exact List.mem_append_left others member

/-- Without its end mark an integer ends too early. -/
theorem readInteger_of_no_mark {size : Nat}
    (none : part.dropWhile (· != 'e'.toUInt8) = []) :
    readInteger size part = .error (.unexpectedEnd size) := by
  unfold readInteger
  split
  · rfl
  · rename_i found
    rw [none] at found
    cases found

/-- Without its colon an octet string ends too early. -/
theorem readBytes_of_no_mark {size : Nat}
    (none : part.dropWhile (· != ':'.toUInt8) = []) :
    readBytes size part = .error (.unexpectedEnd size) := by
  unfold readBytes
  split
  · rfl
  · rename_i found
    rw [none] at found
    cases found

/-- With fewer octets than its length says an octet string ends too early. -/
theorem readBytes_of_too_few {size length : Nat} {input rest : Bytes} {mark : UInt8}
    (found : input.dropWhile (· != ':'.toUInt8) = mark :: rest)
    (spelled : spelledLength? (Bytes.toChars (input.takeWhile (· != ':'.toUInt8))) = some length)
    (few : rest.length < length) : readBytes size input = .error (.unexpectedEnd size) := by
  unfold readBytes
  split
  · rfl
  · rename_i other tail foundToo
    obtain ⟨-, rfl⟩ := List.cons.inj (found.symm.trans foundToo)
    rw [spelled]
    dsimp only
    rw [if_pos (by rw [List.length_take]; omega)]

/-- An integer runs out wherever it is cut off. -/
theorem readInteger_runsOut (size : Nat) (low : ∀ c ∈ text, c.toNat ≤ '9'.toNat) :
    RunsOut size (readInteger size) (Bytes.ofChars text ++ ['e'.toUInt8]) := by
  intro part missing some cut
  obtain ⟨others, unmarked⟩ := cut_before_mark _ some cut
  exact readInteger_of_no_mark (dropWhile_of_cut low (by decide) (by decide) unmarked)

/-- The colon is missing, or some of the octets that the digits announce. -/
theorem readBytes_runsOut (size : Nat) {digits : List Char} {octets : Bytes}
    (low : ∀ c ∈ digits, c.toNat ≤ '9'.toNat)
    (spelled : spelledLength? digits = some octets.length) :
    RunsOut size (readBytes size) (Bytes.ofChars digits ++ ':'.toUInt8 :: octets) := by
  intro part missing some cut
  rw [List.append_cons] at cut
  rcases cut_cases cut with ⟨others, some, announced⟩ | ⟨more, rfl, rest⟩
  · obtain ⟨others, unmarked⟩ := cut_before_mark _ some announced
    exact readBytes_of_no_mark (dropWhile_of_cut low (by decide) (by decide) unmarked)
  · have few : more.length < octets.length := by
      have missed := List.length_pos_iff.mpr some
      rw [← rest, List.length_append]
      omega
    have found := dropWhile_mark low (by decide : '9'.toNat < ':'.toNat) (by decide) more
    rw [← toChars_takeWhile_mark low (by decide : '9'.toNat < ':'.toNat) (by decide) more]
      at spelled
    rw [← List.append_cons]
    exact readBytes_of_too_few found spelled few

/-- So does an octet string. -/
theorem StringToken.Lawful.runsOut {token : StringToken} (lawful : token.Lawful) (size : Nat) :
    RunsOut size (readBytes size) token.spelling :=
  readBytes_runsOut size (low_of_digits lawful.digits) lawful.spelledLength?_eq

end Tokens

/-! ## Containers -/

namespace RunsOut

variable {size : Nat} {read : Reader Value} {octets others : Bytes}

theorem noItems (size : Nat) (read : Reader Value) :
    RunsOut size (readItems size read) ['e'.toUInt8] := by
  intro part missing some cut
  obtain ⟨others, none⟩ := cut_before_mark [] some cut
  obtain ⟨rfl, -⟩ := List.append_eq_nil_iff.mp none
  rw [readItems]

/-- An item is cut, or the items behind it are. -/
theorem items {item : Value} (start : ∀ rest, (octets ++ rest).head? ≠ some 'e'.toUInt8)
    (one : Takes read octets item) (short : RunsOut size read octets)
    (more : RunsOut size (readItems size read) others) :
    RunsOut size (readItems size read) (octets ++ others) := by
  intro part missing some cut
  rcases cut_cases cut with ⟨behind, some, whole⟩ | ⟨front, rfl, rest⟩
  · cases part with
    | nil => rw [readItems]
    | cons first tail =>
      have other := start []
      rw [← whole] at other
      exact readItems_of_item_error other (List.cons_ne_nil _ _) (short _ _ some whole)
  · obtain ⟨_, taken⟩ := one front
    exact readItems_of_others_error (start front) taken (more _ _ some rest)

theorem noEntries (size : Nat) (read : Reader Value) (known : Dictionary Value) :
    RunsOut size (readEntries size read known) ['e'.toUInt8] := by
  intro part missing some cut
  obtain ⟨others, none⟩ := cut_before_mark [] some cut
  obtain ⟨rfl, -⟩ := List.append_eq_nil_iff.mp none
  rw [readEntries]

/-- A key is cut, or the value under it, or the entries behind them are. -/
theorem entries {known : Dictionary Value} {spelling key : Bytes} {value : Value}
    (start : ∃ first, isDigit first = true ∧ ∀ rest, (spelling ++ rest).head? = some first)
    (named : Takes (readBytes size) spelling key)
    (unnamed : RunsOut size (readBytes size) spelling)
    (one : Takes read octets value) (short : RunsOut size read octets)
    (more : RunsOut size (readEntries size read (known.insert key value)) others) :
    RunsOut size (readEntries size read known) (spelling ++ octets ++ others) := by
  intro part missing some cut
  obtain ⟨first, digit, start⟩ := start
  rw [List.append_assoc] at cut
  rcases cut_cases cut with ⟨behind, some, whole⟩ | ⟨front, rfl, rest⟩
  · cases part with
    | nil => rw [readEntries]
    | cons head tail =>
      have same := start []
      rw [← whole] at same
      exact readEntries_of_key_error same digit (unnamed _ _ some whole)
  · obtain ⟨_, named⟩ := named front
    rcases cut_cases rest with ⟨behind, some, whole⟩ | ⟨last, rfl, final⟩
    · exact readEntries_of_item_error (start front) digit named (short _ _ some whole)
    · obtain ⟨_, taken⟩ := one last
      exact readEntries_of_others_error (start _) digit named taken (more _ _ some final)

/-! ## Values -/

/-- Either nothing is there, or what stands behind the mark of a value is cut. -/
theorem behind {α : Type} {inner : Reader α} {outer : Reader Value} {wrap : α → Value}
    {mark : UInt8} (short : RunsOut size inner octets)
    (nothing : outer [] = .error (.unexpectedEnd size))
    (step : ∀ rest, outer (mark :: rest) = (inner rest).map (.behind wrap mark)) :
    RunsOut size outer (mark :: octets) := by
  intro part missing some cut
  cases part with
  | nil => exact nothing
  | cons first rest =>
    obtain ⟨rfl, whole⟩ := List.cons.inj cut
    rw [step, short _ _ some whole]
    rfl

/-- What runs out as an octet string runs out as a value. -/
theorem octetString {levels : Nat} {spelling : Bytes}
    (start : ∃ first, isDigit first = true ∧ ∀ rest, (spelling ++ rest).head? = some first)
    (short : RunsOut size (readBytes size) spelling) :
    RunsOut size (readValue size (levels + 1)) spelling := by
  intro part missing some cut
  obtain ⟨first, digit, start⟩ := start
  have cause := short _ _ some cut
  cases part with
  | nil => rfl
  | cons head tail =>
    have same := start []
    rw [← cut] at same
    obtain rfl : head = first := Option.some.inj same
    rw [readValue_of_isDigit digit, cause]
    rfl

end RunsOut

namespace Derivation

variable {size depth : Nat} {read : Reader Value}

/-- A list runs out wherever it is cut off: those of its items that are whole are read, and one that
is cut off runs out. -/
theorem items_runsOut {items : List Derivation} (lawful : ∀ item ∈ items, item.Lawful depth)
    (taken : ∀ item ∈ items, Takes read item.octets item.value)
    (short : ∀ item ∈ items, RunsOut size read item.octets) :
    RunsOut size (readItems size read) (octetsOfItems items ++ ['e'.toUInt8]) := by
  induction items with
  | nil => exact .noItems size read
  | cons item items ih =>
    obtain ⟨here, others⟩ := List.forall_mem_cons.mp lawful
    obtain ⟨one, more⟩ := List.forall_mem_cons.mp taken
    obtain ⟨cut, cuts⟩ := List.forall_mem_cons.mp short
    rw [octetsOfItems, List.append_assoc]
    exact .items here.head?_ne one cut (ih others more cuts)

/-- So does a dictionary, in its keys as in its values. -/
theorem entries_runsOut {entries : List (StringToken × Derivation)}
    (keys : ∀ entry ∈ entries, entry.1.Lawful)
    (taken : ∀ entry ∈ entries, Takes read entry.2.octets entry.2.value)
    (short : ∀ entry ∈ entries, RunsOut size read entry.2.octets) (known : Dictionary Value) :
    RunsOut size (readEntries size read known) (octetsOfEntries entries ++ ['e'.toUInt8]) := by
  induction entries generalizing known with
  | nil => exact .noEntries size read known
  | cons entry entries ih =>
    obtain ⟨key, item⟩ := entry
    obtain ⟨here, others⟩ := List.forall_mem_cons.mp keys
    obtain ⟨one, more⟩ := List.forall_mem_cons.mp taken
    obtain ⟨cut, cuts⟩ := List.forall_mem_cons.mp short
    rw [octetsOfEntries, List.append_assoc]
    exact .entries here.exists_head? (here.takes size) (here.runsOut size) one cut
      (ih others more cuts _)

/-- Reading a part of what a derivation spells reports the end of the input, wherever it is cut. -/
theorem Lawful.runsOut {tree : Derivation} (lawful : tree.Lawful depth) (size : Nat) {levels : Nat}
    (left : depth + levels = maxNesting + 1) :
    RunsOut size (readValue size levels) tree.octets := by
  induction lawful generalizing levels with
  | integer shallow spelled =>
    obtain ⟨below, rfl, -⟩ := exists_levels shallow left
    exact (readInteger_runsOut size spelled.low).behind rfl fun rest => by
      rw [readValue, if_pos rfl]
  | bytes shallow token =>
    obtain ⟨below, rfl, -⟩ := exists_levels shallow left
    exact .octetString token.exists_head? (token.runsOut size)
  | list shallow lawful ih =>
    obtain ⟨below, rfl, inner⟩ := exists_levels shallow left
    have short := items_runsOut lawful
      (fun item member => (lawful item member).takes size inner)
      (fun item member => ih item member inner)
    exact short.behind rfl fun rest => by rw [readValue, if_neg (by decide), if_pos rfl]
  | dictionary shallow keys lawful ih =>
    obtain ⟨below, rfl, inner⟩ := exists_levels shallow left
    have short := entries_runsOut keys
      (fun entry member => (lawful entry member).takes size inner)
      (fun entry member => ih entry member inner) []
    exact short.behind rfl fun rest => by
      rw [readValue, if_neg (by decide), if_neg (by decide), if_pos rfl]

end Derivation

/-! ## The whole input -/

namespace Value

/-- Every strict prefix of what is read ends too early. -/
theorem parse_of_cut {part missing : Bytes} {value : Value} (some : missing ≠ [])
    (read : parse (part ++ missing) = .ok value) :
    parse part = .error (.unexpectedEnd part.length) := by
  obtain ⟨tree, lawful, octets, -⟩ := parse_eq_ok_iff_exists.mp read
  have short := lawful.runsOut part.length (Nat.zero_add _) part missing some octets.symm
  rw [parse, short]
  rfl

/-- Whatever follows what is read is refused, and the error says how much it is. -/
theorem parse_of_trailing {input rest : Bytes} {value : Value} (some : rest ≠ [])
    (read : parse input = .ok value) : parse (input ++ rest) = .error (.trailing rest.length) := by
  obtain ⟨tree, lawful, rfl, -⟩ := parse_eq_ok_iff_exists.mp read
  obtain ⟨shorter, taken⟩ := lawful.takes (tree.octets ++ rest).length (Nat.zero_add _) rest
  rw [parse, taken]
  cases rest with
  | nil => exact absurd rfl some
  | cons first others => rfl

/-- Every start of an accepted input that misses some of its end is reported to end too early, at
its own length, and whatever is put behind an accepted input is reported as trailing, with its
length. So no accepted input is the start of another. -/
theorem parse_self_delimiting {input : Bytes} {value : Value} (read : parse input = .ok value) :
    (∀ part, part <+: input → part ≠ input →
        parse part = .error (.unexpectedEnd part.length)) ∧
      (∀ rest, rest ≠ [] → parse (input ++ rest) = .error (.trailing rest.length)) ∧
      ∀ longer other, parse longer = .ok other → input <+: longer → input = longer := by
  refine ⟨fun part start strict => ?_, fun rest some => parse_of_trailing some read, ?_⟩
  · obtain ⟨missing, rfl⟩ := start
    have some : missing ≠ [] := by
      rintro rfl
      exact strict (List.append_nil part).symm
    exact parse_of_cut some read
  · intro longer other readToo start
    obtain ⟨rest, rfl⟩ := start
    by_cases none : rest = []
    · rw [none, List.append_nil]
    · rw [parse_of_trailing none read] at readToo
      cases readToo

/-- A dictionary with a list, cut inside a number and inside an octet string, and with another value
behind it. -/
theorem parse_self_delimiting_sample :
    ∃ value, parse (Bytes.ofText "d1:ali-7e2:abee") = .ok value ∧
      parse (Bytes.ofText "d1:ali-") = .error (.unexpectedEnd 7) ∧
      parse (Bytes.ofText "d1:ali-7e2:a") = .error (.unexpectedEnd 12) ∧
      parse (Bytes.ofText "d1:ali-7e2:abeei1e") = .error (.trailing 3) := by
  have told : (parse (Bytes.ofText "d1:ali-7e2:abee")).toOption.isSome = true := by decide +kernel
  obtain ⟨value, given⟩ := Option.isSome_iff_exists.mp told
  have read := toOption_eq_some_iff.mp given
  obtain ⟨cut, extended, -⟩ := parse_self_delimiting read
  refine ⟨value, read, ?_, ?_, ?_⟩
  · exact cut (Bytes.ofText "d1:ali-") ⟨Bytes.ofText "7e2:abee", rfl⟩ (by decide)
  · exact cut (Bytes.ofText "d1:ali-7e2:a") ⟨Bytes.ofText "bee", rfl⟩ (by decide)
  · exact extended (Bytes.ofText "i1e") (by decide)

end Value

end PeerDiscovery.Bencode
