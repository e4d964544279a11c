import PeerDiscovery.Proofs.Bencode.Cursor
import PeerDiscovery.Proofs.Bencode.SelfDelimiting

/-!
# Reading stays in bounds

From a safe cursor a routine ends at a safe cursor, and as a reader foretells that is handed the
octets ahead: it refuses them for the same cause, or comes to the same value and leaves the same
octets ahead (`Ends`). Each routine is shown to do so from what the routines that it calls do. A
reader takes at least one octet, so every success has moved forward. A loop has fewer octets ahead
in each round (`items_ends`, `entries_ends`), and so has a call of `value` within another one, with
a level less to go (`value_follows`). So a limit above the number of octets ahead is enough.
`parse_stays_in_bounds` says all this of a whole input.
-/

namespace PeerDiscovery.Bencode

/-- An error about a missing end tells where the input ends. -/
def ReadError.AtEnd (size : Nat) (cause : ReadError) : Prop :=
  ∀ position, cause = .unexpectedEnd position → position = size

namespace Cursor

/-- The cursor is in the input or at its end, and nothing has gone wrong so far. -/
structure Safe (data : Bytes) (cursor : Cursor) : Prop where
  position_le : cursor.position ≤ data.length
  valueCalls_le : valueCalls cursor.active ≤ maxNesting + 2
  events : ∀ event ∈ cursor.events, event.Safe data.length

/-- The octets from the cursor on. -/
def ahead (data : Bytes) (cursor : Cursor) : Bytes := data.drop cursor.position

variable {α β : Type} {data : Bytes} {before : Cursor}

section Enter

variable {routine : Routine} {last : Cursor}

theorem position_enter : (before.enter routine).position = before.position := rfl

theorem active_enter : (before.enter routine).active = routine :: before.active := rfl

namespace Safe

/-- The position is what is left of the input without the octets ahead, as the readers count it. -/
theorem position_eq (safe : before.Safe data) :
    before.position = data.length - (ahead data before).length := by
  have bound := safe.position_le
  rw [ahead, List.length_drop]
  omega

/-- A routine may be entered as long as the calls of `value` that are open stay few. -/
theorem enter_of_few (safe : before.Safe data) (shallow : routine.depth ≤ maxNesting + 1)
    (few : valueCalls (routine :: before.active) ≤ maxNesting + 2) :
    (before.enter routine).Safe data :=
  ⟨safe.position_le, few,
    List.forall_mem_cons.mpr ⟨⟨safe.position_le, shallow, few⟩, safe.events⟩⟩

/-- Entering any other routine opens no call of `value`. -/
theorem enter (safe : before.Safe data) (other : routine.isValue = false)
    (shallow : routine.depth ≤ maxNesting + 1) : (before.enter routine).Safe data := by
  refine safe.enter_of_few shallow ?_
  rw [valueCalls_cons other]
  exact safe.valueCalls_le

/-- Entering `value` opens one more call, so the depth must leave room for it. -/
theorem enter_value {depth : Nat} (safe : before.Safe data)
    (calls : valueCalls before.active = depth) (shallow : depth ≤ maxNesting + 1) :
    (before.enter (.value depth)).Safe data := by
  refine safe.enter_of_few shallow ?_
  rw [valueCalls_value, calls]
  exact Nat.succ_le_succ shallow

/-- A routine is left safely if it went forward, or only peeked. -/
theorem leave (safe : last.Safe data) (same : last.active = routine :: before.active)
    (moved : routine = .peek ∨ before.position < last.position)
    (forward : before.position ≤ last.position) : (before.leave routine last).Safe data where
  position_le := safe.position_le
  valueCalls_le := by
    have few := safe.valueCalls_le
    rw [same] at few
    exact Nat.le_trans (List.sublist_cons_self _ _).countP_le few
  events := List.forall_mem_cons.mpr ⟨⟨moved, forward, safe.position_le⟩, safe.events⟩

end Safe

end Enter

/-! ## Runs -/

/-- What is read and what is left. -/
def told {input : Bytes} (read : Except ReadError (Parsed α input)) :
    Except ReadError (α × Bytes) :=
  read.map fun parsed => (parsed.value, parsed.rest)

/-- What a reader tells was read off leaves a shorter rest. -/
theorem length_lt_of_told {input rest : Bytes} {read : Except ReadError (Parsed α input)}
    {value : α} (taken : told read = .ok (value, rest)) : rest.length < input.length := by
  obtain ⟨parsed, -, same⟩ := map_eq_ok_iff.mp taken
  obtain ⟨-, rfl⟩ := Prod.mk.inj same
  exact parsed.shorter

/-- A run ends at a safe cursor and as foretold: with the refusal, or with the value, the rest ahead
of it, and the calls `active`. -/
inductive Ends (data : Bytes) (active : List Routine) :
    Option (Except Stop α × Cursor) → Except ReadError (α × Bytes) → Prop
  | refused {cause : ReadError} {last : Cursor} :
    cause.AtEnd data.length → last.Safe data →
    Ends data active (some (.error (.refused cause), last)) (.error cause)
  | read {value : α} {last : Cursor} :
    last.Safe data → last.active = active →
    Ends data active (some (.ok value, last)) (.ok (value, ahead data last))

/-- After a success the next step goes on from the cursor that is reached. -/
theorem run_bind {first : Reading α} {next : α → Reading β} {value : α} {after : Cursor}
    (run : first before = some (.ok value, after)) :
    (first >>= next) before = next value after := by
  change (first before).bind _ = _
  rw [run]
  rfl

/-- After a stop nothing else is run. -/
theorem run_bind_stop {first : Reading α} {next : α → Reading β} {stop : Stop} {after : Cursor}
    (run : first before = some (.error stop, after)) :
    (first >>= next) before = some (.error stop, after) := by
  change (first before).bind _ = _
  rw [run]
  rfl

namespace Ends

variable {active calls : List Routine} {first : Reading α} {next : α → Reading β} {value : α}
  {rest : Bytes} {cause : ReadError}

/-- Steps in a row end as their readers foretell, one after the other. -/
theorem bind {foretold : Except ReadError (α × Bytes)}
    {onward : α × Bytes → Except ReadError (β × Bytes)}
    (one : Ends data calls (first before) foretold)
    (more : ∀ value after, after.Safe data → after.active = calls →
      foretold = .ok (value, ahead data after) →
      Ends data active (next value after) (onward (value, ahead data after))) :
    Ends data active ((first >>= next) before) (foretold.bind onward) := by
  generalize result : first before = run at one
  cases one with
  | refused atEnd safe =>
    rw [run_bind_stop result]
    exact .refused atEnd safe
  | read safe same =>
    rw [run_bind result]
    exact more _ _ safe same rfl

/-- A foretold success is what the next step starts from. -/
theorem followed {foretold : Except ReadError (β × Bytes)}
    (one : Ends data calls (first before) (.ok (value, rest)))
    (more : ∀ after : Cursor, after.Safe data → after.active = calls → ahead data after = rest →
      Ends data active (next value after) foretold) :
    Ends data active ((first >>= next) before) foretold := by
  change Ends data active _ (Except.bind (.ok (value, rest)) fun _ => foretold)
  refine one.bind fun _ after safe same taken => ?_
  obtain ⟨rfl, rfl⟩ := Prod.mk.inj (Except.ok.inj taken)
  exact more after safe same rfl

/-- A foretold refusal is the end, whatever would come next. -/
theorem stopped (one : Ends data calls (first before) (.error cause)) :
    Ends data active ((first >>= next) before) (.error cause) := by
  change Ends data active _ (Except.bind (.error cause) fun _ : α × Bytes => .error cause)
  exact one.bind fun _ _ _ _ taken => nomatch taken

/-- Wrapping the value changes neither where a run ends nor what it refuses. -/
theorem mapped {foretold : Except ReadError (α × Bytes)} (wrap : α → β)
    (one : Ends data active (first before) foretold) :
    Ends data active ((wrap <$> first) before)
      (foretold.map fun read => (wrap read.1, read.2)) := by
  have ends : Ends data active ((first >>= fun value => pure (wrap value)) before)
      (foretold.bind fun read => .ok (wrap read.1, read.2)) :=
    one.bind fun _ _ safe same _ => .read safe same
  rw [map_eq_pure_bind]
  cases foretold <;> exact ends

/-- A run that ends as foretold gives the foretold answer at a safe cursor, and an error about a
missing end is about the end of the input. -/
theorem exists_last {run : Option (Except Stop α × Cursor)}
    {foretold : Except ReadError (α × Bytes)} (ends : Ends data active run foretold) :
    ∃ last : Cursor, run = some ((foretold.map Prod.fst).mapError .refused, last) ∧
      last.Safe data ∧ ∀ cause, foretold = .error cause → cause.AtEnd data.length := by
  cases ends with
  | refused atEnd safe =>
    refine ⟨_, rfl, safe, ?_⟩
    rintro cause ⟨⟩
    exact atEnd
  | read safe same => exact ⟨_, rfl, safe, fun cause refused => nomatch refused⟩

/-- A routine ends as its body does, if the body moves forward or only looks. -/
theorem within {routine : Routine} {body : Reading α} {foretold : Except ReadError (α × Bytes)}
    (safe : before.Safe data)
    (inner : Ends data (routine :: before.active) (body (before.enter routine)) foretold)
    (moved : ∀ value rest, foretold = .ok (value, rest) →
      rest.length < (ahead data before).length ∨ routine = .peek ∧ rest = ahead data before) :
    Ends data before.active (Cursor.within routine body before) foretold := by
  rw [Cursor.within, run_bind (rfl : (get : Reading Cursor) before = some (.ok before, before)),
    run_bind (rfl : (set (before.enter routine) : Reading PUnit) before =
      some (.ok (), before.enter routine))]
  generalize result : body (before.enter routine) = run at inner
  cases inner with
  | refused atEnd safe =>
    rw [run_bind_stop result]
    exact .refused atEnd safe
  | read safeLast same =>
    rename_i value last
    rw [run_bind result]
    have bound := safe.position_le
    have lengths := (moved value _ rfl).imp_right fun look =>
      And.intro look.1 (congrArg List.length look.2)
    rw [ahead, ahead, List.length_drop, List.length_drop] at lengths
    refine .read (safeLast.leave same ?_ ?_) rfl
    · rcases lengths with shorter | ⟨look, -⟩
      · exact Or.inr (by omega)
      · exact Or.inl look
    · have boundLast := safeLast.position_le
      omega

/-- A routine that reads as a reader does has moved forward, as the reader has taken an octet. -/
theorem within_told {routine : Routine} {body : Reading α} {input : Bytes}
    {read : Except ReadError (Parsed α input)} (safe : before.Safe data)
    (front : ahead data before = input)
    (inner : Ends data (routine :: before.active) (body (before.enter routine)) (told read)) :
    Ends data before.active (Cursor.within routine body before) (told read) := by
  refine within safe inner fun value rest taken => Or.inl ?_
  rw [front]
  exact length_lt_of_told taken

end Ends

/-! ## Machine operations -/

section Operations

variable {first : UInt8} {rest : Bytes}

theorem here_apply (before : Cursor) : here before = some (.ok before.position, before) := rfl

/-- A sum that fits a word is no fault. -/
theorem sum_apply {a b : Nat} (fits : a + b ≤ Numeral.max64) :
    sum a b before = some (.ok (a + b), before) := by
  rw [sum, sum?, if_pos fits]
  rfl

/-- The depth is counted far below the largest word. -/
theorem sum_depth_apply {depth : Nat} (shallow : depth ≤ maxNesting) :
    sum depth 1 before = some (.ok (depth + 1), before) :=
  sum_apply (Nat.le_trans (Nat.succ_le_succ shallow) (by decide))

/-- A difference is no fault unless it would be negative. -/
theorem difference_apply {a b : Nat} (bound : b ≤ a) :
    difference a b before = some (.ok (a - b), before) := by
  rw [difference, if_pos bound]
  rfl

/-- A slice within the input is no fault. -/
theorem slice_apply {start stop : Nat} (forward : start ≤ stop) (bound : stop ≤ data.length) :
    slice data start stop before = some (.ok (data.extract start stop), before) := by
  rw [slice, if_pos ⟨forward, bound⟩]
  rfl

/-- Moving within the input leaves the octets from there on ahead. -/
theorem moveTo_ends {position : Nat} (safe : before.Safe data) (bound : position ≤ data.length) :
    Ends data before.active (moveTo position before) (.ok ((), data.drop position)) :=
  .read ⟨bound, safe.valueCalls_le, safe.events⟩ rfl

/-- Advancing takes the octet ahead. -/
theorem advance_ends (held : data.length ≤ Numeral.max64) (safe : before.Safe data)
    (front : ahead data before = first :: rest) :
    Ends data before.active (advance before) (.ok ((), rest)) := by
  have length := congrArg List.length front
  rw [ahead, List.length_drop, List.length_cons] at length
  have behind : data.drop (before.position + 1) = rest := by
    rw [← List.drop_drop, ← ahead, front, List.drop_one, List.tail_cons]
  rw [advance, run_bind (here_apply before), run_bind (sum_apply (by omega)), ← behind]
  exact moveTo_ends safe (by omega)

/-- The end mark of a container is passed over, and the container is complete. -/
theorem close_ends (held : data.length ≤ Numeral.max64) (safe : before.Safe data)
    (front : ahead data before = first :: rest) (result : Value) :
    Ends data before.active ((advance >>= fun _ => pure result) before) (.ok (result, rest)) := by
  refine (advance_ends held safe front).followed fun last safe same left => ?_
  rw [← left]
  exact .read safe same

/-- Peeking tells the octet ahead and takes nothing. -/
theorem peek_ends (safe : before.Safe data) (front : ahead data before = first :: rest) :
    Ends data before.active (peek data before) (.ok (first, first :: rest)) := by
  have entered : (before.enter .peek).Safe data := safe.enter rfl (Nat.zero_le _)
  have found : data[before.position]? = some first := by
    rw [← List.head?_drop, ← ahead, front, List.head?_cons]
  refine .within safe ?_ fun value left same => Or.inr ⟨rfl, ?_⟩
  · rw [run_bind (here_apply _), position_enter, found, ← front]
    exact .read entered rfl
  · obtain ⟨-, rfl⟩ := Prod.mk.inj (Except.ok.inj same)
    exact front.symm

/-- A cursor with nothing ahead is at the end of the input, so a look there tells where that is. -/
theorem peek_ends_of_nil (safe : before.Safe data) (front : ahead data before = []) :
    Ends data before.active (peek data before) (.error (.unexpectedEnd data.length)) := by
  have entered : (before.enter .peek).Safe data := safe.enter rfl (Nat.zero_le _)
  have stop : before.position = data.length := by
    have position := safe.position_eq
    rwa [front, List.length_nil, Nat.sub_zero] at position
  refine .within safe ?_ fun value rest foretold => nomatch foretold
  rw [run_bind (here_apply _), position_enter, stop, List.getElem?_eq_none (Nat.le_refl _)]
  dsimp only
  rw [run_bind (here_apply _), position_enter, stop]
  refine .refused ?_ entered
  rintro position ⟨⟩
  rfl

end Operations

/-! ## Tokens -/

section Tokens

variable {mark : UInt8} {front rest : Bytes}

/-- A mark that does not occur has no place. -/
theorem findIdx?_of_not_mem (unmarked : mark ∉ front) : front.findIdx? (· == mark) = none := by
  rw [List.findIdx?_eq_none_iff]
  intro octet member
  simpa using ne_of_not_mem unmarked octet member

/-- The first place of a mark is behind a front without it. -/
theorem findIdx?_append_mark (unmarked : mark ∉ front) (rest : Bytes) :
    (front ++ mark :: rest).findIdx? (· == mark) = some front.length := by
  rw [List.findIdx?_append, findIdx?_of_not_mem unmarked, List.findIdx?_cons, beq_self_eq_true]
  simp

/-- The slice from the cursor to the end of the input is what lies ahead. -/
theorem extract_ahead (data : Bytes) (cursor : Cursor) :
    data.extract cursor.position data.length = ahead data cursor := by
  rw [List.extract_eq_take_drop, ← List.length_drop, List.take_length, ahead]

/-- What lies ahead of a mark is taken off with the mark. -/
theorem upTo_ends (held : data.length ≤ Numeral.max64) (safe : before.Safe data)
    (split : ahead data before = front ++ mark :: rest) (unmarked : mark ∉ front) :
    Ends data before.active (upTo data mark before) (.ok (front, rest)) := by
  have entered : (before.enter (.upTo mark)).Safe data := safe.enter rfl (Nat.zero_le _)
  have length := congrArg List.length split
  rw [ahead, List.length_drop, List.length_append, List.length_cons] at length
  have read : data.extract before.position (before.position + front.length) = front := by
    rw [List.extract_eq_take_drop, Nat.add_sub_cancel_left, ← ahead, split, List.take_left]
  have behind : data.drop (before.position + front.length + 1) = rest := by
    rw [← List.drop_drop, ← List.drop_drop, ← ahead, split, List.drop_left, List.drop_one,
      List.tail_cons]
  refine .within safe ?_ fun value left same => Or.inl ?_
  · rw [run_bind (here_apply _), position_enter,
      run_bind (slice_apply safe.position_le (Nat.le_refl _)), extract_ahead, split,
      findIdx?_append_mark unmarked]
    dsimp only
    rw [run_bind (sum_apply (by omega)), run_bind (sum_apply (by omega))]
    refine (moveTo_ends entered (by omega)).followed fun last safe same left => ?_
    rw [run_bind (sum_apply (by omega)), slice_apply (by omega) (by omega), read, ← behind, ← left]
    exact .read safe same
  · obtain ⟨-, rfl⟩ := Prod.mk.inj (Except.ok.inj same)
    rw [split, List.length_append, List.length_cons]
    omega

/-- Without the mark the input ends too early. -/
theorem upTo_ends_of_not_mem (safe : before.Safe data) (unmarked : mark ∉ ahead data before) :
    Ends data before.active (upTo data mark before) (.error (.unexpectedEnd data.length)) := by
  refine .within safe ?_ fun value rest foretold => nomatch foretold
  rw [run_bind (here_apply _), position_enter,
    run_bind (slice_apply safe.position_le (Nat.le_refl _)), extract_ahead,
    findIdx?_of_not_mem unmarked]
  refine .refused ?_ (safe.enter rfl (Nat.zero_le _))
  rintro position ⟨⟩
  rfl

/-- What the reader of integers makes of the digits ahead of the end mark. -/
theorem told_readInteger {size : Nat} (start : UInt8) (unmarked : 'e'.toUInt8 ∉ front) :
    told ((readInteger size (front ++ 'e'.toUInt8 :: rest)).map (.behind .integer start)) =
      match spelledInteger? (Bytes.toChars front) with
      | none => .error (.invalidInteger (Utf8.decodeLenient front))
      | some number => .ok (.integer number, rest) := by
  unfold readInteger
  split
  · rename_i none
    rw [dropWhile_append_mark unmarked] at none
    cases none
  · rename_i mark others found
    rw [dropWhile_append_mark unmarked] at found
    obtain ⟨-, rfl⟩ := List.cons.inj found
    simp only [takeWhile_append_mark unmarked]
    cases spelledInteger? (Bytes.toChars front) <;> rfl

/-- The routine `integer` ends as the reader of integers foretells. -/
theorem integer_ends {start : UInt8} (held : data.length ≤ Numeral.max64)
    (safe : before.Safe data) (input : ahead data before = start :: rest) :
    Ends data before.active (integer data before)
      (told ((readInteger data.length rest).map (.behind .integer start))) := by
  have entered : (before.enter .integer).Safe data := safe.enter rfl (Nat.zero_le _)
  refine .within_told safe input ?_
  refine (advance_ends held entered input).followed fun inside safe same left => ?_
  by_cases marked : 'e'.toUInt8 ∈ rest
  · obtain ⟨front, others, rfl, unmarked⟩ := List.eq_append_cons_of_mem marked
    refine (upTo_ends held safe left unmarked).followed fun last safe sameToo left => ?_
    rw [told_readInteger start unmarked]
    cases spelledInteger? (Bytes.toChars front) with
    | none => exact .refused (by rintro position ⟨⟩) safe
    | some number =>
      rw [← left]
      exact .read safe (sameToo.trans same)
  · rw [readInteger_of_no_mark (dropWhile_of_not_mem marked)]
    rw [← left] at marked
    exact (upTo_ends_of_not_mem safe marked).stopped

/-- What the reader of octet strings makes of the digits ahead of the colon: the announced length
must be ahead in full. -/
theorem told_readBytes {size : Nat} (unmarked : ':'.toUInt8 ∉ front) :
    told (readBytes size (front ++ ':'.toUInt8 :: rest)) =
      match spelledLength? (Bytes.toChars front) with
      | none => .error (.invalidLength (size - (front ++ ':'.toUInt8 :: rest).length))
      | some length =>
        if rest.length < length then .error (.unexpectedEnd size)
        else .ok (rest.take length, rest.drop length) := by
  unfold readBytes
  split
  · rename_i none
    rw [dropWhile_append_mark unmarked] at none
    cases none
  · rename_i mark others found
    rw [dropWhile_append_mark unmarked] at found
    obtain ⟨-, rfl⟩ := List.cons.inj found
    simp only [takeWhile_append_mark unmarked]
    cases spelledLength? (Bytes.toChars front) with
    | none => rfl
    | some length =>
      have shorter : (rest.take length).length < length ↔ rest.length < length := by
        rw [List.length_take]
        omega
      simp only [shorter]
      split <;> rfl

/-- An announced end that is no word lies behind the input as well. -/
theorem filter_sum? {position length size : Nat} (held : size ≤ Numeral.max64)
    (bound : position ≤ size) :
    (sum? position length).filter (· ≤ size) =
      if size - position < length then none else some (position + length) := by
  rw [sum?]
  by_cases few : size - position < length
  · rw [if_pos few]
    split
    · exact Option.filter_some_neg (by simp; omega)
    · rfl
  · rw [if_neg few, if_pos (by omega)]
    exact Option.filter_some_pos (by simp; omega)

/-- The routine `bytes` ends as the reader of octet strings foretells. The announced end may be no
word, and is refused as one beyond the input is. -/
theorem bytes_ends (held : data.length ≤ Numeral.max64) (safe : before.Safe data) :
    Ends data before.active (bytes data before)
      (told (readBytes data.length (ahead data before))) := by
  have entered : (before.enter .bytes).Safe data := safe.enter rfl (Nat.zero_le _)
  refine .within_told safe rfl ?_
  rw [run_bind (here_apply _), position_enter]
  by_cases marked : ':'.toUInt8 ∈ ahead data before
  · obtain ⟨front, rest, split, unmarked⟩ := List.eq_append_cons_of_mem marked
    refine (upTo_ends held entered split unmarked).followed fun after safeAfter same left => ?_
    rw [safe.position_eq, split, told_readBytes unmarked]
    cases spelledLength? (Bytes.toChars front) with
    | none => exact .refused (by rintro position ⟨⟩) safeAfter
    | some length =>
      have bound := safeAfter.position_le
      have remaining : rest.length = data.length - after.position := by
        rw [← left, ahead, List.length_drop]
      dsimp only
      rw [run_bind (here_apply _), filter_sum? held bound, remaining]
      by_cases few : data.length - after.position < length
      · rw [if_pos few, if_pos few]
        refine .refused ?_ safeAfter
        rintro position ⟨⟩
        rfl
      · rw [if_neg few, if_neg few]
        dsimp only
        rw [run_bind (here_apply _), run_bind (slice_apply (by omega) (by omega)),
          List.extract_eq_take_drop, Nat.add_sub_cancel_left, ← ahead, left]
        refine (moveTo_ends safeAfter (by omega)).followed fun last safe sameToo behind => ?_
        have leaves : rest.drop length = ahead data last := by
          rw [← left, ahead, List.drop_drop, behind]
        rw [leaves]
        exact .read safe (sameToo.trans same)
  · rw [readBytes_of_no_mark (dropWhile_of_not_mem marked)]
    exact (upTo_ends_of_not_mem entered marked).stopped

end Tokens

/-! ## Containers -/

/-- A program that is run while some values are being read, with fewer octets ahead than a limit,
ends as a reader foretells. -/
def Follows (data : Bytes) (limit calls : Nat) (program : Reading α) (read : Reader α) : Prop :=
  ∀ before : Cursor, before.Safe data → valueCalls before.active = calls →
    (ahead data before).length < limit →
    Ends data before.active (program before) (told (read (ahead data before)))

/-- What is told of a list whose first items are `known`. -/
def toldItems (size : Nat) (read : Reader Value) (known : List Value) (input : Bytes) :
    Except ReadError (Value × Bytes) :=
  (told (readItems size read input)).map fun found => (.list (known ++ found.1), found.2)

/-- What is told of a dictionary whose first entries are `known`. -/
def toldEntries (size : Nat) (read : Reader Value) (known : Dictionary Value) (input : Bytes) :
    Except ReadError (Value × Bytes) :=
  (told (readEntries size read known input)).map fun found => (.dictionary found.1, found.2)

/-- Wrapping what was read behind a mark does not touch the rest. -/
theorem told_behind {rest : Bytes} (wrap : α → Value) (mark : UInt8)
    (read : Except ReadError (Parsed α rest)) :
    told (read.map (.behind wrap mark)) = (told read).map fun found => (wrap found.1, found.2) := by
  cases read <;> rfl

section Containers

variable {size depth : Nat} {read : Reader Value} {first : UInt8} {rest : Bytes}

/-- The end mark closes a list with what came before it. -/
theorem toldItems_mark (known : List Value) :
    toldItems size read known ('e'.toUInt8 :: rest) = .ok (.list known, rest) := by
  rw [toldItems, readItems, if_pos rfl]
  change Except.ok (Value.list (known ++ []), rest) = _
  rw [List.append_nil]

/-- Any other octet starts an item, and the list goes on behind it. -/
theorem toldItems_cons (known : List Value) (other : first ≠ 'e'.toUInt8) :
    toldItems size read known (first :: rest) =
      (told (read (first :: rest))).bind fun item =>
        toldItems size read (known ++ [item.1]) item.2 := by
  rw [toldItems, readItems, if_neg other]
  cases one : read (first :: rest) with
  | error cause => rfl
  | ok item =>
    simp only [told, bind, Except.bind, Except.map, toldItems]
    cases readItems size read item.rest with
    | error cause => rfl
    | ok others => simp [pure, Except.pure, List.append_assoc]

/-- The end mark closes a dictionary with what came before it. -/
theorem toldEntries_mark (known : Dictionary Value) :
    toldEntries size read known ('e'.toUInt8 :: rest) = .ok (.dictionary known, rest) := by
  rw [toldEntries, readEntries, if_pos rfl]
  rfl

/-- An octet that starts no octet string is refused as a key. -/
theorem toldEntries_of_not_digit (known : Dictionary Value) (other : first ≠ 'e'.toUInt8)
    (digit : isDigit first = false) :
    toldEntries size read known (first :: rest) =
      .error (.keyNotString (size - (first :: rest).length)) := by
  rw [toldEntries, readEntries, if_neg other, digit]
  rfl

/-- A digit starts a key, a value follows, and the dictionary goes on behind both. -/
theorem toldEntries_cons (known : Dictionary Value) (digit : isDigit first = true) :
    toldEntries size read known (first :: rest) =
      (told (readBytes size (first :: rest))).bind fun key =>
        (told (read key.2)).bind fun item =>
          toldEntries size read (known.insert key.1 item.1) item.2 := by
  have other : first ≠ 'e'.toUInt8 := by
    rintro rfl
    cases digit
  rw [toldEntries, readEntries, if_neg other, digit]
  cases named : readBytes size (first :: rest) with
  | error cause => rfl
  | ok key =>
    simp only [told, bind, Except.bind, Except.map, toldEntries]
    cases read key.rest with
    | error cause => rfl
    | ok item =>
      dsimp only
      cases readEntries size read (known.insert key.value item.value) item.rest <;> rfl

variable {inner : Nat → Reading Value} {limit : Nat}

/-- Each item takes an octet, so fewer are left for the rounds that are left. -/
theorem items_ends (held : data.length ≤ Numeral.max64) (shallow : depth ≤ maxNesting)
    (follows : Follows data limit (depth + 1) (inner (depth + 1)) read) {rounds : Nat}
    (within : rounds ≤ limit) (known : List Value) (safe : before.Safe data)
    (calls : valueCalls before.active = depth + 1)
    (enough : (ahead data before).length < rounds) :
    Ends data before.active (items data inner depth rounds known before)
      (toldItems data.length read known (ahead data before)) := by
  induction rounds generalizing before known with
  | zero => exact absurd enough (Nat.not_lt_zero _)
  | succ rounds ih =>
    rw [items]
    cases input : ahead data before with
    | nil =>
      rw [toldItems, readItems]
      exact (peek_ends_of_nil safe input).stopped
    | cons first rest =>
      refine (peek_ends safe input).followed fun after safe same left => ?_
      rw [← same]
      by_cases mark : first = 'e'.toUInt8
      · subst mark
        rw [if_pos rfl, toldItems_mark]
        exact close_ends held safe left _
      · rw [input, ← left] at enough
        rw [if_neg mark, run_bind (sum_depth_apply shallow), toldItems_cons known mark, ← left]
        have calls : valueCalls after.active = depth + 1 := by rw [same, calls]
        have few : (ahead data after).length < limit := Nat.lt_of_lt_of_le enough within
        refine (follows after safe calls few).bind fun item last safe same taken => ?_
        have shorter := length_lt_of_told taken
        rw [← same]
        exact ih (Nat.le_of_succ_le within) _ safe (by rw [same, calls]) (by omega)

/-- By induction on the rounds: each takes a key and a value, so with more rounds than octets ahead
they do not run out. -/
theorem entries_ends (held : data.length ≤ Numeral.max64) (shallow : depth ≤ maxNesting)
    (follows : Follows data limit (depth + 1) (inner (depth + 1)) read) {rounds : Nat}
    (within : rounds ≤ limit) (known : Dictionary Value) (safe : before.Safe data)
    (calls : valueCalls before.active = depth + 1)
    (enough : (ahead data before).length < rounds) :
    Ends data before.active (entries data inner depth rounds known before)
      (toldEntries data.length read known (ahead data before)) := by
  induction rounds generalizing before known with
  | zero => exact absurd enough (Nat.not_lt_zero _)
  | succ rounds ih =>
    rw [entries]
    cases input : ahead data before with
    | nil =>
      rw [toldEntries, readEntries]
      exact (peek_ends_of_nil safe input).stopped
    | cons first rest =>
      refine (peek_ends safe input).followed fun again safe same left => ?_
      rw [← same]
      by_cases mark : first = 'e'.toUInt8
      · subst mark
        rw [if_pos rfl, toldEntries_mark]
        exact close_ends held safe left _
      rw [if_neg mark]
      refine (peek_ends safe left).followed fun after safe sameToo left => ?_
      rw [← sameToo]
      cases digit : isDigit first with
      | false =>
        rw [toldEntries_of_not_digit known mark digit, ← left, ← safe.position_eq]
        refine .refused ?_ safe
        rintro position ⟨⟩
      | true =>
        rw [input, ← left] at enough
        rw [toldEntries_cons known digit, ← left]
        have calls : valueCalls after.active = depth + 1 := by rw [sameToo, same, calls]
        refine (bytes_ends held safe).bind fun key behind safe same taken => ?_
        have shorter := length_lt_of_told taken
        rw [run_bind (sum_depth_apply shallow), ← same]
        have calls : valueCalls behind.active = depth + 1 := by rw [same, calls]
        have few : (ahead data behind).length < limit := by omega
        refine (follows behind safe calls few).bind fun item last safe same taken => ?_
        have shorterToo := length_lt_of_told taken
        rw [← same]
        exact ih (Nat.le_of_succ_le within) _ safe (by rw [same, calls]) (by omega)

/-- The routine `list` ends as the reader of lists foretells. -/
theorem list_ends (held : data.length ≤ Numeral.max64) (shallow : depth ≤ maxNesting)
    (follows : Follows data limit (depth + 1) (inner (depth + 1)) read)
    (safe : before.Safe data) (calls : valueCalls before.active = depth + 1)
    (input : ahead data before = first :: rest) (enough : rest.length < limit) :
    Ends data before.active (list data inner depth limit before)
      (told ((readItems data.length read rest).map (.behind .list first))) := by
  have entered : (before.enter (.list depth)).Safe data :=
    safe.enter rfl (Nat.le_succ_of_le shallow)
  refine .within_told safe input ?_
  refine (advance_ends held entered input).followed fun inside safe same left => ?_
  rw [active_enter] at same
  rw [← left] at enough
  rw [told_behind, ← left, ← same]
  exact items_ends held shallow follows (Nat.le_refl _) [] safe
    (by rw [same, valueCalls_cons rfl, calls]) enough

/-- The routine `dictionary` ends as the reader of dictionaries foretells. -/
theorem dictionary_ends (held : data.length ≤ Numeral.max64) (shallow : depth ≤ maxNesting)
    (follows : Follows data limit (depth + 1) (inner (depth + 1)) read)
    (safe : before.Safe data) (calls : valueCalls before.active = depth + 1)
    (input : ahead data before = first :: rest) (enough : rest.length < limit) :
    Ends data before.active (dictionary data inner depth limit before)
      (told ((readEntries data.length read [] rest).map (.behind .dictionary first))) := by
  have entered : (before.enter (.dictionary depth)).Safe data :=
    safe.enter rfl (Nat.le_succ_of_le shallow)
  refine .within_told safe input ?_
  refine (advance_ends held entered input).followed fun inside safe same left => ?_
  rw [active_enter] at same
  rw [← left] at enough
  rw [told_behind, ← left, ← same]
  exact entries_ends held shallow follows (Nat.le_refl _) [] safe
    (by rw [same, valueCalls_cons rfl, calls]) enough

end Containers

/-! ## Values -/

/-- An octet string is a value with nothing around it. -/
theorem told_octets {input : Bytes} (read : Except ReadError (Parsed Bytes input)) :
    told (read.map fun parsed =>
        (⟨.bytes parsed.value, parsed.rest, parsed.shorter⟩ : Parsed Value input)) =
      (told read).map fun found => (.bytes found.1, found.2) := by
  cases read <;> rfl

/-- The depth of a value and the levels left below it make up how deep values may lie, and the depth
is how many values are being read. So the calls within each other end where the levels do. -/
theorem value_follows (held : data.length ≤ Numeral.max64) {limit depth levels : Nat}
    (whole : depth + levels = maxNesting + 1) :
    Follows data limit depth (value data limit depth) (readValue data.length levels) := by
  induction limit generalizing depth levels with
  | zero => exact fun _ _ _ enough => absurd enough (Nat.not_lt_zero _)
  | succ limit ih =>
    cases levels with
    | zero =>
      intro before safe calls enough
      rw [value]
      refine .within_told safe rfl ?_
      rw [if_pos (by omega)]
      refine .refused ?_ (safe.enter_value calls (Nat.le_of_eq whole))
      rintro position ⟨⟩
    | succ levels =>
      have follows := ih (by omega : depth + 1 + levels = maxNesting + 1)
      have shallow : depth ≤ maxNesting := by omega
      intro before safe calls enough
      have entered := safe.enter_value calls (Nat.le_succ_of_le shallow)
      rw [value]
      refine .within_told safe rfl ?_
      rw [if_neg (Nat.not_lt.mpr shallow)]
      cases input : ahead data before with
      | nil => exact (peek_ends_of_nil entered input).stopped
      | cons first rest =>
        rw [input] at enough
        have few : rest.length < limit := Nat.lt_of_succ_lt_succ enough
        refine (peek_ends entered input).followed fun after safe same left => ?_
        rw [active_enter] at same
        have calls : valueCalls after.active = depth + 1 := by rw [same, valueCalls_value, calls]
        rw [readValue, ← same]
        by_cases integral : first = 'i'.toUInt8
        · rw [if_pos integral, if_pos integral]
          exact integer_ends held safe left
        rw [if_neg integral, if_neg integral]
        by_cases listed : first = 'l'.toUInt8
        · rw [if_pos listed, if_pos listed]
          exact list_ends held shallow follows safe calls left few
        rw [if_neg listed, if_neg listed]
        by_cases keyed : first = 'd'.toUInt8
        · rw [if_pos keyed, if_pos keyed]
          exact dictionary_ends held shallow follows safe calls left few
        rw [if_neg keyed, if_neg keyed]
        by_cases digit : isDigit first = true
        · rw [if_pos digit, if_pos digit, told_octets, ← left]
          exact (bytes_ends held safe).mapped Value.bytes
        · rw [if_neg digit, if_neg digit, run_bind (here_apply _), safe.position_eq, left]
          refine .refused ?_ safe
          rintro position ⟨⟩

/-! ## The whole input -/

/-- A run starts at a safe cursor. -/
theorem start_safe (data : Bytes) : start.Safe data :=
  ⟨Nat.zero_le _, Nat.zero_le _, List.forall_mem_nil _⟩

/-- `Value.parse` reads one value and refuses what follows it. -/
theorem map_parse (data : Bytes) :
    (Value.parse data).map (·, ([] : Bytes)) =
      (told (readValue data.length (maxNesting + 1) data)).bind fun found =>
        if found.2.isEmpty then .ok (found.1, []) else .error (.trailing found.2.length) := by
  rw [Value.parse]
  cases readValue data.length (maxNesting + 1) data with
  | error cause => rfl
  | ok parsed =>
    obtain ⟨value, rest, shorter⟩ := parsed
    cases rest <;> rfl

/-- With a limit above its length the whole input is read as foretold. -/
theorem parse_ends (held : data.length ≤ Numeral.max64) {limit : Nat}
    (enough : data.length < limit) :
    Ends data [] (parse data limit start) ((Value.parse data).map (·, [])) := by
  have ends := value_follows held (Nat.zero_add _) start (start_safe data) rfl enough
  rw [map_parse, parse]
  refine ends.bind fun value last safe same _ => ?_
  have bound := safe.position_le
  have length : (ahead data last).length = data.length - last.position := List.length_drop
  dsimp only
  rw [run_bind (here_apply last)]
  by_cases whole : last.position = data.length
  · have none : ahead data last = [] := by
      rw [← List.length_eq_zero_iff, length, whole, Nat.sub_self]
    rw [if_neg (not_not.mpr whole), none, List.isEmpty_nil, if_pos rfl, ← none]
    exact .read safe same
  · have some : ¬ (ahead data last).isEmpty = true := by
      rw [List.isEmpty_iff_length_eq_zero, length]
      omega
    rw [if_pos whole, run_bind (difference_apply bound), if_neg some, length]
    refine .refused ?_ safe
    rintro position ⟨⟩

/-- Reading an input that a machine can hold ends at every limit above the number of its octets. It
ends with the answer of `Value.parse`, and so without a fault: no slice reaches outside the input,
and no sum or difference outside the words, whatever lengths are announced. Every call on the way is
made in bounds, at most one container deeper than values may lie and with at most as many values
being read within each other, and every success is in bounds and behind its start. An end that is
missed is reported where the input ends. -/
theorem parse_stays_in_bounds (held : data.length ≤ Numeral.max64) {limit : Nat}
    (enough : data.length < limit) :
    ∃ last : Cursor,
      parse data limit start = some ((Value.parse data).mapError .refused, last) ∧
        (∀ event ∈ last.events, event.Safe data.length) ∧
        ∀ position, Value.parse data = .error (.unexpectedEnd position) →
          position = data.length := by
  obtain ⟨last, run, safe, atEnd⟩ := (parse_ends held enough).exists_last
  refine ⟨last, ?_, safe.events, fun position refused => ?_⟩
  · rw [run]
    cases Value.parse data <;> rfl
  · refine atEnd (.unexpectedEnd position) ?_ position rfl
    rw [refused]
    rfl

/-- A list of a dictionary of an octet string, which announces as many octets as a word can tell. -/
def overlong : Bytes := Bytes.ofText "ld1:a18446744073709551615:"

/-- The announced end is no word. The key was read before, and the octet string at the cursor behind
it is the third value within each other. -/
theorem parse_stays_in_bounds_sample :
    overlong.length ≤ Numeral.max64 ∧ overlong.length < 27 ∧ ∃ last : Cursor,
      parse overlong 27 start = some (.error (.refused (.unexpectedEnd 26)), last) ∧
        .left .bytes 2 5 ∈ last.events ∧
        .entered .bytes 5 [.bytes, .value 2, .dictionary 1, .value 1, .list 0, .value 0] ∈
          last.events ∧
        ∀ event ∈ last.events, event.Safe 26 := by
  have held : overlong.length ≤ Numeral.max64 := by decide
  have enough : overlong.length < 27 := by decide
  have refused : Value.parse overlong = .error (.unexpectedEnd 26) := by with_unfolding_all rfl
  have recorded : (parse overlong 27 start).map (fun run => decide (
      .left .bytes 2 5 ∈ run.2.events ∧
      .entered .bytes 5 [.bytes, .value 2, .dictionary 1, .value 1, .list 0, .value 0] ∈
        run.2.events)) = some true := by with_unfolding_all rfl
  obtain ⟨last, run, safe, -⟩ := parse_stays_in_bounds held enough
  rw [refused] at run
  rw [run] at recorded
  obtain ⟨left, entered⟩ := of_decide_eq_true (Option.some.inj recorded)
  exact ⟨held, enough, last, run, left, entered, safe⟩

end Cursor

end PeerDiscovery.Bencode
