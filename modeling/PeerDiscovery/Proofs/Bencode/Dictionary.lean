import PeerDiscovery.Bencode.Dictionary

/-!
# Dictionaries by key

Looking a key up is the view of a dictionary: `get?_insert` says what putting a value under a key
does to it. Entries that are put in by ascending keys stay where they are put
(`insert_of_forall_lt`), which is how a reader of the canonical form meets them.
-/

namespace PeerDiscovery.Bencode.Dictionary

variable {α : Type} {entries : Dictionary α} {key : Bytes} {value : α}

theorem get?_insert (entries : Dictionary α) (key : Bytes) (value : α) (other : Bytes) :
    (entries.insert key value).get? other =
      if key = other then some value else entries.get? other := by
  induction entries with
  | nil =>
    by_cases same : key = other
    · simp [Dictionary.insert, get?, same]
    · have different : (other == key) = false := by simpa using Ne.symm same
      simp [Dictionary.insert, get?, List.lookup_cons, different, same]
  | cons entry rest ih =>
    obtain ⟨k, v⟩ := entry
    rw [Dictionary.insert]
    by_cases same : key = other
    · subst same
      rw [if_pos rfl] at ih ⊢
      cases order : compare key k with
      | lt => simp [get?]
      | eq => simp [get?]
      | gt =>
        have different : (key == k) = false := by
          rw [beq_eq_false_iff_ne]
          rintro rfl
          have equal : compare key key = .eq := Std.ReflCmp.compare_self
          rw [equal] at order
          cases order
        change List.lookup key ((k, v) :: _) = _
        rw [List.lookup_cons, different]
        exact ih
    · rw [if_neg same] at ih ⊢
      have different : (other == key) = false := by simpa using Ne.symm same
      cases order : compare key k with
      | lt => simp [get?, List.lookup_cons, different]
      | eq =>
        obtain rfl := Std.LawfulEqOrd.eq_of_compare order
        simp [get?, List.lookup_cons, different]
      | gt =>
        change List.lookup other ((k, v) :: _) = List.lookup other ((k, v) :: rest)
        rw [List.lookup_cons, List.lookup_cons]
        cases other == k with
        | true => rfl
        | false => exact ih

/-- A key behind all others goes to the end. -/
theorem insert_of_forall_lt (below : ∀ entry ∈ entries, compare entry.1 key = .lt) :
    entries.insert key value = entries ++ [(key, value)] := by
  induction entries with
  | nil => rfl
  | cons entry rest ih =>
    obtain ⟨k, v⟩ := entry
    have behind : compare key k = .gt :=
      Std.OrientedCmp.gt_of_lt (below (k, v) List.mem_cons_self)
    rw [Dictionary.insert, behind]
    dsimp only
    rw [ih fun entry member => below entry (List.mem_cons_of_mem _ member)]
    rfl

theorem mem_insert {entry : Bytes × α} (member : entry ∈ entries.insert key value) :
    entry = (key, value) ∨ entry ∈ entries := by
  induction entries with
  | nil => exact Or.inl (List.mem_singleton.mp member)
  | cons first rest ih =>
    obtain ⟨k, v⟩ := first
    rw [Dictionary.insert] at member
    split at member
    · exact List.mem_cons.mp member
    · rcases List.mem_cons.mp member with new | old
      · exact Or.inl new
      · exact Or.inr (List.mem_cons_of_mem _ old)
    · rcases List.mem_cons.mp member with rfl | deeper
      · exact Or.inr List.mem_cons_self
      · rcases ih deeper with new | old
        · exact Or.inl new
        · exact Or.inr (List.mem_cons_of_mem _ old)

theorem Ascending.insert (ascending : Ascending entries) (key : Bytes) (value : α) :
    Ascending (Dictionary.insert key value entries) := by
  induction entries with
  | nil => exact List.pairwise_singleton _ _
  | cons first rest ih =>
    obtain ⟨k, v⟩ := first
    obtain ⟨above, ordered⟩ := List.pairwise_cons.mp ascending
    rw [Dictionary.insert]
    cases order : compare key k with
    | lt =>
      refine List.pairwise_cons.mpr ⟨fun entry member => ?_, ascending⟩
      rcases List.mem_cons.mp member with rfl | later
      · exact order
      · exact Std.TransCmp.lt_trans order (above entry later)
    | eq =>
      obtain rfl := Std.LawfulEqOrd.eq_of_compare order
      exact List.pairwise_cons.mpr ⟨above, ordered⟩
    | gt =>
      refine List.pairwise_cons.mpr ⟨fun entry member => ?_, ih ordered⟩
      rcases mem_insert member with rfl | later
      · exact Std.OrientedCmp.lt_of_gt order
      · exact above entry later

/-! ## From entries in any order -/

theorem mem_ofList {list : List (Bytes × α)} {entry : Bytes × α} (member : entry ∈ ofList list) :
    entry ∈ list := by
  have spread : ∀ known : Dictionary α,
      entry ∈ list.foldl (fun dictionary entry => dictionary.insert entry.1 entry.2) known →
        entry ∈ known ∨ entry ∈ list := by
    clear member
    induction list with
    | nil => exact fun known here => Or.inl here
    | cons first rest ih =>
      intro known here
      rcases ih _ here with put | later
      · rcases mem_insert put with rfl | old
        · exact Or.inr List.mem_cons_self
        · exact Or.inl old
      · exact Or.inr (List.mem_cons_of_mem _ later)
  exact (spread [] member).resolve_left (by simp)

/-- The entry that was put in last is found first. -/
theorem get?_ofList (list : List (Bytes × α)) (key : Bytes) :
    (ofList list).get? key = list.reverse.lookup key := by
  have spread : ∀ known : Dictionary α,
      get? (list.foldl (fun dictionary entry => dictionary.insert entry.1 entry.2) known) key =
        (list.reverse.lookup key).or (known.get? key) := by
    induction list with
    | nil => exact fun known => rfl
    | cons first rest ih =>
      obtain ⟨k, v⟩ := first
      intro known
      rw [List.foldl_cons, ih, get?_insert, List.reverse_cons, List.lookup_append, Option.or_assoc]
      by_cases same : k = key
      · subst same
        simp
      · have different : (key == k) = false := by simpa using Ne.symm same
        simp [List.lookup_cons, different, same]
  rw [ofList, spread, get?, List.lookup_nil, Option.or_none]

theorem ascending_ofList (list : List (Bytes × α)) : Ascending (ofList list) := by
  have kept : ∀ known : Dictionary α, Ascending known →
      Ascending (list.foldl (fun dictionary entry => dictionary.insert entry.1 entry.2) known) := by
    induction list with
    | nil => exact fun known ordered => ordered
    | cons first rest ih => exact fun known ordered => ih _ (ordered.insert first.1 first.2)
  exact kept [] List.Pairwise.nil

end PeerDiscovery.Bencode.Dictionary
