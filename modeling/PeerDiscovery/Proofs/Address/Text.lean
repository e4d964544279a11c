import PeerDiscovery.Address.Text
import PeerDiscovery.Proofs.Address.Compact
import PeerDiscovery.Proofs.Text.Hex
import PeerDiscovery.Proofs.Text.Numeral

/-!
# Written addresses read back

The text of an endpoint reads back as the endpoint without its flow label, the one part that has no
written form (`parse?_text`). Each reader is shown to take exactly what is written for its part off
the front of a text, whatever follows, as long as what follows cannot belong to it: no digit behind
a number, nothing that carries a list of groups on behind the groups.
-/

namespace PeerDiscovery

/-! ## Runs of zero groups -/

namespace Ipv6

/-- A run of zero groups: where it starts, and its length. -/
structure ZeroRun (groups : List UInt16) (run : Nat × Nat) : Prop where
  inside : run.1 + run.2 ≤ groups.length
  zeros : (groups.drop run.1).take run.2 = List.replicate run.2 0

/-- Without the zeros of a run and with them again, the groups are as before. -/
theorem ZeroRun.around {groups : List UInt16} {run : Nat × Nat} (zeros : ZeroRun groups run) :
    groups.take run.1 ++ List.replicate run.2 0 ++ groups.drop (run.1 + run.2) = groups := by
  rw [← zeros.zeros, ← List.drop_drop, List.append_assoc, List.take_append_drop,
    List.take_append_drop]

/-- What `longestZeros` finds is a run of zeros. -/
theorem zeroRun_longestZeros (groups : List UInt16) : ZeroRun groups (longestZeros groups) := by
  refine List.foldlRecOn (motive := ZeroRun groups) _ _ ⟨Nat.zero_le _, rfl⟩ ?_
  intro best ih start member
  dsimp only
  split
  · have zeros : (groups.drop start).takeWhile (· == 0) <+: groups.drop start :=
      List.takeWhile_prefix _
    have length := zeros.length_le
    rw [List.length_drop] at length
    have inside := List.mem_range.mp member
    refine ⟨by rw [zerosFrom]; omega, ?_⟩
    rw [zerosFrom, ← List.prefix_iff_eq_take.mp zeros]
    refine List.eq_replicate_iff.mpr ⟨rfl, fun group taken => ?_⟩
    exact beq_iff_eq.mp (List.all_eq_true.mp List.all_takeWhile group taken)
  · exact ih

/-- An address that contains one of version 4 has the same groups as its dotted form. -/
theorem groups_of_mapped? {ip : Ipv6} {ip4 : Ipv4} (mapped : ip.mapped? = some ip4) :
    ip.groups = [0, 0, 0, 0, 0, 0xFFFF, Bytes.toWord ip4.a ip4.b, Bytes.toWord ip4.c ip4.d] := by
  rw [mapped?] at mapped
  split at mapped
  · rename_i a b c d octets
    obtain rfl := Option.some.inj mapped
    rw [← words_flatMap_ofWord ip.groups, ← Ipv6.octets, octets]
    rfl
  · cases mapped

end Ipv6

namespace Address.Reader

/-! ## Digits -/

/-- No digit stands at the front, so digits before it end there. -/
def Ends (rest : List Char) : Prop := ∀ c ∈ rest.head?, Hex.value? c = none

theorem ends_nil : Ends [] := nofun

theorem ends_cons {c : Char} {rest : List Char} (other : Hex.value? c = none) :
    Ends (c :: rest) := by
  rintro c ⟨⟩
  exact other

section Digits

variable {radix n : Nat} {rest : List Char}

/-- Where digits end, none are read. -/
theorem digits_of_ends (ends : Ends rest) : digits radix rest = ([], rest) := by
  cases rest with
  | nil => rfl
  | cons c rest =>
    have other : digit? radix c = none := by
      rw [digit?, ends c rfl, Option.filter_none]
    rw [digits, other]

/-- Written digits are read to their end, whatever follows that is no digit. -/
theorem digits_append {ds : List Nat} (low : radix ≤ 16) (small : ∀ d ∈ ds, d < radix)
    (ends : Ends rest) : digits radix (ds.map Nat.digitChar ++ rest) = (ds, rest) := by
  induction ds with
  | nil => exact digits_of_ends ends
  | cons d more ih =>
    obtain ⟨here, others⟩ := List.forall_mem_cons.mp small
    have digit : digit? radix d.digitChar = some d := by
      rw [digit?, ← Hex.digit, Hex.value?_digit (Nat.lt_of_lt_of_le here low)]
      exact Option.filter_some_pos (decide_eq_true here)
    rw [List.map_cons, List.cons_append, digits, digit]
    simp only [ih others]

/-- A number is written in digits below the radix, which stand for it. -/
theorem exists_toDigits_eq_map (high : 1 < radix) (n : Nat) :
    ∃ ds, Nat.toDigits radix n = ds.map Nat.digitChar ∧ (∀ d ∈ ds, d < radix) ∧
      valueOf radix ds = n := by
  induction n using Nat.strongRecOn with
  | ind n ih =>
    rw [Nat.toDigits_eq_if high]
    split
    · rename_i single
      refine ⟨[n], rfl, List.forall_mem_singleton.mpr single, ?_⟩
      rw [valueOf, List.foldl_cons, Nat.mul_zero, Nat.zero_add, List.foldl_nil]
    · rename_i several
      have fewer : n / radix < n := Nat.div_lt_self (by omega) high
      obtain ⟨ds, text, small, value⟩ := ih (n / radix) fewer
      refine ⟨ds ++ [n % radix], by rw [text, List.map_append]; rfl, ?_, ?_⟩
      · intro d member
        rcases List.mem_append.mp member with front | last
        · exact small d front
        · obtain rfl := List.mem_singleton.mp last
          exact Nat.mod_lt n (by omega)
      · rw [valueOf, List.foldl_append, ← valueOf, value, List.foldl_cons, List.foldl_nil,
          Nat.div_add_mod]

/-- The digits of a number are read back, and their value is the number. -/
theorem digits_toDigits (high : 1 < radix) (low : radix ≤ 16) (n : Nat) (ends : Ends rest) :
    ∃ ds, digits radix (Nat.toDigits radix n ++ rest) = (ds, rest) ∧ valueOf radix ds = n ∧
      Nat.toDigits radix n = ds.map Nat.digitChar := by
  obtain ⟨ds, text, small, value⟩ := exists_toDigits_eq_map high n
  exact ⟨ds, by rw [text, digits_append low small ends], value, text⟩

/-- A number below a power of the radix has no more digits than the exponent says. -/
theorem length_le_of_lt_pow {ds : List Nat} {count : Nat} (high : 1 < radix) (some : 0 < count)
    (text : Nat.toDigits radix n = ds.map Nat.digitChar) (fits : n < radix ^ count) :
    ds.length ≤ count := by
  rw [← List.length_map Nat.digitChar, ← text]
  exact (Nat.length_toDigits_le_iff high some).mpr fits

/-- A number that is written out is read back. -/
theorem number_ofNat {limit : Nat} (small : n ≤ limit) (ends : Ends rest) :
    number limit (Numeral.ofNat n ++ rest) = some (n, rest) := by
  obtain ⟨ds, read, value, text⟩ :=
    digits_toDigits (by decide : 1 < 10) (by decide : 10 ≤ 16) n ends
  cases ds with
  | nil => exact absurd text (Numeral.ofNat_ne_nil n)
  | cons d more =>
    rw [number, Numeral.ofNat, read]
    dsimp only
    rw [value, if_pos small]

/-- So is an octet of a dotted address. -/
theorem octet_ofNat (o : UInt8) (ends : Ends rest) :
    octet (Numeral.ofNat o.toNat ++ rest) = some (o, rest) := by
  have bound : o.toNat < 256 := o.toNat_lt
  obtain ⟨ds, read, value, text⟩ :=
    digits_toDigits (by decide : 1 < 10) (by decide : 10 ≤ 16) o.toNat ends
  have length : ds.length ≤ 3 :=
    length_le_of_lt_pow (by decide) (by decide) text (Nat.lt_trans bound (by decide))
  cases ds with
  | nil => exact absurd text (Numeral.ofNat_ne_nil _)
  | cons d more =>
    rw [List.length_cons] at length
    -- only zero is written with a leading zero, and then with no other digit
    have short : ¬ (d = 0 ∧ more ≠ []) := by
      rintro ⟨rfl, several⟩
      have zero : o.toNat = 0 := Numeral.eq_zero_of_head?_ofNat (by rw [Numeral.ofNat, text]; rfl)
      rw [zero] at text
      exact several (List.map_eq_nil_iff.mp (List.cons.inj text).2.symm)
    have fits : ¬ (d = 0 ∧ more ≠ [] ∨ 2 < more.length ∨ 255 < o.toNat) := by
      rintro (padded | long | large)
      · exact short padded
      · omega
      · omega
    rw [octet, Numeral.ofNat, read]
    dsimp only
    rw [value, if_neg fits, UInt8.ofNat_toNat]

/-- So is a group, which four hexadecimal digits are enough for. -/
theorem group_toDigits (g : UInt16) (ends : Ends rest) :
    group (Nat.toDigits 16 g.toNat ++ rest) = some (g, rest) := by
  obtain ⟨ds, read, value, text⟩ :=
    digits_toDigits (by decide : 1 < 16) (Nat.le_refl 16) g.toNat ends
  have length : ds.length ≤ 4 := length_le_of_lt_pow (by decide) (by decide) text g.toNat_lt
  cases ds with
  | nil => exact absurd text Nat.toDigits_ne_nil
  | cons d more =>
    rw [group, read]
    dsimp only
    rw [value, if_neg (Nat.not_lt_of_le length), UInt16.ofNat_toNat]

end Digits

/-! ## Dotted addresses -/

section Dotted

variable {text rest : List Char}

theorem skip_cons (c : Char) (rest : List Char) : skip c (c :: rest) = some rest := if_pos rfl

/-- A dotted address is read back. -/
theorem ipv4_chars (ip : Ipv4) (ends : Ends rest) : ipv4 (ip.chars ++ rest) = some (ip, rest) := by
  have dot : ∀ rest, Ends ('.' :: rest) := fun rest => ends_cons (by decide)
  have chars : ip.chars ++ rest =
      Numeral.ofNat ip.a.toNat ++ '.' :: (Numeral.ofNat ip.b.toNat ++
        '.' :: (Numeral.ofNat ip.c.toNat ++ '.' :: (Numeral.ofNat ip.d.toNat ++ rest))) := by
    simp [Ipv4.chars, Ipv4.octets, List.intercalate_cons_cons, List.intercalate_singleton]
  rw [chars, ipv4]
  simp [octet_ofNat, dot, skip_cons, ends]

/-- Where digits end there is no octet. -/
theorem octet_of_ends (ends : Ends text) : octet text = none := by
  rw [octet, digits_of_ends ends]

/-- What is left behind an octet is what is left behind its digits. -/
theorem octet_rest {o : UInt8} (read : octet text = some (o, rest)) :
    (digits 10 text).2 = rest := by
  unfold octet at read
  split at read
  · cases read
  · rename_i split
    split at read
    · cases read
    · rw [split]
      exact congrArg Prod.snd (Option.some.inj read)

/-- Without a dot behind its first digits, a text is no dotted address. -/
theorem ipv4_of_undotted (undotted : (digits 10 text).2.head? ≠ some '.') : ipv4 text = none := by
  rw [ipv4]
  cases read : octet text with
  | none => rfl
  | some first =>
    rw [octet_rest read] at undotted
    have stuck : skip '.' first.2 = none := by
      match first.2, undotted with
      | [], _ => rfl
      | c :: more, undotted => exact if_neg fun dot => undotted (congrArg some dot)
    simp [stuck]

/-- Decimal digits are not followed by a dot if neither the text nor what is behind it has one. -/
theorem undotted_append {front : List Char} (plain : '.' ∉ front) (ends : Ends rest)
    (undotted : rest.head? ≠ some '.') : (digits 10 (front ++ rest)).2.head? ≠ some '.' := by
  induction front with
  | nil =>
    rw [List.nil_append, digits_of_ends ends]
    exact undotted
  | cons c more ih =>
    rw [List.mem_cons, not_or] at plain
    rw [List.cons_append, digits]
    split
    · exact fun same => plain.1 (Option.some.inj same).symm
    · exact ih plain.2

end Dotted

/-! ## Groups -/

section Groups

variable {gs : List UInt16} {room : Nat} {text rest : List Char}

/-- The front of a text cannot belong to a list of groups before it. -/
structure Stops (rest : List Char) : Prop where
  ends : Ends rest
  undotted : rest.head? ≠ some '.'
  /-- No group stands behind a colon. -/
  behind : ∀ more, rest = ':' :: more → Ends more

/-- A character that is neither a digit nor a dot or colon stops the reading of groups. -/
theorem stops_cons {c : Char} (other : Hex.value? c = none) (noDot : c ≠ '.') (noColon : c ≠ ':') :
    Stops (c :: rest) where
  ends := ends_cons other
  undotted := fun dot => noDot (Option.some.inj dot)
  behind := fun _ same => absurd (List.cons.inj same).1 noColon

/-- So do the two colons of a gap. -/
theorem stops_gap (rest : List Char) : Stops (':' :: ':' :: rest) where
  ends := ends_cons (by decide)
  undotted := nofun
  behind := by
    rintro more ⟨⟩
    exact ends_cons (by decide)

/-- Where digits end there is no group. -/
theorem group_of_ends (ends : Ends text) : group text = none := by
  rw [group, digits_of_ends ends]

/-- Where digits end there is no dotted address. -/
theorem ipv4_of_ends (ends : Ends text) : ipv4 text = none := by
  rw [ipv4, octet_of_ends ends]
  rfl

/-- A dotted address is tried before each group, but no dot stands among or behind its digits. -/
theorem ipv4_toDigits (g : UInt16) (ends : Ends rest) (undotted : rest.head? ≠ some '.') :
    ipv4 (Nat.toDigits 16 g.toNat ++ rest) = none := by
  obtain ⟨ds, text, small, -⟩ := exists_toDigits_eq_map (by decide : 1 < 16) g.toNat
  have plain : '.' ∉ Nat.toDigits 16 g.toNat := by
    intro dot
    rw [text, List.mem_map] at dot
    obtain ⟨d, member, dot⟩ := dot
    have digit := Hex.value?_digit (small d member)
    rw [Hex.digit, dot] at digit
    cases digit
  exact ipv4_of_undotted (undotted_append plain ends undotted)

/-- Behind the last group, the reader of groups leaves everything as it is. -/
theorem groups_of_stops (room : Nat) (inner : Bool) (stops : Stops rest) :
    groups room inner rest = ([], false, rest) := by
  cases room with
  | zero => rfl
  | succ room =>
    have nothing : ∀ start, (if inner then skip ':' rest else some rest) = some start →
        Ends start := by
      intro start reached
      split at reached
      · match rest, stops, reached with
        | c :: more, stops, reached =>
          obtain ⟨rfl, same⟩ := Option.ite_none_right_eq_some.mp reached
          obtain rfl := Option.some.inj same
          exact stops.behind more rfl
      · obtain rfl := Option.some.inj reached
        exact stops.ends
    rw [groups]
    split
    · rfl
    · rename_i start reached
      simp [ipv4_of_ends (nothing start reached), group_of_ends (nothing start reached)]

/-- Groups with a colon before each. -/
def colonChars (gs : List UInt16) : List Char :=
  gs.flatMap fun g => ':' :: Nat.toDigits 16 g.toNat

/-- The first group has no colon before it, and each other one has. -/
theorem groupChars_cons (g : UInt16) (gs : List UInt16) :
    Ipv6.groupChars (g :: gs) = Nat.toDigits 16 g.toNat ++ colonChars gs := by
  rw [Ipv6.groupChars, List.map_cons]
  induction gs generalizing g with
  | nil => simp [colonChars, List.intercalate_singleton]
  | cons next more ih =>
    rw [List.map_cons, List.intercalate_cons_cons, ih, colonChars, colonChars, List.flatMap_cons]
    simp

/-- A group ends where further groups, or the end, begin. -/
theorem stops_colonChars (gs : List UInt16) (stops : Stops rest) :
    Ends (colonChars gs ++ rest) ∧ (colonChars gs ++ rest).head? ≠ some '.' := by
  cases gs with
  | nil => exact ⟨stops.ends, stops.undotted⟩
  | cons g more => exact ⟨ends_cons (by decide), nofun⟩

/-- One group is read, and the groups behind it by the same reader with one less room. -/
theorem groups_succ (inner : Bool) {g : UInt16}
    (reached : (if inner then skip ':' text else some text) =
      some (Nat.toDigits 16 g.toNat ++ rest))
    (ends : Ends rest) (undotted : rest.head? ≠ some '.') :
    groups (room + 1) inner text =
      (g :: (groups room true rest).1, (groups room true rest).2) := by
  rw [groups, reached]
  simp [ipv4_toDigits g ends undotted, group_toDigits g ends]

/-- Groups with a colon before each are read back while there is room for them. -/
theorem groups_colonChars (fits : gs.length ≤ room) (stops : Stops rest) :
    groups room true (colonChars gs ++ rest) = (gs, false, rest) := by
  induction gs generalizing room with
  | nil => exact groups_of_stops room true stops
  | cons g more ih =>
    cases room with
    | zero => cases fits
    | succ room =>
      obtain ⟨ends, undotted⟩ := stops_colonChars more stops
      have colon : colonChars (g :: more) ++ rest =
          ':' :: (Nat.toDigits 16 g.toNat ++ (colonChars more ++ rest)) := by
        simp [colonChars]
      rw [colon, groups_succ true ((if_pos rfl).trans (skip_cons ':' _)) ends undotted,
        ih (Nat.le_of_succ_le_succ fits)]

/-- Groups with colons between them are read back while there is room for them. -/
theorem groups_groupChars (fits : gs.length ≤ room) (stops : Stops rest) :
    groups room false (Ipv6.groupChars gs ++ rest) = (gs, false, rest) := by
  cases gs with
  | nil => exact groups_of_stops room false stops
  | cons g more =>
    cases room with
    | zero => cases fits
    | succ room =>
      obtain ⟨ends, undotted⟩ := stops_colonChars more stops
      rw [groupChars_cons, List.append_assoc, groups_succ false rfl ends undotted,
        groups_colonChars (Nat.le_of_succ_le_succ fits) stops]

end Groups

/-! ## Version 6 addresses -/

section Ipv6

variable {head tail : List UInt16} {dotted : Bool} {text rest : List Char} {ip : Ipv6}

/-- The groups of an address make up the address. -/
theorem ofGroups?_groups (ip : Ipv6) : Ipv6.ofGroups? ip.groups = some ip := dif_pos ip.length_eq

/-- An address that is written with all its groups is read back. -/
theorem ipv6_full (stops : Stops rest) :
    ipv6 (Ipv6.groupChars ip.groups ++ rest) = some (ip, rest) := by
  rw [ipv6, groups_groupChars (Nat.le_of_eq ip.length_eq) stops]
  dsimp only
  rw [if_pos ip.length_eq, ofGroups?_groups, Option.map_some]

/-- Around a `::`, what is missing of the eight groups is zero. -/
theorem ipv6_gap (fewer : head.length < 8)
    (behind : groups (7 - head.length) false text = (tail, dotted, rest))
    (same : head ++ List.replicate (8 - head.length - tail.length) 0 ++ tail = ip.groups) :
    ipv6 (Ipv6.groupChars head ++ ':' :: ':' :: text) = some (ip, rest) := by
  rw [ipv6, groups_groupChars (Nat.le_of_lt fewer) (stops_gap text)]
  dsimp only
  rw [if_neg (Nat.ne_of_lt fewer)]
  simp only [skip_cons, behind, same, ofGroups?_groups, Option.bind_eq_bind, Option.bind_some,
    Option.pure_def, Bool.false_eq_true, if_false]

/-- Groups that end in dotted form stand for the two words of its octets. -/
theorem groups_mapped (ip4 : Ipv4) (ends : Ends rest) :
    groups 7 false (['f', 'f', 'f', 'f', ':'] ++ ip4.chars ++ rest) =
      ([0xFFFF, Bytes.toWord ip4.a ip4.b, Bytes.toWord ip4.c ip4.d], true, rest) := by
  have behind : groups 6 true (':' :: (ip4.chars ++ rest)) =
      ([Bytes.toWord ip4.a ip4.b, Bytes.toWord ip4.c ip4.d], true, rest) := by
    rw [groups, if_pos rfl, skip_cons]
    simp [ipv4_chars ip4 ends]
  have text : ['f', 'f', 'f', 'f', ':'] ++ ip4.chars ++ rest =
      Nat.toDigits 16 (0xFFFF : UInt16).toNat ++ ':' :: (ip4.chars ++ rest) := by
    rw [List.append_assoc]
    rfl
  have colon : Ends (':' :: (ip4.chars ++ rest)) := ends_cons (by decide)
  rw [text, groups_succ false rfl colon nofun, behind]

/-- An address with a gap for a run of zeros is read back: there is only one number of zeros that
the gap can stand for. -/
theorem ipv6_zeroRun {run : Nat × Nat} (zeros : Ipv6.ZeroRun ip.groups run) (several : 1 < run.2)
    (stops : Stops rest) :
    ipv6 (Ipv6.groupChars (ip.groups.take run.1) ++ [':', ':'] ++
      Ipv6.groupChars (ip.groups.drop (run.1 + run.2)) ++ rest) = some (ip, rest) := by
  have inside := zeros.inside
  rw [ip.length_eq] at inside
  have before : (ip.groups.take run.1).length = run.1 := by
    rw [List.length_take, ip.length_eq]
    omega
  have after : (ip.groups.drop (run.1 + run.2)).length = 8 - (run.1 + run.2) := by
    rw [List.length_drop, ip.length_eq]
  have count : 8 - run.1 - (8 - (run.1 + run.2)) = run.2 := by omega
  have behind : groups (7 - (ip.groups.take run.1).length) false
      (Ipv6.groupChars (ip.groups.drop (run.1 + run.2)) ++ rest) =
        (ip.groups.drop (run.1 + run.2), false, rest) :=
    groups_groupChars (by omega) stops
  rw [List.append_assoc, List.append_assoc]
  refine ipv6_gap (by omega) behind ?_
  rw [before, after, count]
  exact zeros.around

/-- An address is read back in each of its three forms. -/
theorem ipv6_chars (ip : Ipv6) (stops : Stops rest) :
    ipv6 (ip.chars ++ rest) = some (ip, rest) := by
  unfold Ipv6.chars
  split
  · rename_i ip4 mapped
    have same := Ipv6.groups_of_mapped? mapped
    have read : ipv6 (Ipv6.groupChars [] ++ ':' :: ':' ::
        (['f', 'f', 'f', 'f', ':'] ++ ip4.chars ++ rest)) = some (ip, rest) :=
      ipv6_gap (by decide) (groups_mapped ip4 stops.ends) same.symm
    exact read
  · dsimp only
    split
    · rename_i several
      exact ipv6_zeroRun (Ipv6.zeroRun_longestZeros ip.groups) several stops
    · exact ipv6_full stops

end Ipv6

/-! ## Endpoints -/

/-- A port is read back at the end of the text. -/
theorem port_ofNat (p : UInt16) : port (':' :: Numeral.ofNat p.toNat) = some (p, []) := by
  have small : p.toNat ≤ Numeral.max16 := Nat.le_of_lt_succ p.toNat_lt
  have read := number_ofNat small ends_nil
  rw [List.append_nil] at read
  rw [port, skip_cons]
  simp [read]

/-- A scope behind a percent sign, or nothing for the scope zero. -/
def scopeChars (value : UInt32) : List Char :=
  if value = 0 then [] else '%' :: Numeral.ofNat value.toNat

/-- The groups of an address end where its scope, or the bracket, begins. -/
theorem stops_scopeChars (value : UInt32) (rest : List Char) :
    Stops (scopeChars value ++ ']' :: rest) := by
  unfold scopeChars
  split
  · exact stops_cons (by decide) (by decide) (by decide)
  · exact stops_cons (by decide) (by decide) (by decide)

/-- A scope is read back, and a scope of 0, which is not written, as well. -/
theorem scope_scopeChars (value : UInt32) (rest : List Char) :
    (scope (scopeChars value ++ ']' :: rest)).getD (0, scopeChars value ++ ']' :: rest) =
      (value, ']' :: rest) := by
  unfold scopeChars
  split
  · rename_i zero
    rw [zero]
    rfl
  · have small : value.toNat ≤ Numeral.max32 := Nat.le_of_lt_succ value.toNat_lt
    have ends : Ends (']' :: rest) := ends_cons (by decide)
    rw [scope, List.cons_append, skip_cons]
    simp [number_ofNat small ends]

/-- An endpoint of version 4 is read back. -/
theorem addressV4_chars (ip : Ipv4) (p : UInt16) :
    addressV4 (Address.v4 ip p).chars = some (.v4 ip p, []) := by
  have colon : Ends (':' :: Numeral.ofNat p.toNat) := ends_cons (by decide)
  rw [addressV4, chars, ipv4_chars ip colon]
  simp [port_ofNat]

/-- An endpoint of version 6 is read back but for its flow label, which is not written. -/
theorem addressV6_chars (ip : Ipv6) (p : UInt16) (flow s : UInt32) :
    addressV6 (Address.v6 ip p flow s).chars = some (.v6 ip p 0 s, []) := by
  have text : (Address.v6 ip p flow s).chars =
      '[' :: (ip.chars ++ (scopeChars s ++ ']' :: ':' :: Numeral.ofNat p.toNat)) := by
    simp [chars, scopeChars]
  rw [addressV6, text, skip_cons]
  simp [ipv6_chars ip (stops_scopeChars s _), scope_scopeChars, skip_cons, port_ofNat]

end Address.Reader

namespace Address

open Reader

/-- The endpoint without its flow label. -/
def unlabelled : Address → Address
  | .v4 ip port => .v4 ip port
  | .v6 ip port _ scope => .v6 ip port 0 scope

/-- What is written reads back, up to the flow label that is not written. -/
theorem parse?_text (address : Address) : parse? address.text = some address.unlabelled := by
  rw [parse?, text, String.toList_ofList]
  cases address with
  | v4 ip port =>
    rw [addressV4_chars]
    rfl
  | v6 ip port flow scope =>
    have bracket : addressV4 (Address.v6 ip port flow scope).chars = none := by
      have ends : Ends (Address.v6 ip port flow scope).chars := ends_cons (by decide)
      rw [addressV4, ipv4_of_ends ends]
      rfl
    rw [bracket, addressV6_chars]
    rfl

end Address

end PeerDiscovery
