import PeerDiscovery.Proofs.Address.Text

/-!
# The characters of written addresses

The text of an endpoint is made of hexadecimal digits and five marks (`mem_alphabet_of_parse?`). A
reader passes over no other character: as many of each stand in what it leaves as in what it was
given, and an endpoint leaves nothing.
-/

namespace PeerDiscovery.Address

/-- What stands between the numbers of an address and around them. -/
def marks : List Char := ['.', ':', '[', ']', '%']

/-- A hexadecimal digit or a mark. -/
def Alphabet (c : Char) : Prop := Hex.IsDigit c ∨ c ∈ marks

namespace Reader

variable {c : Char} {limit : Nat} {text rest : List Char}

/-- Reading digits takes no foreign character. -/
theorem count_digits (foreign : ¬ Alphabet c) (radix : Nat) (text : List Char) :
    (digits radix text).2.count c = text.count c := by
  induction text with
  | nil => rfl
  | cons first rest ih =>
    rw [digits]
    split
    · rfl
    · rename_i d digit
      have other : first ≠ c := by
        rintro rfl
        rw [digit?, Hex.value?_eq_none_iff.mpr (not_or.mp foreign).1] at digit
        cases digit
      rw [List.count_cons_of_ne other]
      exact ih

/-- Skipping a mark takes no foreign character, since all marks are listed. -/
theorem count_skip (foreign : ¬ Alphabet c) {mark : Char} (listed : mark ∈ marks)
    (read : skip mark text = some rest) : rest.count c = text.count c := by
  have other : mark ≠ c := by
    rintro rfl
    exact foreign (Or.inr listed)
  cases text with
  | nil => cases read
  | cons first more =>
    rw [skip, Option.ite_none_right_eq_some] at read
    obtain ⟨rfl, same⟩ := read
    rw [Option.some.inj same, List.count_cons_of_ne other]

/-- A number is made of digits. -/
theorem count_number (foreign : ¬ Alphabet c) {n : Nat}
    (read : number limit text = some (n, rest)) : rest.count c = text.count c := by
  rw [← count_digits foreign 10 text]
  unfold number at read
  split at read
  · cases read
  · rename_i split
    rw [Option.ite_none_right_eq_some] at read
    obtain ⟨-, ⟨⟩⟩ := read
    rw [split]

/-- An octet is made of digits. -/
theorem count_octet (foreign : ¬ Alphabet c) {o : UInt8} (read : octet text = some (o, rest)) :
    rest.count c = text.count c := by
  rw [← octet_rest read, count_digits foreign]

/-- A group is made of hexadecimal digits. -/
theorem count_group (foreign : ¬ Alphabet c) {g : UInt16} (read : group text = some (g, rest)) :
    rest.count c = text.count c := by
  rw [← count_digits foreign 16 text]
  unfold group at read
  split at read
  · cases read
  · rename_i split
    rw [Option.ite_none_left_eq_some] at read
    obtain ⟨-, ⟨⟩⟩ := read
    rw [split]

/-- An IPv4 address is made of octets and dots. -/
theorem count_ipv4 (foreign : ¬ Alphabet c) {ip : Ipv4} (read : ipv4 text = some (ip, rest)) :
    rest.count c = text.count c := by
  simp only [ipv4, Option.bind_eq_bind, Option.bind_eq_some_iff, Prod.exists,
    Option.pure_def] at read
  obtain ⟨_, _, first, _, dot, _, _, second, _, dot', _, _, third, _, dot'', _, _, fourth,
    ⟨⟩⟩ := read
  rw [count_octet foreign fourth, count_skip foreign (by decide) dot'', count_octet foreign third,
    count_skip foreign (by decide) dot', count_octet foreign second,
    count_skip foreign (by decide) dot, count_octet foreign first]

/-- However many groups of an IPv6 address are read, with a dotted part at the end or without, no
foreign character is taken. -/
theorem count_groups (foreign : ¬ Alphabet c) (room : Nat) (inner : Bool) (text : List Char) :
    (groups room inner text).2.2.count c = text.count c := by
  induction room generalizing inner text with
  | zero => rfl
  | succ room ih =>
    rw [groups]
    split
    · rfl
    · rename_i start reached
      have colon : start.count c = text.count c := by
        split at reached
        · exact count_skip foreign (by decide) reached
        · rw [Option.some.inj reached]
      split
      · rename_i ip rest read
        rw [Option.ite_none_left_eq_some] at read
        rw [← colon, ← count_ipv4 foreign read.2]
      split
      · rfl
      · rename_i g rest read
        rw [← colon, ← count_group foreign read]
        exact ih true rest

/-- An IPv6 address is made of groups before and behind the gap, and colons. -/
theorem count_ipv6 (foreign : ¬ Alphabet c) {ip : Ipv6} (read : ipv6 text = some (ip, rest)) :
    rest.count c = text.count c := by
  have front := count_groups foreign 8 false text
  unfold ipv6 at read
  obtain ⟨head, dotted, back⟩ := groups 8 false text
  dsimp only at front read
  split at read
  · rw [Option.map_eq_some_iff] at read
    obtain ⟨_, _, ⟨⟩⟩ := read
    exact front
  · rw [Option.ite_none_left_eq_some] at read
    simp only [Option.bind_eq_bind, Option.bind_eq_some_iff, Option.pure_def] at read
    obtain ⟨-, _, colon, start, colon', _, _, ⟨⟩⟩ := read
    rw [count_groups foreign, count_skip foreign (by decide) colon',
      count_skip foreign (by decide) colon, front]

/-- A port is made of a colon and digits. -/
theorem count_port (foreign : ¬ Alphabet c) {p : UInt16} (read : port text = some (p, rest)) :
    rest.count c = text.count c := by
  simp only [port, Option.bind_eq_bind, Option.bind_eq_some_iff, Prod.exists,
    Option.pure_def] at read
  obtain ⟨_, colon, _, _, value, ⟨⟩⟩ := read
  rw [count_number foreign value, count_skip foreign (by decide) colon]

/-- A scope is made of a percent sign and digits, and may be missing. -/
theorem count_scope (foreign : ¬ Alphabet c) (text : List Char) :
    ((scope text).getD (0, text)).2.count c = text.count c := by
  cases read : scope text with
  | none => rfl
  | some value =>
    simp only [scope, Option.bind_eq_bind, Option.bind_eq_some_iff, Prod.exists,
      Option.pure_def] at read
    obtain ⟨_, percent, _, _, value, ⟨⟩⟩ := read
    exact (count_number foreign value).trans (count_skip foreign (by decide) percent)

/-- So no foreign character is taken with an IPv4 address and its port. -/
theorem count_addressV4 (foreign : ¬ Alphabet c) {address : Address}
    (read : addressV4 text = some (address, rest)) : rest.count c = text.count c := by
  simp only [addressV4, Option.bind_eq_bind, Option.bind_eq_some_iff, Prod.exists,
    Option.pure_def] at read
  obtain ⟨_, _, ip, _, _, port, ⟨⟩⟩ := read
  rw [count_port foreign port, count_ipv4 foreign ip]

/-- And none with an IPv6 address, its brackets, scope and port. -/
theorem count_addressV6 (foreign : ¬ Alphabet c) {address : Address}
    (read : addressV6 text = some (address, rest)) : rest.count c = text.count c := by
  simp only [addressV6, Option.bind_eq_bind, Option.bind_eq_some_iff, Prod.exists,
    Option.pure_def] at read
  obtain ⟨_, opening, _, back, ip, _, closing, _, _, port, ⟨⟩⟩ := read
  rw [count_port foreign port, count_skip foreign (by decide) closing, count_scope foreign,
    count_ipv6 foreign ip, count_skip foreign (by decide) opening]

end Reader

/-- An address text is read to its end. As many foreign characters are left as there were, so there
were none. -/
theorem mem_alphabet_of_parse? {content : String} {address : Address}
    (read : parse? content = some address) {c : Char} (member : c ∈ content.toList) :
    Alphabet c := by
  apply Classical.byContradiction
  intro foreign
  have none : content.toList.count c = 0 := by
    unfold parse? at read
    split at read
    · rename_i whole
      rw [Option.orElse_apply, Option.orElse_eq_or, Option.or_eq_some_iff] at whole
      rcases whole with v4 | ⟨-, v6⟩
      · rw [← Reader.count_addressV4 foreign v4, List.count_nil]
      · rw [← Reader.count_addressV6 foreign v6, List.count_nil]
    · cases read
  exact List.count_eq_zero.mp none member

end PeerDiscovery.Address
