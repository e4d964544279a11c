import PeerDiscovery.Address.Compact

/-!
# Compact addresses read back

Six or eighteen octets stand for exactly one endpoint without flow label and scope, and each such
endpoint for exactly these octets (`ofCompact?_eq_some_iff`). No other number of octets stands for
one (`exists_ofCompact?_iff`).
-/

namespace PeerDiscovery

/-! ## Groups and octets -/

namespace Ipv6

theorem words_flatMap_ofWord (groups : List UInt16) :
    words (groups.flatMap Bytes.ofWord) = groups := by
  induction groups with
  | nil => rfl
  | cons group rest ih =>
    have back : Bytes.toWord (UInt8.ofNat (group.toNat / 256)) (UInt8.ofNat (group.toNat % 256)) =
        group := Option.some.inj (Bytes.toWord?_ofWord group)
    rw [List.flatMap_cons]
    change Bytes.toWord _ _ :: words (rest.flatMap Bytes.ofWord) = _
    rw [back, ih]

/-- Two octets make a word; one left over is dropped. -/
theorem flatMap_ofWord_words (octets : Bytes) :
    (words octets).flatMap Bytes.ofWord = octets.take (2 * (words octets).length) := by
  fun_induction words octets with
  | case1 high low rest ih =>
    rw [List.flatMap_cons, ih, Bytes.ofWord_toWord, List.length_cons, Nat.mul_add]
    rfl
  | case2 => rfl

theorem length_octets (ip : Ipv6) : ip.octets.length = 16 := by
  have doubled : ∀ groups : List UInt16,
      (groups.flatMap Bytes.ofWord).length = 2 * groups.length := by
    intro groups
    induction groups with
    | nil => rfl
    | cons group rest ih =>
      rw [List.flatMap_cons, List.length_append, ih, List.length_cons]
      change 2 + _ = _
      omega
  rw [octets, doubled, ip.length_eq]

theorem length_words (octets : Bytes) : (words octets).length = octets.length / 2 := by
  fun_induction words octets with
  | case1 high low rest ih =>
    rw [List.length_cons, ih, List.length_cons, List.length_cons]
    omega
  | case2 octets short =>
    match octets, short with
    | [], _ => rfl
    | [_], _ => simp
    | high :: low :: rest, short => exact absurd rfl (short high low rest)

/-- Any sixteen octets are those of an address. -/
theorem exists_octets_eq {octets : Bytes} (length : octets.length = 16) :
    ∃ ip : Ipv6, ip.octets = octets := by
  have fits : (words octets).length = 8 := by rw [length_words, length]
  refine ⟨⟨words octets, fits⟩, ?_⟩
  rw [Ipv6.octets, flatMap_ofWord_words, fits, List.take_of_length_le (Nat.le_of_eq length)]

theorem ofOctets?_eq_some_iff {octets : Bytes} (short : octets.length ≤ 16) {ip : Ipv6} :
    ofOctets? octets = some ip ↔ octets = ip.octets := by
  constructor
  · intro read
    rw [ofOctets?] at read
    split at read
    · rename_i fits
      obtain rfl := Option.some.inj read
      rw [Ipv6.octets, flatMap_ofWord_words, fits, List.take_of_length_le short]
    · cases read
  · rintro rfl
    have fits : (words ip.octets).length = 8 := by
      rw [Ipv6.octets, words_flatMap_ofWord, ip.length_eq]
    rw [ofOctets?, dif_pos fits]
    exact congrArg some (Ipv6.ext (words_flatMap_ofWord ip.groups))

end Ipv6

/-! ## Endpoints -/

namespace Address

theorem ofCompact?_compact (address : Address) :
    ofCompact? address.compact = some address.unscoped := by
  cases address with
  | v4 ip port =>
    obtain ⟨a, b, c, d⟩ := ip
    have back := Option.some.inj (Bytes.toWord?_ofWord port)
    exact congrArg (fun port => some (Address.v4 ⟨a, b, c, d⟩ port)) back
  | v6 ip port flow scope =>
    have length := ip.length_octets
    have take : (ip.octets ++ Bytes.ofWord port).take 16 = ip.octets := by
      rw [← length, List.take_left]
    have drop : (ip.octets ++ Bytes.ofWord port).drop 16 = Bytes.ofWord port := by
      rw [← length, List.drop_left]
    have same := Ipv6.ofOctets?_eq_some_iff (Nat.le_of_eq length) |>.mpr (rfl : ip.octets = _)
    change ofCompact? (ip.octets ++ Bytes.ofWord port) = some (.v6 ip port 0 0)
    unfold ofCompact?
    split
    · rename_i a b c d high low six
      have eighteen := congrArg List.length six
      rw [List.length_append, length] at eighteen
      cases eighteen
    · simp only [take, drop, same, Bytes.toWord?_ofWord]
      rfl

theorem ofCompact?_eq_some_iff {bytes : Bytes} {address : Address} :
    ofCompact? bytes = some address ↔ bytes = address.compact ∧ address.unscoped = address := by
  constructor
  · intro read
    unfold ofCompact? at read
    split at read
    · rename_i a b c d high low
      obtain rfl := Option.some.inj read
      refine ⟨?_, rfl⟩
      change _ = [a, b, c, d] ++ Bytes.ofWord (Bytes.toWord high low)
      rw [Bytes.ofWord_toWord]
      rfl
    · simp only [Option.bind_eq_bind, Option.bind_eq_some_iff, Option.pure_def,
        Option.some.injEq] at read
      obtain ⟨ip, octets, port, word, rfl⟩ := read
      rw [Ipv6.ofOctets?_eq_some_iff (List.length_take_le ..)] at octets
      rw [Bytes.toWord?_eq_some_iff] at word
      refine ⟨?_, rfl⟩
      change _ = ip.octets ++ Bytes.ofWord port
      rw [← octets, ← word, List.take_append_drop]
  · rintro ⟨rfl, same⟩
    rw [ofCompact?_compact, same]

theorem length_compact (address : Address) :
    address.compact.length = if address.isV4 then 6 else 18 := by
  cases address with
  | v4 ip port => rfl
  | v6 ip port flow scope =>
    rw [compact, List.length_append, octets, ip.length_octets]
    rfl

/-- Six or eighteen octets stand for an endpoint, and no other number of octets does. -/
theorem exists_ofCompact?_iff {bytes : Bytes} :
    (∃ address, ofCompact? bytes = some address) ↔ bytes.length = 6 ∨ bytes.length = 18 := by
  constructor
  · intro found
    obtain ⟨address, read⟩ := found
    rw [(ofCompact?_eq_some_iff.mp read).1, length_compact]
    split
    · exact Or.inl rfl
    · exact Or.inr rfl
  · rintro (six | eighteen)
    · match bytes, six with
      | [a, b, c, d, high, low], _ => exact ⟨_, rfl⟩
    · have sixteen : (bytes.take 16).length = 16 := by
        rw [List.length_take, eighteen]
        rfl
      obtain ⟨ip, octets⟩ := Ipv6.exists_octets_eq sixteen
      obtain ⟨port, word⟩ : ∃ port, Bytes.ofWord port = bytes.drop 16 := by
        have two : (bytes.drop 16).length = 2 := by rw [List.length_drop, eighteen]
        match bytes.drop 16, two with
        | [high, low], _ => exact ⟨_, Bytes.ofWord_toWord high low⟩
      refine ⟨.v6 ip port 0 0, ofCompact?_eq_some_iff.mpr ⟨?_, rfl⟩⟩
      change bytes = ip.octets ++ Bytes.ofWord port
      rw [octets, word, List.take_append_drop]

theorem unscoped_of_ofCompact? {bytes : Bytes} {address : Address}
    (read : ofCompact? bytes = some address) : address.unscoped = address :=
  (ofCompact?_eq_some_iff.mp read).2

end Address

end PeerDiscovery
