import PeerDiscovery.Proofs.Krpc.RoundTrip

/-!
# The messages that read back

Whatever octets are read, the message is well formed, and its octet strings are no longer than a
length can say. So the well-formed messages are exactly those that read back as themselves
(`Message.parse_print_exactly`), and reading is idempotent.
-/

namespace PeerDiscovery

open Bencode (Value Dictionary)

namespace Message

variable {entries : Dictionary Value} {key : String} {message : Message}

/-! ## Lengths -/

theorem fits_of_valueAt? {value : Value} (fits : (Value.dictionary entries).Fits)
    (found : valueAt? entries key = some value) : value.Fits := by
  obtain ⟨before, after, rfl, -⟩ := List.lookup_eq_some_iff.mp found
  have member : (Bytes.ofText key, value) ∈ before ++ (Bytes.ofText key, value) :: after := by simp
  exact (Value.fitsEntries_iff.mp fits _ member).2

theorem length_le_of_bytesAt? {octets : Bytes} (fits : (Value.dictionary entries).Fits)
    (found : bytesAt? entries key = some octets) : octets.length ≤ Numeral.max64 :=
  fits_of_valueAt? fits (bytesAt?_eq_some_iff.mp found)

theorem fits_of_ofValue {value : Value} (small : value.Fits) (read : ofValue value = .ok message) :
    message.Fits := by
  obtain ⟨entries, transaction, rfl, known, ways⟩ := ofValue_eq_ok_iff.mp read
  have short := length_le_of_bytesAt? small known
  rcases ways with ⟨-, query⟩ | ⟨-, response⟩ | ⟨-, error⟩
  · obtain ⟨name, given, request, method, -, requests, rfl⟩ := readQuery_eq_ok_iff.mp query
    obtain rfl : request.method = name := by
      rcases requests with ⟨rfl, rfl⟩ | ⟨rfl, infoHash, -, rfl⟩ | ⟨-, -, rfl⟩ <;> rfl
    exact ⟨short, fits_of_valueAt? small (textAt?_eq_some_iff.mp method)⟩
  · obtain ⟨given, id, under, -, rfl⟩ := readResponse_eq_ok_iff.mp response
    have inner := fits_of_valueAt? small (dictionaryAt?_eq_some_iff.mp under)
    refine ⟨short, fun octets carried => ?_⟩
    exact carried.elim (length_le_of_bytesAt? inner) (length_le_of_bytesAt? inner)
  · obtain ⟨items, under, rfl⟩ := readError_eq_ok_iff.mp error
    have inner := fits_of_valueAt? small (listAt?_eq_some_iff.mp under)
    refine ⟨short, ?_⟩
    cases told : items[1]?.bind Value.text? with
    | none => exact (by decide : (Utf8.encode "unknown error").length ≤ Numeral.max64)
    | some text =>
      obtain ⟨item, second, view⟩ := Option.bind_eq_some_iff.mp told
      obtain rfl := Value.text?_eq_some_iff.mp view
      exact Value.fitsItems_iff.mp inner _ (List.mem_of_getElem? second)

theorem fits_of_parse {octets : Bytes} (read : parse octets = .ok message) : message.Fits := by
  obtain ⟨value, parsed, read⟩ := parse_eq_ok_iff.mp read
  exact fits_of_ofValue (Value.within_of_parse parsed).fits read

/-! ## Form -/

theorem unscoped_of_mem_peersOf {items : List Value} {peer : Address}
    (member : peer ∈ peersOf items) : peer.unscoped = peer := by
  obtain ⟨item, -, read⟩ := List.mem_filterMap.mp member
  obtain ⟨octets, -, compact⟩ := Option.bind_eq_some_iff.mp read
  exact Address.unscoped_of_ofCompact? compact

theorem wellFormed_of_ofValue {value : Value} (read : ofValue value = .ok message) :
    message.WellFormed := by
  obtain ⟨entries, transaction, -, -, ⟨-, query⟩ | ⟨-, response⟩ | ⟨-, error⟩⟩ :=
    ofValue_eq_ok_iff.mp read
  · obtain ⟨name, given, request, -, -, requests, rfl⟩ := readQuery_eq_ok_iff.mp query
    rcases requests with ⟨-, rfl⟩ | ⟨-, infoHash, -, rfl⟩ | ⟨noPing, noGetPeers, rfl⟩
    · trivial
    · trivial
    · exact ⟨noPing, noGetPeers⟩
  · obtain ⟨given, id, -, -, rfl⟩ := readResponse_eq_ok_iff.mp response
    refine ⟨rfl, fun peers listed peer member => ?_⟩
    obtain ⟨items, -, rfl⟩ := Option.map_eq_some_iff.mp listed
    exact unscoped_of_mem_peersOf member
  · obtain ⟨items, -, rfl⟩ := readError_eq_ok_iff.mp error
    rfl

theorem wellFormed_of_parse {octets : Bytes} (read : parse octets = .ok message) :
    message.WellFormed := by
  obtain ⟨value, -, read⟩ := parse_eq_ok_iff.mp read
  exact wellFormed_of_ofValue read

/-- A message reads back as itself exactly if it is well formed, and whatever was read is. -/
theorem parse_print_exactly :
    (∀ message : Message, message.Fits →
        (parse message.print = .ok message ↔ message.WellFormed)) ∧
      ∀ octets message, parse octets = .ok message →
        message.WellFormed ∧ parse message.print = .ok message := by
  constructor
  · intro message fits
    exact ⟨wellFormed_of_parse, fun wellFormed => parse_print wellFormed fits⟩
  · intro octets message read
    have wellFormed := wellFormed_of_parse read
    exact ⟨wellFormed, parse_print wellFormed (fits_of_parse read)⟩

/-! ### A sample -/

/-- Peers of both families, with a token and the octets of a contact. -/
def sampleResponse (scope : UInt32) : Message :=
  .response (Bytes.ofText "aa")
    { id := ⟨List.replicate 20 7, rfl⟩
      token := some (Bytes.ofText "t:e")
      values := some [.v4 ⟨10, 0, 0, 1⟩ 6881, .v6 ⟨[0, 0, 0, 0, 0, 0, 0, 1], rfl⟩ 6882 0 scope]
      nodes := some (List.replicate 26 255) }

theorem sampleResponse_fits (scope : UInt32) : (sampleResponse scope).Fits := by
  refine ⟨(by decide : (Bytes.ofText "aa").length ≤ Numeral.max64), fun octets carried => ?_⟩
  rcases carried with token | nodes
  · obtain rfl : Bytes.ofText "t:e" = octets := Option.some.inj token
    decide
  · obtain rfl : List.replicate 26 255 = octets := Option.some.inj nodes
    decide

/-- A response reads back unless a peer in it has a scope, and so does a query that was spelled with
its keys out of order and one of them twice. -/
theorem parse_print_exactly_sample :
    parse (sampleResponse 0).print = .ok (sampleResponse 0) ∧
      parse (sampleResponse 4).print ≠ .ok (sampleResponse 4) ∧
      ∃ message, parse (Bytes.ofText "d1:y1:q1:t2:zz1:ad1:zi0ee1:q9:find_node1:t2:aae") =
          .ok message ∧
        message.print = Bytes.ofText "d1:ade1:q9:find_node1:t2:aa1:y1:qe" ∧
        parse message.print = .ok message := by
  refine ⟨?_, ?_, ?_⟩
  · refine (parse_print_exactly.1 _ (sampleResponse_fits 0)).mpr ⟨rfl, ?_⟩
    intro peers listed
    obtain rfl := Option.some.inj listed
    simp only [List.forall_mem_cons]
    exact ⟨rfl, rfl, List.forall_mem_nil _⟩
  · intro same
    obtain ⟨-, unscoped⟩ := (parse_print_exactly.1 _ (sampleResponse_fits 4)).mp same
    have dropped := unscoped _ rfl _ (List.mem_cons_of_mem _ List.mem_cons_self)
    cases dropped
  · have told : ((parse (Bytes.ofText
        "d1:y1:q1:t2:zz1:ad1:zi0ee1:q9:find_node1:t2:aae")).toOption.map print) =
        some (Bytes.ofText "d1:ade1:q9:find_node1:t2:aa1:y1:qe") := by decide +kernel
    obtain ⟨message, read, printed⟩ := Option.map_eq_some_iff.mp told
    rw [toOption_eq_some_iff] at read
    exact ⟨message, read, printed, (parse_print_exactly.2 _ message read).2⟩

end Message

end PeerDiscovery
