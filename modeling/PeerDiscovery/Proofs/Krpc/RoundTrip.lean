import PeerDiscovery.Proofs.Address.Compact
import PeerDiscovery.Proofs.Bencode.Nesting
import PeerDiscovery.Proofs.Krpc.Inversion

/-!
# Messages read back

A message is written as a dictionary with at most two containers inside one another, which the
reader of values gives back. The reader of messages then finds every part under the key it was
written under, so a well-formed message reads back as itself (`Message.parse_print`).
-/

namespace PeerDiscovery

open Bencode (Value Dictionary)

theorem Identifier.ofBytes?_bytes (id : Identifier) : ofBytes? id.bytes = some id :=
  ofBytes?_eq_some_iff.mpr rfl

theorem Bencode.Value.text?_text (content : String) : (Value.text content).text? = some content :=
  text?_eq_some_iff.mpr rfl

namespace Message

/-- Every octet string in the message has a length that can be read. -/
def Fits (message : Message) : Prop :=
  message.transaction.length ≤ Numeral.max64 ∧
    match message.body with
    | .query request => (Utf8.encode request.method).length ≤ Numeral.max64
    | .response reply => ∀ octets, reply.token = some octets ∨ reply.nodes = some octets →
      octets.length ≤ Numeral.max64
    | .error _ text => (Utf8.encode text).length ≤ Numeral.max64

/-- The entries of a message, in the order in which they are put in. -/
def entries (message : Message) : List (Bytes × Value) :=
  (Bytes.ofText "t", .bytes message.transaction) ::
    match message.body with
    | .query request =>
      [(Bytes.ofText "y", .text "q"), (Bytes.ofText "q", .text request.method),
        (Bytes.ofText "a", .dictionary (arguments message.sender request))]
    | .response reply =>
      [(Bytes.ofText "y", .text "r"), (Bytes.ofText "r", .dictionary (fields reply))]
    | .error code text =>
      [(Bytes.ofText "y", .text "e"), (Bytes.ofText "e", .list [.integer code, .text text])]

theorem value_eq (message : Message) :
    value message = .dictionary (Dictionary.ofList message.entries) := rfl

/-! ## Written form -/

section Within

variable {levels : Nat}

theorem within_bytes_of_length_eq {octets : Bytes} (length : octets.length = 20) :
    (Value.bytes octets).Within (levels + 1) :=
  .bytes (by rw [length]; decide)

theorem within_arguments (sender : Option Identifier) (request : Request) :
    (Value.dictionary (arguments sender request)).Within (levels + 2) := by
  refine .ofList fun entry member => ?_
  rcases List.mem_append.mp member with given | content
  · cases sender with
    | none => cases given
    | some ourId =>
      obtain rfl := List.mem_singleton.mp given
      exact ⟨(by decide : (Bytes.ofText "id").length ≤ Numeral.max64),
        within_bytes_of_length_eq ourId.length_eq⟩
  · cases request with
    | ping => cases content
    | other method => cases content
    | getPeers infoHash =>
      obtain rfl := List.mem_singleton.mp content
      exact ⟨(by decide : (Bytes.ofText "info_hash").length ≤ Numeral.max64),
        within_bytes_of_length_eq infoHash.length_eq⟩

theorem within_optionalEntry {key : String} {octets : Option Bytes}
    (short : (Bytes.ofText key).length ≤ Numeral.max64)
    (small : ∀ given, octets = some given → given.length ≤ Numeral.max64)
    {entry : Bytes × Value} (member : entry ∈ optionalEntry key octets) :
    entry.1.length ≤ Numeral.max64 ∧ entry.2.Within (levels + 1) := by
  cases octets with
  | none => cases member
  | some given =>
    obtain rfl := List.mem_singleton.mp member
    exact ⟨short, .bytes (small given rfl)⟩

theorem within_fields {reply : Reply}
    (small : ∀ octets, reply.token = some octets ∨ reply.nodes = some octets →
      octets.length ≤ Numeral.max64) :
    (Value.dictionary (fields reply)).Within (levels + 3) := by
  refine .ofList fun entry member => ?_
  simp only [List.cons_append, List.append_assoc, List.mem_cons, List.mem_append] at member
  rcases member with rfl | token | values | nodes
  · exact ⟨(by decide : (Bytes.ofText "id").length ≤ Numeral.max64),
      within_bytes_of_length_eq reply.id.length_eq⟩
  · exact within_optionalEntry (by decide) (fun octets given => small octets (Or.inl given)) token
  · cases listed : reply.values with
    | none =>
      rw [listed] at values
      cases values
    | some peers =>
      rw [listed] at values
      obtain rfl := List.mem_singleton.mp values
      refine ⟨(by decide : (Bytes.ofText "values").length ≤ Numeral.max64),
        .list fun item here => ?_⟩
      obtain ⟨peer, -, rfl⟩ := List.mem_map.mp here
      refine .bytes ?_
      rw [peer.length_compact]
      cases peer.isV4 <;> decide
  · exact within_optionalEntry (by decide) (fun octets given => small octets (Or.inr given)) nodes

theorem within_value {message : Message} (fits : message.Fits) :
    (value message).Within (levels + 4) := by
  obtain ⟨transaction, sender, body⟩ := message
  obtain ⟨short, small⟩ := fits
  rw [value_eq]
  refine .ofList ?_
  cases body with
  | query request =>
    simp only [entries, List.forall_mem_cons]
    exact ⟨⟨by decide, .bytes short⟩, ⟨by decide, .bytes (by decide)⟩, ⟨by decide, .bytes small⟩,
      ⟨by decide, within_arguments sender request⟩, by simp⟩
  | response reply =>
    simp only [entries, List.forall_mem_cons]
    exact ⟨⟨by decide, .bytes short⟩, ⟨by decide, .bytes (by decide)⟩,
      ⟨by decide, within_fields small⟩, by simp⟩
  | error code text =>
    simp only [entries, List.forall_mem_cons]
    refine ⟨⟨by decide, .bytes short⟩, ⟨by decide, .bytes (by decide)⟩, ⟨by decide, .list ?_⟩,
      by simp⟩
    simp only [List.forall_mem_cons]
    exact ⟨.integer code, .bytes small, by simp⟩

end Within

/-! ## What the reader finds -/

theorem identifierAt?_arguments_id (sender : Option Identifier) (request : Request) :
    identifierAt? (arguments sender request) "id" = sender := by
  have octets : bytesAt? (arguments sender request) "id" = sender.map Identifier.bytes := by
    unfold arguments
    rw [bytesAt?, Dictionary.get?_ofList]
    cases sender <;> cases request <;> rfl
  rw [identifierAt?, octets]
  cases sender with
  | none => rfl
  | some ourId => exact ourId.ofBytes?_bytes

theorem requests_arguments {sender : Option Identifier} {request : Request}
    (wellFormed : (⟨[], sender, .query request⟩ : Message).WellFormed) :
    Requests request.method (arguments sender request) request := by
  cases request with
  | ping => exact Or.inl ⟨rfl, rfl⟩
  | getPeers infoHash =>
    have octets : bytesAt? (arguments sender (.getPeers infoHash)) "info_hash" =
        some infoHash.bytes := by
      rw [bytesAt?, arguments, Dictionary.get?_ofList]
      cases sender <;> rfl
    refine Or.inr (Or.inl ⟨rfl, infoHash, ?_, rfl⟩)
    rw [identifierAt?, octets]
    exact infoHash.ofBytes?_bytes
  | other method =>
    obtain ⟨noPing, noGetPeers⟩ := wellFormed
    exact Or.inr (Or.inr ⟨noPing, noGetPeers, rfl⟩)

theorem fieldsAt?_fields (reply : Reply) :
    bytesAt? (fields reply) "id" = some reply.id.bytes ∧
      bytesAt? (fields reply) "token" = reply.token ∧
      listAt? (fields reply) "values" =
        reply.values.map (fun peers => peers.map fun peer => .bytes peer.compact) ∧
      bytesAt? (fields reply) "nodes" = reply.nodes := by
  obtain ⟨id, token, values, nodes⟩ := reply
  simp only [bytesAt?, listAt?, fields, Dictionary.get?_ofList]
  cases token <;> cases values <;> cases nodes <;> exact ⟨rfl, rfl, rfl, rfl⟩

theorem peersOf_compact {peers : List Address} (unscoped : ∀ peer ∈ peers, peer.unscoped = peer) :
    peersOf (peers.map fun peer => .bytes peer.compact) = peers := by
  induction peers with
  | nil => rfl
  | cons peer rest ih =>
    obtain ⟨first, others⟩ := List.forall_mem_cons.mp unscoped
    have back : (Value.bytes peer.compact).bytes?.bind Address.ofCompact? = some peer := by
      change Address.ofCompact? peer.compact = some peer
      rw [Address.ofCompact?_compact, first]
    rw [List.map_cons, peersOf, List.filterMap_cons, back]
    exact congrArg (peer :: ·) (ih others)

theorem ofValue_value {message : Message} (wellFormed : message.WellFormed) :
    ofValue message.value = .ok message := by
  obtain ⟨transaction, sender, body⟩ := message
  rw [ofValue_eq_ok_iff]
  refine ⟨_, transaction, value_eq _, ?_⟩
  simp only [bytesAt?, textAt?, Dictionary.get?_ofList]
  cases body with
  | query request =>
    refine ⟨rfl, Or.inl ⟨Value.text?_text "q", readQuery_eq_ok_iff.mpr ⟨request.method,
      arguments sender request, request, ?_, ?_, requests_arguments wellFormed, ?_⟩⟩⟩
    · rw [textAt?, Dictionary.get?_ofList]
      exact Value.text?_text request.method
    · rw [dictionaryAt?, Dictionary.get?_ofList]
      rfl
    · rw [identifierAt?_arguments_id]
  | response reply =>
    obtain ⟨rfl, unscoped⟩ := wellFormed
    obtain ⟨id, token, values, nodes⟩ := fieldsAt?_fields reply
    refine ⟨rfl, Or.inr (Or.inl ⟨Value.text?_text "r", readResponse_eq_ok_iff.mpr
      ⟨fields reply, reply.id, ?_, ?_, ?_⟩⟩)⟩
    · rw [dictionaryAt?, Dictionary.get?_ofList]
      rfl
    · rw [identifierAt?, id]
      exact reply.id.ofBytes?_bytes
    · have peers : (listAt? (fields reply) "values").map peersOf = reply.values := by
        rw [values]
        cases listed : reply.values with
        | none => rfl
        | some peers => exact congrArg some (peersOf_compact (unscoped peers listed))
      rw [token, nodes, peers]
      rfl
  | error code text =>
    obtain rfl : sender = none := wellFormed
    refine ⟨rfl, Or.inr (Or.inr ⟨Value.text?_text "e", readError_eq_ok_iff.mpr
      ⟨[.integer code, .text text], ?_, ?_⟩⟩)⟩
    · rw [listAt?, Dictionary.get?_ofList]
      rfl
    · have told : (Value.text text).text? = some text := Value.text?_text text
      change _ = error transaction code ((Value.text text).text?.getD "unknown error")
      rw [told]
      rfl

/-- A well-formed message reads back from its written form. -/
theorem parse_print {message : Message} (wellFormed : message.WellFormed) (fits : message.Fits) :
    parse message.print = .ok message := by
  have within : (value message).Within 4 := within_value fits
  have read : Value.parse message.print = .ok message.value :=
    Value.parse_print_of_within within (by decide)
  exact parse_eq_ok_iff.mpr ⟨message.value, read, ofValue_value wellFormed⟩

end Message

end PeerDiscovery
