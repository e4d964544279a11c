import PeerDiscovery.Krpc.MessageReader
import PeerDiscovery.Proofs.Bencode.Inversion

/-!
# What reading a message can have done

One lemma for each reading function says exactly when it gives a message, and which one.
-/

namespace PeerDiscovery

open Bencode (Value Dictionary)

theorem Method.ofName?_eq_some_iff {name : String} {method : Method} :
    ofName? name = some method ↔ method.name = name := by
  constructor
  · intro found
    simpa using List.find?_some found
  · rintro rfl
    cases method <;> rfl

namespace Message

variable {transaction : Bytes} {entries : Dictionary Value} {message : Message}

theorem required_eq_ok_iff {α : Type} {error : MessageError} {found : Option α} {value : α} :
    required error found = .ok value ↔ found = some value := by
  cases found <;> simp [required]

/-! ## Fields of a dictionary -/

section Fields

variable {key : String}

/-- What stands under a key. -/
def valueAt? (entries : Dictionary Value) (key : String) : Option Value :=
  entries.get? (Bytes.ofText key)

/-- A view that gives back just the contents of one form finds those contents and nothing else. -/
theorem bind_view_eq_some_iff {α : Type} {form : α → Value} {view : Value → Option α}
    {place : Option Value} {content : α}
    (gives_back : ∀ {value : Value} {content : α}, view value = some content ↔
      value = form content) :
    place.bind view = some content ↔ place = some (form content) := by
  cases place with
  | none => exact iff_of_false (by rintro ⟨⟩) (by rintro ⟨⟩)
  | some value => rw [Option.bind_some, gives_back, Option.some.injEq]

theorem bytesAt?_eq_some_iff {octets : Bytes} :
    bytesAt? entries key = some octets ↔ valueAt? entries key = some (.bytes octets) :=
  bind_view_eq_some_iff Value.bytes?_eq_some_iff

theorem textAt?_eq_some_iff {content : String} :
    textAt? entries key = some content ↔ valueAt? entries key = some (.text content) :=
  bind_view_eq_some_iff Value.text?_eq_some_iff

theorem listAt?_eq_some_iff {items : List Value} :
    listAt? entries key = some items ↔ valueAt? entries key = some (.list items) :=
  bind_view_eq_some_iff Value.list?_eq_some_iff

theorem dictionaryAt?_eq_some_iff {given : Dictionary Value} :
    dictionaryAt? entries key = some given ↔ valueAt? entries key = some (.dictionary given) :=
  bind_view_eq_some_iff Value.dictionary?_eq_some_iff

theorem identifierAt?_eq_some_iff {id : Identifier} :
    identifierAt? entries key = some id ↔ valueAt? entries key = some (.bytes id.bytes) := by
  simp [identifierAt?, Option.bind_eq_some_iff, bytesAt?_eq_some_iff,
    Identifier.ofBytes?_eq_some_iff]

end Fields

/-! ## The three kinds -/

/-- The request that a method name stands for, with the arguments of the query. -/
def Requests (name : String) (given : Dictionary Value) (request : Request) : Prop :=
  (name = Method.ping.name ∧ request = .ping) ∨
    (name = Method.getPeers.name ∧
      ∃ infoHash, identifierAt? given "info_hash" = some infoHash ∧ request = .getPeers infoHash) ∨
    name ≠ Method.ping.name ∧ name ≠ Method.getPeers.name ∧ request = .other name

theorem readQuery_eq_ok_iff :
    readQuery transaction entries = .ok message ↔
      ∃ name given request, textAt? entries "q" = some name ∧
        dictionaryAt? entries "a" = some given ∧ Requests name given request ∧
        message = ⟨transaction, identifierAt? given "id", .query request⟩ := by
  have named : ∀ {name : String} {method : Method},
      Method.ofName? name = some method ↔ name = method.name :=
    Method.ofName?_eq_some_iff.trans eq_comm
  simp only [readQuery, bind, bind_eq_ok_iff, required_eq_ok_iff, pure, Except.pure]
  constructor
  · rintro ⟨name, method, given, arguments, read⟩
    refine ⟨name, given, ?_⟩
    split at read
    · rename_i ping
      obtain rfl := Except.ok.inj read
      exact ⟨.ping, method, arguments, Or.inl ⟨named.mp ping, rfl⟩, rfl⟩
    · rename_i getPeers
      simp only [bind_eq_ok_iff, required_eq_ok_iff, Except.ok.injEq] at read
      obtain ⟨infoHash, content, rfl⟩ := read
      exact ⟨.getPeers infoHash, method, arguments,
        Or.inr (Or.inl ⟨named.mp getPeers, infoHash, content, rfl⟩), rfl⟩
    · rename_i noPing noGetPeers
      obtain rfl := Except.ok.inj read
      refine ⟨.other name, method, arguments, Or.inr (Or.inr ⟨?_, ?_, rfl⟩), rfl⟩
      · exact fun ping => noPing (named.mpr ping)
      · exact fun getPeers => noGetPeers (named.mpr getPeers)
  · rintro ⟨name, given, request, method, arguments, requests, rfl⟩
    refine ⟨name, method, given, arguments, ?_⟩
    rcases requests with
      ⟨ping, rfl⟩ | ⟨getPeers, infoHash, content, rfl⟩ | ⟨noPing, noGetPeers, rfl⟩
    · rw [named.mpr ping]
    · rw [named.mpr getPeers, content]
      rfl
    · split
      · rename_i ping
        exact absurd (named.mp ping) noPing
      · rename_i getPeers
        exact absurd (named.mp getPeers) noGetPeers
      · rfl

theorem readResponse_eq_ok_iff :
    readResponse transaction entries = .ok message ↔
      ∃ given id, dictionaryAt? entries "r" = some given ∧ identifierAt? given "id" = some id ∧
        message = response transaction
          { id
            token := bytesAt? given "token"
            values := (listAt? given "values").map peersOf
            nodes := bytesAt? given "nodes" } := by
  simp only [readResponse, bind, bind_eq_ok_iff, required_eq_ok_iff, pure, Except.pure,
    Except.ok.injEq]
  constructor
  · rintro ⟨given, fields, id, responder, rfl⟩
    exact ⟨given, id, fields, responder, rfl⟩
  · rintro ⟨given, id, fields, responder, rfl⟩
    exact ⟨given, fields, id, responder, rfl⟩

theorem readError_eq_ok_iff :
    readError transaction entries = .ok message ↔
      ∃ items, listAt? entries "e" = some items ∧
        message = error transaction ((items[0]?.bind Value.integer?).getD 0)
          ((items[1]?.bind Value.text?).getD "unknown error") := by
  simp only [readError, bind, bind_eq_ok_iff, required_eq_ok_iff, pure, Except.pure,
    Except.ok.injEq]
  constructor
  · rintro ⟨items, list, rfl⟩
    exact ⟨items, list, rfl⟩
  · rintro ⟨items, list, rfl⟩
    exact ⟨items, list, rfl⟩

/-! ## Messages -/

theorem ofValue_eq_ok_iff {value : Value} :
    ofValue value = .ok message ↔
      ∃ entries transaction, value = .dictionary entries ∧
        bytesAt? entries "t" = some transaction ∧
        (textAt? entries "y" = some "q" ∧ readQuery transaction entries = .ok message ∨
          textAt? entries "y" = some "r" ∧ readResponse transaction entries = .ok message ∨
          textAt? entries "y" = some "e" ∧ readError transaction entries = .ok message) := by
  simp only [ofValue, bind, bind_eq_ok_iff, required_eq_ok_iff, Value.dictionary?_eq_some_iff]
  constructor
  · rintro ⟨entries, rfl, transaction, found, kind, here, read⟩
    refine ⟨entries, transaction, rfl, found, ?_⟩
    split at read
    · rename_i query
      exact Or.inl ⟨query ▸ here, read⟩
    split at read
    · rename_i response
      exact Or.inr (Or.inl ⟨response ▸ here, read⟩)
    split at read
    · rename_i error
      exact Or.inr (Or.inr ⟨error ▸ here, read⟩)
    · cases read
  · rintro ⟨entries, transaction, rfl, found, ⟨here, read⟩ | ⟨here, read⟩ | ⟨here, read⟩⟩
    · exact ⟨entries, rfl, transaction, found, "q", here, by rwa [if_pos rfl]⟩
    · refine ⟨entries, rfl, transaction, found, "r", here, ?_⟩
      rwa [if_neg (by decide), if_pos rfl]
    · refine ⟨entries, rfl, transaction, found, "e", here, ?_⟩
      rwa [if_neg (by decide), if_neg (by decide), if_pos rfl]

theorem parse_eq_ok_iff {octets : Bytes} :
    parse octets = .ok message ↔
      ∃ value, Value.parse octets = .ok value ∧ ofValue value = .ok message := by
  unfold parse
  cases Value.parse octets <;> simp

end Message

end PeerDiscovery
