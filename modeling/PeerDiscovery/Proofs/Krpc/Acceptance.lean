import PeerDiscovery.Proofs.Krpc.WellFormed

/-!
# What makes a dictionary a message

`Message.parse_of_dictionary` says which dictionaries are messages, what a message takes from its
dictionary, and that nothing else in the dictionary matters. What identifies a message must be there
and be of the right kind (`Acceptable`). Each other field is read on its own: where it is not of the
wanted kind the message goes without it or with a default, and of a list of peers only the items
that are no compact addresses are lost (`Reflects`).
-/

namespace PeerDiscovery.Message

open Bencode (Value Dictionary)

/-! ## Conditions -/

/-- What a dictionary must hold to be a message: a transaction, a kind, and what every message of
the kind has. -/
inductive Acceptable (entries : Dictionary Value) : Prop
  | query {transaction : Bytes} {name : String} {given : Dictionary Value} :
    valueAt? entries "t" = some (.bytes transaction) →
    valueAt? entries "y" = some (.text "q") →
    valueAt? entries "q" = some (.text name) →
    valueAt? entries "a" = some (.dictionary given) →
    (name = "get_peers" → ∃ infoHash, valueAt? given "info_hash" = some (.bytes infoHash) ∧
      infoHash.length = 20) →
    Acceptable entries
  | response {transaction id : Bytes} {given : Dictionary Value} :
    valueAt? entries "t" = some (.bytes transaction) →
    valueAt? entries "y" = some (.text "r") →
    valueAt? entries "r" = some (.dictionary given) →
    valueAt? given "id" = some (.bytes id) → id.length = 20 →
    Acceptable entries
  | error {transaction : Bytes} {items : List Value} :
    valueAt? entries "t" = some (.bytes transaction) →
    valueAt? entries "y" = some (.text "e") →
    valueAt? entries "e" = some (.list items) →
    Acceptable entries

/-- What stands in a place if it is of a form, and nothing otherwise. -/
def Finds {α : Type} (form : α → Value) (place : Option Value) (found : Option α) : Prop :=
  ∀ content, found = some content ↔ place = some (form content)

/-- What stands in a place if it is of a form, and the default otherwise. -/
def FindsOr {α : Type} (form : α → Value) (default : α) (place : Option Value) (found : α) : Prop :=
  (∀ content, place = some (form content) → found = content) ∧
    ((∀ content, place ≠ some (form content)) → found = default)

/-- The octet strings among some items that are as long as a compact address. -/
def compactStrings (items : List Value) : List Bytes :=
  (items.filterMap Value.bytes?).filter fun octets => octets.length = 6 || octets.length = 18

/-- The peers that a list in a place names, in its order, if there is a list. -/
def FindsPeers (place : Option Value) (found : Option (List Address)) : Prop :=
  match found with
  | none => ∀ items, place ≠ some (.list items)
  | some peers => ∃ items, place = some (.list items) ∧
      peers.map some = (compactStrings items).map Address.ofCompact?

/-- A message is well formed and says what stands in a dictionary under the keys of its kind. -/
def Reflects (message : Message) (entries : Dictionary Value) : Prop :=
  message.WellFormed ∧ valueAt? entries "t" = some (.bytes message.transaction) ∧
    match message.body with
    | .query request =>
      valueAt? entries "y" = some (.text "q") ∧
        valueAt? entries "q" = some (.text request.method) ∧
        ∃ given, valueAt? entries "a" = some (.dictionary given) ∧
          Finds (fun id => .bytes id.bytes) (valueAt? given "id") message.sender ∧
          ∀ infoHash, request = .getPeers infoHash →
            valueAt? given "info_hash" = some (.bytes infoHash.bytes)
    | .response reply =>
      valueAt? entries "y" = some (.text "r") ∧
        ∃ given, valueAt? entries "r" = some (.dictionary given) ∧
          valueAt? given "id" = some (.bytes reply.id.bytes) ∧
          Finds .bytes (valueAt? given "token") reply.token ∧
          Finds .bytes (valueAt? given "nodes") reply.nodes ∧
          FindsPeers (valueAt? given "values") reply.values
    | .error code text =>
      valueAt? entries "y" = some (.text "e") ∧
        ∃ items, valueAt? entries "e" = some (.list items) ∧
          FindsOr .integer 0 items[0]? code ∧ FindsOr .text "unknown error" items[1]? text

/-- Two dictionaries have the same, or both nothing, under each of some keys. -/
def AgreeOn (keys : List String) (entries others : Dictionary Value) : Prop :=
  ∀ key ∈ keys, valueAt? entries key = valueAt? others key

/-- Two dictionaries agree on all that is read of a message. Where one has no dictionary of
arguments or fields, neither has the other. -/
structure Agree (entries others : Dictionary Value) : Prop where
  outside : AgreeOn ["t", "y", "q", "e"] entries others
  arguments : Option.Rel (AgreeOn ["id", "info_hash"])
    (dictionaryAt? entries "a") (dictionaryAt? others "a")
  fields : Option.Rel (AgreeOn ["id", "token", "values", "nodes"])
    (dictionaryAt? entries "r") (dictionaryAt? others "r")

variable {entries others : Dictionary Value} {message : Message}

/-! ## What is accepted -/

theorem exists_identifierAt?_iff {key : String} :
    (∃ id, identifierAt? entries key = some id) ↔
      ∃ octets, valueAt? entries key = some (.bytes octets) ∧ octets.length = 20 := by
  constructor
  · intro found
    obtain ⟨id, here⟩ := found
    exact ⟨id.bytes, identifierAt?_eq_some_iff.mp here, id.length_eq⟩
  · intro found
    obtain ⟨octets, here, fits⟩ := found
    exact ⟨⟨octets, fits⟩, identifierAt?_eq_some_iff.mpr here⟩

/-- A name stands for a request unless it asks for peers and names no content. -/
theorem exists_requests_iff {name : String} {given : Dictionary Value} :
    (∃ request, Requests name given request) ↔
      (name = Method.getPeers.name →
        ∃ infoHash, identifierAt? given "info_hash" = some infoHash) := by
  constructor
  · intro requested getPeers
    obtain ⟨request, ⟨ping, -⟩ | ⟨-, infoHash, content, -⟩ | ⟨-, other, -⟩⟩ := requested
    · rw [ping] at getPeers
      exact absurd getPeers (by decide)
    · exact ⟨infoHash, content⟩
    · exact absurd getPeers other
  · intro content
    by_cases ping : name = Method.ping.name
    · exact ⟨.ping, Or.inl ⟨ping, rfl⟩⟩
    by_cases getPeers : name = Method.getPeers.name
    · obtain ⟨infoHash, here⟩ := content getPeers
      exact ⟨.getPeers infoHash, Or.inr (Or.inl ⟨getPeers, infoHash, here, rfl⟩)⟩
    · exact ⟨.other name, Or.inr (Or.inr ⟨ping, getPeers, rfl⟩)⟩

theorem exists_ofValue_iff :
    (∃ message, ofValue (.dictionary entries) = .ok message) ↔ Acceptable entries := by
  constructor
  · intro accepted
    obtain ⟨message, read⟩ := accepted
    obtain ⟨_, transaction, same, known, ways⟩ := ofValue_eq_ok_iff.mp read
    obtain rfl := Value.dictionary.inj same
    rw [bytesAt?_eq_some_iff] at known
    rcases ways with ⟨kind, query⟩ | ⟨kind, response⟩ | ⟨kind, error⟩
    · obtain ⟨name, given, request, method, arguments, requests, -⟩ :=
        readQuery_eq_ok_iff.mp query
      refine .query known (textAt?_eq_some_iff.mp kind) (textAt?_eq_some_iff.mp method)
        (dictionaryAt?_eq_some_iff.mp arguments) fun getPeers => ?_
      exact exists_identifierAt?_iff.mp (exists_requests_iff.mp ⟨request, requests⟩ getPeers)
    · obtain ⟨given, id, fields, responder, -⟩ := readResponse_eq_ok_iff.mp response
      exact .response known (textAt?_eq_some_iff.mp kind) (dictionaryAt?_eq_some_iff.mp fields)
        (identifierAt?_eq_some_iff.mp responder) id.length_eq
    · obtain ⟨items, list, -⟩ := readError_eq_ok_iff.mp error
      exact .error known (textAt?_eq_some_iff.mp kind) (listAt?_eq_some_iff.mp list)
  · intro acceptable
    simp only [ofValue_eq_ok_iff, Value.dictionary.injEq]
    cases acceptable with
    | query known kind method arguments content =>
      obtain ⟨request, requests⟩ := exists_requests_iff.mpr fun getPeers =>
        exists_identifierAt?_iff.mpr (content getPeers)
      exact ⟨_, _, _, rfl, bytesAt?_eq_some_iff.mpr known, Or.inl ⟨textAt?_eq_some_iff.mpr kind,
        readQuery_eq_ok_iff.mpr ⟨_, _, request, textAt?_eq_some_iff.mpr method,
          dictionaryAt?_eq_some_iff.mpr arguments, requests, rfl⟩⟩⟩
    | response known kind fields responder fits =>
      obtain ⟨id, here⟩ := exists_identifierAt?_iff.mpr ⟨_, responder, fits⟩
      exact ⟨_, _, _, rfl, bytesAt?_eq_some_iff.mpr known, Or.inr (Or.inl
        ⟨textAt?_eq_some_iff.mpr kind, readResponse_eq_ok_iff.mpr
          ⟨_, id, dictionaryAt?_eq_some_iff.mpr fields, here, rfl⟩⟩)⟩
    | error known kind list =>
      exact ⟨_, _, _, rfl, bytesAt?_eq_some_iff.mpr known, Or.inr (Or.inr
        ⟨textAt?_eq_some_iff.mpr kind, readError_eq_ok_iff.mpr
          ⟨_, listAt?_eq_some_iff.mpr list, rfl⟩⟩)⟩

/-! ## What is read -/

theorem FindsOr.getD {α : Type} {form : α → Value} {view : Value → Option α}
    (gives_back : ∀ {value content}, view value = some content ↔ value = form content)
    (default : α) (place : Option Value) :
    FindsOr form default place ((place.bind view).getD default) := by
  constructor
  · intro content here
    rw [(bind_view_eq_some_iff gives_back).mpr here]
    rfl
  · intro nowhere
    rw [Option.eq_none_iff_forall_ne_some.mpr fun content found =>
      nowhere content ((bind_view_eq_some_iff gives_back).mp found)]
    rfl

/-- No octet string of the length of a compact address is left out. -/
theorem map_some_peersOf (items : List Value) :
    (peersOf items).map some = (compactStrings items).map Address.ofCompact? := by
  have strings : peersOf items = (items.filterMap Value.bytes?).filterMap Address.ofCompact? :=
    List.filterMap_filterMap.symm
  have compact : ∀ octets : Bytes,
      (Address.ofCompact? octets).isSome = (octets.length = 6 || octets.length = 18 : Bool) := by
    intro octets
    rw [Bool.eq_iff_iff, Option.isSome_iff_exists, Address.exists_ofCompact?_iff]
    simp
  rw [strings, List.map_filterMap_some_eq_filter_map_isSome, List.filter_map, compactStrings]
  exact congrArg (List.map _) (List.filter_congr fun octets _ => compact octets)

theorem findsPeers_listAt? (given : Dictionary Value) (key : String) :
    FindsPeers (valueAt? given key) ((listAt? given key).map peersOf) := by
  cases list : listAt? given key with
  | none =>
    intro items here
    rw [listAt?_eq_some_iff.mpr here] at list
    cases list
  | some items => exact ⟨items, listAt?_eq_some_iff.mp list, map_some_peersOf items⟩

theorem reflects_of_ofValue (read : ofValue (.dictionary entries) = .ok message) :
    message.Reflects entries := by
  refine ⟨wellFormed_of_ofValue read, ?_⟩
  obtain ⟨_, transaction, same, known, ways⟩ := ofValue_eq_ok_iff.mp read
  obtain rfl := Value.dictionary.inj same
  rw [bytesAt?_eq_some_iff] at known
  rcases ways with ⟨kind, query⟩ | ⟨kind, response⟩ | ⟨kind, error⟩
  · obtain ⟨name, given, request, method, arguments, requests, rfl⟩ :=
      readQuery_eq_ok_iff.mp query
    obtain ⟨rfl, content⟩ : request.method = name ∧ ∀ infoHash, request = .getPeers infoHash →
        identifierAt? given "info_hash" = some infoHash := by
      rcases requests with ⟨rfl, rfl⟩ | ⟨rfl, infoHash, content, rfl⟩ | ⟨-, -, rfl⟩
      · exact ⟨rfl, by rintro _ ⟨⟩⟩
      · exact ⟨rfl, by rintro _ ⟨⟩; exact content⟩
      · exact ⟨rfl, by rintro _ ⟨⟩⟩
    exact ⟨known, textAt?_eq_some_iff.mp kind, textAt?_eq_some_iff.mp method, given,
      dictionaryAt?_eq_some_iff.mp arguments, fun id => identifierAt?_eq_some_iff,
      fun infoHash same => identifierAt?_eq_some_iff.mp (content infoHash same)⟩
  · obtain ⟨given, id, fields, responder, rfl⟩ := readResponse_eq_ok_iff.mp response
    exact ⟨known, textAt?_eq_some_iff.mp kind, given, dictionaryAt?_eq_some_iff.mp fields,
      identifierAt?_eq_some_iff.mp responder, fun token => bytesAt?_eq_some_iff,
      fun nodes => bytesAt?_eq_some_iff, findsPeers_listAt? given "values"⟩
  · obtain ⟨items, list, rfl⟩ := readError_eq_ok_iff.mp error
    exact ⟨known, textAt?_eq_some_iff.mp kind, items, listAt?_eq_some_iff.mp list,
      .getD Value.integer?_eq_some_iff 0 _, .getD Value.text?_eq_some_iff "unknown error" _⟩

/-! ## What does not matter -/

section Agree

variable {keys : List String} {key : String}

/-- Whatever view of the values is taken, both dictionaries show the same under the keys. -/
theorem AgreeOn.view_eq {α : Type} (agree : AgreeOn keys entries others) (member : key ∈ keys)
    (view : Value → Option α) :
    (valueAt? entries key).bind view = (valueAt? others key).bind view :=
  congrArg (Option.bind · view) (agree key member)

theorem AgreeOn.identifierAt?_eq (agree : AgreeOn keys entries others) (member : key ∈ keys) :
    identifierAt? entries key = identifierAt? others key :=
  congrArg (Option.bind · Identifier.ofBytes?) (agree.view_eq member Value.bytes?)

variable {transaction : Bytes}

theorem Agree.readQuery_eq (agree : Agree entries others) :
    readQuery transaction entries = readQuery transaction others := by
  have arguments := agree.arguments
  have method : textAt? entries "q" = textAt? others "q" :=
    agree.outside.view_eq (by decide) Value.text?
  rw [readQuery, readQuery, method]
  generalize dictionaryAt? entries "a" = given at arguments ⊢
  generalize dictionaryAt? others "a" = givenToo at arguments ⊢
  cases arguments with
  | none => rfl
  | @some given givenToo agree =>
    have sender : identifierAt? given "id" = identifierAt? givenToo "id" :=
      agree.identifierAt?_eq (by decide)
    have content : identifierAt? given "info_hash" = identifierAt? givenToo "info_hash" :=
      agree.identifierAt?_eq (by decide)
    simp only [required, bind, Except.bind, sender, content]

theorem Agree.readResponse_eq (agree : Agree entries others) :
    readResponse transaction entries = readResponse transaction others := by
  have fields := agree.fields
  rw [readResponse, readResponse]
  generalize dictionaryAt? entries "r" = given at fields ⊢
  generalize dictionaryAt? others "r" = givenToo at fields ⊢
  cases fields with
  | none => rfl
  | @some given givenToo agree =>
    have responder : identifierAt? given "id" = identifierAt? givenToo "id" :=
      agree.identifierAt?_eq (by decide)
    have token : bytesAt? given "token" = bytesAt? givenToo "token" :=
      agree.view_eq (by decide) Value.bytes?
    have values : listAt? given "values" = listAt? givenToo "values" :=
      agree.view_eq (by decide) Value.list?
    have nodes : bytesAt? given "nodes" = bytesAt? givenToo "nodes" :=
      agree.view_eq (by decide) Value.bytes?
    simp only [required, bind, Except.bind, responder, token, values, nodes]

theorem Agree.readError_eq (agree : Agree entries others) :
    readError transaction entries = readError transaction others := by
  have items : listAt? entries "e" = listAt? others "e" :=
    agree.outside.view_eq (by decide) Value.list?
  rw [readError, readError, items]

theorem Agree.ofValue_eq (agree : Agree entries others) :
    ofValue (.dictionary entries) = ofValue (.dictionary others) := by
  have known : bytesAt? entries "t" = bytesAt? others "t" :=
    agree.outside.view_eq (by decide) Value.bytes?
  have kind : textAt? entries "y" = textAt? others "y" :=
    agree.outside.view_eq (by decide) Value.text?
  simp only [ofValue, Value.dictionary?, required, bind, Except.bind, known, kind,
    agree.readQuery_eq, agree.readResponse_eq, agree.readError_eq]

end Agree

/-! ## Messages -/

theorem parse_of_read {octets : Bytes} {value : Value} (read : Value.parse octets = .ok value) :
    parse octets = ofValue value := by
  rw [parse, read]

/-- Of the octets of a dictionary it is decided by few keys whether they are a message: the message
is there exactly if what identifies it is, it says what stands under these keys, and octets of
dictionaries that agree on them are read alike. -/
theorem parse_of_dictionary {octets : Bytes}
    (read : Value.parse octets = .ok (.dictionary entries)) :
    ((∃ message, parse octets = .ok message) ↔ Acceptable entries) ∧
      (∀ message, parse octets = .ok message → message.Reflects entries) ∧
      ∀ octetsToo others, Value.parse octetsToo = .ok (.dictionary others) →
        Agree entries others → parse octetsToo = parse octets := by
  rw [parse_of_read read]
  refine ⟨exists_ofValue_iff, fun message => reflects_of_ofValue, ?_⟩
  intro octetsToo others readToo agree
  rw [parse_of_read readToo, agree.ofValue_eq]

/-! ### A sample -/

/-- A response whose token is a number, and of whose three peers the second is no compact address,
with other fields besides. -/
def sampleEntries (besides : List (Bytes × Value)) : Dictionary Value :=
  [(Bytes.ofText "r", .dictionary <| Dictionary.ofList <|
      (Bytes.ofText "id", .bytes (List.replicate 20 97)) :: (Bytes.ofText "token", .integer 7) ::
      (Bytes.ofText "values", .list [.bytes (Bytes.ofText "abcdef"), .bytes (Bytes.ofText "abc"),
        .bytes (Bytes.ofText "ghijkl")]) :: besides),
    (Bytes.ofText "t", .bytes (Bytes.ofText "zz")), (Bytes.ofText "y", .bytes (Bytes.ofText "r"))]

/-- The response as it is printed. -/
def sampleOctets : Bytes := Bytes.ofText
  "d1:rd2:id20:aaaaaaaaaaaaaaaaaaaa5:tokeni7e6:valuesl6:abcdef3:abc6:ghijklee1:t2:zz1:y1:re"

/-- The response in another order of the keys and with one field more. -/
def sampleOctetsToo : Bytes := Bytes.ofText <|
  "d1:y1:r1:t2:zz1:rd6:valuesl6:abcdef3:abc6:ghijkle" ++
    "2:id20:aaaaaaaaaaaaaaaaaaaa5:tokeni7e1:xleee"

/-- The response is read with the peers that are left, in either spelling. -/
theorem parse_of_dictionary_sample :
    Value.parse sampleOctets = .ok (.dictionary (sampleEntries [])) ∧
      ∃ message, parse sampleOctets = .ok message ∧ message.Reflects (sampleEntries []) ∧
        parse sampleOctetsToo = .ok message := by
  have read : Value.parse sampleOctets = .ok (.dictionary (sampleEntries [])) := by
    with_unfolding_all rfl
  have readToo : Value.parse sampleOctetsToo =
      .ok (.dictionary (sampleEntries [(Bytes.ofText "x", .list [])])) := by
    with_unfolding_all rfl
  have agree : Agree (sampleEntries []) (sampleEntries [(Bytes.ofText "x", .list [])]) := by
    refine ⟨?_, .none, .some ?_⟩
    · simp only [AgreeOn, List.forall_mem_cons]
      exact ⟨rfl, rfl, rfl, rfl, List.forall_mem_nil _⟩
    · simp only [AgreeOn, List.forall_mem_cons]
      exact ⟨rfl, rfl, rfl, rfl, List.forall_mem_nil _⟩
  obtain ⟨accepted, reflects, alike⟩ := parse_of_dictionary read
  obtain ⟨message, given⟩ := accepted.mpr (.response rfl rfl rfl rfl rfl)
  exact ⟨read, message, given, reflects message given, (alike _ _ readToo agree).trans given⟩

end PeerDiscovery.Message
