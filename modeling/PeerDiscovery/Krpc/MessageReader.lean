import PeerDiscovery.Bencode.Reader
import PeerDiscovery.Krpc.Message

/-!
# Reading messages

`Message.parse` looks only at the keys it needs, so other keys never matter. Optional fields that
are of the wrong kind count as missing, and so do single peers that cannot be read; what identifies
the message must be there.
-/

namespace PeerDiscovery

open Bencode (Value Dictionary ReadError)

/-- Why octets are no message. -/
inductive MessageError where
  | bencode (cause : ReadError)
  | notDictionary
  | missingTransaction
  | missingKind
  | unknownKind (kind : String)
  | missingMethod
  | missingArguments
  | missingInfoHash
  | missingFields
  | missingResponder
  | missingErrorList
deriving DecidableEq, Repr

/-- The wording of each error. -/
def MessageError.message : MessageError → String
  | .bencode cause => "bencode error: " ++ cause.message
  | .notDictionary => "invalid message: expected dict"
  | .missingTransaction => "invalid message: missing transaction id"
  | .missingKind => "invalid message: missing message type"
  | .unknownKind kind => "invalid message: unknown message type: " ++ kind
  | .missingMethod => "invalid message: missing query name"
  | .missingArguments => "invalid message: missing query args"
  | .missingInfoHash => "invalid message: missing info_hash"
  | .missingFields => "invalid message: missing response dict"
  | .missingResponder => "invalid message: missing id in response"
  | .missingErrorList => "invalid message: missing error list"

namespace Message

/-! ## Fields of a dictionary -/

/-- The octet string under a key. -/
def bytesAt? (entries : Dictionary Value) (key : String) : Option Bytes :=
  (entries.get? (Bytes.ofText key)).bind Value.bytes?

/-- The text under a key. -/
def textAt? (entries : Dictionary Value) (key : String) : Option String :=
  (entries.get? (Bytes.ofText key)).bind Value.text?

/-- The list under a key. -/
def listAt? (entries : Dictionary Value) (key : String) : Option (List Value) :=
  (entries.get? (Bytes.ofText key)).bind Value.list?

/-- The dictionary under a key. -/
def dictionaryAt? (entries : Dictionary Value) (key : String) : Option (Dictionary Value) :=
  (entries.get? (Bytes.ofText key)).bind Value.dictionary?

/-- The identifier under a key. -/
def identifierAt? (entries : Dictionary Value) (key : String) : Option Identifier :=
  (bytesAt? entries key).bind Identifier.ofBytes?

/-- The value that must be there. -/
def required {α : Type} (error : MessageError) (found : Option α) : Except MessageError α :=
  match found with
  | some value => .ok value
  | none => .error error

/-! ## The three kinds -/

/-- The peers that a list of compact addresses names; what is no compact address is left out. -/
def peersOf (items : List Value) : List Address :=
  items.filterMap fun item => item.bytes?.bind Address.ofCompact?

/-- Reads the query of a message. -/
def readQuery (transaction : Bytes) (entries : Dictionary Value) : Except MessageError Message := do
  let name ← required .missingMethod (textAt? entries "q")
  let given ← required .missingArguments (dictionaryAt? entries "a")
  let sender := identifierAt? given "id"
  match Method.ofName? name with
  | some .ping => return ⟨transaction, sender, .query .ping⟩
  | some .getPeers =>
    let infoHash ← required .missingInfoHash (identifierAt? given "info_hash")
    return ⟨transaction, sender, .query (.getPeers infoHash)⟩
  | _ => return ⟨transaction, sender, .query (.other name)⟩

/-- Reads the response of a message. -/
def readResponse (transaction : Bytes) (entries : Dictionary Value) :
    Except MessageError Message := do
  let given ← required .missingFields (dictionaryAt? entries "r")
  let id ← required .missingResponder (identifierAt? given "id")
  return response transaction
    { id
      token := bytesAt? given "token"
      values := (listAt? given "values").map peersOf
      nodes := bytesAt? given "nodes" }

/-- Reads the error of a message. What is missing of code and text is filled in. -/
def readError (transaction : Bytes) (entries : Dictionary Value) : Except MessageError Message := do
  let items ← required .missingErrorList (listAt? entries "e")
  return error transaction
    ((items[0]?.bind Value.integer?).getD 0)
    ((items[1]?.bind Value.text?).getD "unknown error")

/-- The message of a bencode value. -/
def ofValue (value : Value) : Except MessageError Message := do
  let entries ← required .notDictionary value.dictionary?
  let transaction ← required .missingTransaction (bytesAt? entries "t")
  let kind ← required .missingKind (textAt? entries "y")
  if kind = "q" then readQuery transaction entries
  else if kind = "r" then readResponse transaction entries
  else if kind = "e" then readError transaction entries
  else .error (.unknownKind kind)

/-- The message that octets spell. -/
def parse (octets : Bytes) : Except MessageError Message :=
  match Value.parse octets with
  | .ok value => ofValue value
  | .error cause => .error (.bencode cause)

end Message

end PeerDiscovery
