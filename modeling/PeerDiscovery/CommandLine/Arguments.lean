import PeerDiscovery.Contact
import PeerDiscovery.Settings
import PeerDiscovery.Text.Numeral
import PeerDiscovery.Text.Printable

/-!
# Command line arguments

The options of the program and the reading of a command line. Words are read from the left. The
value of an option is checked when the next option starts, so of two faults the one met first is
reported, save that an unknown word goes before a bad value directly in front of it.
-/

namespace PeerDiscovery.CommandLine

/-- An option of the program. -/
inductive Flag where
  | port
  | nodeId
  | router
  | noBootstrap
  | fanOut
  | minPeers
  | infoHash
  | node
  | statsInterval
  | help
  | version
deriving DecidableEq, Repr

namespace Flag

/-- All options, in the order of the help text. -/
def all : List Flag :=
  [.port, .nodeId, .router, .noBootstrap, .fanOut, .minPeers, .infoHash, .node, .statsInterval,
    .help, .version]

/-- The long name. -/
def long : Flag → String
  | .port => "port"
  | .nodeId => "node-id"
  | .router => "router"
  | .noBootstrap => "no-bootstrap"
  | .fanOut => "fan-out"
  | .minPeers => "min-peers"
  | .infoHash => "info-hash"
  | .node => "node"
  | .statsInterval => "stats-interval"
  | .help => "help"
  | .version => "version"

/-- The short name, if there is one. -/
def short? : Flag → Option Char
  | .port => some 'p'
  | .router => some 'r'
  | .infoHash => some 'i'
  | .node => some 'n'
  | .statsInterval => some 's'
  | .help => some 'h'
  | .version => some 'V'
  | .nodeId | .noBootstrap | .fanOut | .minPeers => none

/-- How the value is called, for an option that takes one. -/
def placeholder? : Flag → Option String
  | .port => some "PORT"
  | .nodeId => some "NODE_ID"
  | .router => some "ROUTER"
  | .fanOut => some "FAN_OUT"
  | .minPeers => some "MIN_PEERS"
  | .infoHash => some "HASH"
  | .node => some "NODE"
  | .statsInterval => some "STATS_INTERVAL"
  | .noBootstrap | .help | .version => none

/-- Whether the option may be given more than once. -/
def isRepeatable : Flag → Bool
  | .infoHash | .node => true
  | _ => false

/-- The long name with dashes, and the placeholder of the value. -/
def usage (flag : Flag) : String :=
  "--" ++ flag.long ++ match flag.placeholder? with
    | some name => " <" ++ name ++ ">"
    | none => ""

def ofLong? (name : String) : Option Flag := all.find? fun flag => flag.long == name

def ofShort? (name : Char) : Option Flag := all.find? fun flag => flag.short? == some name

end Flag

/-- What a command line asks for. -/
structure Arguments where
  port : UInt16 := Default.port
  nodeId : Option Identifier := none
  router : String := Default.router
  noBootstrap : Bool := false
  fanOut : Option Nat := none
  minPeers : Option Nat := none
  infoHashes : List InfoHash := []
  nodes : List Contact := []
  /-- Seconds between reports. -/
  statsInterval : Nat := 60
deriving DecidableEq

/-- Why a command line does not start the program. -/
inductive Rejection where
  /-- The value of an option is not of its kind. -/
  | badValue (flag : Flag) (value reason : String)
  /-- An option lacks its value. -/
  | missingValue (flag : Flag)
  /-- A word stands where none is expected. -/
  | unexpected (word : String)
  /-- An option is given more than once. -/
  | repeated (flag : Flag)
  /-- A value is attached to an option that takes none. -/
  | surplusValue (flag : Flag) (value : String)
  /-- The help text is asked for. -/
  | help
  /-- The version is asked for. -/
  | version
deriving DecidableEq, Repr

/-- The first line of the help text. -/
def about : String := "Find BitTorrent peers through the DHT"

/-- The name and version of the program. -/
def versionText : String := "trackerless 0.1.0"

/-- The wording of each rejection. Of what the user wrote it holds the part that prints. -/
def Rejection.wording (blank : Printable.Blank) : Rejection → String
  | .badValue flag value reason =>
    "error: invalid value '" ++ Printable.text blank value ++ "' for '" ++ flag.usage ++ "': "
      ++ reason
  | .missingValue flag =>
    "error: a value is required for '" ++ flag.usage ++ "' but none was supplied"
  | .unexpected word => "error: unexpected argument '" ++ Printable.text blank word ++ "' found"
  | .repeated flag => "error: the argument '" ++ flag.usage ++ "' cannot be used multiple times"
  | .surplusValue flag value =>
    "error: unexpected value '" ++ Printable.text blank value ++ "' for '" ++ flag.usage
      ++ "' found; no more were expected"
  | .help => about
  | .version => versionText

/-- The wording as a value. A blank control in what the user wrote ends an escape sequence there. -/
def Rejection.message (rejection : Rejection) : String := rejection.wording .ends

/-- The characters before the first line break, which is a line feed with the carriage return that
may stand in front of it. -/
def untilBreak : List Char → List Char
  | [] | '\n' :: _ | '\r' :: '\n' :: _ => []
  | c :: rest => c :: untilBreak rest

/-- The first line of a text, without its break. -/
def firstLine (text : String) : String := String.ofList (untilBreak text.toList)

/-! ## Values -/

namespace Arguments

/-- A port: any 64-bit number is read, and those outside the 16-bit range are refused. -/
def readPort (value : String) : Except String UInt16 :=
  match Numeral.readInt64 value.toList with
  | .error fault => .error fault.message
  | .ok number =>
    if 0 ≤ number ∧ number ≤ 65535 then .ok (UInt16.ofNat number.toNat)
    else .error (String.ofList (Numeral.ofInt number) ++ " is not in 0..=65535")

/-- An unsigned 64-bit number. -/
def readCount (value : String) : Except String Nat :=
  (Numeral.readNat Numeral.max64 value.toList).mapError Numeral.Fault.message

/-- An identifier. -/
def readId (value : String) : Except String Identifier :=
  (Identifier.parse value).mapError IdentifierError.message

/-- A contact. Only what went wrong is reported, not its cause. -/
def readContact (value : String) : Except String Contact :=
  (Contact.parse value).mapError fun error => error.chain.headD ""

/-- The arguments with the value of one option. -/
def set (arguments : Arguments) (flag : Flag) (value : String) : Except String Arguments :=
  match flag with
  | .port => (readPort value).map fun port => { arguments with port }
  | .nodeId => (readId value).map fun id => { arguments with nodeId := some id }
  | .router => .ok { arguments with router := value }
  | .noBootstrap => .ok { arguments with noBootstrap := true }
  | .fanOut => (readCount value).map fun count => { arguments with fanOut := some count }
  | .minPeers => (readCount value).map fun count => { arguments with minPeers := some count }
  | .infoHash => (readId value).map fun id =>
    { arguments with infoHashes := arguments.infoHashes ++ [id] }
  | .node => (readContact value).map fun contact =>
    { arguments with nodes := arguments.nodes ++ [contact] }
  | .statsInterval => (readCount value).map fun count => { arguments with statsInterval := count }
  | .help | .version => .ok arguments

end Arguments

/-! ## Words -/

/-- How a word of the command line looks. -/
inductive Word where
  /-- Two dashes alone: everything after them is no option. -/
  | separator
  /-- Two dashes, a name, and perhaps an attached value. -/
  | long (name : String) (value : Option String)
  /-- A dash, a one-letter name, and what is attached to it. -/
  | short (name : Char) (rest : List Char)
  /-- Anything else, a single dash included. -/
  | plain (text : String)
deriving DecidableEq, Repr

/-- Sorts a word by its looks. -/
def Word.ofString (text : String) : Word :=
  match text.toList with
  | ['-', '-'] => .separator
  | '-' :: '-' :: chars =>
    let name := String.ofList (chars.takeWhile (· != '='))
    match chars.dropWhile (· != '=') with
    | [] => .long name none
    | _ :: value => .long name (some (String.ofList value))
  | '-' :: name :: rest => .short name rest
  | _ => .plain text

/-- What was read so far. -/
structure Progress where
  arguments : Arguments := {}
  /-- The options given so far. -/
  given : List Flag := []
  /-- An option whose value is not checked yet, with the value if it was read. -/
  pending : Option (Flag × Option String) := none

namespace Progress

/-- Takes an option with its value. -/
def accept (progress : Progress) (flag : Flag) (value : String) : Except Rejection Progress :=
  if progress.given.contains flag && !flag.isRepeatable then .error (.repeated flag)
  else match progress.arguments.set flag value with
    | .ok arguments => .ok { arguments, given := flag :: progress.given }
    | .error reason => .error (.badValue flag value reason)

/-- Checks the value of the option before. -/
def settle (progress : Progress) : Except Rejection Progress :=
  match progress.pending with
  | none => .ok progress
  | some (flag, none) => .error (.missingValue flag)
  | some (flag, some value) => { progress with pending := none }.accept flag value

/-- Starts an option, with the value that is attached to it if there is one. -/
def start (progress : Progress) (flag : Flag) (attached : Option String) :
    Except Rejection Progress :=
  match flag.placeholder?, attached with
  | none, some value => .error (.surplusValue flag value)
  | none, none => do
    let progress ← progress.settle
    match flag with
    | .help => .error .help
    | .version => .error .version
    | _ => progress.accept flag ""
  | some _, some value => do
    let progress ← progress.settle
    progress.accept flag value
  | some _, none => do
    let progress ← progress.settle
    return { progress with pending := some (flag, none) }

/-- The value that is attached to a one-letter option that takes one: what follows the letter,
without an equals sign in front. -/
def attachedValue (rest : List Char) : Option String :=
  match rest with
  | [] => none
  | '=' :: value => some (String.ofList value)
  | value => some (String.ofList value)

/-- Takes a word that is no option. -/
def plain (progress : Progress) (text : String) : Except Rejection Progress :=
  match progress.pending with
  | some (flag, none) => .ok { progress with pending := some (flag, some text) }
  | _ => .error (.unexpected text)

end Progress

/-- Reads the words of a command line behind what was read before. -/
def readWords (progress : Progress) : List String → Except Rejection Progress
  | [] => progress.settle
  | text :: rest =>
    match Word.ofString text with
    | .separator =>
      match rest with
      | [] => progress.settle
      | word :: _ => .error (.unexpected word)
    | .long name value =>
      match Flag.ofLong? name with
      | none => .error (.unexpected ("--" ++ name))
      | some flag => do readWords (← progress.start flag value) rest
    | .short name attached =>
      match Flag.ofShort? name with
      | none => .error (.unexpected (String.ofList ['-', name]))
      | some flag => do
        let value := if flag.placeholder?.isNone then none else Progress.attachedValue attached
        readWords (← progress.start flag value) rest
    | .plain text => do readWords (← progress.plain text) rest

/-- Reads a command line, without the name of the program. -/
def Arguments.parse (words : List String) : Except Rejection Arguments :=
  (readWords {} words).map Progress.arguments

end PeerDiscovery.CommandLine
