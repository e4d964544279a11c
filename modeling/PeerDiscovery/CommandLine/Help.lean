import PeerDiscovery.CommandLine.Arguments

/-!
# Help

What the program prints in place of running: its help, its version, or what is wrong with the
command line, followed by a hint at the help. The explanation of an option stands on the line below
its name, with the default where there is one.
-/

namespace PeerDiscovery.CommandLine

/-- What an option is for. -/
def Flag.purpose : Flag → String
  | .port => "UDP port to listen on"
  | .nodeId => "Our node id as 40 hex characters (random if omitted)"
  | .router => "Bootstrap router pinged on startup"
  | .noBootstrap => "Skip the bootstrap ping"
  | .fanOut => "Nodes asked per discovery round"
  | .minPeers => "Keep expanding the search until this many peers are known"
  | .infoHash => "Info hash to search for (repeatable)"
  | .node => "Known DHT node as ID@IP:PORT (repeatable)"
  | .statsInterval => "Seconds between stats reports and repeated peer requests"
  | .help => "Print help"
  | .version => "Print version"

/-- The value that an option has when it is not given. -/
def Flag.default? : Flag → Option String
  | .port => some (toString ({} : Arguments).port.toNat)
  | .router => some ({} : Arguments).router
  | .statsInterval => some (toString ({} : Arguments).statsInterval)
  | _ => none

/-- The lines about an option. -/
def Flag.entry (flag : Flag) : String :=
  let short := match flag.short? with
    | some name => String.ofList ['-', name, ',', ' ']
    | none => "    "
  let default := match flag.default? with
    | some value => " [default: " ++ value ++ "]"
    | none => ""
  "  " ++ short ++ flag.usage ++ "\n          " ++ flag.purpose ++ default ++ "\n"

/-- How the program is called. -/
def usageLine : String := "Usage: trackerless [OPTIONS]"

/-- The whole help text. -/
def helpText : String :=
  about ++ "\n\n" ++ usageLine ++ "\n\nOptions:\n" ++ String.join (Flag.all.map Flag.entry)

namespace Rejection

/-- Whether something is wrong, rather than asked for. -/
def isFault : Rejection → Bool
  | .help | .version => false
  | _ => true

/-- Whether the wording is followed by how the program is called. -/
def showsUsage : Rejection → Bool
  | .unexpected _ | .repeated _ | .surplusValue .. => true
  | _ => false

/-- Everything that is printed. Other than in `message`, a blank control in what the user wrote only
interrupts an escape sequence there. -/
def text (rejection : Rejection) : String :=
  match rejection with
  | .help => helpText
  | .version => versionText ++ "\n"
  | _ =>
    let usage := if rejection.showsUsage then usageLine ++ "\n\n" else ""
    rejection.wording .interrupts ++ "\n\n" ++ usage ++ "For more information, try '--help'.\n"

end Rejection

end PeerDiscovery.CommandLine
