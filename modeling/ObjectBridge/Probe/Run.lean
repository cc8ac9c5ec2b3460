import ObjectBridge.Client.Objects
import ObjectBridge.Probe.Arguments
import ObjectBridge.Value.Document
import ObjectBridge.WireInfo

/-!
# Running the probe

The probe connects one session, does one command in it, shows the result as a document and ends the
session. What it finds outside (the environment, connections, the start of a server, the layout of help) is
handed to it, so that a run is a function of these.
-/

namespace ObjectBridge.Probe

/-- The value that a word on the command line writes. The mark `s:` makes the rest a text; otherwise
the first of null, a truth value, an integer and a number that the word can be is taken, or else a
text. -/
def literal (word : String) : Value :=
  match word.toList with
  | 's' :: ':' :: rest => .string (String.ofList rest)
  | cs =>
    if word = "null" then .null
    else if word = "true" then .bool true
    else if word = "false" then .bool false
    else
      match Decimal.int64? cs, Decimal.double? cs with
      | some n, _ => .int n
      | none, some x => .float x
      | none, none => .string word

/-- Why a run failed: the fault, and what was being done. -/
structure Failure where
  doing : String
  fault : Fault
deriving DecidableEq, Repr

/-- The wording of a failure. A failed operation below the fault is told once more. -/
def Failure.message (f : Failure) : String :=
  let cause := match f.fault.cause? with
    | some cause => s!": {cause.message}"
    | none => ""
  s!"error: {f.doing}: {f.fault.message}{cause}"

/-- How a run ends. -/
inductive Outcome where
  | printed (text : String)
  | failed (f : Failure)
  | misused
deriving DecidableEq, Repr

def Outcome.exitCode : Outcome → UInt32
  | .printed _ => 0
  | .failed _ => 1
  | .misused => 2

/-- What the probe shows when asked for its version. -/
def versionText : String := s!"clr-probe {version}\n"

/-! ### One command in a session -/

/-- What is being done while a command is done. -/
def Command.doing : Command → String
  | .template className => s!"fetching template for {className}"
  | .call className method _ => s!"calling {className}.{method}"
  | .construct expression => s!"evaluating {expression}"
  | .info => "reading the wire contract"

/-- The document of a value that a step gives. The value is given up. -/
def documented (step : Client.Action Value) : Client.Action Json := do
  let v ← step
  modify (·.discard v)
  return v.toJson

/-- Does a command in the only session of a client. -/
def perform (peer : Option String) : Command → Client.Action Json
  | .template className => return (← Client.classFor 0 className).template.toJson
  | .call className method args =>
    documented (Client.callStatic 0 className method (args.map literal))
  | .construct expression => documented (Client.construct 0 expression)
  | .info => pure (wireInfo peer)

/-- Does a command in a session, and ends the session if that went well. -/
def converse (command : Command) (session : Session) : Outcome × Session :=
  let left (c : Client) : Session := c.sessions[0]?.getD session
  match perform session.peer command { sessions := #[session] } with
  | .ok document c => (.printed (document.pretty ++ "\n"), (left c).close)
  | .error fault c => (.failed ⟨command.doing, fault⟩, left c)

/-! ### A whole run -/

/-- The configuration of a run: the options lie over the environment. -/
def configure (o : Options) (lookup : String → Option String) : Except Failure Config :=
  match Config.overlay {} lookup with
  | .ok c => .ok (o.overlay c)
  | .error fault => .error ⟨"reading CLRBRIDGE_* environment", fault⟩

/-- What is being done while the session is connected. -/
def connecting (c : Config) : String := s!"connecting to {c.host}:{c.port.toNat}"

/-- What a run finds outside. -/
structure Surroundings where
  /-- The environment variables. -/
  lookup : String → Option String
  /-- The address of the server that a connection leads to. -/
  peer : Config → Option String
  /-- What the connection attempt with a number comes to. -/
  attempt : Config → Nat → Except IoError Channel
  /-- What starting a server for an address comes to. -/
  launch : ServerSpec → String → Except LaunchError Unit
  /-- How a page of help is laid out. -/
  layout : Page → String

/-- A run that has its options and its command. Beside the outcome stands the session as the run left
it, if it was connected. -/
def runCommand (o : Options) (command : Command) (around : Surroundings) :
    Outcome × Option Session :=
  match configure o around.lookup with
  | .error f => (.failed f, none)
  | .ok config =>
    let launched : Except LaunchError Unit := match config.server with
      | some spec => around.launch spec config.serviceUrl
      | none => .ok ()
    let dialled :=
      Session.connect config .standard (around.peer config) (around.attempt config) launched
    match dialled.result with
    | .error fault => (.failed ⟨connecting config, fault⟩, none)
    | .ok session =>
      let (outcome, session) := converse command session
      (outcome, some session)

/-- A run of the probe with the words of its command line. -/
def run (words : List String) (around : Surroundings) : Outcome × Option Session :=
  match Request.ofWords words with
  | .version => (.printed versionText, none)
  | .help page => (.printed (around.layout page), none)
  | .misuse => (.misused, none)
  | .run o command => runCommand o command around

end ObjectBridge.Probe
