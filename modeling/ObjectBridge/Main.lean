import ObjectBridge.Probe.Run
import Std.Async.DNS
import Std.Async.TCP

/-!
# The probe as a program

The outer layer: environment, standard streams and a connection. What a run does next is computed from
what has come in so far; the loops here carry out what is new in that and compute again with what
came of it. This program starts no other program: it reports a server that would have to be started.
-/

namespace ObjectBridge.Probe

open Std.Async Std.Net

/-! ### Failures of the system -/

def systemErrors : List (Nat × IoKind × String) :=
  [(13, .permissionDenied, "Permission denied"), (32, .brokenPipe, "Broken pipe"),
    (99, .addressNotAvailable, "Cannot assign requested address"),
    (101, .networkUnreachable, "Network is unreachable"),
    (104, .connectionReset, "Connection reset by peer"),
    (110, .timedOut, "Connection timed out"), (111, .connectionRefused, "Connection refused"),
    (113, .other, "No route to host")]

/-- The number of a failure. Numbers of the system may come negated. -/
def errorNumber : IO.Error → Nat
  | .noSuchThing _ code _ | .permissionDenied _ code _ | .resourceVanished code _
  | .timeExpired code _ | .otherError code _ | .resourceBusy code _ | .illegalOperation code _
  | .unsupportedOperation code _ | .protocolError code _ | .unsatisfiedConstraints code _ =>
    min code.toNat (0x100000000 - code.toNat)
  | _ => 0

def describe (e : IO.Error) : IoError :=
  match systemErrors.find? (·.1 == errorNumber e) with
  | some (number, kind, text) => ⟨kind, some s!"{text} (os error {number})"⟩
  | none => ⟨.other, some (toString e)⟩

/-! ### Connecting -/

def addressText : IPAddr → UInt16 → String
  | .v4 a, port => s!"{a}:{port.toNat}"
  | .v6 a, port => s!"[{a}]:{port.toNat}"

/-- A connection and the address it leads to. -/
structure Connection where
  socket : TCP.Socket.Client
  peer : String

def connectTo (address : IPAddr) (port : UInt16) : IO Connection := do
  let socket ← TCP.Socket.Client.mk
  let target : SocketAddress := match address with
    | .v4 a => .v4 ⟨a, port⟩
    | .v6 a => .v6 ⟨a, port⟩
  (socket.connect target).block
  socket.noDelay
  return ⟨socket, addressText address port⟩

/-- Connects to the first of some addresses that accepts, or fails as the last one did. -/
def connectToAny (port : UInt16) (failure : IoError) :
    List IPAddr → IO (Except IoError Connection)
  | [] => return .error failure
  | address :: rest => do
    try
      return .ok (← connectTo address port)
    catch e => connectToAny port (describe e) rest

def connectOnce (config : Config) : IO (Except IoError Connection) := do
  try
    let addresses ← (DNS.getAddrInfo config.effectiveHost (toString config.port.toNat)).block
    connectToAny config.port ⟨.other, some "no address"⟩ addresses.toList
  catch e => return .error ⟨.other, some s!"failed to lookup address information: {e}"⟩

/-- Carries out the dialling of a configuration. `outcomes` are those of the attempts so far; `done`
counts the events that have been carried out. -/
partial def connectLive (config : Config) (outcomes : Array (Except IoError Connection))
    (done : Nat) : IO (Except Fault (Session × Connection)) := do
  let attempt (n : Nat) : Except IoError Connection :=
    outcomes[n - 1]?.getD (.error ⟨.other, none⟩)
  let channel (n : Nat) : Except IoError Channel :=
    (attempt n).map fun _ => .between { rest := [] } {}
  let connection := outcomes.toList.getLast?.bind (·.toOption)
  let dialled := Session.connect config .standard (connection.map (·.peer)) channel
    (.error (.other "this program starts no server"))
  match dialled.events[done]? with
  | some (.attempt _) => connectLive config (outcomes.push (← connectOnce config)) (done + 1)
  | some .startHook => connectLive config outcomes (done + 1)
  | some (.pause milliseconds) =>
    IO.sleep (UInt32.ofNat (min milliseconds 0xffffffff))
    connectLive config outcomes (done + 1)
  | none =>
    match dialled.result, connection with
    | .ok session, some connection => return .ok (session, connection)
    | .ok _, none => return .error .closed
    | .error fault, _ => return .error fault

/-! ### Talking -/

/-- What has passed over a connection. -/
structure Traffic where
  received : List UInt8 := []
  /-- The number of bytes sent. -/
  sent : Nat := 0
  /-- How the receiving ended, if it did. -/
  receivingEnded : Option Outage := none
  /-- How the sending ended, if it did. -/
  sendingEnded : Option IoKind := none

def Traffic.channel (t : Traffic) : Channel :=
  let failing (position : Nat) (o : Option Outage) : List (Nat × Outage) :=
    (o.map (position, ·)).toList
  .between { rest := t.received, outages := failing t.received.length t.receivingEnded }
    { outages := failing t.sent (t.sendingEnded.map .failure) }

/-- Does a command over a connection. -/
partial def converseLive (command : Command) (session : Session) (socket : TCP.Socket.Client)
    (t : Traffic) : IO Outcome := do
  let (outcome, after) := converse command { session with channel := t.channel }
  let fresh := after.channel.writer.sink.accepted.drop t.sent
  if !fresh.isEmpty then
    try
      (socket.send ⟨fresh.toArray⟩).block
      converseLive command session socket { t with sent := t.sent + fresh.length }
    catch e => converseLive command session socket { t with sendingEnded := (describe e).kind }
  else if after.channel.reader.ended && t.receivingEnded.isNone then
    try
      match ← (socket.recv? 65536).block with
      | some piece =>
        converseLive command session socket { t with received := t.received ++ piece.data.toList }
      | none => converseLive command session socket { t with receivingEnded := some .nothing }
    catch e =>
      converseLive command session socket
        { t with receivingEnded := some (.failure (describe e).kind) }
  else return outcome

/-! ### The program -/

def environmentNames : List String :=
  ["CLRBRIDGE_HOST", "CLRBRIDGE_PORT", "CLRBRIDGE_RETRIES", "CLRBRIDGE_RETRY_GAP_MS",
    "CLRBRIDGE_SERVER", "CLRBRIDGE_RUNTIME", "CLRBRIDGE_DLL"]

def environment : IO (List (String × String)) := do
  let set ← environmentNames.filterMapM fun name => return (← IO.getEnv name).map ((name, ·))
  return set

/-- A run of the probe over a real connection. -/
def runLive (o : Options) (command : Command) : IO Outcome := do
  let settings ← environment
  match configure o fun name => settings.lookup name with
  | .error f => return .failed f
  | .ok config =>
    match ← connectLive config #[] 0 with
    | .error fault => return .failed ⟨connecting config, fault⟩
    | .ok (session, connection) => converseLive command session connection.socket {}

def report (outcome : Outcome) : IO Unit :=
  match outcome with
  | .printed text => do (← IO.getStdout).putStr text
  | .failed f => IO.eprintln f.message
  | .misused => IO.eprintln "error: unexpected arguments\n\nFor more information, try '--help'."

/-- A run with the words of a command line, and its exit code. -/
def runWords (words : List String) : IO UInt32 := do
  let outcome ← match Request.ofWords words with
    | .version => pure (.printed versionText)
    | .help page => pure (.printed page.inColumns)
    | .misuse => pure .misused
    | .run o command => runLive o command
  report outcome
  return outcome.exitCode

end ObjectBridge.Probe

/-- Runs the probe with the words of its command line. -/
def main (words : List String) : IO UInt32 := ObjectBridge.Probe.runWords words
