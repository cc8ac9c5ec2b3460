import ObjectBridge.Config
import ObjectBridge.Registry
import ObjectBridge.Template
import ObjectBridge.Wire.Channel

/-!
# The state of a client

A client has sessions, one channel each, and the proxies of the objects that the sessions know. A
session keeps the class templates it has fetched and a table of the proxy that stands for each object.
Every proxy has a cell with what may change: how many hold it, whether it has let go of its object,
and what it remembers.
-/

namespace ObjectBridge

/-- Whether a session can be used. -/
inductive Standing where
  | up
  | closed
  /-- A fault left the channel unusable; `cause` is its wording. -/
  | broken (cause : String)
deriving DecidableEq, Repr

/-- One session. -/
structure Session where
  config : Config
  registry : Registry
  channel : Channel
  standing : Standing := .up
  /-- The templates fetched so far, by class name. -/
  templates : List (String × Template) := []
  /-- The key of the proxy that stands for an object, by the identifier of the object. -/
  table : List (Int32 × Nat) := []
  /-- The requests that were answered, each with its reply, the latest first. -/
  answers : List (Message × Message) := []
  /-- Whether the client still holds the session itself. -/
  attached : Bool := true
  /-- The address of the server, where the channel has one. -/
  peer : Option String := none
  /-- Whether the session started its server. -/
  startedServer : Bool := false

namespace Session

/-- A step of a session. When it fails the session stays as the failure left it. -/
abbrev Action (α : Type) := EStateM Fault Session α

/-- Whether the session can still use its channel. -/
def isUp (s : Session) : Bool := s.standing = .up

/-- The wording of the fault that broke the session, if one did. -/
def fault? (s : Session) : Option String :=
  match s.standing with
  | .broken cause => some cause
  | _ => none

/-- A step of the channel. It is refused if the session is not up, and a fatal fault of it breaks the
session. -/
def transact {α : Type} (step : Channel.Action α) : Action α := fun s =>
  match s.standing with
  | .broken cause => .error (.broken cause) s
  | .closed => .error .closed s
  | .up =>
    match step s.channel with
    | .ok a channel => .ok a { s with channel }
    | .error fault channel =>
      if fault.isFatal then
        .error fault { s with channel := channel.close, standing := .broken fault.message }
      else .error fault { s with channel }

/-- Ends a session that is up; one that is not stays as it is. -/
def close (s : Session) : Session :=
  match s.standing with
  | .up => { s with channel := s.channel.close, standing := .closed }
  | _ => s

def post (m : Message) : Action Unit := transact (Channel.send m)

def exchange (m : Message) : Action Message := fun s =>
  match transact (do Channel.send m; Channel.receive s.registry.catalogue) s with
  | .ok reply s => .ok reply { s with answers := (m, reply) :: s.answers }
  | .error fault s => .error fault s

/-- Notes the proxy that stands for an object. -/
def enter (s : Session) (id : Int32) (key : Nat) : Session :=
  { s with table := (id, key) :: s.table.filter fun entry => entry.1 != id }

/-- Forgets a proxy, unless another one stands for its object by now. -/
def forget (s : Session) (p : Proxy) : Session :=
  { s with table := s.table.filter fun entry => entry != (p.id, p.key) }

/-- The names of the classes whose templates have been fetched. -/
def cachedClasses (s : Session) : List String := sortedNames (s.templates.map (·.1))

def display (s : Session) : String :=
  let peer := match s.peer with
    | some address => s!"Some({address})"
    | none => "None"
  let host := Text.quoted s.config.host
  s!"Session \x7b host: {host}, port: {s.config.port.toNat}, peer: {peer}, .. \x7d"

/-- Connects to the server of a configuration. `attempt n` is what the attempt with number `n` comes
to, `launch` what starting the companion server comes to; it is started only if the configuration
names one. -/
def connect (config : Config) (registry : Registry) (peer : Option String)
    (attempt : Nat → Except IoError Channel) (launch : Except LaunchError Unit) :
    Dialled Session :=
  let hook := config.server.map fun _ => launch.mapError Fault.launch
  let dialled := dial config.retry config.address attempt hook
  { events := dialled.events
    result := dialled.result.map fun channel =>
      { config, registry, channel, peer, startedServer := dialled.events.contains .startHook } }

end Session

/-- What may change about a proxy. -/
structure Cell where
  proxy : Proxy
  /-- How many requests its session had sent when the proxy was made. -/
  since : Nat := 0
  /-- How many places hold the proxy. -/
  holders : Nat := 1
  /-- Whether the proxy has let go of its object. -/
  released : Bool := false
  /-- The template of its class, once a member was looked up. -/
  bound : Option Template := none
  /-- The names of the methods that have been looked up on it. -/
  callables : List String := []
  /-- The values that the client keeps on it, by name. -/
  locals : List (String × Value) := []

/-- The sessions and proxies of a client. -/
structure Client where
  sessions : Array Session
  /-- The cells of all proxies ever made, by key. -/
  cells : Array Cell := #[]

namespace Client

/-- A step of a client. When it fails the client stays as the failure left it. -/
abbrev Action (α : Type) := EStateM Fault Client α

def modifySession (c : Client) (s : Nat) (f : Session → Session) : Client :=
  { c with sessions := c.sessions.modify s f }

def modifyCell (c : Client) (p : Proxy) (f : Cell → Cell) : Client :=
  { c with cells := c.cells.modify p.key f }

/-- A step of one session. A session that does not exist counts as closed. -/
def onSession {α : Type} (s : Nat) (step : Session.Action α) : Action α := fun c =>
  match c.sessions[s]? with
  | none => .error .closed c
  | some session =>
    match step session with
    | .ok a session => .ok a { c with sessions := c.sessions.setIfInBounds s session }
    | .error fault session =>
      .error fault { c with sessions := c.sessions.setIfInBounds s session }

/-- The number of requests that a session has sent. -/
def sentBy (c : Client) (s : Nat) : Nat :=
  match c.sessions[s]? with
  | some session => session.channel.sent.length
  | none => 0

/-- Whether a proxy has let go of its object. -/
def isReleased (c : Client) (p : Proxy) : Bool :=
  match c.cells[p.key]? with
  | some cell => cell.released
  | none => true

def isHeld (c : Client) (key : Nat) : Bool :=
  match c.cells[key]? with
  | some cell => cell.holders != 0
  | none => false

/-- Whether a session is still reachable: the client holds it, or one of its proxies is held. -/
def isAlive (c : Client) (s : Nat) : Bool :=
  (match c.sessions[s]? with
    | some session => session.attached
    | none => false) ||
    c.cells.any fun cell => cell.proxy.session == s && cell.holders != 0

/-- The number of objects of a session for which a proxy stands. -/
def liveObjects (c : Client) (s : Nat) : Nat :=
  match c.sessions[s]? with
  | some session => (session.table.filter fun entry => c.isHeld entry.2).length
  | none => 0

end Client

end ObjectBridge
