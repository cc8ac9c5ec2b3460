import ObjectBridge.Script.Step

/-!
# Running scripts

The state of a run is a client and its slots. A step is done in two parts: `perform` gives its answer,
`settle` then puts what the answer yields into a slot or gives it up.
-/

namespace ObjectBridge.Script

/-- A client with named slots. -/
structure State where
  client : Client
  slots : List (String × Holding) := []

namespace State

def slot? (st : State) (name : String) : Option Holding := st.slots.lookup name

def value? (st : State) (name : String) : Option Value :=
  match st.slot? name with
  | some (.value v) => some v
  | _ => none

def proxy? (st : State) (name : String) : Option Proxy := (st.value? name).bind (·.asObject?)

def class? (st : State) (name : String) : Option ClassHandle :=
  match st.slot? name with
  | some (.classHandle h) => some h
  | _ => none

/-- A session that the client still holds. -/
def session? (st : State) (s : Nat) : Option Session := st.client.sessions[s]?.filter (·.attached)

mutual

/-- The value of an operand, or the answer of a step that cannot have it. -/
def operand (st : State) : Operand → Except Answer Value
  | .slot name =>
    match st.value? name with
    | some v => .ok v
    | none => .error .noSlot
  | .literal v => if v.proxies.isEmpty then .ok v else .error .noSlot
  | .list items => (operands st items).map .list
  | .unfit fault => .error (.failed fault)

/-- The values of operands. The first that cannot be had decides the answer. -/
def operands (st : State) : List Operand → Except Answer (List Value)
  | [] => .ok []
  | item :: items =>
    match operand st item with
    | .error answer => .error answer
    | .ok v => (operands st items).map (v :: ·)

end

def giveUp (st : State) : Option Holding → State
  | some (.value v) => { st with client := st.client.discard v }
  | _ => st

/-- Empties a slot and gives up what it held. -/
def clear (st : State) (name : String) : State :=
  let old := st.slot? name
  { st with slots := st.slots.filter fun entry => entry.1 != name }.giveUp old

/-- Fills a slot. What it held before is given up afterwards. -/
def save (st : State) (name : String) (h : Holding) : State :=
  let old := st.slot? name
  let others := st.slots.filter fun entry => entry.1 != name
  { st with slots := (name, h) :: others }.giveUp old

/-- Does a step of the client; `present` makes the answer of its result. -/
def act {α : Type} (st : State) (action : Client.Action α) (present : α → Answer) :
    Answer × State :=
  match action st.client with
  | .ok a client => (present a, { st with client })
  | .error fault client => (.failed fault, { st with client })

/-- Goes on with what a step needs, or answers that it is missing. -/
def needs {α : Type} (st : State) (a : Option α) (next : α → Answer × State) : Answer × State :=
  match a with
  | some a => next a
  | none => (.noSlot, st)

/-- Goes on with operands, or answers why they cannot be had. -/
def given {α : Type} (st : State) (a : Except Answer α) (next : α → Answer × State) :
    Answer × State :=
  match a with
  | .ok a => next a
  | .error answer => (answer, st)

/-- Does a step of a session that the client holds. -/
def performOnSession (st : State) (s : Nat) (session : Session) :
    SessionStep → Answer × State
  | .create className args =>
    st.given (st.operands args) fun args => st.act (Client.create s className args) .value
  | .callStatic className name args =>
    st.given (st.operands args) fun args =>
      st.act (Client.callStatic s className name args) .value
  | .call id name args =>
    st.given (st.operands args) fun args => st.act (Client.call s id name args) .value
  | .construct expression => st.act (Client.construct s expression) .value
  | .getProperty id name => st.act (Client.getProperty s id name) .value
  | .setProperty id name v =>
    st.given (st.operand v) fun v => st.act (Client.setProperty s id name v) fun _ => .nothing
  | .getIndexed id index => st.act (Client.getIndexed s id index) .value
  | .getIndexedProperty id name index => st.act (Client.getIndexedProperty s id name index) .value
  | .getStaticProperty className name => st.act (Client.getStaticProperty s className name) .value
  | .setStaticProperty className name v =>
    st.given (st.operand v) fun v =>
      st.act (Client.setStaticProperty s className name v) fun _ => .nothing
  | .protect id => st.act (Client.protect s id) fun _ => .nothing
  | .release id => st.act (Client.release s id) fun _ => .nothing
  | .classFor className => st.act (Client.classFor s className) .classHandle
  | .template className =>
    st.act (Client.classFor s className) fun h => .text (some h.template.toJson.compact)
  | .cachedClasses => (.names session.cachedClasses, st)
  | .objectFor id className =>
    let (p, client) := st.client.objectFor s id className
    (.value (.object p), { st with client })
  | .fault => (.text session.fault?, st)
  | .info =>
    (.sessionInfo {
      url := session.config.serviceUrl
      creatorClass := session.config.creatorClass
      display := session.display
      rules := session.registry.rules.length
      peer := session.peer
      startedServer := session.startedServer }, st)
  | .close => (.nothing, { st with client := st.client.modifySession s (·.close) })
  | .detach =>
    let detached := st.client.modifySession s fun session => { session with attached := false }
    (.nothing, { st with client := detached })
  | .classify slot => st.needs (st.value? slot) fun v =>
    (.text (session.registry.classify st.client.isReleased v), st)

/-- Does a step with the proxy in a slot. -/
def performOnProxy (st : State) (slot : String) (p : Proxy) : ProxyStep → Answer × State
  | .resolveName name => st.act (Client.resolveName p name) .attribute
  | .method name => st.act (Client.method p name) .method
  | .call name args =>
    st.given (st.operands args) fun args => st.act (Client.callMember p name args) .value
  | .get name => st.act (Client.getMember p name) .value
  | .set name v =>
    st.given (st.operand v) fun v => st.act (Client.setMember p name v) fun _ => .nothing
  | .element index => st.act (Client.elementOf p index) .value
  | .elementOfProperty name index => st.act (Client.elementOfProperty p name index) .value
  | .protect => st.act (Client.protectObject p) fun _ => .nothing
  | .release keep =>
    let held := { st with client := st.client.holdProxy p }
    let held := if keep then held else held.clear slot
    let (answer, after) := held.act (Client.releaseObject p) fun _ => .nothing
    (answer, { after with client := after.client.discard (.object p) })
  | .info =>
    (.proxyInfo {
      proxy := p
      released := st.client.isReleased p
      bound := (st.client.cells[p.key]?.bind (·.bound)).isSome
      sessionClosed := !(st.client.sessions[p.session]?.any (·.isUp)) }, st)
  | .handle => st.act (Client.handle p) .reference
  | .classOf => st.act (Client.classOf p) .classHandle

/-- The first part of a step: its answer, and the state in which it is given. -/
def perform (st : State) : Step → Answer × State
  | .session s step => st.needs (st.session? s) fun session => st.performOnSession s session step
  | .proxy slot step => st.needs (st.proxy? slot) fun p => st.performOnProxy slot p step
  | .drop slot => (.nothing, st.clear slot)
  | .copy slot =>
    st.needs (st.value? slot) fun v => (.value v, { st with client := st.client.hold v })
  | .pick slot index =>
    match st.value? slot with
    | some (.list items) =>
      st.needs items[index]? fun v => (.value v, { st with client := st.client.hold v })
    | _ => (.noSlot, st)
  | .document slot => st.needs (st.value? slot) fun v => (.text (some v.toJson.compact), st)
  | .sameObject slot other =>
    st.needs (st.proxy? slot) fun p => st.needs (st.proxy? other) fun q =>
      (.flag (p.sameObject q), st)
  | .sameClass slot other =>
    st.needs (st.class? slot) fun g => st.needs (st.class? other) fun h =>
      (.flag (g.session == h.session && g.template.className == h.template.className), st)
  | .callOfClass slot name args =>
    st.needs (st.class? slot) fun h => st.given (st.operands args) fun args =>
      match h.staticMethod name with
      | .ok m => st.act (Client.invokeStatic m args) .value
      | .error fault => (.failed fault, st)
  | .staticOfClass slot name =>
    st.needs (st.class? slot) fun h =>
      match h.staticMethod name with
      | .ok m => (.static m, st)
      | .error fault => (.failed fault, st)
  | .invoke slot args =>
    match st.slot? slot with
    | some (.method m) =>
      st.given (st.operands args) fun args => st.act (Client.invoke m args) .value
    | some (.static m) =>
      st.given (st.operands args) fun args => st.act (Client.invokeStatic m args) .value
    | _ => (.noSlot, st)

/-- The second part of a step: what the answer yields is saved or given up. -/
def settle (st : State) (answer : Answer) (save : Option String) : State :=
  match answer.holding?, save with
  | none, _ => st
  | some h, some name => st.save name h
  | some h, none => st.giveUp (some h)

def step (st : State) (line : Line) : Answer × State :=
  let (answer, st) := st.perform line.step
  (answer, st.settle answer line.save)

/-- The end of a run: all slots are emptied in the order of their names, then the sessions are let
go. -/
def finish (st : State) : State :=
  let cleared := (sortedNames (st.slots.map (·.1))).foldl clear st
  { cleared with
    client := { cleared.client with
      sessions := cleared.client.sessions.map fun session => { session with attached := false } } }

end State

def run (st : State) (lines : List Line) : State := lines.foldl (fun st line => (st.step line).2) st

end ObjectBridge.Script
