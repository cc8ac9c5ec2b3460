import ObjectBridge.Client.Holding

/-!
# Requests of a session

Every request converts its arguments first, then exchanges one message for another, and last turns
the reply into a value. Whoever gets a value from here holds the proxies in it.
-/

namespace ObjectBridge

/-- The class of a session: its fetched template, and where it was fetched. -/
structure ClassHandle where
  session : Nat
  template : Template
deriving DecidableEq, Repr

/-- A static method of a class of a session. It does not keep the session alive. -/
structure StaticMethod where
  session : Nat
  className : String
  name : String
deriving DecidableEq, Repr

namespace ClassHandle

/-- The table of callables that comes with a class: one for each name of a static method, in order. -/
def statics (h : ClassHandle) : List (String × StaticMethod) :=
  h.template.staticMethods.map fun name => (name, ⟨h.session, h.template.className, name⟩)

def staticMethod (h : ClassHandle) (name : String) : Except Fault StaticMethod :=
  match h.statics.lookup name with
  | some m => .ok m
  | none => .error (h.template.refusal name)

def staticMethods (h : ClassHandle) : List StaticMethod := h.statics.map (·.2)

end ClassHandle

namespace Client

/-- The outcome of a computation that changes no state. -/
def outcome {α : Type} (result : Client → Except Fault α) : Action α := fun c =>
  match result c with
  | .ok a => .ok a c
  | .error fault => .error fault c

def registry (c : Client) (s : Nat) : Registry :=
  match c.sessions[s]? with
  | some session => session.registry
  | none => .empty

def convert (s : Nat) (v : Value) : Action Message :=
  outcome fun c => (c.registry s).convert c.isReleased v

def convertAll (s : Nat) (args : List Value) : Action (List Message) :=
  outcome fun c => (c.registry s).convertAll c.isReleased args

def exchange (s : Nat) (m : Message) : Action Message := onSession s (Session.exchange m)

def post (s : Nat) (m : Message) : Action Unit := onSession s (Session.post m)

mutual

/-- The value of a reply. A reference to an object becomes a proxy; an exception, a request or a
template is no value. -/
def resolve (s : Nat) (request : Tag) : Message → Action Value
  | .null => pure .null
  | .bool v => pure (.bool v)
  | .byte v => pure (.byte v)
  | .int32 v => pure (.int v.toInt64)
  | .int64 v => pure (.int v)
  | .float64 v => pure (.float v)
  | .string v => pure (.string v)
  | .object ref => modifyGet fun c =>
    let (p, c) := c.objectFor s ref.id ref.className
    (.object p, c)
  | .vector v => pure (.vector v)
  | .matrix m => pure (.matrix m)
  | .exception text => throw (.remote text)
  | .boolArray vs => pure (.boolArray vs)
  | .byteArray vs => pure (.byteArray vs)
  | .int32Array vs => pure (.int32Array vs)
  | .int64Array vs => pure (.int64Array vs)
  | .float64Array vs => pure (.float64Array vs)
  | .stringArray vs => pure (.stringArray vs)
  | .objectArray items => return .list (← resolveAll s request items [])
  | other => throw (.unexpectedReply request other.display)

/-- The values of the items of a reply. `done` holds the values so far, the latest first; they are
given up when an item is no value, and the items behind it are not looked at. -/
def resolveAll (s : Nat) (request : Tag) : List Message → List Value → Action (List Value)
  | [], done => pure done.reverse
  | m :: ms, done => fun c =>
    match resolve s request m c with
    | .ok v c => resolveAll s request ms (v :: done) c
    | .error fault c => .error fault (c.discardAll done.reverse)

end

/-- Sends a request and gives the value of its reply. -/
def request (s : Nat) (m : Message) : Action Value := do
  let reply ← exchange s m
  resolve s m.tag reply

/-- Sends a request and gives up the value of its reply. -/
def command (s : Nat) (m : Message) : Action Unit := do
  let v ← request s m
  modify (·.discard v)

def create (s : Nat) (className : String) (args : List Value) : Action Value := do
  request s (.create className (← convertAll s args))

def callStatic (s : Nat) (className method : String) (args : List Value) : Action Value := do
  request s (.callStaticMethod className method (← convertAll s args))

def call (s : Nat) (id : Int32) (method : String) (args : List Value) : Action Value := do
  request s (.callMethod id method (← convertAll s args))

def creatorMethod : String := "NewByCtor"

def construct (s : Nat) (expression : String) : Action Value := fun c =>
  let creator := match c.sessions[s]? with
    | some session => session.config.creatorClass
    | none => ""
  callStatic s creator creatorMethod [.string expression] c

def getProperty (s : Nat) (id : Int32) (property : String) : Action Value :=
  request s (.getProperty id property)

def setProperty (s : Nat) (id : Int32) (property : String) (v : Value) : Action Unit := do
  command s (.setProperty id property (← convert s v))

def getIndexed (s : Nat) (id index : Int32) : Action Value :=
  request s (.getIndexed id index)

/-- Reads an element of a property of an object. -/
def getIndexedProperty (s : Nat) (id : Int32) (property : String) (index : Int32) :
    Action Value :=
  request s (.getIndexedProperty id property index)

def getStaticProperty (s : Nat) (className property : String) : Action Value :=
  request s (.getStaticProperty className property)

def setStaticProperty (s : Nat) (className property : String) (v : Value) : Action Unit := do
  command s (.setStaticProperty className property (← convert s v))

def protect (s : Nat) (id : Int32) : Action Unit := post s (.protect id)

/-- Lets go of an object, whatever proxy stands for it. -/
def release (s : Nat) (id : Int32) : Action Unit := post s (.release id)

/-- Fetches the template of a class from the server. -/
def fetchTemplate (s : Nat) (className : String) : Action Template := do
  match ← exchange s (.templateReq className) with
  | .templateReply members => pure (.ofMembers className members)
  | .exception text => throw (.remote text)
  | other => throw (.unexpectedReply .templateReq other.display)

/-- The template of a class, if it has been fetched. -/
def cachedTemplate? (c : Client) (s : Nat) (className : String) : Option Template := do
  let session ← c.sessions[s]?
  session.templates.lookup className

/-- The class of a name. Its template is fetched once in a session. -/
def classFor (s : Nat) (className : String) : Action ClassHandle := do
  match (← get).cachedTemplate? s className with
  | some template => pure ⟨s, template⟩
  | none =>
    let template ← fetchTemplate s className
    modify fun c => c.modifySession s fun session =>
      { session with templates := session.templates ++ [(className, template)] }
    pure ⟨s, template⟩

/-- Calls a static method, as long as its session is alive. -/
def invokeStatic (m : StaticMethod) (args : List Value) : Action Value := do
  if (← get).isAlive m.session then callStatic m.session m.className m.name args
  else throw .closed

end Client

end ObjectBridge
