import ObjectBridge.Client.Requests

/-!
# Working with proxies

A name on a proxy is resolved in a fixed order: the reserved names, the values the client keeps on the
proxy, the methods that its class declares, the properties that its class declares. Properties are
never remembered. A proxy that has let go of its object answers nothing but its identity.
-/

namespace ObjectBridge

/-- A method of an object. It does not keep the proxy alive. -/
structure BoundMethod where
  name : String
  target : Proxy
deriving DecidableEq, Repr

def BoundMethod.display (m : BoundMethod) : String :=
  let name := Text.quoted m.name
  s!"BoundMethod \x7b name: {name}, object_id: {m.target.id.toInt} \x7d"

/-- What a name on a proxy stands for. -/
inductive Attribute where
  | id (v : Int32)
  | className (name : Option String)
  | session (s : Nat)
  /-- The names of the methods that have been looked up. -/
  | callables (names : List String)
  /-- A value that the client keeps on the proxy. -/
  | kept (v : Value)
  | method (m : BoundMethod)
  | property (v : Value)

namespace Attribute

/-- The value of an attribute, if it has one. -/
def value? : Attribute → Option Value
  | kept v | property v => some v
  | _ => none

end Attribute

/-- The names that are resolved on the proxy itself. -/
def reservedNames : List String := ["objectId", "classname", "session", "cache"]

namespace Client

/-- Refuses a proxy that has let go of its object. -/
def requireLive (p : Proxy) : Action Unit := do
  if (← get).isReleased p then throw (.released p.id)

/-- The reference that stands for a proxy in messages. -/
def handle (p : Proxy) : Action ObjectRef := outcome fun c => Registry.handle c.isReleased p

/-- The class of a proxy. It is looked up once and bound to the proxy. -/
def classOf (p : Proxy) : Action ClassHandle := do
  match (← get).cells[p.key]?.bind (·.bound) with
  | some template => pure ⟨p.session, template⟩
  | none =>
    match p.className with
    | none => throw (.missingClassName p.id)
    | some className =>
      let h ← classFor p.session className
      modify (·.modifyCell p fun cell => { cell with bound := some h.template })
      pure h

/-- The value kept on a proxy under a name. -/
def kept? (c : Client) (p : Proxy) (name : String) : Option Value := do
  let cell ← c.cells[p.key]?
  cell.locals.lookup name

/-- The names of the methods that have been looked up on a proxy. -/
def callables (c : Client) (p : Proxy) : List String :=
  match c.cells[p.key]? with
  | some cell => cell.callables
  | none => []

def reserved? (c : Client) (p : Proxy) (name : String) : Option Attribute :=
  if name = "objectId" then some (.id p.id)
  else if name = "classname" then some (.className p.className)
  else if name = "session" then some (.session p.session)
  else if name = "cache" then some (.callables (c.callables p))
  else none

/-- A declared member of the class of a proxy. A method shadows a property of the same name. -/
def member (p : Proxy) (name : String) : Action Attribute := do
  let h ← classOf p
  if h.template.hasMethod name then
    modify (·.modifyCell p fun cell => { cell with callables := insertName name cell.callables })
    return .method ⟨name, p⟩
  else if h.template.hasProperty name then return .property (← getProperty p.session p.id name)
  else throw (.unknownMember h.template.className name)

def resolveName (p : Proxy) (name : String) : Action Attribute := do
  requireLive p
  let c ← get
  match c.reserved? p name with
  | some a => pure a
  | none =>
    match c.kept? p name with
    | some v =>
      modify (·.hold v)
      return .kept v
    | none =>
      if (c.callables p).contains name then return .method ⟨name, p⟩
      else member p name

def discardAttribute (c : Client) (a : Attribute) : Client := c.discardAll a.value?.toList

/-- The class of a proxy as named in faults. -/
def classLabel (p : Proxy) : String := p.className.getD "object"

def method (p : Proxy) (name : String) : Action BoundMethod := do
  match ← resolveName p name with
  | .method m => pure m
  | other =>
    modify (·.discardAttribute other)
    throw (.notCallable (classLabel p) name)

def invoke (m : BoundMethod) (args : List Value) : Action Value := do
  requireLive m.target
  call m.target.session m.target.id m.name args

def callMember (p : Proxy) (name : String) (args : List Value) : Action Value := do
  invoke (← method p name) args

def getMember (p : Proxy) (name : String) : Action Value := do
  match ← resolveName p name with
  | .id v => pure (.int v.toInt64)
  | .className (some name) => pure (.string name)
  | .className none => pure .null
  | .kept v | .property v => pure v
  | .session _ | .callables _ | .method _ => throw (.notAProperty (classLabel p) name)

/-- Whether the class of a proxy declares a property. A proxy without a class name has none. -/
def declaresProperty (p : Proxy) (name : String) : Action Bool := fun c =>
  match classOf p c with
  | .ok h c => .ok (h.template.hasProperty name) c
  | .error (.missingClassName _) c => .ok false c
  | .error fault c => .error fault c

/-- Keeps a value on a proxy. The value that was kept under this name is given up. -/
def keep (p : Proxy) (name : String) (v : Value) : Action Unit := modify fun c =>
  let old := c.kept? p name
  let c := (c.hold v).modifyCell p fun cell =>
    { cell with locals := (cell.locals.filter fun entry => entry.1 != name) ++ [(name, v)] }
  c.discardAll old.toList

/-- Assigns a declared property in the server, or keeps the value on the proxy under any other name
that is not reserved. -/
def setMember (p : Proxy) (name : String) (v : Value) : Action Unit := do
  requireLive p
  if reservedNames.contains name then throw (.readOnly name)
  if ← declaresProperty p name then setProperty p.session p.id name v else keep p name v

/-- Reads an element of the object of a proxy. -/
def elementOf (p : Proxy) (index : Int32) : Action Value := do
  requireLive p
  getIndexed p.session p.id index

/-- Reads an element of a property of the object of a proxy. -/
def elementOfProperty (p : Proxy) (name : String) (index : Int32) : Action Value := do
  requireLive p
  getIndexedProperty p.session p.id name index

/-- Keeps the object of a proxy from being collected. -/
def protectObject (p : Proxy) : Action Unit := do
  requireLive p
  protect p.session p.id

/-- Makes a proxy let go of its object. All holders of the proxy are left with it released. -/
def releaseObject (p : Proxy) : Action Unit := do
  requireLive p
  modify fun c => (c.modifyCell p fun cell => { cell with released := true }).modifySession
    p.session (·.forget p)
  release p.session p.id

end Client

end ObjectBridge
