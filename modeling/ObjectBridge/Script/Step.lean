import ObjectBridge.Client.Objects
import ObjectBridge.Value.Document

/-!
# Scripts

A script is what a client program does with its sessions, step by step. It keeps what it gets in named
slots. A step names its operands by slot or spells them out.
-/

namespace ObjectBridge.Script

/-- An operand of a step. -/
inductive Operand where
  /-- The value in a slot. -/
  | slot (name : String)
  /-- A value that is spelled out. A proxy cannot be: it has to be in a slot. -/
  | literal (v : Value)
  | list (items : List Operand)
  /-- A table whose shape or labels do not fit; the step that uses it fails. -/
  | unfit (fault : Fault)

/-- What a slot can hold. -/
inductive Holding where
  | value (v : Value)
  | method (m : BoundMethod)
  | classHandle (h : ClassHandle)
  | static (m : StaticMethod)

/-- A request that a step makes of a session. -/
inductive SessionStep where
  | create (className : String) (args : List Operand)
  | callStatic (className name : String) (args : List Operand)
  | call (id : Int32) (name : String) (args : List Operand)
  | construct (expression : String)
  | getProperty (id : Int32) (name : String)
  | setProperty (id : Int32) (name : String) (value : Operand)
  | getIndexed (id index : Int32)
  | getIndexedProperty (id : Int32) (name : String) (index : Int32)
  | getStaticProperty (className name : String)
  | setStaticProperty (className name : String) (value : Operand)
  | protect (id : Int32)
  | release (id : Int32)
  | classFor (className : String)
  | template (className : String)
  | cachedClasses
  | objectFor (id : Int32) (className : Option String)
  | fault
  | info
  | close
  | detach
  | classify (slot : String)

/-- What a step does with the proxy in a slot. -/
inductive ProxyStep where
  | resolveName (name : String)
  | method (name : String)
  | call (name : String) (args : List Operand)
  | get (name : String)
  | set (name : String) (value : Operand)
  | element (index : Int32)
  | elementOfProperty (name : String) (index : Int32)
  | protect
  /-- The slot is emptied first, unless it is to keep the proxy. -/
  | release (keep : Bool)
  | info
  | handle
  | classOf

/-- One step. -/
inductive Step where
  | session (s : Nat) (step : SessionStep)
  | proxy (slot : String) (step : ProxyStep)
  | drop (slot : String)
  | copy (slot : String)
  | pick (slot : String) (index : Nat)
  | document (slot : String)
  | sameObject (slot other : String)
  | sameClass (slot other : String)
  | callOfClass (slot : String) (name : String) (args : List Operand)
  | staticOfClass (slot : String) (name : String)
  | invoke (slot : String) (args : List Operand)

/-- A step, and the slot that takes what it yields. -/
structure Line where
  step : Step
  save : Option String := none

/-- What is known of a session without asking the server. -/
structure SessionInfo where
  url : String
  creatorClass : String
  display : String
  rules : Nat
  peer : Option String
  startedServer : Bool

/-- What is known of a proxy without asking the server. -/
structure ProxyInfo where
  proxy : Proxy
  released : Bool
  bound : Bool
  sessionClosed : Bool

def ProxyInfo.display (i : ProxyInfo) : String :=
  let className := match i.proxy.className with
    | some name => let name := Text.quoted name; s!"Some({name})"
    | none => "None"
  let released := if i.released then "true" else "false"
  s!"RemoteObject \x7b id: {i.proxy.id.toInt}, classname: {className}, released: {released} \x7d"

/-- What a step comes to. -/
inductive Answer where
  /-- The step cannot be done: a slot is empty or holds something of another sort, or the session is
  not held any more. -/
  | noSlot
  | failed (fault : Fault)
  | nothing
  | value (v : Value)
  | method (m : BoundMethod)
  | classHandle (h : ClassHandle)
  | static (m : StaticMethod)
  | attribute (a : Attribute)
  | reference (r : ObjectRef)
  | flag (b : Bool)
  | text (s : Option String)
  | names (ns : List String)
  | sessionInfo (i : SessionInfo)
  | proxyInfo (i : ProxyInfo)

/-- What an answer leaves to be saved in a slot or to be given up. -/
def Answer.holding? : Answer → Option Holding
  | .value v => some (.value v)
  | .method m => some (.method m)
  | .classHandle h => some (.classHandle h)
  | .static m => some (.static m)
  | .attribute (.method m) => some (.method m)
  | .attribute a => a.value?.map .value
  | _ => none

end ObjectBridge.Script
