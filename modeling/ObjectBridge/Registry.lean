import ObjectBridge.Message.Reading
import ObjectBridge.Value.Basic

/-!
# The registry: values to messages

A registry holds the catalogue with which messages are read and the ordered rules by which native
values become messages. The first rule that accepts a value converts it, so the order counts: an
object can be indexed, and has to be claimed before the rule for sequences sees it.
-/

namespace ObjectBridge

/-- How a rule makes a message of a value that it accepts. -/
inductive Converter where
  /-- A proxy becomes the reference to its object. -/
  | object
  /-- A value without parts becomes a message of its own sort. -/
  | scalar
  /-- Arrays, tables and lists; the members of a list are converted by the whole registry. -/
  | array
  /-- Any other conversion. It is told which proxies have let go of their objects, and what the registry makes
  of each member if the value is a list. -/
  | custom (convert : (Proxy → Bool) → List (Except Fault Message) → Value → Except Fault Message)

/-- A conversion rule. What it accepts may depend on which proxies have let go of their objects. -/
structure Rule where
  name : String
  accepts : (Proxy → Bool) → Value → Bool
  converter : Converter

namespace Rule

def isObject : Value → Bool
  | .object _ => true
  | _ => false

def object : Rule := ⟨"object", fun _ => isObject, .object⟩

def scalar : Rule := ⟨"scalar", fun _ => Value.isScalar, .scalar⟩

def array : Rule := ⟨"array", fun _ => Value.isSequence, .array⟩

end Rule

/-- What a session knows about values and messages. -/
structure Registry where
  catalogue : Catalogue
  rules : List Rule

namespace Registry

def empty : Registry := ⟨.empty, []⟩

/-- The registry of the full message catalogue and the three rules that cover every value. -/
def standard : Registry := ⟨.standard, [.object, .scalar, .array]⟩

/-- Lets a message stand for a tag when messages are read. -/
def register (r : Registry) (tag : Tag) (m : Message) : Registry :=
  { r with catalogue := r.catalogue.register tag m }

def addRule (r : Registry) (rule : Rule) : Registry := { r with rules := r.rules ++ [rule] }

def isRegistered (r : Registry) (code : UInt8) : Bool := (r.catalogue.find? code).isSome

def ruleFor? (r : Registry) (released : Proxy → Bool) (v : Value) : Option Rule :=
  r.rules.find? (·.accepts released v)

/-- The name of the rule that converts a value. -/
def classify (r : Registry) (released : Proxy → Bool) (v : Value) : Option String :=
  (r.ruleFor? released v).map (·.name)

/-- The reference to the object of a proxy. `released` tells which proxies have let go of theirs. -/
def handle (released : Proxy → Bool) (p : Proxy) : Except Fault ObjectRef :=
  if released p then .error (.released p.id) else .ok p.ref

def convertObject (released : Proxy → Bool) : Value → Except Fault Message
  | .object p => (handle released p).map .object
  | v => .error (.unserializable (.wrongRule "object" v.kind))

def convertScalar : Value → Except Fault Message
  | .null => .ok .null
  | .bool v => .ok (.bool v)
  | .byte v => .ok (.byte v)
  | .int v => .ok (.ofInt v)
  | .float v => .ok (.float64 v)
  | .string v => .ok (.string v)
  | v => .error (.unserializable (.wrongRule "scalar" v.kind))

/-- The message of an array or table. Doubles travel as a vector, and a matrix of one column does
too. -/
def convertArray : Value → Except Fault Message
  | .boolArray vs => .ok (.boolArray vs)
  | .byteArray vs => .ok (.byteArray vs)
  | .int32Array vs => .ok (.int32Array vs)
  | .int64Array vs => .ok (.int64Array vs)
  | .float64Array vs => .ok (.vector (.ofValues vs))
  | .stringArray vs => .ok (.stringArray vs)
  | .vector v => .ok (.vector v)
  | .matrix m =>
    match m.asColumnVector? with
    | some v => .ok (.vector v)
    | none => .ok (.matrix m)
  | v => .error (.unserializable (.wrongRule "array" v.kind))

mutual

/-- The message of a value, by the first rule that accepts it. -/
def convert (r : Registry) (released : Proxy → Bool) (v : Value) : Except Fault Message :=
  match r.ruleFor? released v with
  | none => .error (.unserializable (.noRule v.kind))
  | some rule =>
    match rule.converter, v with
    | .array, .list items => (convertAll r released items).map .objectArray
    | .array, v => convertArray v
    | .object, v => convertObject released v
    | .scalar, v => convertScalar v
    | .custom f, .list items => f released (convertEach r released items) (.list items)
    | .custom f, v => f released [] v

/-- The messages of values from left to right, up to the first that has none. -/
def convertAll (r : Registry) (released : Proxy → Bool) : List Value → Except Fault (List Message)
  | [] => .ok []
  | v :: vs =>
    match convert r released v with
    | .error fault => .error fault
    | .ok m =>
      match convertAll r released vs with
      | .error fault => .error fault
      | .ok ms => .ok (m :: ms)

/-- What becomes of each of some values. -/
def convertEach (r : Registry) (released : Proxy → Bool) : List Value → List (Except Fault Message)
  | [] => []
  | v :: vs => convert r released v :: convertEach r released vs

end

/-- The message of a value under a given tag, if the value fits the tag. An integer always fits the tag of
doubles, and comes as the nearest double. -/
def fill (r : Registry) (released : Proxy → Bool) (tag : Tag) (v : Value) :
    Except Fault Message :=
  let mismatch : Except Fault Message := .error (.unserializable (.wrongTag tag v.kind))
  match tag, v with
  | .null, .null => .ok .null
  | .bool, .bool b => .ok (.bool b)
  | .byte, .byte b => .ok (.byte b)
  | .byte, .int n =>
    if 0 ≤ n.toInt ∧ n.toInt < 0x100 then .ok (.byte (.ofNat n.toInt.toNat)) else mismatch
  | .int32, .int n =>
    if -0x80000000 ≤ n.toInt ∧ n.toInt < 0x80000000 then .ok (.int32 n.toInt32) else mismatch
  | .int64, .int n => .ok (.int64 n)
  | .float64, .float x => .ok (.float64 x)
  | .float64, .int n => .ok (.float64 (.ofInt n.toInt))
  | .string, .string s => .ok (.string s)
  | .exception, .string s => .ok (.exception s)
  | .object, .object p => convertObject released (.object p)
  | .boolArray, .boolArray vs => .ok (.boolArray vs)
  | .byteArray, .byteArray vs => .ok (.byteArray vs)
  | .int32Array, .int32Array vs => .ok (.int32Array vs)
  | .int64Array, .int64Array vs => .ok (.int64Array vs)
  | .int64Array, .int32Array vs => .ok (.int64Array (vs.map Int32.toInt64))
  | .float64Array, .float64Array vs => .ok (.float64Array vs)
  | .stringArray, .stringArray vs => .ok (.stringArray vs)
  | .objectArray, .list items => (convertAll r released items).map .objectArray
  | .vector, .float64Array vs => .ok (.vector (.ofValues vs))
  | .vector, .vector v => .ok (.vector v)
  | .matrix, .matrix m => .ok (.matrix m)
  | _, _ => mismatch

/-- The message that stands for the tag of a code, or the message of a value under the tag of that
message. -/
def create (r : Registry) (released : Proxy → Bool) (code : UInt8) (v : Option Value) :
    Except Fault Message :=
  match r.catalogue.find? code with
  | none => .error (.unknownTag code)
  | some blank =>
    match v with
    | none => .ok blank
    | some v => r.fill released blank.tag v

end Registry

end ObjectBridge
