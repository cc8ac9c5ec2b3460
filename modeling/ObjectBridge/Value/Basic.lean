import ObjectBridge.Message.Basic

/-!
# Native values

What a client hands to the bridge and gets back from it. A value can hold proxies of objects that
live in the server; of a proxy it holds only what never changes.
-/

namespace ObjectBridge

/-- The identity of a proxy: which of all proxies it is, the session it belongs to, and the object it
stands for. -/
structure Proxy where
  /-- The place among all proxies that were ever made. -/
  key : Nat
  session : Nat
  id : Int32
  className : Option String
deriving DecidableEq, Repr

namespace Proxy

/-- Whether two proxies stand for the same object of the same session. -/
def sameObject (p q : Proxy) : Bool := p.id == q.id && p.session == q.session

def display (p : Proxy) : String := Message.bracketed p.className p.id

/-- The reference that stands for a proxy in messages. -/
def ref (p : Proxy) : ObjectRef := ⟨p.id, p.className⟩

end Proxy

/-- A native value. -/
inductive Value where
  | null
  | bool (v : Bool)
  | byte (v : UInt8)
  /-- An integer; its message is as wide as the integer needs. -/
  | int (v : Int64)
  | float (v : Binary64)
  | string (v : String)
  | object (p : Proxy)
  | boolArray (vs : List Bool)
  | byteArray (vs : List UInt8)
  | int32Array (vs : List Int32)
  | int64Array (vs : List Int64)
  | float64Array (vs : List Binary64)
  | stringArray (vs : List String)
  | list (items : List Value)
  | vector (v : LabelledVector)
  | matrix (m : LabelledMatrix)

namespace Value

instance : Inhabited Value := ⟨null⟩

def kind : Value → Kind
  | null => .null
  | bool _ => .bool
  | byte _ => .byte
  | int _ => .int
  | float _ => .float
  | string _ => .string
  | object _ => .object
  | boolArray _ => .boolArray
  | byteArray _ => .byteArray
  | int32Array _ => .int32Array
  | int64Array _ => .int64Array
  | float64Array _ => .float64Array
  | stringArray _ => .stringArray
  | list _ => .list
  | vector _ => .vector
  | matrix _ => .matrix

def isScalar : Value → Bool
  | null | bool _ | byte _ | int _ | float _ | string _ => true
  | _ => false

/-- Whether a value can be indexed. An object can: the server may support it. -/
def isSequence (v : Value) : Bool := !v.isScalar

def isNull : Value → Bool
  | null => true
  | _ => false

def asBool? : Value → Option Bool
  | bool v => some v
  | _ => none

def asInt? : Value → Option Int64
  | int v => some v
  | byte v => some (Int64.ofNat v.toNat)
  | _ => none

def asFloat? : Value → Option Binary64
  | float v => some v
  | int v => some (.ofInt v.toInt)
  | byte v => some (.ofInt v.toNat)
  | _ => none

def asText? : Value → Option String
  | string v => some v
  | _ => none

def asObject? : Value → Option Proxy
  | object p => some p
  | _ => none

def sameNumbers (xs ys : List Binary64) : Bool :=
  xs.length == ys.length && (xs.zip ys).all fun (x, y) => x.sameNumber y

mutual

/-- Equality of values: doubles are compared as numbers and proxies by the object they stand for. -/
def same : Value → Value → Bool
  | null, null => true
  | bool v, bool w => v == w
  | byte v, byte w => v == w
  | int v, int w => v == w
  | float v, float w => v.sameNumber w
  | string v, string w => v == w
  | object p, object q => p.sameObject q
  | boolArray vs, boolArray ws => vs == ws
  | byteArray vs, byteArray ws => vs == ws
  | int32Array vs, int32Array ws => vs == ws
  | int64Array vs, int64Array ws => vs == ws
  | float64Array vs, float64Array ws => sameNumbers vs ws
  | stringArray vs, stringArray ws => vs == ws
  | list vs, list ws => sameAll vs ws
  | vector v, vector w => v.labels == w.labels && sameNumbers v.values w.values
  | matrix m, matrix n =>
    m.rows == n.rows && m.cols == n.cols && m.rowLabels == n.rowLabels &&
      m.colLabels == n.colLabels && sameNumbers m.data n.data
  | _, _ => false

def sameAll : List Value → List Value → Bool
  | [], [] => true
  | v :: vs, w :: ws => same v w && sameAll vs ws
  | _, _ => false

end

mutual

/-- The proxies in a value, from left to right. -/
def proxies : Value → List Proxy
  | object p => [p]
  | list items => proxiesOfAll items
  | _ => []

/-- The proxies in a list of values, from left to right. -/
def proxiesOfAll : List Value → List Proxy
  | [] => []
  | v :: vs => proxies v ++ proxiesOfAll vs

end

end Value

end ObjectBridge
