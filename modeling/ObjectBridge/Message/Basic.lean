import ObjectBridge.Decimal.Layout
import ObjectBridge.Table.Matrix

/-!
# Messages

The catalogue of what client and server say to each other: values, references to objects of the
server, requests, and the member names of a class.
-/

namespace ObjectBridge

/-- A reference to an object that lives in the server. -/
structure ObjectRef where
  id : Int32
  className : Option String
deriving DecidableEq, Repr

/-- The member names of a class, as the server lists them. -/
structure Members where
  properties : List String
  methods : List String
  staticMethods : List String
deriving DecidableEq, Repr

/-- One message. -/
inductive Message where
  | null
  | bool (v : Bool)
  | byte (v : UInt8)
  | int32 (v : Int32)
  | int64 (v : Int64)
  | float64 (v : Binary64)
  | string (v : String)
  | object (ref : ObjectRef)
  | vector (v : LabelledVector)
  | matrix (m : LabelledMatrix)
  /-- A failure inside the server. -/
  | exception (text : String)
  | boolArray (vs : List Bool)
  | byteArray (vs : List UInt8)
  | int32Array (vs : List Int32)
  | int64Array (vs : List Int64)
  | float64Array (vs : List Binary64)
  | stringArray (vs : List String)
  | objectArray (items : List Message)
  | create (className : String) (args : List Message)
  | callStaticMethod (className method : String) (args : List Message)
  | callMethod (id : Int32) (method : String) (args : List Message)
  | getProperty (id : Int32) (property : String)
  | getIndexedProperty (id : Int32) (property : String) (index : Int32)
  | getIndexed (id : Int32) (index : Int32)
  | setProperty (id : Int32) (property : String) (value : Message)
  | getStaticProperty (className property : String)
  | setStaticProperty (className property : String) (value : Message)
  | protect (id : Int32)
  | release (id : Int32)
  | templateReq (className : String)
  | templateReply (members : Members)

namespace Message

instance : Inhabited Message := ⟨null⟩

def tag : Message → Tag
  | null => .null
  | bool _ => .bool
  | byte _ => .byte
  | int32 _ => .int32
  | int64 _ => .int64
  | float64 _ => .float64
  | string _ => .string
  | object _ => .object
  | vector _ => .vector
  | matrix _ => .matrix
  | exception _ => .exception
  | boolArray _ => .boolArray
  | byteArray _ => .byteArray
  | int32Array _ => .int32Array
  | int64Array _ => .int64Array
  | float64Array _ => .float64Array
  | stringArray _ => .stringArray
  | objectArray _ => .objectArray
  | create .. => .create
  | callStaticMethod .. => .callStaticMethod
  | callMethod .. => .callMethod
  | getProperty .. => .getProperty
  | getIndexedProperty .. => .getIndexedProperty
  | getIndexed .. => .getIndexed
  | setProperty .. => .setProperty
  | getStaticProperty .. => .getStaticProperty
  | setStaticProperty .. => .setStaticProperty
  | protect _ => .protect
  | release _ => .release
  | templateReq _ => .templateReq
  | templateReply _ => .templateReply

/-- The message of a tag that holds nothing yet. -/
def empty : Tag → Message
  | .null => null
  | .bool => bool false
  | .byte => byte 0
  | .int32 => int32 0
  | .int64 => int64 0
  | .float64 => float64 ⟨0⟩
  | .string => string ""
  | .object => object ⟨0, none⟩
  | .vector => vector (.ofValues [])
  | .matrix => matrix .empty
  | .exception => exception ""
  | .boolArray => boolArray []
  | .byteArray => byteArray []
  | .int32Array => int32Array []
  | .int64Array => int64Array []
  | .float64Array => float64Array []
  | .stringArray => stringArray []
  | .objectArray => objectArray []
  | .create => create "" []
  | .callStaticMethod => callStaticMethod "" "" []
  | .callMethod => callMethod 0 "" []
  | .getProperty => getProperty 0 ""
  | .getIndexedProperty => getIndexedProperty 0 "" 0
  | .getIndexed => getIndexed 0 0
  | .setProperty => setProperty 0 "" null
  | .getStaticProperty => getStaticProperty "" ""
  | .setStaticProperty => setStaticProperty "" "" null
  | .protect => protect 0
  | .release => release 0
  | .templateReq => templateReq ""
  | .templateReply => templateReply ⟨[], [], []⟩

theorem tag_empty (t : Tag) : (empty t).tag = t := by
  cases t <;> rfl

/-- The message of an integer: 32 bits wide when the value fits, 64 bits wide otherwise. -/
def ofInt (v : Int64) : Message :=
  if -0x80000000 ≤ v.toInt ∧ v.toInt < 0x80000000 then int32 v.toInt32 else int64 v

def objectId? : Message → Option Int32
  | callMethod id _ _ | getProperty id _ | getIndexedProperty id _ _ | getIndexed id _
  | setProperty id _ _ | protect id | release id => some id
  | _ => none

/-- A class name and an identifier in angle brackets. -/
def bracketed (className : Option String) (id : Int32) : String :=
  let name := className.getD "object"
  s!"<{name}: {id.toInt}>"

def display : Message → String
  | null => "null"
  | bool v => if v then "true" else "false"
  | byte v => toString v.toNat
  | int32 v => toString v.toInt
  | int64 v => toString v.toInt
  | float64 v => v.toText
  | string v => Text.quoted v
  | object ref => bracketed ref.className ref.id
  | exception text => s!"exception: {text}"
  | other => s!"{other.tag.name} message"

end Message

end ObjectBridge
