/-!
# Message tags

Every framed message opens with the magic number and the tag of its kind. Tags come in three groups:
single values, arrays (the tag of their elements moved up by one hundred), and the requests of the
session together with the class template reply.
-/

namespace ObjectBridge

def magic : UInt16 := 0xd00d

/-- The kind of a message. -/
inductive Tag where
  | null | bool | byte | int32 | int64 | float64 | string | object
  | vector | matrix | exception
  | boolArray | byteArray | int32Array | int64Array | float64Array | stringArray | objectArray
  | create | callStaticMethod | callMethod | getProperty | getIndexedProperty | getIndexed
  | setProperty | getStaticProperty | setStaticProperty | protect | release
  | templateReq | templateReply
deriving DecidableEq, Repr

namespace Tag

def all : List Tag :=
  [null, bool, byte, int32, int64, float64, string, object,
   vector, matrix, exception,
   boolArray, byteArray, int32Array, int64Array, float64Array, stringArray, objectArray,
   create, callStaticMethod, callMethod, getProperty, getIndexedProperty, getIndexed,
   setProperty, getStaticProperty, setStaticProperty, protect, release,
   templateReq, templateReply]

/-- The byte that stands for a tag on the wire. -/
def code : Tag → UInt8
  | null => 0
  | bool => 1
  | byte => 2
  | int32 => 5
  | int64 => 6
  | float64 => 7
  | string => 8
  | object => 9
  | vector => 21
  | matrix => 22
  | exception => 23
  | boolArray => 101
  | byteArray => 102
  | int32Array => 105
  | int64Array => 106
  | float64Array => 107
  | stringArray => 108
  | objectArray => 109
  | create => 201
  | callStaticMethod => 202
  | callMethod => 203
  | getProperty => 204
  | getIndexedProperty => 205
  | getIndexed => 206
  | setProperty => 207
  | getStaticProperty => 208
  | setStaticProperty => 209
  | protect => 210
  | release => 211
  | templateReq => 212
  | templateReply => 213

def name : Tag → String
  | null => "Null"
  | bool => "Bool"
  | byte => "Byte"
  | int32 => "Int32"
  | int64 => "Int64"
  | float64 => "Float64"
  | string => "String"
  | object => "Object"
  | vector => "Vector"
  | matrix => "Matrix"
  | exception => "Exception"
  | boolArray => "BoolArray"
  | byteArray => "ByteArray"
  | int32Array => "Int32Array"
  | int64Array => "Int64Array"
  | float64Array => "Float64Array"
  | stringArray => "StringArray"
  | objectArray => "ObjectArray"
  | create => "Create"
  | callStaticMethod => "CallStaticMethod"
  | callMethod => "CallMethod"
  | getProperty => "GetProperty"
  | getIndexedProperty => "GetIndexedProperty"
  | getIndexed => "GetIndexed"
  | setProperty => "SetProperty"
  | getStaticProperty => "GetStaticProperty"
  | setStaticProperty => "SetStaticProperty"
  | protect => "Protect"
  | release => "Release"
  | templateReq => "TemplateReq"
  | templateReply => "TemplateReply"

/-- The tag of a code, if the code is known. -/
def ofCode? (code : UInt8) : Option Tag := all.find? (·.code == code)

/-- The distance from the tag of an element to the tag of its array. -/
def arrayOffset : UInt8 := 100

/-- The tag of the arrays whose elements have this tag. -/
def arrayOf? : Tag → Option Tag
  | t@bool | t@byte | t@int32 | t@int64 | t@float64 | t@string | t@object =>
    ofCode? (t.code + arrayOffset)
  | _ => none

/-- Whether the tag is a request or the template reply. -/
def isControl (t : Tag) : Bool := 200 < t.code

theorem ofCode?_code (t : Tag) : ofCode? t.code = some t := by
  cases t <;> rfl

theorem code_of_ofCode? {code : UInt8} {t : Tag} (h : ofCode? code = some t) : t.code = code := by
  simpa using List.find?_some h

theorem ofCode?_eq_some {code : UInt8} {t : Tag} : ofCode? code = some t ↔ t.code = code :=
  ⟨code_of_ofCode?, fun h => h ▸ ofCode?_code t⟩

theorem arrayOf?_eq (t : Tag) :
    t.arrayOf? = if t.code < arrayOffset then ofCode? (t.code + arrayOffset) else none := by
  cases t <;> rfl

/-- The tags with arrays need no list: they are those below the arrays whose code, moved up, is a tag's. -/
theorem arrayOf?_eq_some {t u : Tag} :
    t.arrayOf? = some u ↔ t.code < arrayOffset ∧ u.code = t.code + arrayOffset := by
  rw [arrayOf?_eq]
  split
  · rename_i hbelow
    rw [ofCode?_eq_some, and_iff_right hbelow]
  · rename_i habove
    exact ⟨nofun, fun h => absurd h.1 habove⟩

end Tag

end ObjectBridge
