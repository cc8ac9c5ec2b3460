import ObjectBridge.Message.Basic
import ObjectBridge.Wire.Reader

/-!
# Reading messages

A message is read in two stages. Its header names a tag, and the catalogue gives the message that
stands for this tag; the variant of that message, not the tag, then decides which fields are read,
and all its content comes from the stream. Messages inside a message are read in the same way.
-/

namespace ObjectBridge

/-- Which message stands for which tag when a message is read. Earlier entries win. -/
structure Catalogue where
  entries : List (Tag × Message)

namespace Catalogue

def empty : Catalogue := ⟨[]⟩

/-- The catalogue in which every tag stands for its own empty message. -/
def standard : Catalogue := ⟨Tag.all.map fun t => (t, Message.empty t)⟩

/-- Lets a message stand for a tag from now on. -/
def register (c : Catalogue) (tag : Tag) (m : Message) : Catalogue := ⟨(tag, m) :: c.entries⟩

/-- The message that stands for the tag of a code. -/
def find? (c : Catalogue) (code : UInt8) : Option Message :=
  (c.entries.find? fun (tag, _) => tag.code == code).map (·.2)

end Catalogue

namespace Reader

/-- A count that cannot be negative; `what` names what is counted. -/
def count (what : String) : Action Nat := do
  let n ← word .i32
  if n.toInt < 0 then throw (.malformed (.negativeCount what n.toInt)) else pure n.toInt.toNat

/-- Labels, absent if their number is zero. -/
def labels : Action (Option (List String)) := do
  let n ← count "label block"
  if n = 0 then pure none else return some (← texts (some n))

/-- A reference to an object: its identifier, and its class name if the flag before it is set. -/
def objectRef : Action ObjectRef := do
  let id ← word .i32
  if ← flag then return ⟨id, some (← text)⟩ else pure ⟨id, none⟩

/-- The outcome of a computation that needs no reader. -/
def outcome {α : Type} : Except Fault α → Action α
  | .ok a => pure a
  | .error fault => throw fault

def vector : Action LabelledVector := do
  let names ← labels
  let values ← words .f64 none
  match names with
  | some names => outcome (LabelledVector.withLabels names values)
  | none => pure (.ofValues values)

/-- A matrix: labels of rows and of columns, the shape, then the values without a count. -/
def matrix : Action LabelledMatrix := do
  let rowLabels ← labels
  let colLabels ← labels
  let rows ← count "rows"
  let cols ← count "columns"
  if rows * cols < sizeLimit then pure () else throw (.malformed (.matrixOverflow rows cols))
  let data ← words .f64 (some (rows * cols))
  outcome do
    let m ← LabelledMatrix.ofColumns rows cols data
    let m ← match rowLabels with
      | some names => m.withRowLabels names
      | none => pure m
    match colLabels with
    | some names => m.withColLabels names
    | none => pure m

def members : Action Members :=
  return { properties := ← texts none, methods := ← texts none, staticMethods := ← texts none }

/-- The arguments of a call: their number in 16 bits, then the messages. -/
def arguments (item : Action Message) : Action (List Message) := do
  let n ← word .u16
  repeated item n.toNat

/-- The content of a message of the same variant as the given one. `item` reads a message that is
part of it. -/
def payload (item : Action Message) : Message → Action Message
  | .null => pure .null
  | .bool _ => return .bool (← flag)
  | .byte _ => return .byte (← word .u8)
  | .int32 _ => return .int32 (← word .i32)
  | .int64 _ => return .int64 (← word .i64)
  | .float64 _ => return .float64 (← word .f64)
  | .string _ => return .string (← text)
  | .exception _ => return .exception (← text)
  | .object _ => return .object (← objectRef)
  | .vector _ => return .vector (← vector)
  | .matrix _ => return .matrix (← matrix)
  | .boolArray _ => return .boolArray (← flags none)
  | .byteArray _ => return .byteArray (← bytes none)
  | .int32Array _ => return .int32Array (← words .i32 none)
  | .int64Array _ => return .int64Array (← words .i64 none)
  | .float64Array _ => return .float64Array (← words .f64 none)
  | .stringArray _ => return .stringArray (← texts none)
  | .objectArray _ => do
    let n ← count "object array"
    return .objectArray (← repeated item n)
  | .create .. => do
    let className ← text
    return .create className (← arguments item)
  | .callStaticMethod .. => do
    let className ← text
    let method ← text
    return .callStaticMethod className method (← arguments item)
  | .callMethod .. => do
    let id ← word .i32
    let method ← text
    return .callMethod id method (← arguments item)
  | .getProperty .. => do
    let id ← word .i32
    return .getProperty id (← text)
  | .getIndexedProperty .. => do
    let id ← word .i32
    let property ← text
    return .getIndexedProperty id property (← word .i32)
  | .getIndexed .. => do
    let id ← word .i32
    return .getIndexed id (← word .i32)
  | .setProperty .. => do
    let id ← word .i32
    let property ← text
    return .setProperty id property (← item)
  | .getStaticProperty .. => do
    let className ← text
    return .getStaticProperty className (← text)
  | .setStaticProperty .. => do
    let className ← text
    let property ← text
    return .setStaticProperty className property (← item)
  | .protect _ => return .protect (← word .i32)
  | .release _ => return .release (← word .i32)
  | .templateReq _ => return .templateReq (← text)
  | .templateReply _ => return .templateReply (← members)

/-- The magic number and the code of a tag. -/
def header : Action UInt8 := do
  let found ← word .u16
  if found = magic then word .u8 else throw (.badMagic found)

/-- A message whose parts are nested at most `depth` deep. -/
def messageWithin (catalogue : Catalogue) : Nat → Action Message
  | 0 => do throw (.unknownTag (← header))
  | depth + 1 => do
    let code ← header
    match catalogue.find? code with
    | some blank => payload (messageWithin catalogue depth) blank
    | none => throw (.unknownTag code)

/-- A message. Every level of nesting takes a header from the stream, so the bytes that are left
bound the depth. -/
def message (catalogue : Catalogue) : Action Message := fun r =>
  messageWithin catalogue (r.left + 1) r

end Reader

end ObjectBridge
