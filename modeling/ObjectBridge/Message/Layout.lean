import ObjectBridge.Message.Basic
import ObjectBridge.Wire.Word

/-!
# The layout of a message

`Message.layout` lists the fields of a message in the order in which they are written. A field is a
run of bytes, of truth values, or a length, and only a length can fail: it has to fit the word that
carries it. The encoding of a message is the bytes of its fields up to the first one that does not fit.
-/

namespace ObjectBridge

/-- One written field. -/
inductive Field where
  /-- Bytes as they are. -/
  | raw (bytes : List UInt8)
  /-- Truth values, a byte each. -/
  | flags (vs : List Bool)
  /-- A length as a signed 32-bit word; `what` names what is counted. -/
  | length (what : String) (n : Nat)
  /-- The length of an argument list, an unsigned 16-bit word. -/
  | arity (n : Nat)

namespace Field

/-- Why a field cannot be written, if it cannot. -/
def fault? : Field → Option Fault
  | raw _ | flags _ => none
  | length what n => if n < 0x80000000 then none else some (.tooLong what n)
  | arity n => if n < 0x10000 then none else some (.tooLong "argument list" n)

def fits (f : Field) : Bool := f.fault?.isNone

def bytes : Field → List UInt8
  | raw bs => bs
  | flags vs => vs.map fun v => if v then 1 else 0
  | length _ n => littleEndian 4 n
  | arity n => littleEndian 2 n

def word {α : Type} (w : Word α) (a : α) : Field := raw (w.encode a)

def flag (b : Bool) : Field := flags [b]

/-- A text: the number of its bytes, then the bytes. -/
def text (s : String) : List Field :=
  let bs := Utf8.encode s
  [length "string" bs.length, raw bs]

def texts (what : String) (ss : List String) : List Field :=
  length what ss.length :: ss.flatMap text

def words {α : Type} (w : Word α) (as : List α) : Field := raw (as.flatMap w.encode)

/-- Labels: their number, zero where there are none, then the labels. -/
def labels : Option (List String) → List Field
  | none => [length "label block" 0]
  | some names => texts "label block" names

end Field

/-- The fields that can be written before the first one that cannot. -/
def writable (fields : List Field) : List UInt8 := (fields.takeWhile Field.fits).flatMap Field.bytes

/-- The fault of the first field that cannot be written. -/
def firstFault? (fields : List Field) : Option Fault := fields.findSome? Field.fault?

namespace Message

def header (m : Message) : List Field :=
  [.word .u16 magic, .word .u8 m.tag.code]

mutual

/-- The fields of a message, in the order in which they are written. -/
def layout (m : Message) : List Field :=
  m.header ++
  match m with
  | null => []
  | bool v => [.flag v]
  | byte v => [.word .u8 v]
  | int32 v => [.word .i32 v]
  | int64 v => [.word .i64 v]
  | float64 v => [.word .f64 v]
  | string v => Field.text v
  | exception text => Field.text text
  | object ref =>
    .word .i32 ref.id ::
      match ref.className with
      | some name => .flag true :: Field.text name
      | none => [.flag false]
  | vector v =>
    Field.labels v.labels ++ [.length "float64 array" v.values.length, .words .f64 v.values]
  | matrix m =>
    Field.labels m.rowLabels ++ Field.labels m.colLabels ++
      [.length "matrix rows" m.rows, .length "matrix columns" m.cols, .words .f64 m.data]
  | boolArray vs => [.length "bool array" vs.length, .flags vs]
  | byteArray vs => [.length "byte array" vs.length, .raw vs]
  | int32Array vs => [.length "int32 array" vs.length, .words .i32 vs]
  | int64Array vs => [.length "int64 array" vs.length, .words .i64 vs]
  | float64Array vs => [.length "float64 array" vs.length, .words .f64 vs]
  | stringArray vs => Field.texts "string array" vs
  | objectArray items => .length "object array" items.length :: layouts items
  | create className args => Field.text className ++ .arity args.length :: layouts args
  | callStaticMethod className method args =>
    Field.text className ++ Field.text method ++ .arity args.length :: layouts args
  | callMethod id method args =>
    .word .i32 id :: (Field.text method ++ .arity args.length :: layouts args)
  | getProperty id property => .word .i32 id :: Field.text property
  | getIndexedProperty id property index =>
    .word .i32 id :: (Field.text property ++ [.word .i32 index])
  | getIndexed id index => [.word .i32 id, .word .i32 index]
  | setProperty id property value => .word .i32 id :: (Field.text property ++ layout value)
  | getStaticProperty className property => Field.text className ++ Field.text property
  | setStaticProperty className property value =>
    Field.text className ++ Field.text property ++ layout value
  | protect id => [.word .i32 id]
  | release id => [.word .i32 id]
  | templateReq className => Field.text className
  | templateReply members =>
    Field.texts "string array" members.properties ++
      Field.texts "string array" members.methods ++
      Field.texts "string array" members.staticMethods

def layouts : List Message → List Field
  | [] => []
  | m :: ms => layout m ++ layouts ms

end

/-- The bytes of a message: all of them if it can be written, else those before the first field that
does not fit. -/
def encode (m : Message) : List UInt8 := writable m.layout

/-- Why a message cannot be written, if it cannot. -/
def encodeFault? (m : Message) : Option Fault := firstFault? m.layout

end Message

end ObjectBridge
