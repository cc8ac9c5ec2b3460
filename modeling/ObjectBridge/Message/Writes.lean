import ObjectBridge.Wire.Writer

/-!
# Calls on a writer

What a caller can ask of a writer, one call after the other: to write an item, to flush, or to close, which
drops what has not been flushed. A writer goes on after a call that fails; of an item that cannot be written
the fields in front of the one that does not fit stay pending.
-/

namespace ObjectBridge.Writer

/-- What can be written at once. Bytes and doubles are written with or without their number in front. -/
inductive Item where
  | byte (v : UInt8)
  | flag (v : Bool)
  | u16 (v : UInt16)
  | i16 (v : Int16)
  | i32 (v : Int32)
  | i64 (v : Int64)
  | f64 (v : Binary64)
  | length (what : String) (n : Nat)
  | text (s : String)
  | bytes (bs : List UInt8) (counted : Bool)
  | flags (vs : List Bool)
  | i32s (vs : List Int32)
  | i64s (vs : List Int64)
  | f64s (vs : List Binary64) (counted : Bool)
  | texts (ss : List String)
  | message (m : Message)

/-- A field with the number of its elements in front, if that is wanted. -/
def numbered (what : String) (n : Nat) (counted : Bool) (f : Field) : List Field :=
  if counted then [.length what n, f] else [f]

/-- The fields of an item, in the order in which they are written. -/
def Item.fields : Item → List Field
  | .byte v => [.word .u8 v]
  | .flag v => [.flag v]
  | .u16 v => [.word .u16 v]
  | .i16 v => [.word .i16 v]
  | .i32 v => [.word .i32 v]
  | .i64 v => [.word .i64 v]
  | .f64 v => [.word .f64 v]
  | .length what n => [.length what n]
  | .text s => Field.text s
  | .bytes bs counted => numbered "byte array" bs.length counted (.raw bs)
  | .flags vs => numbered "bool array" vs.length true (.flags vs)
  | .i32s vs => numbered "int32 array" vs.length true (.words .i32 vs)
  | .i64s vs => numbered "int64 array" vs.length true (.words .i64 vs)
  | .f64s vs counted => numbered "float64 array" vs.length counted (.words .f64 vs)
  | .texts ss => Field.texts "string array" ss
  | .message m => m.layout

/-- The bytes that come to be pending when an item is written. -/
def Item.written (item : Item) : List UInt8 := writable item.fields

/-- One call. -/
inductive Call where
  | write (item : Item)
  | flush
  | close

def perform : Call → Action Unit
  | .write item => put item.fields
  | .flush => flush
  | .close => modify discard

end ObjectBridge.Writer
