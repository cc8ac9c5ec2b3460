import ObjectBridge.Message.Reading

/-!
# Calls on a reader

What a caller can ask of a reader, one call after the other: single words, a text, arrays whose length is
given or read first, bytes as they are, whether the stream is at its end, and whole messages. A reader
goes on after a call that fails.
-/

namespace ObjectBridge.Reader

/-- One call. A length that is absent is read from the stream. -/
inductive Call where
  | byte
  | flag
  | u16
  | i16
  | i32
  | i64
  | f64
  | text
  | bytes (len : Option Nat)
  | flags (len : Option Nat)
  | i32s (len : Option Nat)
  | i64s (len : Option Nat)
  | f64s (len : Option Nat)
  | texts (len : Option Nat)
  | atEnd
  | message (catalogue : Catalogue)

/-- What a call gives. -/
inductive Outcome where
  | byte (v : UInt8)
  | flag (v : Bool)
  | u16 (v : UInt16)
  | i16 (v : Int16)
  | i32 (v : Int32)
  | i64 (v : Int64)
  | f64 (v : Binary64)
  | text (v : String)
  | bytes (vs : List UInt8)
  | flags (vs : List Bool)
  | i32s (vs : List Int32)
  | i64s (vs : List Int64)
  | f64s (vs : List Binary64)
  | texts (vs : List String)
  | atEnd (v : Bool)
  | message (m : Message)

def perform : Call → Action Outcome
  | .byte => return .byte (← word .u8)
  | .flag => return .flag (← flag)
  | .u16 => return .u16 (← word .u16)
  | .i16 => return .i16 (← word .i16)
  | .i32 => return .i32 (← word .i32)
  | .i64 => return .i64 (← word .i64)
  | .f64 => return .f64 (← word .f64)
  | .text => return .text (← text)
  | .bytes len => return .bytes (← bytes len)
  | .flags len => return .flags (← flags len)
  | .i32s len => return .i32s (← words .i32 len)
  | .i64s len => return .i64s (← words .i64 len)
  | .f64s len => return .f64s (← words .f64 len)
  | .texts len => return .texts (← texts len)
  | .atEnd => fun r =>
    let (v, r) := atEnd r
    .ok (.atEnd v) r
  | .message catalogue => return .message (← message catalogue)

end ObjectBridge.Reader
