import ObjectBridge.Message.Layout
import ObjectBridge.Wire.Sink

/-!
# Buffered writing

Fields pile up in memory; the sink sees nothing of them before a flush.
-/

namespace ObjectBridge

/-- A sink with unsent bytes in front of it. -/
structure Writer where
  sink : Sink
  /-- Bytes written and not yet flushed. -/
  pending : List UInt8 := []

namespace Writer

/-- A writing step. When it fails the writer stays as the failure left it. -/
abbrev Action (α : Type) := EStateM Fault Writer α

def ofSink (sink : Sink) : Writer := { sink }

/-- Writes fields up to the first one that does not fit. -/
def put (fields : List Field) : Action Unit := fun w =>
  let w := { w with pending := w.pending ++ writable fields }
  match firstFault? fields with
  | some fault => .error fault w
  | none => .ok () w

def message (m : Message) : Action Unit := put m.layout

/-- Hands the pending bytes to the sink and flushes it. Bytes stay pending until all of them have
been accepted. -/
def flush : Action Unit := fun w =>
  let (failure, sink) := w.sink.write w.pending
  match failure with
  | some kind => .error (.io { kind }) { w with sink }
  | none =>
    let (failure, sink) := sink.flush
    match failure with
    | some kind => .error (.io { kind }) { sink, pending := [] }
    | none => .ok () { sink, pending := [] }

def discard (w : Writer) : Writer := { w with pending := [] }

end Writer

end ObjectBridge
