import ObjectBridge.Message.Reading
import ObjectBridge.Wire.Writer

/-!
# Channels

A channel is a reader and a writer that belong together. Sending hands over one complete message or,
if the message cannot be written, nothing at all.
-/

namespace ObjectBridge

/-- The two directions of a connection. -/
structure Channel where
  reader : Reader
  writer : Writer
  /-- The messages sent in full, the latest first. -/
  sent : List Message := []

namespace Channel

/-- A step on a channel. When it fails the channel stays as the failure left it. -/
abbrev Action (α : Type) := EStateM Fault Channel α

def between (source : Source) (sink : Sink) : Channel :=
  { reader := .ofSource source, writer := .ofSink sink }

def close (c : Channel) : Channel := { c with writer := c.writer.discard }

def reading {α : Type} (step : Reader.Action α) : Action α := fun c =>
  match step c.reader with
  | .ok a reader => .ok a { c with reader }
  | .error fault reader => .error fault { c with reader }

def writing {α : Type} (step : Writer.Action α) : Action α := fun c =>
  match step c.writer with
  | .ok a writer => .ok a { c with writer }
  | .error fault writer => .error fault { c with writer }

/-- Writes and flushes a message. Of a message that cannot be written nothing stays pending. -/
def send (m : Message) : Action Unit := fun c =>
  match writing (Writer.message m) c with
  | .error fault c => .error fault c.close
  | .ok () c =>
    match writing Writer.flush c with
    | .error fault c => .error fault c
    | .ok () c => .ok () { c with sent := m :: c.sent }

def receive (catalogue : Catalogue) : Action Message := reading (Reader.message catalogue)

end Channel

end ObjectBridge
