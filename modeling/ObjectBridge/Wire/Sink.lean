import ObjectBridge.Wire.Source

/-!
# Byte sinks

A sink accepts bytes. It accepts all it is given unless one of its `outages` comes up: a write never
reaches over the position of the next one, and each happens once. Single writes can be cut shorter still:
`pieces` cap the writes to come one by one. Flushing can fail on its own; the outcomes of the flushes to come
are listed, and all later ones succeed.
-/

namespace ObjectBridge

/-- Bytes that leave for the other side. -/
structure Sink where
  /-- The bytes accepted so far. -/
  accepted : List UInt8 := []
  /-- Failures of writes to come, each with the number of bytes accepted before it. -/
  outages : List (Nat × Outage) := []
  /-- The outcomes of the flushes to come. -/
  flushes : List (Option IoKind) := []
  /-- Limits of the next writes, one for each; there is none for those after them. -/
  pieces : List Nat := []

namespace Sink

/-- Writes all the bytes, with no limits to single writes. A write that is interrupted goes on; one that
accepts nothing, or fails in another way, ends it, and what was accepted before stays accepted. -/
def deliver (accepted : List UInt8) (outages : List (Nat × Outage)) (bytes : List UInt8) :
    Option IoKind × List UInt8 × List (Nat × Outage) :=
  if bytes.isEmpty then (none, accepted, outages)
  else
    match outages with
    | [] => (none, accepted ++ bytes, [])
    | (position, outage) :: later =>
      let room := position - accepted.length
      if bytes.length ≤ room then (none, accepted ++ bytes, outages)
      else
        let here := accepted ++ bytes.take room
        match outage with
        | .failure .interrupted => deliver here later (bytes.drop room)
        | .failure kind => (some kind, here, later)
        | .nothing => (some .writeZero, here, later)
termination_by structural outages

/-- One write that accepts at most `limit` bytes: the bytes it leaves, or how it fails. -/
def accept (limit : Nat) (accepted : List UInt8) (outages : List (Nat × Outage)) (bytes : List UInt8) :
    Except IoKind (List UInt8) × List UInt8 × List (Nat × Outage) :=
  match outages with
  | [] =>
    if limit = 0 then (.error .writeZero, accepted, [])
    else (.ok (bytes.drop limit), accepted ++ bytes.take limit, [])
  | (position, outage) :: later =>
    if position ≤ accepted.length then
      match outage with
      | .nothing => (.error .writeZero, accepted, later)
      | .failure kind => (.error kind, accepted, later)
    else
      let n := min limit (position - accepted.length)
      if n = 0 then (.error .writeZero, accepted, outages)
      else (.ok (bytes.drop n), accepted ++ bytes.take n, outages)

/-- Writes all the bytes, each write within its piece as long as there are pieces. -/
def deliverPieces (accepted : List UInt8) (outages : List (Nat × Outage)) (bytes : List UInt8) :
    List Nat → Option IoKind × List UInt8 × List (Nat × Outage) × List Nat
  | [] =>
    let (failure, accepted, outages) := deliver accepted outages bytes
    (failure, accepted, outages, [])
  | piece :: pieces =>
    if bytes.isEmpty then (none, accepted, outages, piece :: pieces)
    else
      match accept piece accepted outages bytes with
      | (.ok left, accepted, outages) => deliverPieces accepted outages left pieces
      | (.error .interrupted, accepted, outages) => deliverPieces accepted outages bytes pieces
      | (.error kind, accepted, outages) => (some kind, accepted, outages, pieces)

def write (s : Sink) (bytes : List UInt8) : Option IoKind × Sink :=
  let (failure, accepted, outages, pieces) := deliverPieces s.accepted s.outages bytes s.pieces
  (failure, { s with accepted, outages, pieces })

def flush (s : Sink) : Option IoKind × Sink :=
  match s.flushes with
  | [] => (none, s)
  | outcome :: later => (outcome, { s with flushes := later })

end Sink

end ObjectBridge
