import ObjectBridge.Wire.Source
import ObjectBridge.Wire.Word

/-!
# Buffered reading

A reader takes fields from a source through a buffer. A field that needs more bytes than are buffered
makes it receive, in pieces of `leastChunk` to `mostChunk` bytes, until there are enough; lengths come
from the other side, so memory grows only with bytes that did arrive. The buffer and the bytes of the
source that are still to come are always one contiguous rest of the stream. Bytes are consumed only from
the buffer (`front`): whoever consumes them has to make sure of them first (`ensure`), and a reader that
is asked for more than it has buffered is marked as `strayed`.
-/

namespace ObjectBridge

/-- The least number of bytes that one receive asks for. -/
def leastChunk : Nat := 1024

/-- The greatest number of bytes that one receive asks for. -/
def mostChunk : Nat := 64 * 1024

/-- The number of bytes that a receive asks for when so many are missing. -/
def chunk (missing : Nat) : Nat := max leastChunk (min missing mostChunk)

/-- A source with a buffer in front of it. -/
structure Reader where
  source : Source
  /-- Bytes received and not yet consumed. -/
  buffer : List UInt8 := []
  /-- Whether the source has said that it is at its end. -/
  ended : Bool := false
  /-- Whether bytes were to be consumed that the buffer did not hold. -/
  strayed : Bool := false

/-- How a series of receives came to its end. -/
inductive Receipt where
  /-- As many bytes as were missing have arrived. -/
  | enough
  /-- The source has ended. -/
  | ended
  /-- A receive failed. -/
  | failed (kind : IoKind)

namespace Source

/-- Receives until `missing` bytes have arrived. Interrupted receives are repeated. `arrived` holds
the bytes so far, the latest first. -/
def gather (s : Source) (missing : Nat) (arrived : List UInt8) : Receipt × List UInt8 × Source :=
  if missing = 0 then (.enough, arrived, s)
  else
    match h : s.read (chunk missing) with
    | (.ok [], next) => (.ended, arrived, next)
    | (.ok (b :: bs), next) =>
      have : next.budget < s.budget := by
        have := s.read_budget (chunk missing) (by simp [h])
        rwa [h] at this
      next.gather (missing - (bs.length + 1)) ((b :: bs).reverse ++ arrived)
    | (.error .interrupted, next) =>
      have : next.budget < s.budget := by
        have := s.read_budget (chunk missing) (by simp [h])
        rwa [h] at this
      next.gather missing arrived
    | (.error kind, next) => (.failed kind, arrived, next)
termination_by s.budget

end Source

namespace Reader

/-- A reading step. When it fails the reader stays as the failure left it. -/
abbrev Action (α : Type) := EStateM Fault Reader α

def ofSource (source : Source) : Reader := { source }

/-- Whether a list has at least `n` members. -/
def holds : List UInt8 → Nat → Bool
  | _, 0 => true
  | [], _ + 1 => false
  | _ :: rest, n + 1 => holds rest n

theorem holds_iff {bytes : List UInt8} {n : Nat} : holds bytes n = true ↔ n ≤ bytes.length := by
  induction bytes generalizing n with
  | nil => cases n <;> simp [holds]
  | cons b rest ih => cases n <;> simp [holds, ih]

/-- Makes the buffer at least `needed` bytes long. -/
def ensure (needed : Nat) : Action Unit := fun r =>
  if holds r.buffer needed then .ok () r
  else if r.ended then .error (.endOfStream needed r.buffer.length) r
  else
    match r.source.gather (needed - r.buffer.length) [] with
    | (.enough, arrived, source) =>
      .ok () { r with source, buffer := r.buffer ++ arrived.reverse }
    | (.ended, arrived, source) =>
      let buffer := r.buffer ++ arrived.reverse
      .error (.endOfStream needed buffer.length) { r with source, buffer, ended := true }
    | (.failed kind, arrived, source) =>
      .error (.io { kind }) { r with source, buffer := r.buffer ++ arrived.reverse }

/-- Consumes the next `n` bytes of the buffer. A reader that does not hold them strays and stops. -/
def front (n : Nat) : Action (List UInt8) := fun r =>
  if holds r.buffer n then .ok (r.buffer.take n) { r with buffer := r.buffer.drop n }
  else .error (.endOfStream n r.buffer.length) { r with strayed := true }

/-- Takes the next `n` bytes. -/
def take (n : Nat) : Action (List UInt8) := do
  ensure n
  front n

/-- Whether nothing is buffered and no receive brings another byte. -/
def atEnd (r : Reader) : Bool × Reader :=
  if !r.buffer.isEmpty then (false, r)
  else
    match ensure 1 r with
    | .ok _ r => (false, r)
    | .error _ r => (true, r)

/-- The bytes still to be consumed, buffered or not yet handed out. -/
def left (r : Reader) : Nat := r.buffer.length + r.source.rest.length

/-! ### Fields -/

def word {α : Type} (w : Word α) : Action α := return w.decode (← take w.width)

/-- A truth value: any byte but zero is true. -/
def flag : Action Bool := return (← word .u8) != 0

/-- A length: the given one, or one that is read first. -/
def resolve (len : Option Nat) : Action Nat :=
  match len with
  | some n => pure n
  | none => do
    let n ← word .i32
    if n.toInt < 0 then throw (.malformed (.negativeLength n.toInt)) else pure n.toInt.toNat

/-- Does the same step `count` times; `done` holds the earlier results, the latest first. -/
def collect {α : Type} (step : Action α) : Nat → List α → Action (List α)
  | 0, done => pure done.reverse
  | count + 1, done => do
    let a ← step
    collect step count (a :: done)

/-- The results of doing the same step `count` times. -/
def repeated {α : Type} (step : Action α) (count : Nat) : Action (List α) := collect step count []

/-- Makes sure of `count` elements of some width, all of them at once. -/
def sized (count width : Nat) : Action Unit :=
  if count * width < 0x10000000000000000 then ensure (count * width)
  else throw (.malformed (.arrayOverflow count))

/-- The next word of the buffer. -/
def buffered {α : Type} (w : Word α) : Action α := return w.decode (← front w.width)

def words {α : Type} (w : Word α) (len : Option Nat) : Action (List α) := do
  let count ← resolve len
  sized count w.width
  repeated (buffered w) count

def flags (len : Option Nat) : Action (List Bool) := do
  let count ← resolve len
  sized count 1
  return (← repeated (buffered .u8) count).map (· != 0)

def bytes (len : Option Nat) : Action (List UInt8) := do
  let count ← resolve len
  take count

def text : Action String := do
  let raw ← bytes none
  match Utf8.decode raw with
  | .ok s => pure s
  | .error flaw => throw (.malformed (.text flaw))

def texts (len : Option Nat) : Action (List String) := do
  let count ← resolve len
  repeated text count

end Reader

end ObjectBridge
