import ObjectBridge.Proofs.Steps
import ObjectBridge.Proofs.Wire.Supply

/-!
# The history of a reader

A reader changes in two ways only: it receives from its source, as long as that has not ended, and it
consumes a front of its buffer. `History r events r'` says that these events lead from `r` to `r'`. From the
events alone it follows that no byte gets lost or comes twice (`History.stream`), and that a source that has
said it is at its end is not asked again (`History.nothing_behind_end`).
-/

namespace ObjectBridge

def Receipt.isEnd : Receipt → Bool
  | .ended => true
  | .enough | .failed _ => false

namespace Reader

/-- The bytes still to be consumed, in order. -/
def stream (r : Reader) : List UInt8 := r.buffer ++ r.source.rest

/-! ### Making sure of bytes -/

/-- What making sure of bytes can come to: they are there, the stream has ended before, or a series of
receives is made and ends in one of its three ways. -/
inductive EnsureCase (needed : Nat) (r : Reader) : EStateM.Result Fault Reader Unit → Prop where
  | there (h : needed ≤ r.buffer.length) : EnsureCase needed r (.ok () r)
  | past (hshort : r.buffer.length < needed) (hended : r.ended = true) :
      EnsureCase needed r (.error (.endOfStream needed r.buffer.length) r)
  | enough {fresh : List UInt8} {source : Source} (hshort : r.buffer.length < needed)
      (hopen : r.ended = false)
      (hgather : r.source.gather (needed - r.buffer.length) [] = (.enough, fresh.reverse, source)) :
      EnsureCase needed r (.ok () { r with source, buffer := r.buffer ++ fresh })
  | ended {fresh : List UInt8} {source : Source} (hshort : r.buffer.length < needed)
      (hopen : r.ended = false)
      (hgather : r.source.gather (needed - r.buffer.length) [] = (.ended, fresh.reverse, source)) :
      EnsureCase needed r (.error (.endOfStream needed (r.buffer ++ fresh).length)
        { r with source, buffer := r.buffer ++ fresh, ended := true })
  | failed {fresh : List UInt8} {source : Source} {kind : IoKind} (hshort : r.buffer.length < needed)
      (hopen : r.ended = false)
      (hgather : r.source.gather (needed - r.buffer.length) [] = (.failed kind, fresh.reverse, source)) :
      EnsureCase needed r (.error (.io { kind }) { r with source, buffer := r.buffer ++ fresh })

theorem ensureCase (needed : Nat) (r : Reader) : EnsureCase needed r (ensure needed r) := by
  by_cases hhold : holds r.buffer needed = true
  · rw [ensure, if_pos hhold]
    exact .there (holds_iff.mp hhold)
  have hshort : r.buffer.length < needed := by
    have hnot := mt holds_iff.mpr hhold
    omega
  by_cases hended : r.ended = true
  · rw [ensure, if_neg hhold, if_pos hended]
    exact .past hshort hended
  rw [ensure, if_neg hhold, if_neg hended]
  have hopen : r.ended = false := by simpa using hended
  rcases hg : r.source.gather (needed - r.buffer.length) [] with ⟨receipt, arrived, source⟩
  rw [← List.reverse_reverse arrived] at hg
  cases receipt with
  | enough => exact .enough hshort hopen hg
  | ended => exact .ended hshort hopen hg
  | failed kind => exact .failed hshort hopen hg

/-! ### Events -/

/-- What a reader does. -/
inductive Event where
  /-- It asks its source for an amount of bytes and is answered. -/
  | received (amount : Nat) (answer : Except IoKind (List UInt8))
  /-- It consumes the bytes at the front of its buffer. -/
  | consumed (bytes : List UInt8)

namespace Event

def consumedBytes : Event → List UInt8
  | received .. => []
  | consumed bytes => bytes

def amount? : Event → Option Nat
  | received amount _ => some amount
  | consumed _ => none

end Event

/-- The bytes that are consumed, in order. -/
def consumedIn (events : List Event) : List UInt8 := events.flatMap Event.consumedBytes

/-- The amounts that a source is asked for, in order. -/
def askedIn (events : List Event) : List Nat := events.filterMap Event.amount?

theorem askedIn_received (amount : Nat) (answer : Except IoKind (List UInt8)) (events : List Event) :
    askedIn (.received amount answer :: events) = amount :: askedIn events := rfl

theorem consumedIn_received (amount : Nat) (answer : Except IoKind (List UInt8)) (events : List Event) :
    consumedIn (.received amount answer :: events) = consumedIn events := rfl

/-- The reader when its source has answered. -/
def told (r : Reader) (source : Source) : Except IoKind (List UInt8) → Reader
  | .ok [] => { r with source, ended := true }
  | .ok (b :: bs) => { r with source, buffer := r.buffer ++ b :: bs }
  | .error _ => { r with source }

/-- The events lead from one reader to another. -/
inductive History : Reader → List Event → Reader → Prop
  | done (r : Reader) : History r [] r
  | received {r r' : Reader} {missing : Nat} {answer : Except IoKind (List UInt8)} {source : Source}
      {events : List Event} (hmissing : 0 < missing) (hopen : r.ended = false)
      (hread : r.source.read (chunk missing) = (answer, source))
      (h : History (r.told source answer) events r') :
      History r (.received (chunk missing) answer :: events) r'
  | consumed {r r' : Reader} {n : Nat} {events : List Event} (hle : n ≤ r.buffer.length)
      (h : History { r with buffer := r.buffer.drop n } events r') :
      History r (.consumed (r.buffer.take n) :: events) r'

namespace History

variable {r mid r' : Reader} {events others : List Event}

theorem append (h : History r events mid) (h' : History mid others r') :
    History r (events ++ others) r' := by
  induction h with
  | done r => exact h'
  | received hmissing hopen hread _ ih => exact .received hmissing hopen hread (ih h')
  | consumed hle _ ih => exact .consumed hle (ih h')

/-- What was still to be consumed has been consumed or is so still. -/
theorem stream (h : History r events r') : r.stream = consumedIn events ++ r'.stream := by
  induction h with
  | done r => rfl
  | @received r r' missing answer source events _ _ hread _ ih =>
    -- the bytes move from the source into the buffer, or nothing moves
    have hsame : r.stream = (r.told source answer).stream := by
      cases answer with
      | ok piece =>
        have hrest := Source.read_ok hread
        cases piece <;> simp [Reader.stream, told, hrest]
      | error kind => simp [Reader.stream, told, Source.read_error hread]
    rw [hsame, ih, consumedIn_received]
  | @consumed r r' n events hle _ ih =>
    have hsplit : r.stream = r.buffer.take n ++ Reader.stream { r with buffer := r.buffer.drop n } := by
      simp only [Reader.stream, ← List.append_assoc, List.take_append_drop]
    rw [hsplit, ih, ← List.append_assoc]
    rfl

theorem strayed (h : History r events r') : r'.strayed = r.strayed := by
  induction h with
  | done r => rfl
  | @received r r' missing answer source events _ _ _ _ ih =>
    rw [ih]
    cases answer with
    | ok piece => cases piece <;> rfl
    | error kind => rfl
  | consumed _ _ ih => exact ih

/-- The source has been asked as the events say, and not once more. -/
theorem asked (h : History r events r') :
    r'.source.asked = (askedIn events).reverse ++ r.source.asked := by
  induction h with
  | done r => rfl
  | @received r r' missing answer source events _ _ hread _ ih =>
    have hsource : (r.told source answer).source = source := by
      cases answer with
      | ok piece => cases piece <;> rfl
      | error kind => rfl
    rw [ih, hsource, Source.read_asked hread, askedIn_received, List.reverse_cons, List.append_assoc,
      List.singleton_append]
  | consumed _ _ ih => exact ih

theorem source_of_ended (h : History r events r') (hended : r.ended = true) :
    askedIn events = [] ∧ r'.source = r.source := by
  induction h with
  | done r => exact ⟨rfl, rfl⟩
  | received _ hopen _ _ _ =>
    rw [hended] at hopen
    cases hopen
  | consumed _ _ ih => exact ih hended

/-- A source that has handed out nothing is not asked again. -/
theorem nothing_behind_end (h : History r events r') {before behind : List Event} {amount : Nat}
    (hend : events = before ++ .received amount (.ok []) :: behind) : askedIn behind = [] := by
  induction h generalizing before with
  | done r => cases before <;> cases hend
  | @received r r' missing answer source events _ _ _ h ih =>
    cases before with
    | nil =>
      cases hend
      exact (h.source_of_ended rfl).1
    | cons first before =>
      cases hend
      exact ih rfl
  | consumed _ _ ih =>
    cases before with
    | nil => cases hend
    | cons first before =>
      cases hend
      exact ih rfl

theorem steady (h : History r events r') (hs : r.source.Steady) : r'.source.Steady := by
  induction h with
  | done r => exact hs
  | @received r r' missing answer source events _ _ hread _ ih =>
    refine ih ?_
    have hnext := hs.read_steady hread
    cases answer with
    | ok piece => cases piece <;> exact hnext
    | error kind => exact hnext
  | consumed _ _ ih => exact ih hs

end History

end Reader

end ObjectBridge
