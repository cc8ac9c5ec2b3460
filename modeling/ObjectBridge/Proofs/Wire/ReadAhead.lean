import ObjectBridge.Proofs.Wire.History

/-!
# Reading ahead

A reader receives only while its buffer is shorter than what a field needs, and then at most so many bytes that
the buffer holds less than `leastChunk` bytes more than needed. `Course r demands r'` says that the reader has come
from `r` to `r'` by serving these demands: one for each field, met or not, and one for each look whether there is
a byte at all. What a demand leaves in the buffer is bounded by it (`Refill.length_le`), so that the buffer is
bounded by the demands that were not met (`Course.length_le`).

Which demand a step did not meet its fault says if the stream ended. If the source failed, the same step tells on
the source that ends where this one fails (`Reader.ending`).
-/

namespace ObjectBridge

theorem chunk_bounds (missing : Nat) : leastChunk ≤ chunk missing ∧ chunk missing ≤ mostChunk := by
  simp only [chunk, leastChunk, mostChunk]
  omega

/-- A receive asks for no more than what is missing, or else for the least amount. -/
theorem chunk_le (missing : Nat) : chunk missing ≤ max leastChunk missing := by
  simp only [chunk, leastChunk, mostChunk]
  omega

/-! ### A source that ends where another fails -/

/-- The end in place of a failure. Only an interruption stays what it is. -/
def Outage.asEnd : Outage → Outage
  | .failure .interrupted => .failure .interrupted
  | .nothing | .failure _ => .nothing

def Receipt.asEnd : Receipt → Receipt
  | .failed _ => .ended
  | receipt => receipt

/-- The number of bytes that were needed where the stream ended. -/
def Fault.shortOf : Fault → Option Nat
  | .endOfStream needed _ => some needed
  | _ => none

theorem Fault.shortOf_of_ofContent {fault : Fault} (h : fault.ofContent = true) :
    fault.shortOf = none := by
  cases fault <;> first | rfl | cases h

namespace Source

/-- The source that is at its end where this one fails. -/
def ending (s : Source) : Source :=
  { s with outages := s.outages.map fun (position, outage) => (position, outage.asEnd) }

/-- An answer, with the end in place of a failure. -/
def endingAnswer : Except IoKind (List UInt8) → Except IoKind (List UInt8)
  | .ok piece => .ok piece
  | .error .interrupted => .error .interrupted
  | .error _ => .ok []

theorem read_ending (s : Source) (amount : Nat) :
    s.ending.read amount = (endingAnswer (s.read amount).1, (s.read amount).2.ending) := by
  cases hout : s.outages with
  | nil => simp only [read, ending, hout, List.map_nil, handOut, cap, endingAnswer]
  | cons entry later =>
    obtain ⟨position, outage⟩ := entry
    by_cases hpos : position ≤ s.taken
    · cases outage with
      | nothing =>
        simp only [read, ending, hout, List.map_cons, Outage.asEnd, hpos, if_true, endingAnswer]
      | failure kind =>
        cases kind <;>
          simp only [read, ending, hout, List.map_cons, Outage.asEnd, hpos, if_true, endingAnswer]
    · simp only [read, ending, hout, List.map_cons, hpos, if_false, handOut, cap, endingAnswer]

/-- A series of receives begins with one receive. -/
theorem gather_of_read {s next : Source} {missing : Nat} {answer : Except IoKind (List UInt8)}
    (hne : missing ≠ 0) (arrived : List UInt8) :
    s.read (chunk missing) = (answer, next) → s.gather missing arrived =
      match answer with
      | .ok [] => (.ended, arrived, next)
      | .ok (b :: bs) => next.gather (missing - (bs.length + 1)) ((b :: bs).reverse ++ arrived)
      | .error .interrupted => next.gather missing arrived
      | .error kind => (.failed kind, arrived, next) := by
  intro hread
  rw [gather, if_neg hne]
  split <;> rename_i heq <;> rw [hread] at heq <;> cases heq
  · rfl
  · rfl
  · rfl
  · rename_i kind hkind
    cases kind with
    | interrupted => exact absurd rfl hkind
    | _ => rfl

/-- A series of receives comes to the same with the end in place of a failure. -/
theorem gather_ending (s : Source) (missing : Nat) (arrived : List UInt8) :
    s.ending.gather missing arrived =
      ((s.gather missing arrived).1.asEnd, (s.gather missing arrived).2.1,
        (s.gather missing arrived).2.2.ending) := by
  have hread {s next : Source} {missing : Nat} {answer : Except IoKind (List UInt8)}
      (h : s.read (chunk missing) = (answer, next)) :
      s.ending.read (chunk missing) = (endingAnswer answer, next.ending) := by
    rw [read_ending, h]
  fun_induction gather s missing arrived with
  | case1 s arrived => rw [gather, if_pos rfl, Receipt.asEnd]; simp
  | case2 s missing arrived hne next h => exact gather_of_read hne arrived (hread h)
  | case3 s missing arrived hne b bs next h _ ih =>
    rw [gather_of_read hne arrived (hread h)]
    exact ih
  | case4 s missing arrived hne next h _ ih =>
    rw [gather_of_read hne arrived (hread h)]
    exact ih
  | case5 s missing arrived hne kind next hkind h =>
    rw [gather_of_read hne arrived (hread h)]
    cases kind with
    | interrupted => exact absurd rfl hkind
    | _ => rfl

end Source

namespace Reader

variable {r r' : Reader}

/-- The reader whose source is at its end where this one fails. -/
def ending (r : Reader) : Reader := { r with source := r.source.ending }

theorem left_ending (r : Reader) : r.ending.left = r.left := rfl

/-- The size that a step was short of when it found the stream at its end. -/
def shortOf {α : Type} : EStateM.Result Fault Reader α → Option Nat
  | .ok .. => none
  | .error fault _ => fault.shortOf

theorem shortOf_bind {α β : Type} {a : Action α} (f : α → Action β) {needed : Nat}
    (h : shortOf (a r) = some needed) : shortOf ((a >>= f) r) = some needed := by
  cases hresult : a r with
  | ok x mid =>
    rw [hresult] at h
    cases h
  | error fault mid =>
    rw [hresult] at h
    rw [bind_of_error f hresult]
    exact h

/-- How a step ends on a reader, and on the one that is at its end where this one fails. -/
inductive Ending {α : Type} : EStateM.Result Fault Reader α → EStateM.Result Fault Reader α → Prop
  | ok (x : α) (r : Reader) : Ending (.ok x r) (.ok x r.ending)
  | refused {fault : Fault} (hfault : ∀ cause, fault ≠ .io cause) (r : Reader) :
      Ending (.error fault r) (.error fault r.ending)
  | failed (cause : IoError) (r : Reader) (needed : Nat) :
      Ending (.error (.io cause) r) (.error (.endOfStream needed r.buffer.length) { r with ended := true }.ending)

theorem ensure_of_le (r : Reader) {needed : Nat} (h : needed ≤ r.buffer.length) :
    ensure needed r = .ok () r := by
  rw [ensure, if_pos (holds_iff.mpr h)]

theorem ensure_of_ended (r : Reader) {needed : Nat} (hshort : r.buffer.length < needed)
    (hended : r.ended = true) :
    ensure needed r = .error (.endOfStream needed r.buffer.length) r := by
  rw [ensure, if_neg (mt holds_iff.mp (Nat.not_le.mpr hshort)), if_pos hended]

theorem ensure_of_gather (r : Reader) {needed : Nat} {receipt : Receipt} {fresh : List UInt8}
    {source : Source} (hshort : r.buffer.length < needed) (hopen : r.ended = false) :
    r.source.gather (needed - r.buffer.length) [] = (receipt, fresh.reverse, source) →
    ensure needed r =
      match receipt with
      | .enough => .ok () { r with source, buffer := r.buffer ++ fresh }
      | .ended => .error (.endOfStream needed (r.buffer ++ fresh).length)
          { r with source, buffer := r.buffer ++ fresh, ended := true }
      | .failed kind => .error (.io { kind }) { r with source, buffer := r.buffer ++ fresh } := by
  intro hgather
  rw [ensure, if_neg (mt holds_iff.mp (Nat.not_le.mpr hshort)), if_neg (by simp [hopen]), hgather]
  cases receipt <;> simp only [List.reverse_reverse]

theorem ending_ensure (needed : Nat) (r : Reader) :
    Ending (ensure needed r) (ensure needed r.ending) := by
  have hopened {receipt : Receipt} {fresh : List UInt8} {source : Source}
      (hgather : r.source.gather (needed - r.buffer.length) [] = (receipt, fresh.reverse, source)) :
      r.ending.source.gather (needed - r.ending.buffer.length) [] =
        (receipt.asEnd, fresh.reverse, source.ending) := by
    rw [ending, Source.gather_ending, hgather]
  generalize hresult : ensure needed r = result
  cases hresult ▸ ensureCase needed r with
  | there hle =>
    rw [ensure_of_le r.ending hle]
    exact .ok () r
  | past hshort hended =>
    rw [ensure_of_ended r.ending hshort hended]
    exact .refused (by simp) r
  | enough hshort hopen hgather =>
    rw [ensure_of_gather r.ending hshort hopen (hopened hgather)]
    exact .ok () _
  | ended hshort hopen hgather =>
    rw [ensure_of_gather r.ending hshort hopen (hopened hgather)]
    exact .refused (by simp) _
  | failed hshort hopen hgather =>
    rw [ensure_of_gather r.ending hshort hopen (hopened hgather)]
    exact .failed _ _ needed

theorem ending_front (n : Nat) (r : Reader) : Ending (front n r) (front n r.ending) := by
  by_cases hhold : holds r.buffer n = true
  · rw [front, if_pos hhold, front, if_pos (by exact hhold)]
    exact .ok _ { r with buffer := r.buffer.drop n }
  · rw [front, if_neg hhold, front, if_neg (by exact hhold)]
    exact .refused (by simp) { r with strayed := true }

theorem Ending.bind {α β : Type} {a : Action α} {f : α → Action β} (h : Ending (a r) (a r.ending))
    (hf : ∀ x mid, Ending (f x mid) (f x mid.ending)) : Ending ((a >>= f) r) ((a >>= f) r.ending) := by
  generalize hresult : a r = result at h
  generalize htwin : a r.ending = twin at h
  cases h with
  | ok x mid =>
    rw [bind_of_ok f hresult, bind_of_ok f htwin]
    exact hf x mid
  | refused hfault mid =>
    rw [bind_of_error f hresult, bind_of_error f htwin]
    exact .refused hfault mid
  | failed cause mid needed =>
    rw [bind_of_error f hresult, bind_of_error f htwin]
    exact .failed cause mid needed

theorem Ending.shortOf_of_ok {α : Type} {x : α} {twin : EStateM.Result Fault Reader α}
    (h : Ending (.ok x r) twin) : shortOf twin = none := by
  cases h
  rfl

/-- Nothing fails at the end. -/
theorem Ending.ne_io {α : Type} {result twin : EStateM.Result Fault Reader α} (h : Ending result twin)
    (cause : IoError) (r : Reader) : twin ≠ .error (.io cause) r := by
  cases h with
  | ok => simp
  | refused hfault =>
    intro heq
    cases heq
    exact hfault cause rfl
  | failed => simp

/-- Bytes that cannot be made sure of are more than there are, and they are what is missed at the end. -/
theorem ensure_short {needed : Nat} {fault : Fault} (h : ensure needed r = .error fault r') :
    r'.buffer.length < needed ∧ shortOf (ensure needed r.ending) = some needed := by
  constructor
  · have hcase := ensureCase needed r
    rw [h] at hcase
    cases hcase with
    | past hshort => exact hshort
    | ended _ _ hgather | failed _ _ hgather =>
      have hcount := mt (Source.front_of_gather hgather).2.mpr (by simp)
      rw [List.length_append]
      omega
  · have hending := ending_ensure needed r
    rw [h] at hending
    generalize hresult : ensure needed r.ending = result at hending
    cases hresult ▸ ensureCase needed r.ending with
    | there | enough => cases hending
    | past | ended => rfl
    | failed => exact absurd rfl (hending.ne_io _ _)

/-! ### Refills -/

/-- Whatever is missing, a receive asks for an amount within bounds. -/
theorem History.amount_bounds {events : List Event} (h : History r events r') :
    ∀ amount ∈ askedIn events, leastChunk ≤ amount ∧ amount ≤ mostChunk := by
  induction h with
  | done r => simp [askedIn]
  | received _ _ _ _ ih =>
    rw [askedIn_received]
    exact List.forall_mem_cons.mpr ⟨chunk_bounds _, ih⟩
  | consumed _ _ ih => exact ih

/-- Receives for a field that needs so many bytes. Each is made while there are fewer, and asks for what is then
missing, within the bounds of a receive. -/
inductive Refill (needed : Nat) : Reader → Reader → Prop
  | done (r : Reader) : Refill needed r r
  | received {r r' : Reader} {answer : Except IoKind (List UInt8)} {source : Source}
      (hshort : r.buffer.length < needed) (hopen : r.ended = false)
      (hread : r.source.read (chunk (needed - r.buffer.length)) = (answer, source))
      (h : Refill needed (r.told source answer) r') : Refill needed r r'

namespace Refill

variable {needed : Nat}

theorem history (h : Refill needed r r') : ∃ events, consumedIn events = [] ∧ History r events r' := by
  induction h with
  | done r => exact ⟨[], rfl, .done r⟩
  | received hshort hopen hread _ ih =>
    obtain ⟨events, hnone, h⟩ := ih
    exact ⟨.received _ _ :: events, hnone, .received (Nat.sub_pos_of_lt hshort) hopen hread h⟩

/-- What is received over and above the need is less than the least amount that is asked for. -/
theorem length_le (h : Refill needed r r') :
    r'.buffer.length ≤ max r.buffer.length (needed + (leastChunk - 1)) := by
  induction h with
  | done r => exact Nat.le_max_left ..
  | @received r r' answer source hshort _ hread _ ih =>
    have hleast : 1 ≤ leastChunk := by decide
    have hchunk := chunk_le (needed - r.buffer.length)
    refine Nat.le_trans ih (Nat.max_le.mpr ⟨?_, Nat.le_max_right ..⟩)
    cases answer with
    | error kind => exact Nat.le_max_left ..
    | ok piece =>
      have hpiece := Source.read_length hread
      cases piece with
      | nil => exact Nat.le_max_left ..
      | cons b bs =>
        rw [told, List.length_append]
        omega

end Refill

/-- A series of receives, with the bytes put into the buffer as they arrive. -/
theorem refill_gather (needed : Nat) (buffer : List UInt8) (strayed : Bool) (s : Source) (missing : Nat)
    (arrived : List UInt8) (h : missing = needed - (buffer ++ arrived.reverse).length) :
    Refill needed { source := s, buffer := buffer ++ arrived.reverse, strayed }
      { source := (s.gather missing arrived).2.2
        buffer := buffer ++ (s.gather missing arrived).2.1.reverse
        ended := (s.gather missing arrived).1.isEnd
        strayed } := by
  fun_induction Source.gather s missing arrived with
  | case1 s arrived => exact .done _
  | case2 s missing arrived hne next hread =>
    subst h
    exact .received (by dsimp only; omega) rfl hread (.done _)
  | case3 s missing arrived hne b bs next hread hbudget ih =>
    subst h
    have hbuffer : buffer ++ ((b :: bs).reverse ++ arrived).reverse = buffer ++ arrived.reverse ++ b :: bs := by
      rw [List.reverse_append, List.reverse_reverse, List.append_assoc]
    rw [hbuffer] at ih
    refine .received (by dsimp only; omega) rfl hread (ih ?_)
    simp only [List.length_append, List.length_cons]
    omega
  | case4 s missing arrived hne next hread hbudget ih =>
    have hafter := ih h
    subst h
    exact .received (by dsimp only; omega) rfl hread hafter
  | case5 s missing arrived hne kind next hkind hread =>
    subst h
    exact .received (by dsimp only; omega) rfl hread (.done _)

theorem refill_ensure (needed : Nat) (r : Reader) : Refill needed r (after (ensure needed r)) := by
  have hgather (hopen : r.ended = false) := refill_gather needed r.buffer r.strayed r.source
    (needed - r.buffer.length) [] (by simp)
  obtain ⟨source, buffer, ended, strayed⟩ := r
  generalize hresult : ensure needed _ = result
  cases hresult ▸ ensureCase needed _ with
  | there | past => exact .done _
  | enough _ hopen h | ended _ hopen h | failed _ hopen h =>
    cases hopen
    have hrefill := hgather rfl
    rw [h, List.reverse_nil, List.append_nil, List.reverse_reverse] at hrefill
    exact hrefill

/-! ### Demands -/

/-- What is asked of a reader. -/
inductive Demand where
  /-- A field of so many bytes, which it takes. -/
  | met (size : Nat)
  /-- A field of so many bytes, which it cannot make sure of. -/
  | missed (size : Nat)
  /-- Whether there is a byte. It takes none. -/
  | looked

def Demand.missed? : Demand → Option Nat
  | .missed size => some size
  | .met _ | .looked => none

/-- The sizes of the fields that could not be taken, in order. -/
def missedIn (demands : List Demand) : List Nat := demands.filterMap Demand.missed?

theorem missedIn_append (demands others : List Demand) :
    missedIn (demands ++ others) = missedIn demands ++ missedIn others := List.filterMap_append

/-- The reader has served these demands in order, and done nothing else. -/
inductive Course : Reader → List Demand → Reader → Prop
  | done (r : Reader) : Course r [] r
  | met {r mid r' : Reader} {size : Nat} {demands : List Demand} (hfill : Refill size r mid)
      (hle : size ≤ mid.buffer.length)
      (h : Course { mid with buffer := mid.buffer.drop size } demands r') :
      Course r (.met size :: demands) r'
  | missed {r mid r' : Reader} {size : Nat} {demands : List Demand} (hfill : Refill size r mid)
      (hlt : mid.buffer.length < size) (h : Course mid demands r') :
      Course r (.missed size :: demands) r'
  | looked {r mid r' : Reader} {demands : List Demand} (hnone : r.buffer = []) (hfill : Refill 1 r mid)
      (h : Course mid demands r') : Course r (.looked :: demands) r'

namespace Course

variable {mid : Reader} {demands others : List Demand}

theorem append (h : Course r demands mid) (h' : Course mid others r') :
    Course r (demands ++ others) r' := by
  induction h with
  | done r => exact h'
  | met hfill hle _ ih => exact .met hfill hle (ih h')
  | missed hfill hlt _ ih => exact .missed hfill hlt (ih h')
  | looked hnone hfill _ ih => exact .looked hnone hfill (ih h')

theorem history (h : Course r demands r') : ∃ events, History r events r' := by
  induction h with
  | done r => exact ⟨[], .done r⟩
  | met hfill hle _ ih =>
    obtain ⟨events, _, hfirst⟩ := hfill.history
    obtain ⟨others, hrest⟩ := ih
    exact ⟨_, hfirst.append (.consumed hle hrest)⟩
  | missed hfill _ _ ih | looked _ hfill _ ih =>
    obtain ⟨events, _, hfirst⟩ := hfill.history
    obtain ⟨others, hrest⟩ := ih
    exact ⟨_, hfirst.append hrest⟩

/-- No demand leaves more in the buffer than was there, the least amount of a receive, or all but one of the bytes
of a field that is missed. -/
theorem length_le (h : Course r demands r') {bound : Nat} (hbuffer : r.buffer.length ≤ bound)
    (hleast : leastChunk ≤ bound) (hmissed : ∀ size ∈ missedIn demands, size - 1 ≤ bound) :
    r'.buffer.length ≤ bound := by
  have hpos : 1 ≤ leastChunk := by decide
  induction h with
  | done r => exact hbuffer
  | @met r mid r' size demands hfill hle _ ih =>
    refine ih ?_ hmissed
    have hlength := hfill.length_le
    rw [List.length_drop]
    omega
  | @missed r mid r' size demands hfill hlt _ ih =>
    have hsize := hmissed size (List.mem_cons_self ..)
    exact ih (by omega) fun size h => hmissed size (List.mem_cons_of_mem _ h)
  | @looked r mid r' demands hnone hfill _ ih =>
    have hlength := hfill.length_le
    rw [hnone, List.length_nil] at hlength
    exact ih (by omega) hmissed

end Course

end Reader
end ObjectBridge
