import ObjectBridge.Proofs.Message.Conservation

/-!
# Reading ahead is bounded

A reader never has much more in its buffer than a field needed, whatever lengths the other side declares
(`run_readAhead`): every call is a course of demands, each receive of it is made for a demand that the buffer does
not meet yet, and what stays in the buffer is less than the least amount of a receive, unless a field was missed.
-/

namespace ObjectBridge.Reader

variable {r r' : Reader}

/-- The size of the field that a call was short of. The fault says it if the stream ended. If the source failed, it
is the size that the same call is short of when the source ends there instead. -/
def Call.shortOf (call : Call) (r : Reader) : Option Nat :=
  match perform call r with
  | .error (.endOfStream needed _) _ => some needed
  | .error (.io _) _ => Reader.shortOf (perform call r.ending)
  | _ => none

/-- The sizes of all fields that a series of calls was short of. -/
def shortIn : List Call → Reader → List Nat
  | [], _ => []
  | call :: calls, r => (call.shortOf r).toList ++ shortIn calls (after (perform call r))

/-- What a streamed call is short of it is short of at the end too, and the other way round. -/
theorem shortOf_perform {call : Call} (h : call ≠ .atEnd) :
    call.shortOf r = Reader.shortOf (perform call r.ending) := by
  have hending := (streamed_perform h).ending r
  unfold Call.shortOf
  generalize hresult : perform call r = result at hending
  generalize htwin : perform call r.ending = twin at hending
  cases hending with
  | ok x r' => rfl
  | refused hfault r' =>
    rename_i fault
    cases fault with
    | io cause => exact absurd rfl (hfault cause)
    | _ => rfl
  | failed cause r' needed => rfl

/-! ### The course of a run -/

/-- Whoever asks for the end misses no field. -/
theorem course_atEnd (r : Reader) : ∃ demands, Course r demands r.atEnd.2 ∧ missedIn demands = [] := by
  have hfill := refill_ensure 1 r
  generalize hanswer : r.atEnd = answer
  cases hanswer ▸ atEndCase r with
  | buffered => exact ⟨[], .done r, rfl⟩
  | arrived hnone hensure | missing hnone hensure =>
    rw [hensure] at hfill
    exact ⟨[.looked], .looked hnone hfill (.done _), rfl⟩

theorem course_perform (call : Call) (r : Reader) :
    ∃ demands, Course r demands (after (perform call r)) ∧
      missedIn demands = (call.shortOf r).toList := by
  by_cases h : call = .atEnd
  · subst h
    exact course_atEnd r
  · rw [shortOf_perform h]
    exact (streamed_perform h).course r

theorem course_run (calls : List Call) (r : Reader) :
    ∃ demands, Course r demands (run calls r) ∧ missedIn demands = shortIn calls r := by
  induction calls generalizing r with
  | nil => exact ⟨[], .done r, rfl⟩
  | cons call calls ih =>
    obtain ⟨demands, hfirst, hmissed⟩ := course_perform call r
    obtain ⟨others, hrest, hmissed'⟩ := ih (after (perform call r))
    exact ⟨demands ++ others, hfirst.append hrest, by rw [missedIn_append, hmissed, hmissed', shortIn]⟩

/-! ### Bounds -/

/-- A call that fails, if at all, because of what the bytes say was not short of any. -/
theorem shortOf_eq_none {call : Call}
    (h : ∀ fault, verdict (perform call r) = .error fault → fault.ofContent = true) :
    call.shortOf r = none := by
  unfold Call.shortOf
  cases hresult : perform call r with
  | ok x r' => rfl
  | error fault r' =>
    have hfault := h fault (by rw [hresult]; rfl)
    cases fault <;> first | rfl | cases hfault

theorem shortIn_eq_nil {calls : List Call}
    (h : ∀ turn ∈ turns calls r, ∀ fault, turn.1 = .error fault → fault.ofContent = true) :
    shortIn calls r = [] := by
  induction calls generalizing r with
  | nil => rfl
  | cons call calls ih =>
    rw [turns] at h
    obtain ⟨hfirst, hrest⟩ := List.forall_mem_cons.mp h
    rw [shortIn, shortOf_eq_none hfirst, ih hrest]
    rfl

/-- Whatever is called on a reader and however its source behaves, the reader has served demands, each of which
made it receive only while its buffer was shorter than the demand. Each receive has asked for at least `leastChunk`
and at most `mostChunk` bytes. As long as no call has failed for want of bytes, at most `leastChunk` bytes are
buffered; and in general it is no more than that or all but one of the bytes of a field that was missed. -/
theorem run_readAhead (source : Source) (calls : List Call) :
    let r := run calls (ofSource source)
    let sizes := shortIn calls (ofSource source)
    (∃ demands, Course (ofSource source) demands r ∧ missedIn demands = sizes) ∧
    (∃ amounts, r.source.asked = amounts ++ source.asked ∧
      ∀ amount ∈ amounts, leastChunk ≤ amount ∧ amount ≤ mostChunk) ∧
    ((∀ turn ∈ turns calls (ofSource source), ∀ fault, turn.1 = .error fault → fault.ofContent = true) →
      r.buffer.length ≤ leastChunk) ∧
    r.buffer.length ≤ max leastChunk (sizes.max?.getD 0 - 1) := by
  intro r sizes
  obtain ⟨demands, hcourse, hmissed⟩ := course_run calls (ofSource source)
  obtain ⟨events, hevents⟩ := hcourse.history
  have hlength (bound : Nat) (hleast : leastChunk ≤ bound) (h : ∀ size ∈ sizes, size - 1 ≤ bound) :
      r.buffer.length ≤ bound :=
    hcourse.length_le (Nat.zero_le _) hleast (by rwa [hmissed])
  refine ⟨⟨demands, hcourse, hmissed⟩, ⟨_, hevents.asked, ?_⟩, fun hfaults => ?_, ?_⟩
  · intro amount hamount
    exact hevents.amount_bounds amount (List.mem_reverse.mp hamount)
  · exact hlength leastChunk (Nat.le_refl _) (by simp [sizes, shortIn_eq_nil hfaults])
  · refine hlength _ (Nat.le_max_left ..) fun size hsize => ?_
    have hle : size ≤ sizes.max?.getD 0 := List.le_max?_getD_of_mem hsize
    omega

/-- A word is taken of 2002 bytes, for which 1024 have arrived. Of a field of 3000 bytes the rest has arrived when
the source fails; it stays in the buffer. -/
theorem run_readAhead_timedOut :
    let source : Source := { rest := List.replicate 2002 0, outages := [(2002, .failure .timedOut)] }
    let early := run [.u16, .atEnd] (ofSource source)
    let late := run [.u16, .bytes (some 3000)] (ofSource source)
    (early.buffer.length = 1022 ∧ early.buffer.length ≤ leastChunk) ∧
      shortIn [.u16, .bytes (some 3000)] (ofSource source) = [3000] ∧
      late.buffer.length = 2000 ∧ late.buffer.length ≤ max leastChunk 2999 := by
  intro source early late
  have hfine : (turns [.u16, .atEnd] (ofSource source)).all (·.1.isOk) = true := by decide +kernel
  have hsizes : shortIn [.u16, .bytes (some 3000)] (ofSource source) = [3000] := by decide +kernel
  have hearly := (run_readAhead source [.u16, .atEnd]).2.2.1 fun turn hturn fault hfault => by
    have hok := List.all_eq_true.mp hfine turn hturn
    rw [hfault] at hok
    cases hok
  have hlate := (run_readAhead source [.u16, .bytes (some 3000)]).2.2.2
  rw [hsizes] at hlate
  exact ⟨⟨by decide +kernel, hearly⟩, hsizes, by decide +kernel, hlate⟩

end ObjectBridge.Reader
