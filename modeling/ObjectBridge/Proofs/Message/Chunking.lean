import ObjectBridge.Message.Calls
import ObjectBridge.Proofs.Message.Streaming

/-!
# Calls do not see the pieces

Two readers whose sources hand out the same bytes, in pieces of any sizes and with any interruptions, answer
every series of calls alike (`turns_chunked`). They may have buffered different numbers of bytes at any time;
what they share is the stream, and each call keeps it so, also one that fails.
-/

namespace ObjectBridge.Reader

variable {α β : Type}

/-- A step that does on a calm reader what it does with the same bytes all in the buffer. -/
def Even (a : Action α) : Prop :=
  ∀ r, r.Calm → view (a r) = view (a (held r.stream)) ∧ (after (a r)).Calm

theorem Streamed.even {a : Action α} (ha : Streamed a) : Even a := fun _ hr => ha.calm hr

theorem view_eq (result : EStateM.Result Fault Reader α) :
    view result = (verdict result, (after result).stream) := by
  cases result <;> rfl

/-- Asking for the end keeps the stream, whatever the answer. -/
theorem Calm.atEnd {r : Reader} (h : r.Calm) : r.atEnd.2.stream = r.stream ∧ r.atEnd.2.Calm := by
  generalize hanswer : r.atEnd = answer
  cases hanswer ▸ atEndCase r with
  | buffered => exact ⟨rfl, h⟩
  | arrived _ hensure =>
    rcases ensure_cases 1 r with ⟨r', hok, hstream, _, _, hcalm⟩ | ⟨fault, r', herror, _⟩
    · cases hok.symm.trans hensure
      exact ⟨hstream, hcalm h⟩
    · cases herror.symm.trans hensure
  | missing _ hensure =>
    rcases ensure_cases 1 r with ⟨r', hok, _⟩ | ⟨fault, r', herror, _, hstream, _, hcalm⟩
    · cases hok.symm.trans hensure
    · cases herror.symm.trans hensure
      exact ⟨hstream, (hcalm h).1⟩

theorem calm_held (bytes : List UInt8) : (held bytes).Calm :=
  ⟨⟨by simp [held], by simp [held], by simp [held]⟩, fun _ => rfl⟩

theorem even_atEnd : Even (perform .atEnd) := by
  intro r hr
  have hheld := calm_held r.stream
  have hanswer : r.atEnd.1 = (held r.stream).atEnd.1 := by
    rw [Bool.eq_iff_iff, hr.atEnd_eq, hheld.atEnd_eq, stream_held]
  have hstream := hheld.atEnd.1
  rw [stream_held] at hstream
  refine ⟨?_, hr.atEnd.2⟩
  show (Except.ok (Outcome.atEnd r.atEnd.1), r.atEnd.2.stream) =
    (Except.ok (Outcome.atEnd (held r.stream).atEnd.1), (held r.stream).atEnd.2.stream)
  rw [hanswer, hr.atEnd.1, hstream]

theorem streamed_last {a : Action α} (ha : Streamed a) (make : α → β) :
    Streamed (a >>= fun x => pure (make x)) := ha.bind fun x => .pure (make x)

/-- All calls but the question for the end are streamed. -/
theorem streamed_perform {call : Call} (h : call ≠ .atEnd) : Streamed (perform call) := by
  cases call with
  | byte | u16 | i16 | i32 | i64 | f64 => exact streamed_last (streamed_word _) _
  | flag => exact streamed_last streamed_flag _
  | text => exact streamed_last streamed_text _
  | bytes len => exact streamed_last (streamed_bytes len) _
  | flags len => exact streamed_last (streamed_flags len) _
  | i32s len | i64s len | f64s len => exact streamed_last (streamed_words _ len) _
  | texts len => exact streamed_last (streamed_texts len) _
  | atEnd => exact absurd rfl h
  | message catalogue => exact streamed_last (streamed_message catalogue) _

theorem even_perform (call : Call) : Even (perform call) := by
  by_cases h : call = .atEnd
  · rw [h]
    exact even_atEnd
  · exact (streamed_perform h).even

/-- What a series of calls comes to: the value or fault of each, and how many bytes are left after it,
buffered or not yet handed out. -/
def turns : List Call → Reader → List (Except Fault Outcome × Nat)
  | [], _ => []
  | call :: calls, r =>
    let result := perform call r
    (verdict result, (after result).left) :: turns calls (after result)

/-- Calm readers of one stream answer all calls alike, and have one stream after each. -/
theorem turns_of_stream (calls : List Call) {r r' : Reader} (hr : r.Calm) (hr' : r'.Calm)
    (hstream : r.stream = r'.stream) : turns calls r = turns calls r' := by
  induction calls generalizing r r' with
  | nil => rfl
  | cons call calls ih =>
    obtain ⟨hview, hcalm⟩ := even_perform call r hr
    obtain ⟨hview', hcalm'⟩ := even_perform call r' hr'
    have hsame : view (perform call r) = view (perform call r') := by
      rw [hview, hview', hstream]
    rw [view_eq, view_eq, Prod.mk.injEq] at hsame
    obtain ⟨hverdict, hleft⟩ := hsame
    rw [turns, turns, hverdict, left_eq_length_stream, left_eq_length_stream, hleft,
      ih hcalm hcalm' hleft]

/-- The answers to any calls, values and faults alike, and the number of bytes left after each do not
depend on the pieces in which the bytes arrive, nor on interruptions. -/
theorem turns_chunked {source source' : Source} (h : source.Calm) (h' : source'.Calm)
    (hrest : source.rest = source'.rest) (calls : List Call) :
    turns calls (ofSource source) = turns calls (ofSource source') :=
  turns_of_stream calls (calm_ofSource h) (calm_ofSource h') (by
    rw [stream_ofSource, stream_ofSource, hrest])

/-- Eleven bytes in one piece, and in pieces of one, three and from there on two bytes with interruptions.
After an array and the question for the end, a count that is negative and a word that is cut are refused. -/
theorem turns_chunked_refused :
    turns [.bytes none, .atEnd, .flags none, .u16, .i32, .byte, .atEnd]
        (ofSource { rest := [1, 0, 0, 0, 7, 255, 255, 255, 255, 4, 2] }) =
      turns [.bytes none, .atEnd, .flags none, .u16, .i32, .byte, .atEnd]
        (ofSource
          { rest := [1, 0, 0, 0, 7, 255, 255, 255, 255, 4, 2]
            step := some 2, pieces := [1, 3]
            outages := [(0, .failure .interrupted), (6, .failure .interrupted)] }) :=
  have hwhole : Source.Calm { rest := [1, 0, 0, 0, 7, 255, 255, 255, 255, 4, 2] } :=
    ⟨by decide, by decide, by decide⟩
  have hpieces : Source.Calm
      { rest := [1, 0, 0, 0, 7, 255, 255, 255, 255, 4, 2]
        step := some 2, pieces := [1, 3]
        outages := [(0, .failure .interrupted), (6, .failure .interrupted)] } :=
    ⟨by decide, by decide, by decide⟩
  turns_chunked hwhole hpieces rfl _

end ObjectBridge.Reader
