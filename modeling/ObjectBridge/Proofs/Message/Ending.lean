import ObjectBridge.Proofs.Message.Conservation

/-!
# The question for the end

A reader that says it is not at the end has a byte for the next call. One that says it is at the end has none
buffered, and either its source has ended, so that nothing is ever read again (`Dry`), or the receive that was to
bring a byte failed: then the answer says nothing about the source, and the next call may well succeed
(`run_atEnd`, `atEnd_early`).
-/

namespace ObjectBridge.Reader

variable {α β : Type} {r r' : Reader}

/-! ### Readers that have run dry -/

/-- Nothing is buffered, and nothing will arrive. -/
structure Dry (r : Reader) : Prop where
  ended : r.ended = true
  empty : r.buffer = []

theorem History.eq_of_dry {events : List Event} (h : History r events r') (hdry : r.Dry) : r' = r := by
  induction h with
  | done r => rfl
  | received _ hopen _ _ _ =>
    rw [hdry.ended] at hopen
    cases hopen
  | @consumed r r' n events _ _ ih =>
    have hsame : { r with buffer := r.buffer.drop n } = r := by
      rw [hdry.empty, List.drop_nil, ← hdry.empty]
    rw [hsame] at ih
    exact ih hdry

theorem run_of_dry (hdry : r.Dry) (calls : List Call) : run calls r = r := by
  obtain ⟨events, h⟩ := history_run calls r
  exact h.eq_of_dry hdry

theorem take_of_dry (hdry : r.Dry) {n : Nat} (hpos : 0 < n) :
    take n r = .error (.endOfStream n 0) r := by
  have hensure : ensure n r = .error (.endOfStream n 0) r := by
    have hhold : ¬ holds r.buffer n = true := by
      rw [holds_iff, hdry.empty]
      exact Nat.not_le.mpr hpos
    rw [ensure, if_neg hhold, if_pos hdry.ended, hdry.empty]
    rfl
  rw [take, bind_of_error _ hensure]

/-! ### The first field of a call -/

/-- The step takes `n` bytes before it does anything else, and fails where they cannot be taken. -/
structure Begins (n : Nat) (a : Action α) : Prop where
  fails : ∀ {r fault r'}, take n r = .error fault r' → a r = .error fault r'

theorem Begins.bind {n : Nat} {a : Action α} (h : Begins n a) (f : α → Action β) : Begins n (a >>= f) :=
  ⟨fun htake => bind_of_error f (h.fails htake)⟩

theorem begins_take (n : Nat) : Begins n (take n) := ⟨id⟩

theorem begins_word (w : Word α) : Begins w.width (word w) := (begins_take w.width).bind _

theorem begins_resolve : Begins Word.i32.width (resolve none) := (begins_word .i32).bind _

theorem begins_elements {count width : Nat} (h : count * width < 0x10000000000000000) :
    Begins (count * width) (elements count width) := by
  rw [elements, if_pos h]
  exact begins_take _

theorem begins_words (w : Word α) {n : Nat} (h : n * w.width < 0x10000000000000000) :
    Begins (n * w.width) (words w (some n)) := by
  rw [words_eq]
  exact (begins_elements h).bind _

theorem begins_flags {n : Nat} (h : n < 0x10000000000000000) : Begins n (flags (some n)) := by
  have hbegins : Begins (n * 1) (elements n 1) := begins_elements (by omega)
  rw [Nat.mul_one] at hbegins
  rw [flags_eq]
  exact hbegins.bind _

theorem begins_text : Begins Word.i32.width text := (begins_resolve.bind _).bind _

theorem begins_texts (n : Nat) : Begins Word.i32.width (texts (some (n + 1))) := begins_text.bind _

theorem begins_message (catalogue : Catalogue) : Begins Word.u16.width (message catalogue) where
  fails {r fault r'} htake := by
    have hheader : Begins Word.u16.width header := (begins_word .u16).bind _
    have hwithin : Begins Word.u16.width (messageWithin catalogue (r.left + 1)) := hheader.bind _
    exact hwithin.fails htake

/-- How many bytes a call asks for first. -/
def Call.first : Call → Nat
  | .byte | .flag => Word.u8.width
  | .u16 | .message _ => Word.u16.width
  | .i16 => Word.i16.width
  | .i32 | .text | .bytes none | .flags none | .i32s none | .i64s none | .f64s none | .texts none
  | .texts (some (_ + 1)) => Word.i32.width
  | .i64 => Word.i64.width
  | .f64 => Word.f64.width
  | .bytes (some n) | .flags (some n) => n
  | .i32s (some n) => n * Word.i32.width
  | .i64s (some n) => n * Word.i64.width
  | .f64s (some n) => n * Word.f64.width
  | .texts (some 0) | .atEnd => 0

theorem begins_perform {call : Call} (hpos : 0 < call.first) (hsize : call.first < 0x10000000000000000) :
    Begins call.first (perform call) := by
  cases call with
  | byte | u16 | i16 | i32 | i64 | f64 => exact (begins_word _).bind _
  | flag => exact ((begins_word .u8).bind _).bind _
  | text => exact begins_text.bind _
  | message catalogue => exact (begins_message catalogue).bind _
  | atEnd => cases hpos
  | bytes len =>
    cases len with
    | none => exact (begins_resolve.bind _).bind _
    | some n => exact (begins_take n).bind _
  | flags len =>
    cases len with
    | none => exact (begins_resolve.bind _).bind _
    | some n => exact (begins_flags hsize).bind _
  | i32s len | i64s len | f64s len =>
    cases len with
    | none => exact (begins_resolve.bind _).bind _
    | some n => exact (begins_words _ hsize).bind _
  | texts len =>
    rcases len with _ | _ | n
    · exact (begins_resolve.bind _).bind _
    · cases hpos
    · exact (begins_texts n).bind _

/-! ### The answers -/

/-- On an honest source an end is the true one. -/
theorem History.rest_of_ended {events : List Event} (h : History r events r') (hs : r.source.Honest)
    (hr : r.ended = true → r.source.rest = []) : r'.ended = true → r'.source.rest = [] := by
  induction h with
  | done r => exact hr
  | @received r r' missing answer source events _ hopen hread _ ih =>
    obtain ⟨hnext, hend⟩ := hs.read (Source.chunk_pos missing) hread
    cases answer with
    | ok piece =>
      cases piece with
      | nil =>
        refine ih hnext fun _ => ?_
        have hrest := Source.read_ok hread
        rw [hend rfl] at hrest
        exact hrest.symm
      | cons b bs => exact ih hnext fun hended => absurd hended (by simp [told, hopen])
    | error kind => exact ih hnext fun hended => absurd hended (by simp [told, hopen])
  | consumed _ _ ih => exact ih hs hr

theorem buffered_of_atEnd_false (h : r.atEnd.1 = false) : r.atEnd.2.buffer ≠ [] := by
  revert h
  generalize hanswer : r.atEnd = answer
  cases hanswer ▸ atEndCase r with
  | buffered hsome => exact fun _ => hsome
  | @arrived r' hnone hensure =>
    intro _ hempty
    rcases ensure_cases 1 r with ⟨q, hok, _, _, hle, _⟩ | ⟨_, _, herror, _⟩
    · cases hok.symm.trans hensure
      rw [show r'.buffer = [] from hempty] at hle
      exact absurd hle (by decide)
    · cases herror.symm.trans hensure
  | missing => exact fun h => absurd h (by simp)

/-- A reader that says it is at the end has run dry, or the receive for a byte failed. -/
theorem dry_of_atEnd_true (h : r.atEnd.1 = true) :
    r.atEnd.2.Dry ∨ r.atEnd.2.buffer = [] ∧ ∃ kind, ensure 1 r = .error (.io { kind }) r.atEnd.2 := by
  revert h
  generalize hanswer : r.atEnd = answer
  cases hanswer ▸ atEndCase r with
  | buffered | arrived => exact fun h => absurd h (by simp)
  | missing hnone hensure =>
    intro _
    have hfew {receipt : Receipt} {fresh : List UInt8} {source : Source} (hne : receipt ≠ .enough)
        (hgather : r.source.gather (1 - r.buffer.length) [] = (receipt, fresh.reverse, source)) :
        r.buffer ++ fresh = [] := by
      have hlt := mt (Source.front_of_gather hgather).2.mpr hne
      rw [hnone] at hlt ⊢
      simpa using hlt
    have hcase := ensureCase 1 r
    rw [hensure] at hcase
    cases hcase with
    | past _ hended => exact .inl ⟨hended, hnone⟩
    | ended _ _ hgather => exact .inl ⟨rfl, hfew (by simp) hgather⟩
    | failed _ _ hgather => exact .inr ⟨hfew (by simp) hgather, _, hensure⟩

theorem byte_of_buffered (h : r.buffer ≠ []) : ∃ v r', perform .byte r = .ok (.byte v) r' := by
  have hle : 1 ≤ r.buffer.length := List.length_pos_iff.mpr h
  have hensure : ensure 1 r = .ok () r := by rw [ensure, if_pos (holds_iff.mpr hle)]
  have htake : take 1 r = .ok (r.buffer.take 1) { r with buffer := r.buffer.drop 1 } := by
    rw [take, bind_of_ok _ hensure, front_of_le hle]
  have hword : word .u8 r = _ := bind_of_ok _ htake
  exact ⟨_, _, bind_of_ok _ hword⟩

/-- If the answer is no, a byte is buffered and the next call gets it. If it is yes, none is, and either the
receive for it failed, as it would have for the call itself, or the source has ended. In that case, if the source
is honest, no byte is left, and whatever is called from there on the reader stays as it is and every call that
asks for bytes is told that the stream has ended. -/
theorem run_atEnd (source : Source) (calls : List Call) :
    let r := run calls (ofSource source)
    let q := r.atEnd.2
    (r.atEnd.1 = false → q.buffer ≠ [] ∧ ∃ v r', perform .byte q = .ok (.byte v) r') ∧
      (r.atEnd.1 = true → q.buffer = [] ∧
        ((∃ kind, perform .byte r = .error (.io { kind }) q) ∨
          (source.Honest → q.source.rest = []) ∧
          (∀ later, run later q = q) ∧
          ∀ call : Call, 0 < call.first → call.first < 0x10000000000000000 →
            perform call q = .error (.endOfStream call.first 0) q)) := by
  intro r q
  refine ⟨fun hno => ?_, fun hyes => ?_⟩
  · have hsome := buffered_of_atEnd_false hno
    exact ⟨hsome, byte_of_buffered hsome⟩
  · rcases dry_of_atEnd_true hyes with hdry | ⟨hempty, kind, hfailed⟩
    · refine ⟨hdry.empty, .inr ⟨fun hs => ?_, run_of_dry hdry, fun call hpos hsize => ?_⟩⟩
      · obtain ⟨events, h⟩ := history_run calls (ofSource source)
        obtain ⟨others, h'⟩ := history_atEnd r
        exact (h.append h').rest_of_ended hs (fun hended => by cases hended) hdry.ended
      · exact (begins_perform hpos hsize).fails (take_of_dry hdry hpos)
    · have hbyte : take Word.u8.width r = .error (.io { kind }) q := bind_of_error _ hfailed
      have hbegins : Begins Word.u8.width (perform .byte) := (begins_word .u8).bind _
      exact ⟨hempty, .inl ⟨kind, hbegins.fails hbyte⟩⟩

/-- A reader says it is at the end because a receive timed out; the byte is still to come, and the next call gets
it. -/
theorem atEnd_early :
    let r := ofSource { rest := [7], outages := [(0, .failure .timedOut)] }
    r.atEnd.1 = true ∧ r.atEnd.2.source.rest = [7] ∧
      verdict (perform .byte r.atEnd.2) = .ok (.byte 7) := by
  with_unfolding_all exact ⟨rfl, rfl, rfl⟩

end ObjectBridge.Reader
