import ObjectBridge.Proofs.Message.Chunking
import ObjectBridge.Proofs.Wire.Retrying

/-!
# No byte is lost

Whatever is called and however the source behaves, a reader has a history: what it has consumed, what it has
buffered and what it has not been given yet make up the bytes of the source, and once the source has handed out
nothing it is left alone (`run_conserves`). A call for a block of known size takes the block as a whole. Where
it fails it has consumed nothing, and after a failure of the source it can be made again.
-/

namespace ObjectBridge.Reader

variable {α β : Type} {r r' : Reader}

/-- The reader after a series of calls, failed or not. -/
def run (calls : List Call) (r : Reader) : Reader :=
  calls.foldl (fun r call => after (perform call r)) r

/-! ### The history of a run -/

theorem history_atEnd (r : Reader) : ∃ events, History r events r.atEnd.2 := by
  obtain ⟨events, _, h⟩ := (refill_ensure 1 r).history
  generalize hanswer : r.atEnd = answer
  cases hanswer ▸ atEndCase r with
  | buffered => exact ⟨[], .done r⟩
  | arrived _ hensure | missing _ hensure =>
    rw [hensure] at h
    exact ⟨events, h⟩

theorem history_perform (call : Call) (r : Reader) :
    ∃ events, History r events (after (perform call r)) := by
  by_cases h : call = .atEnd
  · rw [h]
    exact history_atEnd r
  · exact (streamed_perform h).history r

theorem history_run (calls : List Call) (r : Reader) : ∃ events, History r events (run calls r) := by
  induction calls generalizing r with
  | nil => exact ⟨[], .done r⟩
  | cons call calls ih =>
    obtain ⟨events, hfirst⟩ := history_perform call r
    obtain ⟨others, hrest⟩ := ih (after (perform call r))
    exact ⟨events ++ others, hfirst.append hrest⟩

/-! ### Blocks -/

/-- How many bytes a call takes that takes them as one block. -/
def Call.block? : Call → Option Nat
  | .byte | .flag => some Word.u8.width
  | .u16 => some Word.u16.width
  | .i16 => some Word.i16.width
  | .i32 => some Word.i32.width
  | .i64 => some Word.i64.width
  | .f64 => some Word.f64.width
  | .bytes (some n) | .flags (some n) => some n
  | .i32s (some n) => some (n * Word.i32.width)
  | .i64s (some n) => some (n * Word.i64.width)
  | .f64s (some n) => some (n * Word.f64.width)
  | _ => none

theorem block_word (w : Word α) : Block w.width (word w) := .taken w.decode

theorem block_elements (count width : Nat) : Block (count * width) (elements count width) := by
  unfold elements
  split
  · rw [← bind_pure (take (count * width))]
    exact .taken id
  · exact .refused _

theorem block_words (w : Word α) (n : Nat) : Block (n * w.width) (words w (some n)) := by
  rw [words_eq]
  exact (block_elements n w.width).last (decodeWords w n)

theorem block_flags (n : Nat) : Block n (flags (some n)) := by
  have hflags := (block_elements n 1).last (List.map (· != 0))
  rw [Nat.mul_one] at hflags
  rw [flags_eq]
  exact hflags

theorem block_bytes (n : Nat) : Block n (bytes (some n)) := by
  have htake : bytes (some n) = take n >>= fun bytes => pure (id bytes) := (bind_pure (take n)).symm
  rw [htake]
  exact .taken id

theorem block_perform {call : Call} {n : Nat} (h : call.block? = some n) : Block n (perform call) := by
  cases call with
  | byte | u16 | i16 | i32 | i64 | f64 =>
    cases h
    exact (block_word _).last _
  | flag =>
    cases h
    exact ((block_word .u8).last (· != 0)).last _
  | bytes len | flags len | i32s len | i64s len | f64s len =>
    cases len with
    | none => cases h
    | some n =>
      cases h
      first
        | exact (block_bytes _).last _
        | exact (block_flags _).last _
        | exact (block_words _ _).last _
  | text | texts _ | atEnd | message _ => cases h

/-! ### Conservation -/

/-- A reader on any source has a history, whatever is called: its events come to the bytes that are consumed, and
with those that are buffered and those that the source still has these are the bytes of the source, in order. The
source has been read just as the events say, and not again after it handed out nothing. A call for a block that
fails consumes nothing; if the source failed, that was its first obstacle, and the call made again gives what it
would have given without it. -/
theorem run_conserves (source : Source) (calls : List Call) :
    let r := run calls (ofSource source)
    (∃ events, History (ofSource source) events r ∧
      consumedIn events ++ r.buffer ++ r.source.rest = source.rest ∧
      r.source.asked = (askedIn events).reverse ++ source.asked ∧
      ∀ before amount behind, events = before ++ .received amount (.ok []) :: behind →
        askedIn behind = []) ∧
    ∀ call n, call.block? = some n → ∀ fault r', perform call r = .error fault r' →
      (∃ fresh, r'.buffer = r.buffer ++ fresh ∧ r.source.rest = fresh ++ r'.source.rest) ∧
      ∀ cause, fault = .io cause → source.Steady →
        r.source.obstacles = (r'.source.taken, .failure cause.kind) :: r'.source.obstacles ∧
        view (perform call r') = view (perform call { r with source := r.source.spared }) := by
  intro r
  obtain ⟨events, hevents⟩ := history_run calls (ofSource source)
  refine ⟨⟨events, hevents, ?_, hevents.asked, fun _ _ _ => hevents.nothing_behind_end⟩, ?_⟩
  · rw [List.append_assoc]
    exact hevents.stream.symm
  · intro call n hblock fault r' herror
    refine ⟨(block_perform hblock).keeps herror, fun cause hcause hs => ?_⟩
    subst hcause
    exact (block_perform hblock).retry (hevents.steady hs) herror

/-- A word of four bytes of which two arrive before the source fails. Nothing of it is consumed, and the second
attempt gives the word. -/
theorem run_conserves_retried :
    let source : Source := { rest := [7, 1, 0, 0, 0], outages := [(3, .failure .timedOut)] }
    let r := run [.byte] (ofSource source)
    ∃ r', perform .i32 r = .error (.io { kind := .timedOut }) r' ∧ r'.buffer = [1, 0] ∧
      r.source.obstacles = (3, .failure .timedOut) :: r'.source.obstacles ∧
      view (perform .i32 r') = view (perform .i32 { r with source := r.source.spared }) ∧
      verdict (perform .i32 r') = .ok (.i32 1) := by
  intro source r
  have herror : perform .i32 r = .error (.io { kind := .timedOut })
      { source := { rest := [0, 0], taken := 3, asked := [1024, 1024] }, buffer := [1, 0] } := by
    with_unfolding_all rfl
  obtain ⟨hfirst, hagain⟩ := ((run_conserves source [.byte]).2 .i32 4 rfl _ _ herror).2 _ rfl
    ⟨by decide, by decide⟩
  exact ⟨_, herror, rfl, hfirst, hagain, by with_unfolding_all rfl⟩

end ObjectBridge.Reader
