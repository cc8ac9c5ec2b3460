import ObjectBridge.Proofs.Wire.ReadAhead

/-!
# Readers as streams

What matters of a reader is its stream: the buffered bytes and behind them those that its source still
has. A reading step is `Streamed` if the stream alone decides what it comes to: wherever it succeeds it
does what it would do with the same bytes all in the buffer (`held`), on a calm source it does so also
where it fails, it takes a course, so that it has a history and never drops bytes or makes the reader stray,
and every fault of it is one of the stream. All steps built from `take` by `pure`, `throw` and `bind` are of
this kind, so that facts about them need proofs for held bytes only.
-/

namespace ObjectBridge

namespace Reader

variable {α β : Type}

/-- The reader that has these bytes in its buffer and gets no more. -/
def held (bytes : List UInt8) : Reader := { source := { rest := [] }, buffer := bytes, ended := true }

/-- A reader on a calm source that has believed in no end but the true one. -/
structure Calm (r : Reader) : Prop where
  source : r.source.Calm
  ended : r.ended = true → r.source.rest = []

@[simp] theorem stream_held (bytes : List UInt8) : (held bytes).stream = bytes := by
  simp only [stream, held, List.append_nil]

@[simp] theorem stream_ofSource (source : Source) : (ofSource source).stream = source.rest := rfl

theorem left_eq_length_stream (r : Reader) : r.left = r.stream.length := by
  simp only [left, stream, List.length_append]

theorem calm_ofSource {source : Source} (h : source.Calm) : (ofSource source).Calm :=
  ⟨h, fun hended => by cases hended⟩

/-! ### Making sure of bytes -/

/-- If bytes are made sure of, they are in the buffer; if not, a fault of the stream says so. No byte of
the stream is lost either way. On a calm source the stream is long enough in the first case and too
short in the second. -/
theorem ensure_cases (needed : Nat) (r : Reader) :
    (∃ r', ensure needed r = .ok () r' ∧ r'.stream = r.stream ∧ r'.strayed = r.strayed ∧
        needed ≤ r'.buffer.length ∧ (r.Calm → r'.Calm)) ∨
      ∃ fault r', ensure needed r = .error fault r' ∧ fault.ofStream = true ∧
        r'.stream = r.stream ∧ r'.strayed = r.strayed ∧
        (r.Calm → r'.Calm ∧ r.stream.length < needed ∧
          fault = .endOfStream needed r.stream.length) := by
  have hkept {fresh : List UInt8} {source : Source} {receipt : Receipt}
      (hgather : r.source.gather (needed - r.buffer.length) [] = (receipt, fresh.reverse, source)) :
      r.buffer ++ fresh ++ source.rest = r.stream := by
    rw [stream, (Source.front_of_gather hgather).1, List.append_assoc]
  have hcalmly (hcalm : r.Calm) := hcalm.source.gather (needed - r.buffer.length) []
  generalize hresult : ensure needed r = result
  cases hresult ▸ ensureCase needed r with
  | there hle => exact .inl ⟨r, rfl, rfl, rfl, hle, id⟩
  | past hshort hended =>
    refine .inr ⟨_, r, rfl, rfl, rfl, rfl, fun hcalm => ?_⟩
    have hstream : r.stream.length = r.buffer.length := by
      simp only [stream, hcalm.ended hended, List.append_nil]
    exact ⟨hcalm, by omega, by rw [hstream]⟩
  | enough hshort hopen hgather =>
    have hcount := (Source.front_of_gather hgather).2.mp rfl
    refine .inl ⟨_, rfl, hkept hgather, rfl, ?_, fun hcalm => ⟨?_, fun h => ?_⟩⟩
    · rw [List.length_append]
      omega
    · have hcalm' := (hcalmly hcalm).1
      rwa [hgather] at hcalm'
    · exact absurd h (by simp [hopen])
  | ended hshort hopen hgather =>
    have hcount := mt (Source.front_of_gather hgather).2.mpr (by simp)
    have hstream := hkept hgather
    refine .inr ⟨_, _, rfl, rfl, hstream, rfl, fun hcalm => ?_⟩
    have hcalm' := hcalmly hcalm
    rw [hgather] at hcalm'
    obtain ⟨hsource, hnone⟩ := hcalm'
    dsimp only at hnone
    rw [hnone, List.append_nil] at hstream
    refine ⟨⟨hsource, fun _ => hnone⟩, ?_, by rw [← hstream]⟩
    rw [← hstream, List.length_append]
    omega
  | failed hshort hopen hgather =>
    refine .inr ⟨_, _, rfl, rfl, hkept hgather, rfl, fun hcalm => ?_⟩
    have hcalm' := (hcalmly hcalm).2
    rw [hgather] at hcalm'
    exact hcalm'.elim

theorem ensure_held_of_le {needed : Nat} {bytes : List UInt8} (h : needed ≤ bytes.length) :
    ensure needed (held bytes) = .ok () (held bytes) := by
  simp only [ensure, held, holds_iff.mpr h, if_true]

theorem ensure_held_of_lt {needed : Nat} {bytes : List UInt8} (h : bytes.length < needed) :
    ensure needed (held bytes) = .error (.endOfStream needed bytes.length) (held bytes) := by
  have hnot : ¬ holds bytes needed = true := fun hhold => by
    have hle := holds_iff.mp hhold
    omega
  simp only [ensure, held, hnot, if_true, Bool.false_eq_true, if_false]

/-- What the question for the end can come to: bytes are buffered, one could be made sure of, or none. -/
inductive AtEndCase (r : Reader) : Bool × Reader → Prop where
  | buffered (hsome : r.buffer ≠ []) : AtEndCase r (false, r)
  | arrived {r' : Reader} (hnone : r.buffer = []) (hensure : ensure 1 r = .ok () r') :
      AtEndCase r (false, r')
  | missing {fault : Fault} {r' : Reader} (hnone : r.buffer = [])
      (hensure : ensure 1 r = .error fault r') : AtEndCase r (true, r')

theorem atEndCase (r : Reader) : AtEndCase r r.atEnd := by
  cases hbuffer : r.buffer with
  | cons b bs =>
    have hsome : r.buffer ≠ [] := by simp [hbuffer]
    simpa only [atEnd, hbuffer, List.isEmpty_cons, Bool.not_false, if_true] using AtEndCase.buffered hsome
  | nil =>
    cases hensure : ensure 1 r with
    | ok _ r' =>
      simpa only [atEnd, hbuffer, hensure, List.isEmpty_nil, Bool.not_true, Bool.false_eq_true, if_false]
        using AtEndCase.arrived hbuffer hensure
    | error fault r' =>
      simpa only [atEnd, hbuffer, hensure, List.isEmpty_nil, Bool.not_true, Bool.false_eq_true, if_false]
        using AtEndCase.missing hbuffer hensure

/-- On a calm source the end is seen exactly when no byte is left. -/
theorem Calm.atEnd_eq {r : Reader} (h : r.Calm) : r.atEnd.1 = true ↔ r.stream = [] := by
  generalize hanswer : r.atEnd = answer
  cases hanswer ▸ atEndCase r with
  | buffered hsome => simp [stream, hsome]
  | arrived hnone hensure =>
    rcases ensure_cases 1 r with ⟨r', _, hstream, _, hle, _⟩ | ⟨fault, r', herror, _⟩
    · have hne : r'.stream ≠ [] := by
        rw [stream]
        exact List.append_ne_nil_of_left_ne_nil (List.length_pos_iff.mp hle) _
      rw [hstream] at hne
      simp [hne]
    · cases herror.symm.trans hensure
  | missing hnone hensure =>
    rcases ensure_cases 1 r with ⟨r', hok, _⟩ | ⟨fault, r', herror, _, _, _, hcalm⟩
    · cases hok.symm.trans hensure
    · simp [List.length_eq_zero_iff.mp (Nat.lt_one_iff.mp (hcalm h).2.1)]

/-! ### Streamed steps -/

/-- What a step comes to, as far as the stream goes: its result and the bytes that are left. -/
def view : EStateM.Result Fault Reader α → Except Fault α × List UInt8
  | .ok a r => (.ok a, r.stream)
  | .error fault r => (.error fault, r.stream)

/-- A step for which only the stream counts, not how its bytes are spread over buffer and source. -/
structure Streamed (a : Action α) : Prop where
  /-- Where it succeeds, it does so with the same bytes in the buffer. -/
  ok : ∀ {r x r'}, a r = .ok x r' → a (held r.stream) = .ok x (held r'.stream)
  /-- On a calm source it does in any case what it does with the bytes in the buffer. -/
  calm : ∀ {r}, r.Calm → view (a r) = view (a (held r.stream)) ∧ (after (a r)).Calm
  /-- At the end in place of a failure it does the same, only that it is short of bytes there. -/
  ending : ∀ r, Ending (a r) (a r.ending)
  /-- It only takes what it has made sure of. It misses no demand but the one that stops it. -/
  course : ∀ r, ∃ demands, Course r demands (after (a r)) ∧
    missedIn demands = (shortOf (a r.ending)).toList
  fault : ∀ {r fault r'}, a r = .error fault r' → fault.ofStream = true

namespace Streamed

theorem eq_held {a : Action α} (ha : Streamed a) {bytes : List UInt8} {x : α} {r : Reader}
    (h : a (held bytes) = .ok x r) : r = held r.stream := by
  have hok := ha.ok h
  rw [stream_held, h] at hok
  exact (EStateM.Result.ok.inj hok).2

theorem pure (x : α) : Streamed (Pure.pure x : Action α) where
  ok h := by
    obtain ⟨rfl, rfl⟩ := pure_ok.mp h
    rfl
  calm hcalm := ⟨by
    show (Except.ok x, _) = (Except.ok x, _)
    rw [stream_held], hcalm⟩
  ending r := .ok x r
  course r := ⟨[], .done r, rfl⟩
  fault h := by cases h

theorem throw {fault : Fault} (h : fault.ofContent = true) :
    Streamed (MonadExcept.throw fault : Action α) where
  ok hok := absurd hok throw_ok
  calm hcalm := ⟨by
    show (Except.error fault, _) = (Except.error fault, _)
    rw [stream_held], hcalm⟩
  ending r := .refused (fun cause hio => by cases hio ▸ h) r
  course r := ⟨[], .done r, by
    show [] = fault.shortOf.toList
    rw [Fault.shortOf_of_ofContent h]
    rfl⟩
  fault herror := by
    cases herror
    exact Fault.ofStream_of_ofContent h

theorem bind {a : Action α} {f : α → Action β} (ha : Streamed a) (hf : ∀ x, Streamed (f x)) :
    Streamed (a >>= f) where
  ok h := by
    obtain ⟨x, mid, hx, hy⟩ := bind_ok.mp h
    exact bind_ok.mpr ⟨x, _, ha.ok hx, (hf x).ok hy⟩
  calm {r} hcalm := by
    obtain ⟨hview, hcalm'⟩ := ha.calm hcalm
    cases h : a r with
    | ok x mid =>
      rw [h] at hcalm'
      rw [bind_of_ok f h, bind_of_ok f (ha.ok h)]
      exact (hf x).calm hcalm'
    | error fault mid =>
      rw [h] at hview hcalm'
      rw [bind_of_error f h]
      cases hheld : a (held r.stream) with
      | ok x' mid' =>
        rw [hheld] at hview
        cases hview
      | error fault' mid' =>
        rw [hheld] at hview
        cases congrArg Prod.fst hview
        rw [bind_of_error f hheld]
        have hstream : mid.stream = mid'.stream := congrArg Prod.snd hview
        exact ⟨Prod.ext rfl hstream, hcalm'⟩
  ending r := (ha.ending r).bind fun x mid => (hf x).ending mid
  course r := by
    obtain ⟨demands, hfirst, hmissed⟩ := ha.course r
    have hending := ha.ending r
    generalize hresult : a r = result at hfirst hending
    generalize htwin : a r.ending = twin at hmissed hending
    cases hending with
    | ok x mid =>
      obtain ⟨others, hsecond, hmissed'⟩ := (hf x).course mid
      rw [bind_of_ok f hresult, bind_of_ok f htwin, ← hmissed']
      exact ⟨demands ++ others, hfirst.append hsecond, by rw [missedIn_append, hmissed]; rfl⟩
    | refused _ mid | failed _ mid =>
      rw [bind_of_error f hresult, bind_of_error f htwin]
      exact ⟨demands, hfirst, hmissed⟩
  fault {r fault r'} h := by
    obtain h | ⟨x, mid, _, h⟩ := bind_error.mp h
    · exact ha.fault h
    · exact (hf x).fault h

/-- It only receives and consumes. -/
theorem history {a : Action α} (ha : Streamed a) (r : Reader) :
    ∃ events, History r events (after (a r)) := by
  obtain ⟨demands, h, _⟩ := ha.course r
  exact h.history

theorem fatal {a : Action α} (ha : Streamed a) {r r' : Reader} {fault : Fault}
    (h : a r = .error fault r') : fault.isFatal = true :=
  Fault.isFatal_of_ofStream (ha.fault h)

/-- What is left is a rest of what was there. -/
theorem suffix {a : Action α} (ha : Streamed a) (r : Reader) : (after (a r)).stream <:+ r.stream := by
  obtain ⟨events, h⟩ := ha.history r
  exact ⟨consumedIn events, h.stream.symm⟩

/-- Nothing is consumed that was not made sure of. -/
theorem stays {a : Action α} (ha : Streamed a) (r : Reader) : (after (a r)).strayed = r.strayed := by
  obtain ⟨events, h⟩ := ha.history r
  exact h.strayed

end Streamed

/-! ### Taking bytes -/

theorem front_of_le {n : Nat} {r : Reader} (h : n ≤ r.buffer.length) :
    front n r = .ok (r.buffer.take n) { r with buffer := r.buffer.drop n } := by
  simp only [front, holds_iff.mpr h, if_true]

/-- Bytes that are taken are the front of the stream; if there are not enough, none is consumed. -/
theorem take_cases (n : Nat) (r : Reader) :
    (∃ r', take n r = .ok (r.stream.take n) r' ∧ r'.stream = r.stream.drop n ∧
        r'.strayed = r.strayed ∧ n ≤ r.stream.length ∧ (r.Calm → r'.Calm)) ∨
      ∃ fault r', take n r = .error fault r' ∧ fault.ofStream = true ∧ r'.stream = r.stream ∧
        r'.strayed = r.strayed ∧
        (r.Calm → r'.Calm ∧ r.stream.length < n ∧ fault = .endOfStream n r.stream.length) := by
  rcases ensure_cases n r with ⟨r', hok, hstream, hstays, hle, hcalm⟩ | ⟨fault, r', herror, hrest⟩
  · have htake : r.stream.take n = r'.buffer.take n := by
      rw [← hstream, stream, List.take_append_of_le_length hle]
    have hdrop : r.stream.drop n = r'.buffer.drop n ++ r'.source.rest := by
      rw [← hstream, stream, List.drop_append_of_le_length hle]
    refine .inl ⟨{ r' with buffer := r'.buffer.drop n }, ?_, hdrop.symm, hstays, ?_, fun h => ?_⟩
    · rw [take, bind_of_ok _ hok, htake, front_of_le hle]
    · rw [← hstream, stream, List.length_append]
      omega
    · exact ⟨(hcalm h).source, (hcalm h).ended⟩
  · exact .inr ⟨fault, r', by rw [take, bind_of_error _ herror], hrest⟩

theorem take_held_of_le {n : Nat} {bytes : List UInt8} (h : n ≤ bytes.length) :
    take n (held bytes) = .ok (bytes.take n) (held (bytes.drop n)) := by
  rw [take, bind_of_ok _ (ensure_held_of_le h)]
  exact front_of_le h

theorem take_held_of_lt {n : Nat} {bytes : List UInt8} (h : bytes.length < n) :
    take n (held bytes) = .error (.endOfStream n bytes.length) (held bytes) := by
  rw [take, bind_of_error _ (ensure_held_of_lt h)]

theorem Streamed.take (n : Nat) : Streamed (take n) where
  ok {r x r'} h := by
    rcases take_cases n r with ⟨r'', hok, hstream, _, hle, _⟩ | ⟨fault, r'', herror, _⟩
    · rw [hok] at h
      cases h
      rw [take_held_of_le hle, hstream]
    · rw [herror] at h
      cases h
  calm {r} hr := by
    rcases take_cases n r with
      ⟨r', hok, hstream, _, hle, hcalm⟩ | ⟨fault, r', herror, _, hstream, _, hcalm⟩
    · rw [hok, take_held_of_le hle]
      exact ⟨by rw [view, view, hstream, stream_held], hcalm hr⟩
    · obtain ⟨hcalm', hlt, rfl⟩ := hcalm hr
      rw [herror, take_held_of_lt hlt]
      exact ⟨by rw [view, view, hstream, stream_held], hcalm'⟩
  ending r := (ending_ensure n r).bind fun _ => ending_front n
  course r := by
    have hfill := refill_ensure n r
    rcases ensure_cases n r with ⟨r', hok, _, _, hle, _⟩ | ⟨fault, r', herror, _⟩
    · have htake : Reader.take n r = .ok _ _ := (bind_of_ok _ hok).trans (front_of_le hle)
      have hending : Ending (Reader.take n r) (Reader.take n r.ending) :=
        (ending_ensure n r).bind fun _ => ending_front n
      rw [htake] at hending
      rw [hok] at hfill
      rw [htake, hending.shortOf_of_ok]
      exact ⟨[.met n], .met hfill hle (.done _), rfl⟩
    · obtain ⟨hlt, hshort⟩ := ensure_short herror
      rw [herror] at hfill
      rw [Reader.take, bind_of_error _ herror, shortOf_bind _ hshort]
      exact ⟨[.missed n], .missed hfill hlt (.done _), rfl⟩
  fault {r fault r'} h := by
    rcases take_cases n r with ⟨r'', hok, _⟩ | ⟨fault', r'', herror, hfault, _⟩
    · rw [hok] at h
      cases h
    · rw [herror] at h
      cases h
      exact hfault

end Reader

end ObjectBridge
