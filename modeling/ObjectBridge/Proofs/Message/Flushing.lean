import ObjectBridge.Message.Writes
import ObjectBridge.Proofs.Wire.Sinks

/-!
# What a writer's calls deliver

What becomes of written bytes is decided by the first flush or close behind them (`fate`). As long as the
flushes succeed, the sink has got the bytes that were flushed, in order, and the bytes whose fate is open are
pending; the first flush that fails adds a front of them (`run_delivers`). On a steady sink all this does not
depend on how its writes are cut and interrupted (`turns_alike`).
-/

namespace ObjectBridge.Writer

/-- The writer after a series of calls, failed or not. -/
def run (calls : List Call) (w : Writer) : Writer :=
  calls.foldl (fun w call => after (perform call w)) w

theorem run_cons (call : Call) (calls : List Call) (w : Writer) :
    run (call :: calls) w = run calls (after (perform call w)) := rfl

theorem after_write (item : Item) (w : Writer) :
    after (perform (.write item) w) = { w with pending := w.pending ++ item.written } := by
  show after (put item.fields w) = _
  unfold put
  cases firstFault? item.fields <;> rfl

theorem after_close (w : Writer) : after (perform .close w) = { w with pending := [] } := rfl

/-! ### Fates -/

/-- What becomes of written bytes. -/
inductive Fate where
  | pending
  | flushed
  | discarded
deriving DecidableEq

/-- What the calls make of bytes that are pending in front of them. -/
def fate : List Call → Fate
  | [] => .pending
  | .write _ :: calls => fate calls
  | .flush :: _ => .flushed
  | .close :: _ => .discarded

/-- The bytes that the calls write, those of some fates, in order. -/
def bytesOf (which : Fate → Bool) : List Call → List UInt8
  | [] => []
  | .write item :: calls => (if which (fate calls) then item.written else []) ++ bytesOf which calls
  | _ :: calls => bytesOf which calls

theorem bytesOf_flushed_of_pending {calls : List Call} (h : fate calls = .pending) :
    bytesOf (· == .flushed) calls = [] := by
  induction calls with
  | nil => rfl
  | cons call calls ih =>
    cases call with
    | write item =>
      have hopen : fate calls = .pending := h
      rw [bytesOf, hopen, ih hopen]
      rfl
    | flush | close => cases h

theorem bytesOf_kept (calls : List Call) :
    bytesOf (· != .discarded) calls = bytesOf (· == .flushed) calls ++ bytesOf (· == .pending) calls := by
  induction calls with
  | nil => rfl
  | cons call calls ih =>
    cases call with
    | write item =>
      rw [bytesOf, bytesOf, bytesOf, ih]
      -- an item that stays pending stands behind all that are flushed
      cases hfate : fate calls with
      | pending =>
        rw [bytesOf_flushed_of_pending hfate]
        simp
      | flushed | discarded => simp
    | flush | close => exact ih

/-! ### Runs with flushes that succeed -/

/-- Every flush among the calls succeeds. -/
def Flushes : List Call → Writer → Prop
  | [], _ => True
  | call :: calls, w =>
    (call = .flush → ∃ w', perform .flush w = .ok () w') ∧ Flushes calls (after (perform call w))

theorem run_spec {calls : List Call} {w : Writer} (h : Flushes calls w) :
    (run calls w).sink.accepted = w.sink.accepted ++
        ((if fate calls = .flushed then w.pending else []) ++ bytesOf (· == .flushed) calls) ∧
      (run calls w).pending =
        (if fate calls = .pending then w.pending else []) ++ bytesOf (· == .pending) calls := by
  -- what is pending before the calls shares the fate of what is written first
  induction calls generalizing w with
  | nil => simp [run, fate, bytesOf]
  | cons call calls ih =>
    obtain ⟨hflush, hrest⟩ := h
    obtain ⟨haccepted, hpending⟩ := ih hrest
    rw [run_cons, haccepted, hpending]
    cases call with
    | write item =>
      have hsame : fate (.write item :: calls) = fate calls := rfl
      rw [after_write, hsame, bytesOf, bytesOf]
      cases fate calls <;> simp
    | flush =>
      obtain ⟨w', hok⟩ := hflush rfl
      obtain ⟨hnone, hall⟩ := flush_ok hok
      rw [hok]
      simp only [after, hnone, hall, fate, bytesOf, ite_self, if_true, reduceCtorEq, if_false,
        List.nil_append, List.append_assoc, and_self]
    | close =>
      rw [after_close]
      simp only [fate, bytesOf, ite_self, reduceCtorEq, if_false, List.nil_append, and_self]

/-! ### Turns -/

/-- What a series of calls comes to: how each ends, and after it the bytes that the sink has accepted and
those that are pending. -/
def turns : List Call → Writer → List (Except Fault Unit × List UInt8 × List UInt8)
  | [], _ => []
  | call :: calls, w =>
    let result := perform call w
    (verdict result, (after result).sink.accepted, (after result).pending) :: turns calls (after result)

theorem perform_alike {w v : Writer} (hsink : w.sink.Alike v.sink) (hpending : w.pending = v.pending)
    (call : Call) :
    verdict (perform call w) = verdict (perform call v) ∧
      (after (perform call w)).sink.Alike (after (perform call v)).sink ∧
      (after (perform call w)).pending = (after (perform call v)).pending := by
  cases call with
  | write item =>
    refine ⟨?_, ?_, ?_⟩
    · simp only [perform, put]
      cases firstFault? item.fields <;> rfl
    · rw [after_write, after_write]
      exact hsink
    · rw [after_write, after_write, hpending]
  | close => exact ⟨rfl, hsink, rfl⟩
  | flush =>
    obtain ⟨hfailure, hwritten⟩ := hsink.write v.pending
    obtain ⟨hfailure', hflushed⟩ := hwritten.flush
    simp only [perform, flush, hpending]
    rw [← hfailure]
    cases (w.sink.write v.pending).1 with
    | some kind => exact ⟨rfl, hwritten, rfl⟩
    | none =>
      dsimp only
      rw [← hfailure']
      cases (w.sink.write v.pending).2.flush.1 with
      | some kind => exact ⟨rfl, hflushed, rfl⟩
      | none => exact ⟨rfl, hflushed, rfl⟩

theorem turns_alike {w v : Writer} (hsink : w.sink.Alike v.sink) (hpending : w.pending = v.pending)
    (calls : List Call) : turns calls w = turns calls v := by
  induction calls generalizing w v with
  | nil => rfl
  | cons call calls ih =>
    obtain ⟨hverdict, hsink', hpending'⟩ := perform_alike hsink hpending call
    rw [turns, turns, hverdict, hsink'.accepted, hpending', ih hsink' hpending']

/-! ### Deliveries -/

/-- As long as every flush has succeeded, the sink has accepted exactly the bytes that were flushed, and those
whose fate is open are pending. Only a flush changes the sink. One that succeeds leaves nothing pending and
everything accepted that was not discarded. One that fails adds a front of the pending bytes: if a write failed
not all of them, and they stay pending; if only the sink's own flush failed all of them, and nothing stays
pending. Whatever is called, a steady sink that cuts writes short and interrupts them answers as the plain one
does. -/
theorem run_delivers (sink : Sink) (calls : List Call) (hflushed : Flushes calls (ofSink sink)) :
    let w := run calls (ofSink sink)
    w.sink.accepted = sink.accepted ++ bytesOf (· == .flushed) calls ∧
      w.pending = bytesOf (· == .pending) calls ∧
      (∀ call, call ≠ .flush → (after (perform call w)).sink = w.sink) ∧
      (∀ w', perform .flush w = .ok () w' →
        w'.sink.accepted = sink.accepted ++ bytesOf (· != .discarded) calls ∧ w'.pending = []) ∧
      (∀ fault w', perform .flush w = .error fault w' →
        ∃ kind front, fault = .io { kind } ∧ front <+: w.pending ∧
          w'.sink.accepted = w.sink.accepted ++ front ∧
          ((w.sink.write w.pending).1 = some kind ∧ front ≠ w.pending ∧ w'.pending = w.pending ∨
            (w.sink.write w.pending).1 = none ∧ (w.sink.write w.pending).2.flush.1 = some kind ∧
              front = w.pending ∧ w'.pending = [])) ∧
      (sink.Steady → ∀ more, turns more (ofSink sink) = turns more (ofSink sink.plain)) := by
  intro w
  obtain ⟨haccepted, hpending⟩ := run_spec hflushed
  have hnone : (ofSink sink).pending = [] := rfl
  simp only [hnone, ite_self, List.nil_append] at haccepted hpending
  refine ⟨haccepted, hpending, fun call hcall => ?_, fun w' hok => ?_, fun fault w' herror => ?_,
    fun hsteady more => ?_⟩
  · cases call with
    | write item => rw [after_write]
    | close => rfl
    | flush => exact absurd rfl hcall
  · obtain ⟨hempty, hall⟩ := flush_ok hok
    refine ⟨?_, hempty⟩
    rw [hall, haccepted, hpending, bytesOf_kept, List.append_assoc]
    rfl
  · have hcase := flushCase w
    have hflush : flush w = .error fault w' := herror
    rw [hflush] at hcase
    cases hcase with
    | @cut n kind sink' hwrite hshort hfront =>
      refine ⟨kind, w.pending.take n, rfl, List.take_prefix .., hfront, .inl ⟨by rw [hwrite], ?_, rfl⟩⟩
      intro hwhole
      have hlen := congrArg List.length hwhole
      rw [List.length_take] at hlen
      omega
    | @stuck kind sink' sink'' hwrite hstuck hall =>
      refine ⟨kind, w.pending, rfl, List.prefix_refl _, hall, .inr ⟨by rw [hwrite], ?_, rfl, rfl⟩⟩
      rw [hwrite, hstuck]
  · have halike : (ofSink sink).sink.Alike (ofSink sink.plain).sink := hsteady.alike_plain
    exact turns_alike halike rfl more

/-- Two bytes are flushed, one is discarded and two are pending when a write that accepts nothing ends a flush
after the first of them. On the way writes are cut to single bytes and interrupted. -/
theorem run_delivers_cut :
    let sink : Sink := { outages := [(1, .failure .interrupted), (3, .nothing)], pieces := [1, 1] }
    let calls : List Call := [.write (.u16 1), .flush, .write (.byte 7), .close, .write (.u16 8)]
    let w := run calls (ofSink sink)
    w.sink.accepted = [1, 0] ∧ w.pending = [8, 0] ∧ (after (perform .flush w)).sink.accepted = [1, 0, 8] ∧
      (after (perform .flush w)).pending = [8, 0] ∧
      turns (calls ++ [.flush]) (ofSink sink) =
        turns (calls ++ [.flush]) (ofSink { outages := [(3, .nothing)] }) := by
  intro sink calls w
  have hflushed : Flushes calls (ofSink sink) :=
    ⟨nofun, fun _ => ⟨_, rfl⟩, nofun, nofun, nofun, trivial⟩
  obtain ⟨haccepted, hpending, _, _, hfailed, hplain⟩ := run_delivers sink calls hflushed
  have herror : perform .flush w = .error (.io { kind := .writeZero }) (after (perform .flush w)) := rfl
  obtain ⟨kind, front, _, _, _, ⟨_, _, hstays⟩ | ⟨hwritten, _⟩⟩ := hfailed _ _ herror
  · exact ⟨haccepted, hpending, rfl, hstays.trans hpending, hplain (by simp [Sink.Steady, sink]) _⟩
  · cases hwritten

end ObjectBridge.Writer
