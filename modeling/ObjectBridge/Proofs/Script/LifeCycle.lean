import Mathlib.Data.List.Induction
import ObjectBridge.Proofs.Script.Gate
import ObjectBridge.Proofs.Script.Lockstep

/-!
# The life of a session in a script

However a client uses its sessions, one that is not up any more was closed by a line or was broken by a fatal
fault of its channel, in a line that began while it was up; and that is how it stays (`run_lifeCycle`). The
channel of such a session is never touched again, and whatever needs it fails.
-/

namespace ObjectBridge

namespace Script

open Client

/-- Sessions end only where the step says so. -/
def closesOnly (step : Step) (s : Nat) (d : Session.Deed) : Prop := d = .close → step = .session s .close

namespace State

variable {st : State} {s : Nat} {lines : List Line} {session session' : Session}

theorem permits_closesOnly (st : State) (step : Step) : st.Permits (closesOnly step) step := by
  have hopen (t : Nat) : Open (closesOnly step) t := by
    intro d hclose _ hd
    subst hd
    cases hclose
  exact ⟨fun t _ => hopen t, fun _ _ _ hclose => (by cases hclose), fun _ hstep _ => hstep,
    fun t _ _ _ _ => .inl (hopen t)⟩

theorem step_course (h : st.Sound) {line : Line} (hs : st.client.sessions[s]? = some session)
    (hs' : (st.step line).2.client.sessions[s]? = some session') :
    session.Course (line.step = .session s .close) session' := by
  have hruns : Runs (closesOnly line.step) st.client (st.step line).2.client :=
    (step_runs h (permits_closesOnly st line.step)).1
  exact (hruns.course hs hs').mono fun hmay => hmay rfl

/-- What has become of a session by the end of some lines: it is up, or one of them ended it. It was closed only
if that line is to close it. -/
inductive Fate (st : State) (s : Nat) (lines : List Line) (session : Session) : Prop where
  | up (hstanding : session.standing = .up) (hfault : session.fault? = none)
  | ended (front : List Line) (line : Line) (back : List Line) (before : Session)
      (hlines : lines = front ++ line :: back)
      (hbefore : (run st front).client.sessions[s]? = some before)
      (hends : before.Ends (line.step = .session s .close) session)

theorem fate_of_up (h : session.standing = .up) : st.Fate s lines session := by
  refine .up h ?_
  rw [Session.fault?, h]

theorem run_concat (st : State) (lines : List Line) (line : Line) :
    run st (lines ++ [line]) = ((run st lines).step line).2 := by
  rw [run, List.foldl_append]
  rfl

theorem Fresh.sound_run (h : st.Fresh) (lines : List Line) : (run st lines).Sound :=
  (run_moves h.sound fun _ _ _ _ _ => trivial : Moves (fun _ => True) _ _ ∧ _).2

theorem fate_of_run (h : st.Fresh) (hs : (run st lines).client.sessions[s]? = some session) :
    st.Fate s lines session := by
  -- By one line more at the end, which may end a session that is up and changes nothing about one that is not.
  induction lines using List.reverseRecOn generalizing session with
  | nil => exact fate_of_up (h.sessions s session hs).standing
  | append_singleton lines line ih =>
    rw [run_concat] at hs
    have hsound := h.sound_run lines
    have hruns : Runs (closesOnly line.step) _ _ := (step_runs hsound (permits_closesOnly _ line.step)).1
    obtain ⟨before, hbefore, _⟩ := hruns.sessions hs
    have hcourse := step_course hsound hbefore hs
    cases ih hbefore with
    | up hup =>
      cases hcourse with
      | goesOn _ hup' => exact fate_of_up hup'
      | ends hends => exact .ended lines line [] before rfl hbefore hends
      | stays hdown => exact absurd hup hdown
    | ended front first back start hlines hstart hends =>
      obtain ⟨hstanding, hchannel⟩ := hcourse.of_down hends.down
      refine .ended front first (back ++ [line]) start ?_ hstart (hends.congr hstanding hchannel)
      rw [hlines, List.append_assoc]
      rfl

theorem client_close {save : Option String} (hs : st.client.sessions[s]? = some session)
    (hattached : session.attached = true) :
    (st.step ⟨.session s .close, save⟩).2.client = st.client.modifySession s Session.close := by
  have hsession : st.session? s = some session := by
    rw [session?, hs, Option.filter_some, if_pos hattached]
  simp only [step, perform, hsession, needs, performOnSession]
  cases save <;> rfl

end State

/-- What is known of a session after some lines. -/
structure LifeCycle (st : State) (s : Nat) (lines : List Line) (session : Session) : Prop where
  /-- It was up at the start. -/
  start : ∃ start, st.client.sessions[s]? = some start ∧ start.standing = .up ∧ start.fault? = none
  /-- It is up, or a line closed it, or a fatal fault of its channel broke it in a line. -/
  fate : st.Fate s lines session
  /-- As long as it is up, each fatal fault in sending or receiving breaks it, whatever is sent. -/
  breaks : session.standing = .up → ∀ d fault, Session.Deed.fault? d session = some fault →
    fault.isFatal = true →
    (d.run session).standing = .broken fault.message ∧ (d.run session).fault? = some fault.message
  /-- To close it ends it if it is up, and changes nothing about it else. -/
  closes : session.attached = true → ∀ save session',
    ((run st lines).step ⟨.session s .close, save⟩).2.client.sessions[s]? = some session' →
    (session.standing = .up → session'.standing = .closed ∧ session'.fault? = none) ∧
      (session.standing ≠ .up → session' = session)
  /-- Once it is not up it stays as it is: nothing is read from its source, and its sink accepts nothing. -/
  final : session.standing ≠ .up → ∀ later session',
    (run (run st lines) later).client.sessions[s]? = some session' →
    session'.standing = session.standing ∧ session'.fault? = session.fault? ∧
      session'.channel = session.channel
  /-- Then each request to it fails, because it is closed or because it is broken by its fault, and so does
  each line that needs it. -/
  refused : session.standing ≠ .up → ∃ refusal,
    (session.standing = .closed ∧ refusal = .closed ∨
      ∃ cause, session.fault? = some cause ∧ refusal = .broken cause) ∧
    (∀ m, Session.exchange m session = .error refusal session ∧
      Session.post m session = .error refusal session) ∧
    ∀ line : Line, line.step.asksStanding = false → (run st lines).Needs s line →
      ((run st lines).step line).1 = .failed refusal
  /-- Whenever an operation fails with a fatal fault, its session is broken, unless a rule that was added to
  the registry gave the fault for an operand. -/
  fatal : ∀ (line : Line) (vs : List Value) (fault : Fault),
    (run st lines).operands line.step.operands = .ok vs →
    ((run st lines).step line).1 = .failed fault → fault.isFatal = true →
    ∃ t, (run st lines).subject? line.step = some t ∧
      ((∃ broken cause, ((run st lines).step line).2.client.sessions[t]? = some broken ∧
          broken.standing = .broken cause ∧ (cause = fault.message ∨ fault = .broken cause)) ∨
        (run st lines).client.RejectsAmong t fault vs)

/-- In every run, whatever the source and the sink of a session do, this is its life. -/
theorem run_lifeCycle {st : State} (h : st.Fresh) {lines : List Line} {s : Nat} {session : Session}
    (hs : (run st lines).client.sessions[s]? = some session) : LifeCycle st s lines session := by
  have hsound : (run st lines).Sound := h.sound_run lines
  refine ⟨?_, State.fate_of_run h hs, fun hup d fault hfails hfatal => ?_,
    fun hattached save session' hs' => ?_, fun hdown later session' hs' => ?_, fun hdown => ?_,
    fun line vs fault hvs hanswer hfatal => ?_⟩
  · have hruns : Moves (fun _ => True) st.client (run st lines).client :=
      (run_moves h.sound fun _ _ _ _ _ => trivial).1
    obtain ⟨start, hstart, _⟩ := hruns.sessions hs
    have hup := (h.sessions s start hstart).standing
    exact ⟨start, hstart, hup, by rw [Session.fault?, hup]⟩
  · have hstanding : (d.run session).standing = .broken fault.message := by
      rw [d.standing_run hup, Session.Deed.outcome_of_fault hfails hfatal]
    exact ⟨hstanding, Session.fault?_of_standing hstanding⟩
  · rw [State.client_close hs hattached, modifySession, Array.getElem?_modify, if_pos rfl, hs,
      Option.map_some, Option.some.injEq] at hs'
    subst hs'
    refine ⟨fun hup => ?_, Session.close_of_down⟩
    rw [Session.close_of_up hup]
    exact ⟨rfl, rfl⟩
  · have hruns : Moves (fun _ => True) (run st lines).client (run (run st lines) later).client :=
      (run_moves hsound fun _ _ _ _ _ => trivial).1
    obtain ⟨hstanding, hchannel⟩ := (hruns.course hs hs').of_down hdown
    refine ⟨hstanding, ?_, hchannel⟩
    rw [Session.fault?, hstanding, Session.fault?]
  · obtain ⟨refusal, hrefusal, hwhy⟩ := Session.refusal?_of_down hdown
    refine ⟨refusal, hwhy, fun m => ⟨Session.exchange_of_refusal m hrefusal,
      Session.transact_of_refusal _ hrefusal⟩, fun line hasks hneeds => ?_⟩
    refine State.failed_of_needs ?_ hasks hneeds
    rw [Client.refusal?, hs, Option.bind_some, hrefusal]
  · obtain ⟨t, hsubject, ⟨cause, hrefusal, hcause⟩ | hrejects⟩ := State.broken_of_failed hvs hanswer hfatal
    · obtain ⟨broken, hbroken, hcaused⟩ := Option.bind_eq_some_iff.mp hrefusal
      exact ⟨t, hsubject, .inl ⟨broken, cause, hbroken, Session.broken_of_refusal hcaused, hcause⟩⟩
    · exact ⟨t, hsubject, .inr hrejects⟩

/-- The server names an object and stops in the middle of the next reply. -/
def cutState : State := .ofChannel { rest := [13, 208, 9, 7, 0, 0, 0, 0, 13] } {}

/-- An object is made, and an element of it is asked for. -/
def cutLines : List Line :=
  [⟨.session 0 (.create "Point" []), some "point"⟩, ⟨.proxy "point" (.element 2), none⟩]

/-- The session is broken by the end of the input, and says so when the element is asked for again. -/
theorem run_lifeCycle_cutOff :
    ∃ session, (run cutState cutLines).client.sessions[0]? = some session ∧
      LifeCycle cutState 0 cutLines session ∧
      session.fault? = some "unexpected end of stream: needed 2 bytes, 1 buffered" ∧
      ((run cutState cutLines).step ⟨.proxy "point" (.element 2), none⟩).1 =
        .failed (.broken "unexpected end of stream: needed 2 bytes, 1 buffered") := by
  let closed : State := { run cutState cutLines with
    client := (run cutState cutLines).client.modifySession 0 fun session =>
      { session with standing := .closed } }
  have hrun : ((run cutState cutLines).client.sessions[0]?).map Session.fault? =
      some (some "unexpected end of stream: needed 2 bytes, 1 buffered") := by
    decide +kernel
  have hanswers : (closed.step ⟨.proxy "point" (.element 2), none⟩).1.fault? ≠
      ((run cutState cutLines).step ⟨.proxy "point" (.element 2), none⟩).1.fault? := by
    decide +kernel
  obtain ⟨session, hs, hfault⟩ := Option.map_eq_some_iff.mp hrun
  have hlife : LifeCycle cutState 0 cutLines session := run_lifeCycle (State.fresh_ofChannel _ _) hs
  have hdown : session.standing ≠ .up := by
    intro hup
    rw [Session.fault?, hup] at hfault
    cases hfault
  obtain ⟨refusal, hwhy, _, hrefused⟩ := hlife.refused hdown
  have hneeds : (run cutState cutLines).Needs 0 ⟨.proxy "point" (.element 2), none⟩ :=
    ⟨closed, ⟨alike_modifySession _ fun _ => ⟨_, _, _, rfl⟩, rfl⟩, fun heq => hanswers (congrArg _ heq)⟩
  refine ⟨session, hs, hlife, hfault, ?_⟩
  rw [hrefused _ rfl hneeds]
  obtain ⟨hclosed, _⟩ | ⟨cause, hcause, rfl⟩ := hwhy
  · rw [Session.fault?, hclosed] at hfault
    cases hfault
  · rw [hfault, Option.some.injEq] at hcause
    rw [hcause]

def strictState : State := .ofRegistry .strict { rest := [] } {}

def strictLine : Line := ⟨.session 0 (.setStaticProperty "P" "Last" (.literal .null)), none⟩

/-- A rule that was added takes the value of a property for malformed. The fault is fatal, but the session is
up. -/
theorem step_unbroken : strictState.Fresh ∧ ∃ fault session,
    (strictState.step strictLine).1 = .failed fault ∧ fault.isFatal = true ∧
      (strictState.step strictLine).2.client.sessions[0]? = some session ∧
      session.standing = .up ∧ session.fault? = none :=
  ⟨State.fresh_ofRegistry _ _ _, .malformed (.other "refused"), _, rfl, rfl, rfl, rfl, rfl⟩

end Script

end ObjectBridge
