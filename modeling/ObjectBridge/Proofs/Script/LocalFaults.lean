import ObjectBridge.Proofs.Client.Lookup
import ObjectBridge.Proofs.Registry.Faults
import ObjectBridge.Proofs.Script.LifeCycle

/-!
# Faults before anything is sent

A request whose arguments cannot be converted, or that cannot be written, fails and leaves no trace: not in
the session, nor in any proxy, nor on the wire (`run_failsLocally`). However much of it had been put into the
buffer by then is dropped, so the next request that can be written goes out as it is.
-/

namespace ObjectBridge

/-! ### Requests that cannot be written -/

theorem Channel.send_of_fault {m : Message} {fault : Fault} (c : Channel) (h : m.encodeFault? = some fault) :
    send m c = .error fault c.close ∧ fault.isFatal = false := by
  obtain ⟨hmessage, hlocal⟩ := Writer.message_of_fault c.writer h
  refine ⟨?_, hlocal⟩
  unfold send writing
  simp only [hmessage]
  rfl

namespace Session

variable {s : Session} {m : Message} {fault : Fault}

theorem exchange_of_fault (hup : s.standing = .up) (hpending : s.channel.writer.pending = [])
    (h : m.encodeFault? = some fault) : exchange m s = .error fault s := by
  obtain ⟨hsend, hlocal⟩ := Channel.send_of_fault s.channel h
  rw [Channel.close_of_pending hpending] at hsend
  have hstep : (do Channel.send m; Channel.receive s.registry.catalogue : Channel.Action Message) s.channel =
      .error fault s.channel := bind_of_error _ hsend
  have htransact : transact (do Channel.send m; Channel.receive s.registry.catalogue) s = .error fault s := by
    simp only [transact, hup, hstep, hlocal]
    rw [← hup]
    rfl
  simp only [exchange, htransact]

/-! ### The next request -/

/-- What a request that can be written puts on the wire: its own encoding, or a front of it if the session
breaks. -/
def Adds (s : Session) (m : Message) (s' : Session) : Prop :=
  ∃ bytes, s'.channel.writer.sink.accepted = s.channel.writer.sink.accepted ++ bytes ∧ bytes <+: m.encode ∧
    (s'.isUp = true → bytes = m.encode)

theorem adds_of_puts {α : Type} {step : Channel.Action α} (hup : s.standing = .up)
    (hputs : Channel.Puts m s.channel (step s.channel))
    (hfatal : ∀ fault channel, step s.channel = .error fault channel → fault.isFatal = true) :
    s.Adds m (after (transact step s)) := by
  simp only [transact, hup]
  cases hstep : step s.channel with
  | ok x channel =>
    rw [hstep] at hputs
    exact ⟨m.encode, hputs.1.accepted, List.prefix_rfl, fun _ => rfl⟩
  | error fault channel =>
    rw [hstep] at hputs
    have hbreaks := hfatal fault channel hstep
    dsimp only
    rw [if_pos hbreaks]
    obtain ⟨_, hwhole | hpart⟩ | ⟨hlocal, _⟩ := hputs
    · exact ⟨m.encode, hwhole.accepted, List.prefix_rfl, fun _ => rfl⟩
    · obtain ⟨bytes, hbytes⟩ := hpart.least
      refine ⟨bytes, hbytes.symm, ?_, fun hup' => by cases hup'⟩
      have hmost := hpart.most
      rw [← hbytes] at hmost
      exact (List.prefix_append_right_inj _).mp hmost
    · rw [hbreaks] at hlocal
      cases hlocal

theorem Deed.adds {d : Deed} (hd : d.request? = some m) (hup : s.standing = .up)
    (hpending : s.channel.writer.pending = []) (hfits : m.encodeFault? = none) : s.Adds m (d.run s) := by
  have hsend (fault : Fault) (channel : Channel) (h : Channel.send m s.channel = .error fault channel) :
      fault.isFatal = true := by
    by_contra hlocal
    rw [((Channel.send_error h).2 (by simpa using hlocal)).1] at hfits
    cases hfits
  cases d with
  | close => cases hd
  | post other =>
    cases hd
    exact adds_of_puts hup (Channel.puts_send m hpending) hsend
  | exchange other =>
    cases hd
    have hadds : s.Adds m (after (transact (do Channel.send m; Channel.receive s.registry.catalogue) s)) := by
      refine adds_of_puts hup (Channel.puts_exchange m _ hpending) fun fault channel h => ?_
      obtain h | ⟨_, mid, _, hreceive⟩ := bind_error.mp h
      · exact hsend fault channel h
      · exact (Channel.receive_error hreceive).1
    obtain ⟨hchannel, hstanding⟩ := channel_exchange m s
    obtain ⟨bytes, haccepted, hprefix, hwhole⟩ := hadds
    refine ⟨bytes, ?_, hprefix, fun hup' => hwhole ?_⟩
    · rw [run, hchannel, haccepted]
    · rw [run, isUp, hstanding] at hup'
      exact hup'

end Session

namespace Client

variable {c : Client} {s : Nat} {session : Session} {m : Message} {fault : Fault}

theorem request_of_fault (hs : c.sessions[s]? = some session) (hup : session.standing = .up)
    (hpending : session.channel.writer.pending = []) (h : m.encodeFault? = some fault) :
    request s m c = .error fault c := by
  refine bind_of_error _ ?_
  rw [exchange, onSession_of_some hs, Session.exchange_of_fault hup hpending h]
  dsimp only
  rw [replaced_same hs]

theorem command_of_fault (hs : c.sessions[s]? = some session) (hup : session.standing = .up)
    (hpending : session.channel.writer.pending = []) (h : m.encodeFault? = some fault) :
    command s m c = .error fault c := bind_of_error _ (request_of_fault hs hup hpending h)

/-- A request of some values fails before anything is sent. -/
inductive Unsendable (c : Client) (s : Nat) (vs : List Value) (make : List Message → Option Message)
    (fault : Fault) : Prop where
  | conversion (h : (c.registry s).convertAll c.isReleased vs = .error fault)
  | encoding (ms : List Message) (m : Message) (hms : (c.registry s).convertAll c.isReleased vs = .ok ms)
      (hm : make ms = some m) (h : m.encodeFault? = some fault)

theorem Unsendable.converted {vs : List Value} {make : List Message → Message}
    (h : c.Unsendable s vs (fun ms => some (make ms)) fault) (hs : c.sessions[s]? = some session)
    (hup : session.standing = .up) (hpending : session.channel.writer.pending = []) :
    (do request s (make (← convertAll s vs)) : Action Value) c = .error fault c := by
  cases h with
  | conversion h => exact bind_of_error _ (outcome_of_error h)
  | encoding ms m hms hm h =>
    cases hm
    have hconverted : convertAll s vs c = .ok ms c := outcome_of_ok hms
    rw [bind_of_ok _ hconverted]
    exact request_of_fault hs hup hpending h

theorem convertAll_singleton (r : Registry) (released : Proxy → Bool) (v : Value) :
    r.convertAll released [v] = (r.convert released v).map fun m => [m] := by
  simp only [Registry.convertAll]
  cases r.convert released v <;> rfl

theorem Unsendable.assign {v : Value} {make : Message → Message}
    (h : c.Unsendable s [v] (fun ms => ms.head?.map make) fault)
    (hs : c.sessions[s]? = some session) (hup : session.standing = .up)
    (hpending : session.channel.writer.pending = []) :
    (do command s (make (← convert s v)) : Action Unit) c = .error fault c := by
  have hsingle := convertAll_singleton (c.registry s) c.isReleased v
  cases hconvert : (c.registry s).convert c.isReleased v with
  | error reason =>
    rw [hconvert] at hsingle
    have hreason : reason = fault := by
      cases h with
      | conversion h =>
        rw [hsingle] at h
        cases h
        rfl
      | encoding ms m hms hm h =>
        rw [hsingle] at hms
        cases hms
    subst hreason
    exact bind_of_error _ (outcome_of_error hconvert)
  | ok converted =>
    rw [hconvert] at hsingle
    have hconverted : convert s v c = .ok converted c := outcome_of_ok hconvert
    rw [bind_of_ok _ hconverted]
    cases h with
    | conversion h =>
      rw [hsingle] at h
      cases h
    | encoding ms m hms hm h =>
      rw [hsingle] at hms
      cases hms
      cases hm
      exact command_of_fault hs hup hpending h

end Client

namespace Script

open Client

/-- The operands that a step of a session hands over for conversion, if it makes a request of values. The
expression of a constructor is one. -/
def SessionStep.arguments? : SessionStep → Option (List Operand)
  | .create _ args | .callStatic _ _ args | .call _ _ args => some args
  | .construct expression => some [.literal (.string expression)]
  | .setProperty _ _ v | .setStaticProperty _ _ v => some [v]
  | _ => none

/-- The request that such a step makes of the converted values, in a session that makes objects by the static
method of a class. -/
def SessionStep.request? (creatorClass : String) : SessionStep → List Message → Option Message
  | .create className _, ms => some (.create className ms)
  | .callStatic className name _, ms => some (.callStaticMethod className name ms)
  | .call id name _, ms => some (.callMethod id name ms)
  | .construct _, ms => some (.callStaticMethod creatorClass creatorMethod ms)
  | .setProperty id name _, ms => ms.head?.map (.setProperty id name)
  | .setStaticProperty className name _, ms => ms.head?.map (.setStaticProperty className name)
  | _, _ => none

namespace State

variable {st : State} {s : Nat} {session : Session} {step : SessionStep} {fault : Fault}

/-- A step makes a request of values that it has, and they cannot be converted or the request cannot be
written. -/
inductive FailsLocally (st : State) (s : Nat) (session : Session) (step : SessionStep) (fault : Fault) : Prop where
  | intro (os : List Operand) (vs : List Value) (hargs : step.arguments? = some os)
      (hvs : st.operands os = .ok vs)
      (h : st.client.Unsendable s vs (step.request? session.config.creatorClass) fault)

theorem act_of_error {α : Type} {action : Client.Action α} {present : α → Answer}
    (h : action st.client = .error fault st.client) : st.act action present = (.failed fault, st) := by
  simp only [act, h]

theorem step_of_failsLocally (hs : st.session? s = some session) (hup : session.standing = .up)
    (hpending : session.channel.writer.pending = []) (h : st.FailsLocally s session step fault)
    (save : Option String) : st.step ⟨.session s step, save⟩ = (.failed fault, st) := by
  have hfound : st.client.sessions[s]? = some session := (Option.filter_eq_some_iff.mp hs).1
  obtain ⟨os, vs, hargs, hvs, h⟩ := h
  have hperform : st.performOnSession s session step = (.failed fault, st) := by
    cases step with
    | create | callStatic | call =>
      cases hargs
      simp only [performOnSession, hvs, given]
      exact act_of_error (h.converted hfound hup hpending)
    | construct expression =>
      cases hargs
      cases hvs
      refine act_of_error ?_
      unfold construct
      rw [hfound]
      exact h.converted hfound hup hpending
    | setProperty id name v | setStaticProperty className name v =>
      cases hargs
      obtain ⟨v, rfl, hv⟩ := operand_of_singleton hvs
      simp only [performOnSession, hv, given]
      exact act_of_error (h.assign hfound hup hpending)
    | _ => cases hargs
  simp only [State.step, perform, hs, needs, hperform]
  rfl

theorem rejectsAmong_of_unsendable {vs : List Value} {make : List Message → Option Message}
    (h : st.client.Unsendable s vs make fault) (hfatal : fault.isFatal = true) :
    st.client.RejectsAmong s fault vs := by
  cases h with
  | conversion h => exact Registry.rejectsAmong_of_convertAll h hfatal
  | encoding ms m hms hm h =>
    obtain ⟨what, length, rfl⟩ := Message.tooLong_of_encodeFault h
    cases hfatal

end State

/-- A step of a session fails and leaves no trace. -/
structure LeavesNoTrace (st : State) (s : Nat) (session : Session) (step : SessionStep) (fault : Fault) :
    Prop where
  unchanged : ∀ save, st.step ⟨.session s step, save⟩ = (.failed fault, st)
  /-- The fault is fatal only if a rule that was added to the registry gave it for one of the values. -/
  mild : fault.isFatal = true → ∃ os vs, step.arguments? = some os ∧ st.operands os = .ok vs ∧
    st.client.RejectsAmong s fault vs
  /-- So it is not fatal if all rules are standard ones. -/
  plain : (∀ rule ∈ session.registry.rules, ∀ convert, rule.converter ≠ .custom convert) →
    fault.isFatal = false
  pending : session.channel.writer.pending = []
  next : ∀ (d : Session.Deed) (m : Message), d.request? = some m → m.encodeFault? = none →
    session.Adds m (d.run session)

/-- After any run: a request that cannot be converted or written, in a session that is up, leaves no trace. -/
theorem run_failsLocally {st : State} (h : st.Fresh) (lines : List Line) {s : Nat} {session : Session}
    {step : SessionStep} {fault : Fault} (hs : (run st lines).session? s = some session)
    (hup : session.standing = .up) (hfails : (run st lines).FailsLocally s session step fault) :
    LeavesNoTrace (run st lines) s session step fault := by
  have hfound : (run st lines).client.sessions[s]? = some session := (Option.filter_eq_some_iff.mp hs).1
  have hmoves : Client.Moves (fun _ => True) st.client (run st lines).client :=
    (run_moves h.sound fun _ _ _ _ _ => trivial).1
  obtain ⟨start, _, _, hlock⟩ := lockstep_of_moves h hmoves hfound (Session.isUp_iff.mpr hup)
  have hpending := hlock.pending
  have hmild (hfatal : fault.isFatal = true) : ∃ os vs, step.arguments? = some os ∧
      (run st lines).operands os = .ok vs ∧ (run st lines).client.RejectsAmong s fault vs := by
    obtain ⟨os, vs, hargs, hvs, hunsendable⟩ := hfails
    exact ⟨os, vs, hargs, hvs, State.rejectsAmong_of_unsendable hunsendable hfatal⟩
  refine ⟨State.step_of_failsLocally hs hup hpending hfails, hmild, fun hplain => ?_, hpending,
    fun d m hm hfits => Session.Deed.adds hm hup hpending hfits⟩
  by_contra hfatal
  obtain ⟨os, vs, _, _, hrejects⟩ := hmild (by simpa using hfatal)
  rw [Client.RejectsAmong, Client.registry, hfound] at hrejects
  obtain ⟨rule, hrule, convert, hconverter⟩ := hrejects.added
  exact hplain rule hrule convert hconverter

/-- The server sends an object. -/
def singleState : State := .ofChannel { rest := [13, 208, 9, 7, 0, 0, 0, 0] } {}

/-- The object is released, but a slot keeps its proxy. -/
def releasedLines : List Line :=
  [⟨.session 0 (.create "P" []), some "p"⟩, ⟨.proxy "p" (.release true), none⟩]

/-- The released proxy is handed over inside a list. -/
def releasedArgument : SessionStep := .setStaticProperty "P" "Last" (.list [.slot "p"])

theorem run_failsLocally_released : ∃ session,
    (run singleState releasedLines).session? 0 = some session ∧ session.requests.length = 2 ∧
      LeavesNoTrace (run singleState releasedLines) 0 session releasedArgument (.released 7) := by
  have hrun : ((run singleState releasedLines).session? 0).map
      (fun session => (session.isUp, session.requests.length)) = some (true, 2) := by
    decide +kernel
  obtain ⟨session, hs, hvalues⟩ := Option.map_eq_some_iff.mp hrun
  obtain ⟨hup, hlength⟩ := Prod.mk.inj hvalues
  have hfails : ((run singleState releasedLines).operands [.list [.slot "p"]]).toOption.bind (fun vs =>
      fault? (((run singleState releasedLines).client.registry 0).convertAll
        (run singleState releasedLines).client.isReleased vs)) = some (.released 7) := by
    decide +kernel
  cases hvs : (run singleState releasedLines).operands [.list [.slot "p"]] with
  | error fault =>
    rw [hvs] at hfails
    cases hfails
  | ok vs =>
    rw [hvs] at hfails
    exact ⟨session, hs, hlength, run_failsLocally (State.fresh_ofChannel _ _) releasedLines hs
      (Session.isUp_iff.mp hup) ⟨_, vs, rfl, hvs, .conversion (fault?_eq_some.mp hfails)⟩⟩

/-- A rule that was added takes the argument of an object to create for malformed, and that is a fatal fault. -/
theorem failsLocally_malformed :
    strictState.Fresh ∧ ∃ session fault, strictState.session? 0 = some session ∧ session.standing = .up ∧
      strictState.FailsLocally 0 session (.create "P" [.literal .null]) fault ∧
      (strictState.step ⟨.session 0 (.create "P" [.literal .null]), none⟩).1 = .failed fault ∧
      fault.isFatal = true :=
  ⟨State.fresh_ofRegistry _ _ _, _, .malformed (.other "refused"), rfl, rfl,
    ⟨_, [.null], rfl, rfl, .conversion rfl⟩, rfl, rfl⟩

end Script

end ObjectBridge
