import ObjectBridge.Proofs.Client.OnWire

/-!
# The life of a session

A session that is up goes on until it is closed or until it cannot send a request or receive the reply to it,
for a fatal fault. `Session.Ends` says how: it is closed without a fault, or it is broken and keeps the
wording of this very fault. From there on neither its standing nor its channel ever changes. Whatever
happens to a client, this is the course of each of its sessions (`Client.Runs.course`).
-/

namespace ObjectBridge

namespace Session

variable {α : Type} {s s' s'' mid : Session} {refusal : Fault} {may may' : Prop}

/-! ### A session that is not up -/

/-- What a session that is not up answers instead of using its channel. -/
def refusal? (s : Session) : Option Fault :=
  match s.standing with
  | .up => none
  | .closed => some .closed
  | .broken cause => some (.broken cause)

theorem not_up_of_refusal (h : s.refusal? = some refusal) : s.standing ≠ .up := by
  intro hup
  rw [refusal?, hup] at h
  cases h

theorem up_of_refusal?_none (h : s.refusal? = none) : s.standing = .up := by
  unfold refusal? at h
  split at h
  · assumption
  · cases h
  · cases h

theorem refusal?_congr (h : s'.standing = s.standing) : s'.refusal? = s.refusal? := by
  rw [refusal?, h, refusal?]

theorem broken_of_refusal {cause : String} (h : s.refusal? = some (.broken cause)) :
    s.standing = .broken cause := by
  unfold refusal? at h
  split at h
  · cases h
  · cases h
  · rename_i hstanding
    cases h
    exact hstanding

theorem refusal?_cases (h : s.refusal? = some refusal) :
    refusal = .closed ∨ ∃ cause, refusal = .broken cause := by
  unfold refusal? at h
  split at h
  · cases h
  · cases h
    exact .inl rfl
  · rename_i cause _
    cases h
    exact .inr ⟨cause, rfl⟩

theorem refusal?_of_down (h : s.standing ≠ .up) :
    ∃ refusal, s.refusal? = some refusal ∧
      (s.standing = .closed ∧ refusal = .closed ∨
        ∃ cause, s.fault? = some cause ∧ refusal = .broken cause) := by
  cases hstanding : s.standing with
  | up => exact absurd hstanding h
  | closed => exact ⟨.closed, by rw [refusal?, hstanding], .inl ⟨rfl, rfl⟩⟩
  | broken cause =>
    exact ⟨.broken cause, by rw [refusal?, hstanding], .inr ⟨cause, by rw [fault?, hstanding], rfl⟩⟩

theorem transact_of_refusal (step : Channel.Action α) (h : s.refusal? = some refusal) :
    transact step s = .error refusal s := by
  unfold refusal? at h
  split at h
  · cases h
  · rename_i hstanding
    cases h
    simp only [transact, hstanding]
  · rename_i cause hstanding
    cases h
    simp only [transact, hstanding]

theorem exchange_of_refusal (m : Message) (h : s.refusal? = some refusal) :
    exchange m s = .error refusal s := by
  simp only [exchange, transact_of_refusal _ h]

/-! ### How a session ends -/

/-- The fault with which a session fails to send its request or to receive the reply to it, if it does. -/
def Deed.fault? : Deed → Session → Option Fault
  | exchange m, s =>
    match Channel.send m s.channel with
    | .error fault _ => some fault
    | .ok _ sent =>
      match Channel.receive s.registry.catalogue sent with
      | .error fault _ => some fault
      | .ok _ _ => none
  | post m, s =>
    match Channel.send m s.channel with
    | .error fault _ => some fault
    | .ok _ _ => none
  | close, _ => none

/-- How a session stands after something it does on its channel while it is up. -/
def Deed.outcome (d : Deed) (s : Session) : Standing :=
  if d.isClose then .closed
  else
    match d.fault? s with
    | some fault => if fault.isFatal then .broken fault.message else .up
    | none => .up

theorem standing_transact (step : Channel.Action α) (hup : s.standing = .up) :
    (after (transact step s)).standing =
      match step s.channel with
      | .ok _ _ => .up
      | .error fault _ => if fault.isFatal then .broken fault.message else .up := by
  simp only [transact, hup]
  cases step s.channel with
  | ok a channel => rfl
  | error fault channel =>
    dsimp only
    split <;> rfl

theorem Deed.standing_run (d : Deed) (hup : s.standing = .up) : (d.run s).standing = d.outcome s := by
  cases d with
  | exchange m =>
    rw [run, (channel_exchange m s).2, standing_transact _ hup]
    simp only [outcome, isClose, fault?, Bool.false_eq_true, if_false]
    cases hsend : Channel.send m s.channel with
    | error fault channel => rw [bind_of_error _ hsend]
    | ok _ sent =>
      rw [bind_of_ok _ hsend]
      dsimp only
      cases Channel.receive s.registry.catalogue sent <;> rfl
  | post m =>
    rw [run, Session.post, standing_transact _ hup]
    simp only [outcome, isClose, fault?, Bool.false_eq_true, if_false]
    cases Channel.send m s.channel <;> rfl
  | close =>
    rw [run, close_of_up hup]
    rfl

theorem Deed.outcome_of_fault {d : Deed} {fault : Fault} (h : d.fault? s = some fault)
    (hfatal : fault.isFatal = true) : d.outcome s = .broken fault.message := by
  have hclose : d.isClose = false := by
    cases d with
    | close => cases h
    | exchange | post => rfl
  simp only [outcome, hclose, h, hfatal, Bool.false_eq_true, if_false, if_true]

/-- How a session that was up came to its end, by steps that led to `mid` and by what it did there. It was
closed only if it may have been. -/
inductive Ends (may : Prop) (s s' : Session) : Prop where
  | closed (mid : Session) (hsteps : Relation.ReflTransGen Step s mid) (hup : mid.standing = .up)
      (hmay : may) (hstanding : s'.standing = .closed) (hfault : s'.fault? = none)
      (hchannel : s'.channel = mid.channel.close)
  | broken (mid : Session) (d : Deed) (fault : Fault) (hsteps : Relation.ReflTransGen Step s mid)
      (hup : mid.standing = .up) (hfails : d.fault? mid = some fault) (hfatal : fault.isFatal = true)
      (hstanding : s'.standing = .broken fault.message) (hfault : s'.fault? = some fault.message)
      (hchannel : s'.channel = (d.run mid).channel)

/-- What becomes of a session by steps: it goes on, it ends among them, or it was at its end before. -/
inductive Course (may : Prop) (s s' : Session) : Prop where
  | goesOn (hup : s.standing = .up) (hup' : s'.standing = .up)
      (hsteps : Relation.ReflTransGen Step s s')
  | ends (hends : s.Ends may s')
  | stays (hdown : s.standing ≠ .up) (hstanding : s'.standing = s.standing)
      (hchannel : s'.channel = s.channel)

theorem up_of_steps (hsteps : Relation.ReflTransGen Step s s') (hup : s'.standing = .up) :
    s.standing = .up := by
  by_contra hdown
  have hdown' : s.isUp = false := by
    rw [Bool.eq_false_iff, Ne, isUp_iff]
    exact hdown
  have hend := (channel_of_down hsteps hdown').2
  rw [isUp_iff.mpr hup] at hend
  cases hend

theorem fault?_of_standing {cause : String} (h : s.standing = .broken cause) : s.fault? = some cause := by
  simp only [fault?, h]

namespace Ends

theorem up (h : s.Ends may s') : s.standing = .up := by
  cases h with
  | closed mid hsteps hup => exact up_of_steps hsteps hup
  | broken mid d fault hsteps hup => exact up_of_steps hsteps hup

theorem down (h : s.Ends may s') : s'.standing ≠ .up := by
  intro hup
  cases h with
  | closed _ _ _ _ hstanding =>
    rw [hstanding] at hup
    cases hup
  | broken _ _ _ _ _ _ _ hstanding =>
    rw [hstanding] at hup
    cases hup

theorem mono (h : s.Ends may s') (hmay : may → may') : s.Ends may' s' := by
  cases h with
  | closed mid hsteps hup h hstanding hfault hchannel =>
    exact .closed mid hsteps hup (hmay h) hstanding hfault hchannel
  | broken mid d fault hsteps hup hfails hfatal hstanding hfault hchannel =>
    exact .broken mid d fault hsteps hup hfails hfatal hstanding hfault hchannel

theorem of_steps (h : s'.Ends may s'') (hsteps : Relation.ReflTransGen Step s s') : s.Ends may s'' := by
  cases h with
  | closed mid hrest hup h hstanding hfault hchannel =>
    exact .closed mid (hsteps.trans hrest) hup h hstanding hfault hchannel
  | broken mid d fault hrest hup hfails hfatal hstanding hfault hchannel =>
    exact .broken mid d fault (hsteps.trans hrest) hup hfails hfatal hstanding hfault hchannel

theorem congr (h : s.Ends may s') (hstanding : s''.standing = s'.standing)
    (hchannel : s''.channel = s'.channel) : s.Ends may s'' := by
  have hfault : s''.fault? = s'.fault? := by rw [fault?, hstanding, fault?]
  cases h with
  | closed mid hsteps hup h hstanding' hfault' hchannel' =>
    exact .closed mid hsteps hup h (hstanding.trans hstanding') (hfault.trans hfault')
      (hchannel.trans hchannel')
  | broken mid d fault hsteps hup hfails hfatal hstanding' hfault' hchannel' =>
    exact .broken mid d fault hsteps hup hfails hfatal (hstanding.trans hstanding')
      (hfault.trans hfault') (hchannel.trans hchannel')

end Ends

namespace Course

theorem of_same (hstep : s.Step s') (hstanding : s'.standing = s.standing)
    (hchannel : s'.channel = s.channel) : s.Course may s' := by
  by_cases hup : s.standing = .up
  · exact .goesOn hup (hstanding.trans hup) (.single hstep)
  · exact .stays hup hstanding hchannel

theorem mono (h : s.Course may s') (hmay : may → may') : s.Course may' s' := by
  cases h with
  | goesOn hup hup' hsteps => exact .goesOn hup hup' hsteps
  | ends hends => exact .ends (hends.mono hmay)
  | stays hdown hstanding hchannel => exact .stays hdown hstanding hchannel

theorem refl (s : Session) : s.Course may s := of_same (.tend s s rfl rfl rfl rfl) rfl rfl

theorem of_down (h : s.Course may s') (hdown : s.standing ≠ .up) :
    s'.standing = s.standing ∧ s'.channel = s.channel := by
  cases h with
  | goesOn hup => exact absurd hup hdown
  | ends hends => exact absurd hends.up hdown
  | stays _ hstanding hchannel => exact ⟨hstanding, hchannel⟩

theorem trans (h : s.Course may s') (h' : s'.Course may s'') : s.Course may s'' := by
  -- The first course that does not go on decides.
  cases h with
  | goesOn hup hup' hsteps =>
    cases h' with
    | goesOn _ hup'' hrest => exact .goesOn hup hup'' (hsteps.trans hrest)
    | ends hends => exact .ends (hends.of_steps hsteps)
    | stays hdown => exact absurd hup' hdown
  | ends hends =>
    obtain ⟨hstanding, hchannel⟩ := h'.of_down hends.down
    exact .ends (hends.congr hstanding hchannel)
  | stays hdown hstanding hchannel =>
    have hdown' : s'.standing ≠ .up := by
      rw [hstanding]
      exact hdown
    obtain ⟨hstanding', hchannel'⟩ := h'.of_down hdown'
    exact .stays hdown (hstanding'.trans hstanding) (hchannel'.trans hchannel)

end Course

theorem Deed.course {d : Deed} (hfits : d.Fits) (s : Session) (hmay : d = .close → may) :
    s.Course may (d.run s) := by
  by_cases hup : s.standing = .up
  · have hstanding := d.standing_run hup
    unfold outcome at hstanding
    split at hstanding
    · rename_i hclose
      have hd : d = .close := by
        cases d with
        | close => rfl
        | exchange | post => cases hclose
      subst hd
      refine .ends (.closed s .refl hup (hmay rfl) hstanding ?_ ?_)
      · rw [Session.fault?, hstanding]
      · rw [run, close_of_up hup]
    · split at hstanding
      · rename_i fault hfails
        split at hstanding
        · rename_i hfatal
          exact .ends (.broken s d fault .refl hup hfails hfatal hstanding
            (fault?_of_standing hstanding) rfl)
        · exact .goesOn hup hstanding (.single (d.step hfits s))
      · exact .goesOn hup hstanding (.single (d.step hfits s))
  · obtain ⟨hchannel, hstanding⟩ := (d.step hfits s).of_down hup
    exact .stays hup hstanding hchannel

end Session

namespace Client

variable {free : Nat → Session.Deed → Prop} {c c' : Client} {s : Nat} {session session' : Session}

/-- A step of a client ends none of its sessions but as told, and closes it only if it is free to. -/
theorem Step.course (h : Step free c c') (hs : c.sessions[s]? = some session)
    (hs' : c'.sessions[s]? = some session') : session.Course (free s .close) session' := by
  have hsame (hs' : c.sessions[s]? = some session') : session.Course (free s .close) session' := by
    rw [hs, Option.some.injEq] at hs'
    subst hs'
    exact .refl session
  cases h with
  | ask t found d ht hfits hallowed =>
    obtain ⟨rfl, rfl⟩ | hkept := getElem?_replaced_cases ht hs'
    · rw [hs, Option.some.injEq] at ht
      subst ht
      -- To close is no request, so it is never allowed for the objects that it names.
      refine Session.Deed.course hfits session fun hclose => ?_
      subst hclose
      obtain hfree | ⟨_, m, hm, _⟩ := hallowed
      · exact hfree
      · cases hm
    · exact hsame hkept
  | tend t found found' ht htended =>
    obtain ⟨rfl, rfl⟩ | hkept := getElem?_replaced_cases ht hs'
    · rw [hs, Option.some.injEq] at ht
      subst ht
      exact .of_same htended.step htended.standing htended.channel
    · exact hsame hkept
  | make t id className h =>
    rw [objectFor_of_none className h] at hs'
    simp only [modifySession, Array.getElem?_modify] at hs'
    split at hs'
    · rw [hs] at hs'
      cases hs'
      exact .of_same (.tend _ _ rfl rfl rfl rfl) rfl rfl
    · exact hsame hs'
  | adjust => exact hsame hs'
  | letGo key old new h hnew =>
    simp only [told, Array.getElem?_modify] at hs'
    split at hs'
    · rw [hs] at hs'
      cases hs'
      have hforget : session.Course (free s .close) (session.forget old.proxy) :=
        .of_same (.tend _ _ rfl rfl rfl rfl) rfl rfl
      have hpost : (Session.Deed.post (.release old.proxy.id)).Fits := rfl
      exact hforget.trans (Session.Deed.course hpost _ fun hclose => by cases hclose)
    · exact hsame hs'

theorem Runs.course (h : Runs free c c') (hs : c.sessions[s]? = some session)
    (hs' : c'.sessions[s]? = some session') : session.Course (free s .close) session' := by
  induction h generalizing session' with
  | refl =>
    rw [hs, Option.some.injEq] at hs'
    subst hs'
    exact .refl session
  | tail _ hstep ih =>
    obtain ⟨mid, hmid, _⟩ := hstep.sessions hs'
    exact (ih hmid).trans (hstep.course hmid hs')

theorem Runs.size_sessions (h : Runs free c c') : c'.sessions.size = c.sessions.size := by
  induction h with
  | refl => rfl
  | tail _ hstep ih => exact hstep.size_sessions.trans ih

/-- What a session answers once it is not up, if it exists. -/
def refusal? (c : Client) (s : Nat) : Option Fault := c.sessions[s]?.bind Session.refusal?

theorem refusal?_cases {refusal : Fault} (h : c.refusal? s = some refusal) :
    refusal = .closed ∨ ∃ cause, refusal = .broken cause := by
  obtain ⟨session, _, hdown⟩ := Option.bind_eq_some_iff.mp h
  exact Session.refusal?_cases hdown

theorem Runs.refusal? {refusal : Fault} (h : Runs free c c') (hrefusal : c.refusal? s = some refusal) :
    c'.refusal? s = some refusal := by
  obtain ⟨session, hs, hdown⟩ := Option.bind_eq_some_iff.mp hrefusal
  have hlt : s < c'.sessions.size := by
    rw [h.size_sessions]
    exact (Array.getElem?_eq_some_iff.mp hs).1
  have hs' : c'.sessions[s]? = some c'.sessions[s] := Array.getElem?_eq_getElem hlt
  have hstanding := ((h.course hs hs').of_down (Session.not_up_of_refusal hdown)).1
  rw [Client.refusal?, hs', Option.bind_some, Session.refusal?_congr hstanding]
  exact hdown

end Client

end ObjectBridge
