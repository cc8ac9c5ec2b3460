import ObjectBridge.Proofs.Client.Gate
import ObjectBridge.Proofs.Script.Moves

/-!
# Steps that need the channel

A step needs the channel of a session if its answer is another one on some state that is alike but for this
session (`State.Needs`). If the session is not up, such a step fails with what the session answers instead
(`failed_of_needs`). A step that fails with a fatal fault, though it had its operands, leaves the session that
it asked broken, unless a conversion rule of the client's own making rejects one of them with this fault
(`broken_of_failed`).
-/

namespace ObjectBridge.Script

open Client

/-- Whether a step asks how a session stands. -/
def Step.asksStanding : Step → Bool
  | .session _ .fault | .proxy _ .info => true
  | _ => false

/-- The operands that a step hands over. The expression of a constructor is one. -/
def Step.operands : Step → List Operand
  | .session _ (.construct expression) => [.literal (.string expression)]
  | .session _ (.create _ args) | .session _ (.callStatic _ _ args) | .session _ (.call _ _ args) => args
  | .session _ (.setProperty _ _ v) | .session _ (.setStaticProperty _ _ v) => [v]
  | .proxy _ (.call _ args) => args
  | .proxy _ (.set _ v) => [v]
  | .callOfClass _ _ args | .invoke _ args => args
  | _ => []

/-- The fault that an answer tells of. -/
def Answer.fault? : Answer → Option Fault
  | .failed fault => some fault
  | _ => none

namespace State

variable {s t : Nat} {st st' : State} {refusal fault : Fault} {vs : List Value}

/-- The session of which a step asks something, or of whose proxy. -/
def subject? (st : State) : Step → Option Nat
  | .session s _ => some s
  | .proxy slot _ => (st.proxy? slot).map (·.session)
  | .callOfClass slot _ _ => (st.class? slot).map (·.session)
  | .invoke slot _ =>
    match st.slot? slot with
    | some (.method m) => some m.target.session
    | some (.static m) => some m.session
    | _ => none
  | _ => none

/-- States with the same slots whose clients are alike but for a session. -/
structure Alike (s : Nat) (st st' : State) : Prop where
  client : st.client.Alike s st'.client
  slots : st'.slots = st.slots

/-- Whether the answer of a line depends on the channel of a session or on how the session stands. -/
def Needs (st : State) (s : Nat) (line : Line) : Prop :=
  ∃ st', st.Alike s st' ∧ (st'.step line).1 ≠ (st.step line).1

namespace Alike

theorem slot? (h : st.Alike s st') (name : String) : st'.slot? name = st.slot? name := by
  rw [State.slot?, h.slots, State.slot?]

theorem value? (h : st.Alike s st') (name : String) : st'.value? name = st.value? name := by
  rw [State.value?, h.slot?, State.value?]

theorem proxy? (h : st.Alike s st') (name : String) : st'.proxy? name = st.proxy? name := by
  rw [State.proxy?, h.value?, State.proxy?]

theorem class? (h : st.Alike s st') (name : String) : st'.class? name = st.class? name := by
  rw [State.class?, h.slot?, State.class?]

mutual

theorem operand (h : st.Alike s st') (o : Operand) : st'.operand o = st.operand o := by
  cases o with
  | slot name => rw [State.operand, h.value?, State.operand]
  | literal | unfit => rw [State.operand, State.operand]
  | list items => rw [State.operand, h.operands items, State.operand]

theorem operands (h : st.Alike s st') (os : List Operand) : st'.operands os = st.operands os := by
  cases os with
  | nil => rfl
  | cons o os => rw [State.operands, h.operand o, h.operands os, State.operands]

end

theorem giveUp (h : st.Alike s st') (held : Option Holding) : (st.giveUp held).Alike s (st'.giveUp held) := by
  unfold State.giveUp
  split
  · exact ⟨h.client.discardAll _, h.slots⟩
  · exact h

theorem clear (h : st.Alike s st') (name : String) : (st.clear name).Alike s (st'.clear name) := by
  have hfiltered : Alike s { st with slots := st.slots.filter fun entry => entry.1 != name }
      { st' with slots := st'.slots.filter fun entry => entry.1 != name } :=
    ⟨h.client, congrArg (fun slots => slots.filter fun entry => entry.1 != name) h.slots⟩
  rw [State.clear, State.clear, h.slot?]
  exact hfiltered.giveUp _

end Alike

/-! ### Steps that agree -/

/-- Of two answers the first is a refusal or both are the same. -/
def Agree (refusal : Fault) (r r' : Answer × State) : Prop := r.1 = .failed refusal ∨ r'.1 = r.1

theorem answer_act {α : Type} (st : State) (action : Client.Action α) (present : α → Answer) :
    (st.act action present).1 =
      match verdict (action st.client) with
      | .ok a => present a
      | .error fault => .failed fault := by
  unfold act
  cases action st.client <;> rfl

theorem client_act {α : Type} (st : State) (action : Client.Action α) (present : α → Answer) :
    (st.act action present).2.client = after (action st.client) := by
  unfold act
  cases action st.client <;> rfl

theorem agree_act {α : Type} {action : Client.Action α} (present : α → Answer)
    (haction : Gated (fun _ => True) t vs action) (h : st.Alike s st')
    (hdown : st.client.refusal? s = some refusal) :
    Agree refusal (st.act action present) (st'.act action present) := by
  rw [Agree, answer_act, answer_act]
  obtain hrefused | ⟨hverdict, _, _⟩ := haction.follows trivial h.client hdown
  · rw [hrefused]
    exact .inl rfl
  · rw [hverdict]
    exact .inr rfl

theorem agree_needs {α : Type} {a a' : Option α} {next next' : α → Answer × State} (ha : a' = a)
    (h : ∀ x, a = some x → Agree refusal (next x) (next' x)) :
    Agree refusal (st.needs a next) (st'.needs a' next') := by
  subst ha
  cases a' with
  | none => exact .inr rfl
  | some x => exact h x rfl

theorem agree_given {α : Type} {a a' : Except Answer α} {next next' : α → Answer × State} (ha : a' = a)
    (h : ∀ x, Agree refusal (next x) (next' x)) :
    Agree refusal (st.given a next) (st'.given a' next') := by
  subst ha
  cases a' with
  | error answer => exact .inr rfl
  | ok x => exact h x

theorem agree_session {next next' : Session → Answer × State} (h : st.Alike s st')
    (hnext : ∀ a b, st.client.sessions[t]? = some a → a.Alike b → Agree refusal (next a) (next' b)) :
    Agree refusal (st.needs (st.session? t) next) (st'.needs (st'.session? t) next') := by
  have hrel := h.client.sessions t
  rw [State.session?, State.session?]
  revert hrel hnext
  generalize st.client.sessions[t]? = found, st'.client.sessions[t]? = found'
  intro hnext hrel
  cases hrel with
  | none => exact .inr rfl
  | @some a b hab =>
    have hattached : b.attached = a.attached := by
      obtain ⟨⟨_, _, _, rfl⟩, _⟩ := hab
      rfl
    rw [Option.filter_some, Option.filter_some, hattached]
    split
    · exact hnext a b rfl hab.1
    · exact .inr rfl

theorem agree_onSession (h : st.Alike s st') (hdown : st.client.refusal? s = some refusal)
    {a b : Session} (hab : a.Alike b) {step : SessionStep}
    (hasks : (Step.session t step).asksStanding = false) :
    Agree refusal (st.performOnSession t a step) (st'.performOnSession t b step) := by
  cases step with
  | create className args =>
    exact agree_given (h.operands args) fun vs => agree_act .value (gated_create t className vs) h hdown
  | callStatic className name args =>
    exact agree_given (h.operands args) fun vs =>
      agree_act .value (gated_callStatic t className name vs) h hdown
  | call id name args =>
    exact agree_given (h.operands args) fun vs => agree_act .value (gated_call t id name vs) h hdown
  | construct expression => exact agree_act .value (gated_construct t expression) h hdown
  | getProperty | getIndexed | getIndexedProperty | getStaticProperty =>
    exact agree_act .value (gated_request t _) h hdown
  | setProperty id name v =>
    exact agree_given (h.operand v) fun v =>
      agree_act (fun _ => .nothing) (gated_setProperty t id name v) h hdown
  | setStaticProperty className name v =>
    exact agree_given (h.operand v) fun v =>
      agree_act (fun _ => .nothing) (gated_setStaticProperty t className name v) h hdown
  | protect | release => exact agree_act (fun _ => .nothing) (gated_post t _) h hdown
  | classFor className => exact agree_act .classHandle (gated_classFor t className) h hdown
  | template className => exact agree_act _ (gated_classFor t className) h hdown
  | objectFor id className =>
    exact .inr (congrArg (fun p => Answer.value (.object p)) (h.client.objectFor t id className))
  | fault => cases hasks
  | cachedClasses | info =>
    obtain ⟨_, _, _, rfl⟩ := hab
    exact .inr rfl
  | close | detach => exact .inr rfl
  | classify slot =>
    obtain ⟨_, _, _, rfl⟩ := hab
    refine agree_needs (h.value? slot) fun _ _ => .inr ?_
    rw [h.client.isReleased]

theorem agree_onProxy (h : st.Alike s st') (hdown : st.client.refusal? s = some refusal) (slot : String)
    (p : Proxy) {step : ProxyStep} (hasks : (Step.proxy slot step).asksStanding = false) :
    Agree refusal (st.performOnProxy slot p step) (st'.performOnProxy slot p step) := by
  cases step with
  | resolveName name => exact agree_act .attribute (gated_resolveName p name) h hdown
  | method name => exact agree_act .method (gated_method p name) h hdown
  | call name args =>
    exact agree_given (h.operands args) fun vs => agree_act .value (gated_callMember p name vs) h hdown
  | get name => exact agree_act .value (gated_getMember p name) h hdown
  | set name v =>
    exact agree_given (h.operand v) fun v =>
      agree_act (fun _ => .nothing) (gated_setMember p name v) h hdown
  | element index => exact agree_act .value (gated_elementOf p index) h hdown
  | elementOfProperty name index =>
    exact agree_act .value (gated_elementOfProperty p name index) h hdown
  | protect => exact agree_act (fun _ => .nothing) (gated_protectObject p) h hdown
  | release keep =>
    have hhold : Alike s { st with client := st.client.holdProxy p }
        { st' with client := st'.client.holdProxy p } := ⟨h.client.modifyCell p _, h.slots⟩
    -- While it is held, nothing is asked of the session.
    cases keep with
    | true => exact agree_act (fun _ => .nothing) (gated_releaseObject p) hhold hdown
    | false =>
      refine agree_act (fun _ => .nothing) (gated_releaseObject p) (hhold.clear slot) ?_
      have hruns : Runs (fun _ _ => True) (st.client.holdProxy p) _ :=
        runs_clear { st with client := st.client.holdProxy p } slot
      exact hruns.refusal? hdown
  | info => cases hasks
  | handle => exact agree_act .reference (gated_handle p.session p) h hdown
  | classOf => exact agree_act .classHandle (gated_classOf p) h hdown

theorem agree_perform (h : st.Alike s st') (hdown : st.client.refusal? s = some refusal) {step : Step}
    (hasks : step.asksStanding = false) : Agree refusal (st.perform step) (st'.perform step) := by
  cases step with
  | session t step =>
    exact agree_session h fun a b _ hab => agree_onSession h hdown hab hasks
  | proxy slot step => exact agree_needs (h.proxy? slot) fun p _ => agree_onProxy h hdown slot p hasks
  | drop slot => exact .inr rfl
  | copy slot => exact agree_needs (h.value? slot) fun _ _ => .inr rfl
  | pick slot index =>
    simp only [perform, h.value?]
    split
    · exact agree_needs rfl fun _ _ => .inr rfl
    · exact .inr rfl
  | document slot => exact agree_needs (h.value? slot) fun _ _ => .inr rfl
  | sameObject slot other =>
    exact agree_needs (h.proxy? slot) fun _ _ => agree_needs (h.proxy? other) fun _ _ => .inr rfl
  | sameClass slot other =>
    exact agree_needs (h.class? slot) fun _ _ => agree_needs (h.class? other) fun _ _ => .inr rfl
  | callOfClass slot name args =>
    refine agree_needs (h.class? slot) fun g _ => agree_given (h.operands args) fun vs => ?_
    cases g.staticMethod name with
    | ok m => exact agree_act .value (gated_invokeStatic m vs) h hdown
    | error fault => exact .inr rfl
  | staticOfClass slot name =>
    refine agree_needs (h.class? slot) fun g _ => ?_
    cases g.staticMethod name <;> exact .inr rfl
  | invoke slot args =>
    simp only [perform, h.slot?]
    split
    · rename_i m _
      exact agree_given (h.operands args) fun vs => agree_act .value (gated_invoke m vs) h hdown
    · rename_i m _
      exact agree_given (h.operands args) fun vs => agree_act .value (gated_invokeStatic m vs) h hdown
    · exact .inr rfl

theorem failed_of_needs (hdown : st.client.refusal? s = some refusal) {line : Line}
    (hasks : line.step.asksStanding = false) (h : st.Needs s line) :
    (st.step line).1 = .failed refusal := by
  obtain ⟨st', halike, hne⟩ := h
  exact (agree_perform halike hdown hasks).resolve_right hne

/-! ### Steps that fail -/

/-- Whether a fatal fault of a step leaves a session broken, or comes from an added rule that rejects one of
some values. -/
def Breaks (st : State) (t : Nat) (vs : List Value) (r : Answer × State) : Prop :=
  ∀ fault, r.1.fault? = some fault → fault.isFatal = true →
    r.2.client.BrokenBy t fault ∨ st.client.RejectsAmong t fault vs

theorem breaks_act {α : Type} {action : Client.Action α} {present : α → Answer}
    (haction : Gated (fun _ => True) t vs action) (hpresent : ∀ a, (present a).fault? = none) :
    Breaks st t vs (st.act action present) := by
  intro fault h hfatal
  rw [answer_act] at h
  rw [client_act]
  split at h
  · rw [hpresent] at h
    cases h
  · rename_i hverdict
    cases h
    exact haction.broken hverdict hfatal

theorem breaks_answer {answer : Answer} (h : answer.fault? = none) (after : State) :
    Breaks st t vs (answer, after) := by
  intro fault hfault
  rw [h] at hfault
  cases hfault

theorem breaks_needs {α : Type} {a : Option α} {next : α → Answer × State}
    (h : ∀ x, a = some x → Breaks st t vs (next x)) : Breaks st t vs (st.needs a next) := by
  cases a with
  | none => exact breaks_answer rfl st
  | some x => exact h x rfl

theorem breaks_operands {os : List Operand} {next : List Value → Answer × State} (hvs : st.operands os = .ok vs)
    (h : Breaks st t vs (next vs)) : Breaks st t vs (st.given (st.operands os) next) := by
  rw [hvs]
  exact h

theorem operand_of_singleton {o : Operand} (h : st.operands [o] = .ok vs) :
    ∃ v, vs = [v] ∧ st.operand o = .ok v := by
  unfold operands at h
  cases hv : st.operand o with
  | error answer =>
    rw [hv] at h
    cases h
  | ok v =>
    rw [hv] at h
    cases h
    exact ⟨v, rfl, rfl⟩

theorem breaks_operand {o : Operand} {next : Value → Answer × State} (hvs : st.operands [o] = .ok vs)
    (h : ∀ v, Breaks st t [v] (next v)) : Breaks st t vs (st.given (st.operand o) next) := by
  obtain ⟨v, rfl, hv⟩ := operand_of_singleton hvs
  rw [hv]
  exact h v

theorem breaks_onSession (session : Session) {step : SessionStep}
    (hvs : st.operands (Step.session t step).operands = .ok vs) :
    Breaks st t vs (st.performOnSession t session step) := by
  cases step with
  | create className args => exact breaks_operands hvs (breaks_act (gated_create t className vs) fun _ => rfl)
  | callStatic className name args =>
    exact breaks_operands hvs (breaks_act (gated_callStatic t className name vs) fun _ => rfl)
  | call id name args => exact breaks_operands hvs (breaks_act (gated_call t id name vs) fun _ => rfl)
  | construct expression =>
    cases hvs
    exact breaks_act (gated_construct t expression) fun _ => rfl
  | getProperty | getIndexed | getIndexedProperty | getStaticProperty =>
    exact breaks_act (gated_request t _).weaken fun _ => rfl
  | setProperty id name v => exact breaks_operand hvs fun v => breaks_act (gated_setProperty t id name v) fun _ => rfl
  | setStaticProperty className name v =>
    exact breaks_operand hvs fun v => breaks_act (gated_setStaticProperty t className name v) fun _ => rfl
  | protect | release => exact breaks_act (gated_post t _).weaken fun _ => rfl
  | classFor className => exact breaks_act (gated_classFor t className).weaken fun _ => rfl
  | template className => exact breaks_act (gated_classFor t className).weaken fun _ => rfl
  | cachedClasses | objectFor | fault | info | close | detach => exact breaks_answer rfl _
  | classify slot => exact breaks_needs fun _ _ => breaks_answer rfl st

theorem breaks_onProxy (slot : String) (p : Proxy) {step : ProxyStep}
    (hvs : st.operands (Step.proxy slot step).operands = .ok vs) :
    Breaks st p.session vs (st.performOnProxy slot p step) := by
  cases step with
  | resolveName name => exact breaks_act (gated_resolveName p name).weaken fun _ => rfl
  | method name => exact breaks_act (gated_method p name).weaken fun _ => rfl
  | call name args => exact breaks_operands hvs (breaks_act (gated_callMember p name vs) fun _ => rfl)
  | get name => exact breaks_act (gated_getMember p name).weaken fun _ => rfl
  | set name v => exact breaks_operand hvs fun v => breaks_act (gated_setMember p name v) fun _ => rfl
  | element index => exact breaks_act (gated_elementOf p index).weaken fun _ => rfl
  | elementOfProperty name index => exact breaks_act (gated_elementOfProperty p name index).weaken fun _ => rfl
  | protect => exact breaks_act (gated_protectObject p).weaken fun _ => rfl
  | release keep =>
    -- The proxy is held in the meantime; nothing is converted.
    let before : State := { st with client := st.client.holdProxy p }
    let held := if keep then before else before.clear slot
    have hact : Breaks held p.session [] (held.act (releaseObject p) fun _ => .nothing) :=
      breaks_act (gated_releaseObject p) fun _ => rfl
    intro fault h hfatal
    obtain hbroken | hrejects := hact fault h hfatal
    · exact .inl ((mild_discardAll [.object p]).brokenBy hbroken)
    · exact absurd hrejects Registry.not_rejectsAmong_nil
  | info => exact breaks_answer rfl st
  | handle => exact breaks_act (gated_handle p.session p).weaken fun _ => rfl
  | classOf => exact breaks_act (gated_classOf p).weaken fun _ => rfl

theorem local_of_staticMethod {g : ClassHandle} {name : String} (h : g.staticMethod name = .error fault) :
    fault.isFatal = false := by
  rw [staticMethod_eq] at h
  split at h <;> cases h
  unfold Template.refusal
  split <;> rfl

theorem breaks_perform {step : Step} (hvs : st.operands step.operands = .ok vs)
    (h : (st.perform step).1.fault? = some fault) (hfatal : fault.isFatal = true) :
    ∃ t, st.subject? step = some t ∧
      ((st.perform step).2.client.BrokenBy t fault ∨ st.client.RejectsAmong t fault vs) := by
  cases step with
  | session t step =>
    exact ⟨t, rfl, breaks_needs (fun session _ => breaks_onSession session hvs) fault h hfatal⟩
  | proxy slot step =>
    cases hp : st.proxy? slot with
    | none =>
      simp only [perform, hp, needs] at h
      cases h
    | some p =>
      refine ⟨p.session, by rw [subject?, hp, Option.map_some], ?_⟩
      simp only [perform, hp, needs] at h ⊢
      exact breaks_onProxy slot p hvs fault h hfatal
  | callOfClass slot name args =>
    cases hg : st.class? slot with
    | none =>
      simp only [perform, hg, needs] at h
      cases h
    | some g =>
      refine ⟨g.session, by rw [subject?, hg, Option.map_some], ?_⟩
      simp only [perform, hg, needs] at h ⊢
      refine breaks_operands hvs ?_ fault h hfatal
      cases hm : g.staticMethod name with
      | ok m =>
        rw [← session_of_staticMethod hm]
        exact breaks_act (gated_invokeStatic m vs) fun _ => rfl
      | error reason =>
        intro other hother hfatal
        cases hother
        rw [local_of_staticMethod hm] at hfatal
        cases hfatal
  | invoke slot args =>
    cases hslot : st.slot? slot with
    | none =>
      simp only [perform, hslot] at h
      cases h
    | some held =>
      cases held with
      | method m =>
        refine ⟨m.target.session, by simp only [subject?, hslot], ?_⟩
        simp only [perform, hslot] at h ⊢
        exact breaks_operands hvs (breaks_act (gated_invoke m vs) fun _ => rfl) fault h hfatal
      | static m =>
        refine ⟨m.session, by simp only [subject?, hslot], ?_⟩
        simp only [perform, hslot] at h ⊢
        exact breaks_operands hvs (breaks_act (gated_invokeStatic m vs) fun _ => rfl) fault h hfatal
      | value | classHandle =>
        simp only [perform, hslot] at h
        cases h
  | staticOfClass slot name =>
    simp only [perform, needs] at h
    split at h
    · split at h
      · cases h
      · rename_i hm
        cases h
        rw [local_of_staticMethod hm] at hfatal
        cases hfatal
    · cases h
  | drop => cases h
  | copy | document =>
    simp only [perform, needs] at h
    split at h <;> cases h
  | pick =>
    simp only [perform, needs] at h
    split at h
    · split at h <;> cases h
    · cases h
  | sameObject | sameClass =>
    simp only [perform, needs] at h
    split at h
    · split at h <;> cases h
    · cases h

theorem broken_of_failed {line : Line} (hvs : st.operands line.step.operands = .ok vs)
    (h : (st.step line).1 = .failed fault) (hfatal : fault.isFatal = true) :
    ∃ t, st.subject? line.step = some t ∧
      ((st.step line).2.client.BrokenBy t fault ∨ st.client.RejectsAmong t fault vs) := by
  have hanswer : (st.perform line.step).1 = .failed fault := h
  -- What fails leaves nothing to save or to give up.
  have hsettle : (st.step line).2 = (st.perform line.step).2 := by
    change (st.perform line.step).2.settle (st.perform line.step).1 line.save = _
    rw [hanswer]
    rfl
  rw [hsettle]
  exact breaks_perform hvs (by rw [hanswer]; rfl) hfatal

end State

end ObjectBridge.Script
