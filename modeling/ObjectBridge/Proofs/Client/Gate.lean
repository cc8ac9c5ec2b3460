import ObjectBridge.Proofs.Client.Alike
import ObjectBridge.Proofs.Client.Lookup
import ObjectBridge.Proofs.Registry.Faults

/-!
# Who needs the channel

An operation that does not need the channel of a session gives the same on all clients that are alike but for
the session. If the session is not up, any other operation fails with what the session answers instead of
using its channel (`Follows`).

An operation of a session that converts some values is gated (`Gated`) if this holds of it for all sessions, and
if a fatal fault that it gives comes from a session that is broken by then, or else from an added conversion rule
that rejects one of the values (`Registry.RejectsAmong`). All operations are: those that use a channel do so by
`onSession`, and the others are put together from them.
-/

namespace ObjectBridge

/-! ### Steps on the channel -/

namespace Session

variable {α : Type}

/-- A step of a session that uses the channel and nothing else: it is refused if the session is not up, and if
it fails with a fatal fault the session is broken. -/
structure Guarded (step : Action α) : Prop where
  refused : ∀ {s : Session} {refusal : Fault}, s.refusal? = some refusal →
    verdict (step s) = .error refusal
  alike : ∀ s : Session, s.Alike (after (step s))
  broken : ∀ {s : Session} {fault : Fault}, verdict (step s) = .error fault → fault.isFatal = true →
    ∃ cause, (after (step s)).refusal? = some (.broken cause) ∧
      (cause = fault.message ∨ fault = .broken cause)

theorem guarded_transact (step : Channel.Action α) : Guarded (transact step) := by
  refine ⟨fun hrefusal => ?_, Alike.transact step, fun {s fault} h hfatal => ?_⟩
  · rw [transact_of_refusal step hrefusal]
    rfl
  · cases hrefusal : s.refusal? with
    | some refusal =>
      rw [transact_of_refusal step hrefusal] at h ⊢
      cases h
      -- Of the two refusals only that of a broken session is fatal.
      obtain rfl | ⟨cause, rfl⟩ := refusal?_cases hrefusal
      · cases hfatal
      · exact ⟨cause, hrefusal, .inr rfl⟩
    | none =>
      have hup : s.standing = .up := up_of_refusal?_none hrefusal
      cases ht : transact step s with
      | ok x s' =>
        rw [ht] at h
        cases h
      | error reason s' =>
        rw [ht] at h
        cases h
        obtain ⟨channel, _, ⟨_, rfl⟩ | ⟨hlocal, _⟩⟩ := transact_error hup ht
        · exact ⟨fault.message, rfl, .inl rfl⟩
        · rw [hlocal] at hfatal
          cases hfatal

theorem guarded_exchange (m : Message) : Guarded (exchange m) := by
  have hverdict (s : Session) : verdict (exchange m s) =
      verdict (transact (do Channel.send m; Channel.receive s.registry.catalogue) s) := by
    unfold exchange
    split
    · rename_i ht
      rw [ht]
      rfl
    · rename_i ht
      rw [ht]
  refine ⟨fun {s _} hrefusal => ?_, fun s => ?_, fun {s fault} h hfatal => ?_⟩
  · rw [hverdict]
    exact (guarded_transact _).refused hrefusal
  · have halike := Alike.transact (do Channel.send m; Channel.receive s.registry.catalogue) s
    unfold exchange
    split <;> rename_i ht <;> rw [ht] at halike
    · exact halike.trans ⟨_, _, _, rfl⟩
    · exact halike
  · rw [hverdict] at h
    rw [refusal?_congr (channel_exchange m s).2]
    exact (guarded_transact _).broken h hfatal

end Session

namespace Client

variable {α β : Type} {s t : Nat} {c c' : Client} {refusal fault : Fault} {vs ws : List Value}

/-! ### Gated operations -/

/-- A session is broken, by a fault or so that the fault says it. -/
def BrokenBy (c : Client) (t : Nat) (fault : Fault) : Prop :=
  ∃ cause, c.refusal? t = some (.broken cause) ∧ (cause = fault.message ∨ fault = .broken cause)

theorem Mild.brokenBy {f : Client → Client} (hf : Mild f) (h : c.BrokenBy t fault) :
    (f c).BrokenBy t fault := by
  obtain ⟨cause, hrefusal, hcause⟩ := h
  exact ⟨cause, hf.refusal hrefusal, hcause⟩

/-- Of the results of an operation on two clients that are alike but for a session that is not up, the first is
refused or both are alike. -/
inductive Follows (s : Nat) (refusal : Fault) (r r' : EStateM.Result Fault Client α) : Prop where
  | refused (h : verdict r = .error refusal)
  | alike (hverdict : verdict r' = verdict r) (halike : (after r).Alike s (after r'))
      (hdown : (after r).refusal? s = some refusal)

/-- The first of some values that a session has no message for is one that an added rule rejects. -/
def RejectsAmong (c : Client) (t : Nat) (fault : Fault) (vs : List Value) : Prop :=
  (c.registry t).RejectsAmong c.isReleased fault vs

/-- An operation of a session that converts some values, and that needs no channel or is refused if the session
it needs is not up, as far as that session is one of `outer`. -/
structure Gated (outer : Nat → Prop) (t : Nat) (vs : List Value) (a : Action α) : Prop where
  registry : ∀ c, (after (a c)).registry t = c.registry t
  broken : ∀ {c fault}, verdict (a c) = .error fault → fault.isFatal = true →
    (after (a c)).BrokenBy t fault ∨ c.RejectsAmong t fault vs
  follows : ∀ {s c c' refusal}, outer s → c.Alike s c' → c.refusal? s = some refusal →
    Follows s refusal (a c) (a c')

variable {outer : Nat → Prop}

namespace Gated

/-- An operation that converts nothing may be taken for one that does. -/
theorem weaken {a : Action α} (h : Gated outer t [] a) : Gated outer t vs a := by
  refine ⟨h.registry, fun hfault hfatal => ?_, h.follows⟩
  exact (h.broken hfault hfatal).imp_right fun hrejects => absurd hrejects Registry.not_rejectsAmong_nil

theorem pure (x : α) : Gated outer t vs (Pure.pure x : Action α) :=
  ⟨fun _ => rfl, fun h _ => (by cases h), fun _ halike hdown => .alike rfl halike hdown⟩

theorem throw (h : fault.isFatal = false) : Gated outer t vs (MonadExcept.throw fault : Action α) := by
  refine ⟨fun _ => rfl, fun hfault hfatal => ?_, fun _ halike hdown => .alike rfl halike hdown⟩
  cases hfault
  rw [h] at hfatal
  cases hfatal

theorem outcome {result : Client → Except Fault α}
    (halike : ∀ {s c c'}, c.Alike s c' → result c' = result c)
    (hfault : ∀ {c fault}, result c = .error fault → fault.isFatal = true → c.RejectsAmong t fault vs) :
    Gated outer t vs (Client.outcome result) := by
  have hafter (c : Client) : after (Client.outcome result c) = c := by
    unfold Client.outcome
    cases result c <;> rfl
  have hverdict (c : Client) : verdict (Client.outcome result c) = result c := by
    unfold Client.outcome
    cases result c <;> rfl
  refine ⟨fun c => by rw [hafter], fun {c fault} h hfatal => ?_, fun {s c c' _} _ hc hdown => ?_⟩
  · rw [hverdict] at h
    exact .inr (hfault h hfatal)
  · refine .alike ?_ ?_ ?_
    · rw [hverdict, hverdict, halike hc]
    · rw [hafter, hafter]
      exact hc
    · rw [hafter]
      exact hdown

theorem change {f : Client → Client} (hf : Mild f) : Gated outer t vs (modify f : Action Unit) :=
  ⟨fun c => hf.registry c t, fun h _ => (by cases h),
    fun _ halike hdown => .alike rfl (hf.alike halike) (hf.refusal hdown)⟩

theorem get {f : Client → Action α} (hview : ∀ {s c c'}, c.Alike s c' → f c' = f c)
    (h : ∀ c, Gated outer t vs (f c)) : Gated outer t vs (MonadState.get >>= f) := by
  refine ⟨fun c => (h c).registry c, fun {c _} => (h c).broken, fun {s c c' refusal} hs halike hdown => ?_⟩
  have hfollows : Follows s refusal (f c c) (f c c') := (h c).follows hs halike hdown
  rw [get_bind, get_bind, hview halike]
  exact hfollows

/-- To `bind` is to go on with the value of the first part; after a fault of it something may be given up. What
is converted then is rejected as it would have been at first, if nothing was released in between. -/
theorem bindOr {a : Action α} {b : Action β} {f : α → Action β} {g : Client → Client}
    (hok : ∀ {c x mid}, a c = .ok x mid → b c = f x mid)
    (herror : ∀ {c reason mid}, a c = .error reason mid → b c = .error reason (g mid))
    (ha : Gated outer t vs a) (hf : ∀ {c x mid}, a c = .ok x mid → Gated outer t ws (f x)) (hg : Mild g)
    (hws : ws = [] ∨ ws = vs ∧ ∀ {c x mid}, a c = .ok x mid → mid.isReleased = c.isReleased) :
    Gated outer t vs b := by
  refine ⟨fun c => ?_, fun {c fault} h hfatal => ?_, fun {s c c' refusal} hs halike hdown => ?_⟩
  · have hregistry := ha.registry c
    cases hstep : a c with
    | ok x mid =>
      rw [hstep] at hregistry
      rw [hok hstep]
      exact ((hf hstep).registry mid).trans hregistry
    | error reason mid =>
      rw [hstep] at hregistry
      rw [herror hstep]
      exact (hg.registry mid t).trans hregistry
  · cases hstep : a c with
    | ok x mid =>
      have hregistry := ha.registry c
      rw [hstep] at hregistry
      rw [hok hstep] at h ⊢
      refine ((hf hstep).broken h hfatal).imp_right fun hrejects => ?_
      obtain rfl | ⟨rfl, hreleased⟩ := hws
      · exact absurd hrejects Registry.not_rejectsAmong_nil
      · rwa [Client.RejectsAmong, show mid.registry t = c.registry t from hregistry, hreleased hstep] at hrejects
    | error reason mid =>
      have hbroken := ha.broken (congrArg verdict hstep)
      rw [hstep] at hbroken
      rw [herror hstep] at h ⊢
      cases h
      exact (hbroken hfatal).imp_left hg.brokenBy
  · -- A refusal of the first part is one of the whole; else the first part ends alike on both clients.
    obtain hrefused | ⟨hverdict, hmid, hdown'⟩ := ha.follows hs halike hdown
    · refine .refused ?_
      cases hstep : a c with
      | ok x mid =>
        rw [hstep] at hrefused
        cases hrefused
      | error reason mid =>
        rw [hstep] at hrefused
        cases hrefused
        rw [herror hstep]
        rfl
    · cases hstep : a c with
      | ok x mid =>
        rw [hstep] at hverdict hmid hdown'
        cases hstep' : a c' with
        | ok x' mid' =>
          rw [hstep'] at hverdict hmid
          cases hverdict
          rw [hok hstep, hok hstep']
          exact (hf hstep).follows hs hmid hdown'
        | error reason' mid' =>
          rw [hstep'] at hverdict
          cases hverdict
      | error reason mid =>
        rw [hstep] at hverdict hmid hdown'
        cases hstep' : a c' with
        | ok x' mid' =>
          rw [hstep'] at hverdict
          cases hverdict
        | error reason' mid' =>
          rw [hstep'] at hverdict hmid
          cases hverdict
          rw [herror hstep, herror hstep']
          exact .alike rfl (hg.alike hmid) (hg.refusal hdown')

theorem bind {a : Action α} {f : α → Action β} (ha : Gated outer t vs a) (hf : ∀ x, Gated outer t [] (f x)) :
    Gated outer t vs (a >>= f) :=
  bindOr (bind_of_ok f) (bind_of_error f) ha (fun {_ x _} _ => hf x) mild_id (.inl rfl)

theorem bindLate {a : Action α} {f : α → Action β} (ha : Gated outer t [] a)
    (hreleased : ∀ {c x mid}, a c = .ok x mid → mid.isReleased = c.isReleased)
    (hf : ∀ {c x mid}, a c = .ok x mid → Gated outer t vs (f x)) : Gated outer t vs (a >>= f) :=
  bindOr (bind_of_ok f) (bind_of_error f) ha.weaken hf mild_id (.inr ⟨rfl, hreleased⟩)

/-- What comes after a step that is refused if the session is not up may look at that session as it likes. -/
theorem sealed {a : Action α} {f : α → Action β} (ha : Gated (· ≠ t) t vs a)
    (hrefused : ∀ {c refusal}, c.refusal? t = some refusal → verdict (a c) = .error refusal)
    (hf : ∀ x, Gated (· ≠ t) t [] (f x)) : Gated outer t vs (a >>= f) := by
  have hbind : Gated (· ≠ t) t vs (a >>= f) := ha.bind hf
  refine ⟨hbind.registry, hbind.broken, fun {s c c' refusal} _ halike hdown => ?_⟩
  by_cases hst : s = t
  · subst hst
    refine .refused ?_
    have hverdict := hrefused hdown
    cases hstep : a c with
    | ok x mid =>
      rw [hstep] at hverdict
      cases hverdict
    | error reason mid =>
      rw [hstep] at hverdict
      cases hverdict
      rw [bind_of_error f hstep]
      rfl
  · exact hbind.follows hst halike hdown

end Gated

/-! ### Requests -/

theorem verdict_onSession (t : Nat) (step : Session.Action α) (c : Client) :
    verdict (onSession t step c) =
      match c.sessions[t]? with
      | some session => verdict (step session)
      | none => .error .closed := by
  unfold onSession
  cases c.sessions[t]? with
  | none => rfl
  | some session =>
    dsimp only
    cases step session <;> rfl

theorem refused_onSession {step : Session.Action α} (hstep : Session.Guarded step)
    (h : c.refusal? t = some refusal) : verdict (onSession t step c) = .error refusal := by
  obtain ⟨session, hs, hrefusal⟩ := Option.bind_eq_some_iff.mp h
  rw [verdict_onSession, hs]
  exact hstep.refused hrefusal

theorem gated_onSession (t : Nat) {step : Session.Action α} (hstep : Session.Guarded step) :
    Gated outer t [] (onSession t step) := by
  refine ⟨fun c => ?_, fun {c fault} h hfatal => ?_, fun {s c c' refusal} _ halike hdown => ?_⟩
  · rw [after_onSession, registry, modifySession, Array.getElem?_modify, if_pos rfl, registry]
    cases c.sessions[t]? with
    | none => rfl
    | some session =>
      obtain ⟨_, _, _, heq⟩ := hstep.alike session
      rw [Option.map_some, heq]
  · rw [verdict_onSession] at h
    rw [after_onSession, BrokenBy, refusal?, modifySession, Array.getElem?_modify, if_pos rfl]
    cases hs : c.sessions[t]? with
    | none =>
      rw [hs] at h
      cases h
      cases hfatal
    | some session =>
      rw [hs] at h
      exact .inl (hstep.broken h hfatal)
  · by_cases hst : s = t
    · subst hst
      exact .refused (refused_onSession hstep hdown)
    · refine .alike ?_ ?_ ?_
      · rw [verdict_onSession, verdict_onSession, halike.same (Ne.symm hst)]
      · rw [after_onSession, after_onSession]
        exact halike.modifySession t fun hts => absurd hts.symm hst
      · rw [after_onSession, refusal?, modifySession, Array.getElem?_modify, if_neg (Ne.symm hst)]
        exact hdown

theorem gated_exchange (t : Nat) (m : Message) : Gated outer t [] (exchange t m) :=
  gated_onSession t (Session.guarded_exchange m)

theorem gated_post (t : Nat) (m : Message) : Gated outer t [] (post t m) :=
  gated_onSession t (Session.guarded_transact _)

theorem gated_convert (t : Nat) (v : Value) : Gated outer t [v] (convert t v) :=
  .outcome (fun h => by rw [h.registry, h.isReleased]) fun h hfatal => .head (Registry.rejects_of_convert h hfatal)

theorem gated_convertAll (t : Nat) (args : List Value) : Gated outer t args (convertAll t args) :=
  .outcome (fun h => by rw [h.registry, h.isReleased]) Registry.rejectsAmong_of_convertAll

theorem gated_objectFor (t : Nat) (id : Int32) (className : Option String) :
    Gated (· ≠ t) t [] (modifyGet fun c =>
      let (p, c) := c.objectFor t id className
      (Value.object p, c) : Action Value) := by
  have hruns (c : Client) : Runs (fun _ _ => True) c (c.objectFor t id className).2 := runs_find t id className
  refine ⟨fun c => (hruns c).registry_eq t, fun h _ => (by cases h),
    fun {s c c' refusal} hst halike hdown => ?_⟩
  have hstanding := halike.standing? t id
  suffices h : (c.objectFor t id className).2.Alike s (c'.objectFor t id className).2 from
    .alike (congrArg (fun p => Except.ok (Value.object p)) (halike.objectFor t id className)) h
      ((hruns c).refusal? hdown)
  cases hfound : c.standing? t id with
  | some p =>
    rw [hfound] at hstanding
    rw [objectFor_of_some className hfound, objectFor_of_some className hstanding]
    exact halike.modifyCell p _
  | none =>
    rw [hfound] at hstanding
    -- A new proxy notes how far its session has come, so that session may not differ.
    have hsent : c'.sentBy t = c.sentBy t := by
      rw [sentBy, halike.same (Ne.symm hst), sentBy]
    have henter := halike.modifySession t (f := (·.enter id c.cells.size)) fun hts => absurd hts.symm hst
    rw [objectFor_of_none className hfound, objectFor_of_none className hstanding, halike.cells, hsent]
    exact ⟨rfl, henter.sessions⟩

mutual

/-- To make values of a reply takes no channel. It looks at its own session only, for the proxies it makes. -/
theorem gated_resolve (t : Nat) (tag : Tag) (m : Message) : Gated (· ≠ t) t [] (resolve t tag m) := by
  cases m with
  | object ref =>
    unfold resolve
    exact gated_objectFor t ref.id ref.className
  | objectArray items =>
    unfold resolve
    exact .bind (gated_resolveAll t tag items []) fun _ => .pure _
  | null | bool | byte | int32 | int64 | float64 | string | vector | matrix | boolArray |
    byteArray | int32Array | int64Array | float64Array | stringArray =>
    unfold resolve
    exact .pure _
  | exception | create | callStaticMethod | callMethod | getProperty | getIndexedProperty |
    getIndexed | setProperty | getStaticProperty | setStaticProperty | protect | release |
    templateReq | templateReply =>
    unfold resolve
    exact .throw rfl

theorem gated_resolveAll (t : Nat) (tag : Tag) (ms : List Message) (done : List Value) :
    Gated (· ≠ t) t [] (resolveAll t tag ms done) := by
  cases ms with
  | nil =>
    unfold resolveAll
    exact .pure _
  | cons m ms =>
    exact .bindOr (fun h => by simp only [resolveAll, h]) (fun h => by simp only [resolveAll, h])
      (gated_resolve t tag m) (fun {_ v _} _ => gated_resolveAll t tag ms (v :: done))
      (mild_discardAll done.reverse) (.inl rfl)

end

theorem gated_request (t : Nat) (m : Message) : Gated outer t [] (request t m) :=
  .sealed (gated_exchange t m) (refused_onSession (Session.guarded_exchange m)) (gated_resolve t m.tag)

theorem gated_command (t : Nat) (m : Message) : Gated outer t [] (command t m) :=
  .bind (gated_request t m) fun v => .change (mild_discardAll [v])

theorem gated_create (t : Nat) (className : String) (args : List Value) :
    Gated outer t args (create t className args) := .bind (gated_convertAll t args) fun _ => gated_request t _

theorem gated_callStatic (t : Nat) (className method : String) (args : List Value) :
    Gated outer t args (callStatic t className method args) :=
  .bind (gated_convertAll t args) fun _ => gated_request t _

theorem gated_call (t : Nat) (id : Int32) (method : String) (args : List Value) :
    Gated outer t args (call t id method args) := .bind (gated_convertAll t args) fun _ => gated_request t _

theorem gated_construct (t : Nat) (expression : String) :
    Gated outer t [.string expression] (construct t expression) := by
  refine .get (f := fun c => callStatic t (match c.sessions[t]? with
    | some session => session.config.creatorClass
    | none => "") creatorMethod [.string expression]) (fun {s c c'} h => ?_) fun c => gated_callStatic t _ _ _
  obtain ⟨hs, hs'⟩ | ⟨a, _, hs, hs', ⟨_, _, _, rfl⟩, _⟩ := h.cases t
  · rw [hs, hs']
  · rw [hs, hs']

theorem gated_setProperty (t : Nat) (id : Int32) (property : String) (v : Value) :
    Gated outer t [v] (setProperty t id property v) := .bind (gated_convert t v) fun _ => gated_command t _

theorem gated_setStaticProperty (t : Nat) (className property : String) (v : Value) :
    Gated outer t [v] (setStaticProperty t className property v) :=
  .bind (gated_convert t v) fun _ => gated_command t _

theorem gated_fetchTemplate (t : Nat) (className : String) :
    Gated outer t [] (fetchTemplate t className) := by
  refine .bind (gated_exchange t _) fun reply => ?_
  cases reply with
  | templateReply members => exact .pure _
  | _ => exact .throw rfl

theorem gated_classFor (t : Nat) (className : String) : Gated outer t [] (classFor t className) := by
  refine .get (fun h => by rw [h.cachedTemplate?]) fun c => ?_
  cases c.cachedTemplate? t className with
  | some template => exact .pure _
  | none =>
    refine .bind (gated_fetchTemplate t className) fun template => ?_
    refine .bind (.change (mild_modifySession t ?_ (fun _ => rfl) fun _ => rfl)) fun _ => .pure _
    rintro a b ⟨channel, standing, answers, rfl⟩
    exact ⟨channel, standing, answers, rfl⟩

theorem gated_invokeStatic (m : StaticMethod) (args : List Value) :
    Gated outer m.session args (invokeStatic m args) := by
  refine .get (fun h => by rw [h.isAlive]) fun c => ?_
  split
  · exact gated_callStatic ..
  · exact .throw rfl

/-! ### Working with proxies -/

theorem gated_requireLive (t : Nat) (p : Proxy) : Gated outer t [] (requireLive p) := by
  refine .get (fun h => by rw [h.isReleased]) fun c => ?_
  split
  · exact .throw rfl
  · exact .pure _

theorem same_of_requireLive {p : Proxy} {x : Unit} (h : requireLive p c = .ok x c') : c' = c := by
  unfold requireLive at h
  rw [get_bind] at h
  split at h <;> cases h
  rfl

theorem gated_handle (t : Nat) (p : Proxy) : Gated outer t [] (handle p) := by
  refine .outcome (fun h => by rw [h.isReleased]) fun {c fault} h hfatal => ?_
  unfold Registry.handle at h
  split at h
  · cases h
    cases hfatal
  · cases h

theorem gated_classOf (p : Proxy) : Gated outer p.session [] (classOf p) := by
  refine .get (fun h => by rw [h.cells]) fun c => ?_
  cases c.cells[p.key]?.bind (·.bound) with
  | some template => exact .pure _
  | none =>
    cases p.className with
    | none => exact .throw rfl
    | some className =>
      refine .bind (gated_classFor p.session className) fun h => ?_
      exact .bind (.change (mild_modifyCell p _)) fun _ => .pure _

/-- Only the fault that the proxy has no class name is taken for an answer. -/
theorem verdict_declaresProperty (p : Proxy) (name : String) (c : Client) :
    verdict (declaresProperty p name c) =
      match verdict (classOf p c) with
      | .ok h => .ok (h.template.hasProperty name)
      | .error (.missingClassName _) => .ok false
      | .error fault => .error fault := by
  unfold declaresProperty
  cases classOf p c with
  | ok h c' => rfl
  | error fault c' => cases fault <;> rfl

theorem isReleased_of_declaresProperty {p : Proxy} {name : String} {declared : Bool}
    (h : declaresProperty p name c = .ok declared c') : c'.isReleased = c.isReleased := by
  have hafter := after_declaresProperty (c := c) p name
  rw [h] at hafter
  change c' = _ at hafter
  subst hafter
  exact funext (isReleased_classOf c p)

theorem gated_declaresProperty (p : Proxy) (name : String) :
    Gated outer p.session [] (declaresProperty p name) := by
  have hclass : Gated outer p.session [] (classOf p) := gated_classOf p
  refine ⟨fun c => ?_, fun {c fault} h hfatal => ?_, fun {s c c' refusal} hs halike hdown => ?_⟩
  · rw [after_declaresProperty]
    exact hclass.registry c
  · rw [verdict_declaresProperty] at h
    rw [after_declaresProperty]
    split at h
    · cases h
    · cases h
    · rename_i hfault
      cases h
      exact hclass.broken hfault hfatal
  · obtain hrefused | ⟨hverdict, hmid, hdown'⟩ := hclass.follows hs halike hdown
    · refine .refused ?_
      rw [verdict_declaresProperty, hrefused]
      obtain rfl | ⟨cause, rfl⟩ := refusal?_cases hdown
      · rfl
      · rfl
    · refine .alike ?_ ?_ ?_
      · rw [verdict_declaresProperty, verdict_declaresProperty, hverdict]
      · rw [after_declaresProperty, after_declaresProperty]
        exact hmid
      · rw [after_declaresProperty]
        exact hdown'

theorem gated_member (p : Proxy) (name : String) : Gated outer p.session [] (member p name) := by
  refine .bind (gated_classOf p) fun h => ?_
  split
  · exact .bind (.change (mild_modifyCell p _)) fun _ => .pure _
  · split
    · exact .bind (gated_request p.session _) fun _ => .pure _
    · exact .throw rfl

theorem gated_resolveName (p : Proxy) (name : String) :
    Gated outer p.session [] (resolveName p name) := by
  refine .bind (gated_requireLive p.session p) fun _ => .get (fun {_ c c'} h => ?_) fun c => ?_
  · have hcallables : c'.callables p = c.callables p := by rw [callables, h.cells, callables]
    have hreserved : c'.reserved? p name = c.reserved? p name := by rw [reserved?, hcallables, reserved?]
    have hkept : c'.kept? p name = c.kept? p name := by rw [kept?, h.cells, kept?]
    rw [hreserved, hkept, hcallables]
  · cases c.reserved? p name with
    | some a => exact .pure _
    | none =>
      cases c.kept? p name with
      | some v => exact .bind (.change (mild_hold v)) fun _ => .pure _
      | none =>
        dsimp only
        split
        · exact .pure _
        · exact gated_member p name

theorem gated_method (p : Proxy) (name : String) : Gated outer p.session [] (method p name) := by
  refine .bind (gated_resolveName p name) fun a => ?_
  cases a with
  | method m => exact .pure _
  | id | className | session | callables | kept | property =>
    exact .bind (.change (mild_discardAll _)) fun _ => .throw rfl

theorem gated_invoke (m : BoundMethod) (args : List Value) :
    Gated outer m.target.session args (invoke m args) :=
  .bindLate (gated_requireLive _ m.target) (fun h => by rw [same_of_requireLive h]) fun _ => gated_call ..

/-- A name stands for methods of the proxy itself only, and nothing is released on the way to one. -/
theorem found_of_member {p : Proxy} {name : String} {m : BoundMethod} (h : member p name c = .ok (.method m) c') :
    m.target = p ∧ c'.isReleased = c.isReleased := by
  unfold member at h
  obtain ⟨g, mid, hclass, h⟩ := bind_ok.mp h
  split at h
  · obtain ⟨_, noted, hnoted, h⟩ := bind_ok.mp h
    cases hnoted
    cases h
    have hbound : mid.isReleased = c.isReleased := by
      have hreleased := funext (isReleased_classOf c p)
      rwa [hclass] at hreleased
    refine ⟨rfl, Eq.trans (funext fun q => ?_) hbound⟩
    exact isReleased_note p q fun _ => rfl
  · split at h
    · obtain ⟨_, _, _, h⟩ := bind_ok.mp h
      cases h
    · cases h

theorem found_of_resolveName {p : Proxy} {name : String} {m : BoundMethod}
    (h : resolveName p name c = .ok (.method m) c') : m.target = p ∧ c'.isReleased = c.isReleased := by
  have hcase := resolveName_cases p name c
  rw [h] at hcase
  cases hcase with
  | reserved _ _ hreserved => exact absurd rfl ((value?_of_reserved hreserved).2 m)
  | callable => exact ⟨rfl, rfl⟩
  | member _ _ _ _ _ hmember => exact found_of_member hmember

theorem found_of_method {p : Proxy} {name : String} {m : BoundMethod} (h : method p name c = .ok m c') :
    m.target = p ∧ c'.isReleased = c.isReleased := by
  unfold method at h
  obtain ⟨a, mid, ha, h⟩ := bind_ok.mp h
  cases a with
  | method found =>
    cases h
    exact found_of_resolveName ha
  | id | className | session | callables | kept | property =>
    obtain ⟨_, _, _, h⟩ := bind_ok.mp h
    cases h

theorem gated_callMember (p : Proxy) (name : String) (args : List Value) :
    Gated outer p.session args (callMember p name args) := by
  refine .bindLate (gated_method p name) (fun hm => (found_of_method hm).2) fun hm => ?_
  rw [← (found_of_method hm).1]
  exact gated_invoke _ args

theorem gated_getMember (p : Proxy) (name : String) : Gated outer p.session [] (getMember p name) := by
  refine .bind (gated_resolveName p name) fun a => ?_
  cases a with
  | id | kept | property => exact .pure _
  | className name => cases name <;> exact .pure _
  | session | callables | method => exact .throw rfl

theorem gated_keep (t : Nat) (p : Proxy) (name : String) (v : Value) : Gated outer t [] (keep p name v) := by
  have hkeep := (mild_hold v).comp (mild_modifyCell p fun cell =>
    { cell with locals := (cell.locals.filter fun entry => entry.1 != name) ++ [(name, v)] })
  refine .change ⟨fun {s c c'} h => ?_, fun {s c _} h => ?_, fun c i => ?_⟩
  · have hkept : c'.kept? p name = c.kept? p name := by rw [kept?, h.cells, kept?]
    rw [hkept]
    exact (hkeep.alike h).discardAll _
  · exact (mild_discardAll _).refusal (hkeep.refusal h)
  · exact ((mild_discardAll _).registry _ i).trans (hkeep.registry c i)

theorem gated_setMember (p : Proxy) (name : String) (v : Value) :
    Gated outer p.session [v] (setMember p name v) := by
  refine .bindLate (gated_requireLive _ p) (fun h => by rw [same_of_requireLive h]) fun _ => ?_
  change Gated outer p.session [v] (if reservedNames.contains name then throw (.readOnly name)
    else do
      if ← declaresProperty p name then setProperty p.session p.id name v else keep p name v)
  split
  · exact .throw rfl
  · refine .bindLate (gated_declaresProperty p name) isReleased_of_declaresProperty fun {_ declared _} _ => ?_
    split
    · exact gated_setProperty ..
    · exact (gated_keep ..).weaken

theorem gated_elementOf (p : Proxy) (index : Int32) : Gated outer p.session [] (elementOf p index) :=
  .bind (gated_requireLive _ p) fun _ => gated_request ..

theorem gated_elementOfProperty (p : Proxy) (name : String) (index : Int32) :
    Gated outer p.session [] (elementOfProperty p name index) :=
  .bind (gated_requireLive _ p) fun _ => gated_request ..

theorem gated_protectObject (p : Proxy) : Gated outer p.session [] (protectObject p) :=
  .bind (gated_requireLive _ p) fun _ => gated_post ..

theorem gated_releaseObject (p : Proxy) : Gated outer p.session [] (releaseObject p) := by
  refine .bind (gated_requireLive _ p) fun _ => .bind (.change ?_) fun _ => gated_post ..
  exact (mild_modifyCell p _).comp
    (mild_modifySession p.session (fun _ _ h => h.forget p) (fun _ => rfl) fun _ => rfl)

end Client

end ObjectBridge
