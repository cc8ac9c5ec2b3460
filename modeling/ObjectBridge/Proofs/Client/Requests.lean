import ObjectBridge.Client.Objects
import ObjectBridge.Proofs.Client.Holding
import ObjectBridge.Proofs.Registry.Naming
import Mathlib.Data.List.Basic

/-!
# Operations as runs

`Leads free c hand post` says of the result of an operation on `c`, begun with the values `hand` in hand,
that it is reached by steps, and that it leaves in hand what `post` says if it is a value and nothing if it
is a fault. Operations are put together by `bind`, so each needs no more than its parts. Values that
operations give are known.

A request may be sent if the session is open to all requests, or if live proxies name all objects in it
(`Grants`). With the standard registry that is so where the values that the request is made of hold
proxies of the session alone (`Entrusts`).
-/

namespace ObjectBridge.Client

variable {α β : Type} {free : Nat → Session.Deed → Prop} {c : Client}

/-- A result that steps lead to; its value and what is in hand with it meet `post`. -/
def Leads (free : Nat → Session.Deed → Prop) (c : Client) (hand : List Value)
    (post : α → Client → List Value → Prop) : EStateM.Result Fault Client α → Prop
  | .ok x c' => Runs free c c' ∧ ∃ hand', Passes c hand c' hand' ∧ post x c' hand'
  | .error _ c' => Runs free c c' ∧ Passes c hand c' []

/-- Nothing is left in hand. -/
def Anything (_ : α) (_ : Client) (hand : List Value) : Prop := hand = []

/-- A known value is in hand. -/
def Known (v : Value) (c : Client) (hand : List Value) : Prop := c.KnowsAll v ∧ hand = [v]

namespace Leads

variable {hand : List Value} {post mid : α → Client → List Value → Prop}
  {next : β → Client → List Value → Prop}

theorem runs {result : EStateM.Result Fault Client α} (h : Leads free c hand post result) :
    Runs free c (after result) := by
  cases result with
  | ok x c' => exact h.1
  | error fault c' => exact h.1

theorem mono {result : EStateM.Result Fault Client α} (h : Leads free c hand mid result)
    (hpost : ∀ x c' hand', mid x c' hand' → post x c' hand') : Leads free c hand post result := by
  cases result with
  | ok x c' =>
    obtain ⟨hruns, hand', hpasses, hmid⟩ := h
    exact ⟨hruns, hand', hpasses, hpost x c' hand' hmid⟩
  | error fault c' => exact h

/-- How a value was reached may be used. -/
theorem told {result : EStateM.Result Fault Client α} (h : Leads free c hand post result) :
    Leads free c hand (fun x c' hand' => post x c' hand' ∧ Runs free c c' ∧ result = .ok x c') result := by
  cases result with
  | ok x c' =>
    obtain ⟨hruns, hand', hpasses, hpost⟩ := h
    exact ⟨hruns, hand', hpasses, hpost, hruns, rfl⟩
  | error fault c' => exact h

theorem of_after {result : EStateM.Result Fault Client α} (h : Runs free c (after result))
    (hpasses : Passes c hand (after result) []) : Leads free c hand Anything result := by
  cases result with
  | ok x c' => exact ⟨h, [], hpasses, rfl⟩
  | error fault c' => exact ⟨h, hpasses⟩

theorem pure {x : α} (h : post x c hand) : Leads free c hand post ((Pure.pure x : Action α) c) :=
  ⟨.refl, hand, .refl, h⟩

theorem throw (fault : Fault) : Leads free c [] post ((MonadExcept.throw fault : Action α) c) :=
  ⟨.refl, .refl⟩

theorem of_runs {c' : Client} {hand' : List Value} {result : EStateM.Result Fault Client α}
    (h : Leads free c' hand' post result) (hruns : Runs free c c') (hpasses : Passes c hand c' hand') :
    Leads free c hand post result := by
  cases result with
  | ok x c'' =>
    obtain ⟨hruns', hand'', hpasses', hpost⟩ := h
    exact ⟨hruns.trans hruns', hand'', hpasses.trans hpasses', hpost⟩
  | error fault c'' => exact ⟨hruns.trans h.1, hpasses.trans h.2⟩

theorem get {f : Client → Action β} (h : Leads free c hand next (f c c)) :
    Leads free c hand next ((MonadState.get >>= f) c) := h

/-- An operation goes on where its first part leads, with what that leaves in hand. -/
theorem bind {a : Action α} {f : α → Action β} (hc : c.Sound) (ha : Leads free c hand mid (a c))
    (hf : ∀ x c' hand', c'.Sound → Runs free c c' → mid x c' hand' →
      Leads free c' hand' next (f x c')) :
    Leads free c hand next ((a >>= f) c) := by
  cases hstep : a c with
  | ok x c' =>
    rw [hstep] at ha
    obtain ⟨hruns, hand', hpasses, hmid⟩ := ha
    rw [bind_of_ok f hstep]
    exact (hf x c' hand' (hruns.sound hc) hruns hmid).of_runs hruns hpasses
  | error fault c' =>
    rw [hstep] at ha
    rw [bind_of_error f hstep]
    exact ha

end Leads

/-! ### Single steps -/

theorem leads_outcome (f : Client → Except Fault α) :
    Leads free c [] (fun x c' hand => f c = .ok x ∧ c' = c ∧ hand = []) (outcome f c) := by
  unfold outcome
  cases f c with
  | ok x => exact ⟨.refl, [], .refl, rfl, rfl, rfl⟩
  | error fault => exact ⟨.refl, .refl⟩

theorem leads_modify {f : Client → Client} {hand : List Value} (h : Runs free c (f c))
    (hpasses : Passes c hand (f c) []) :
    Leads free c hand (fun _ c' hand => c' = f c ∧ hand = []) ((modify f : Action Unit) c) :=
  ⟨h, [], hpasses, rfl, rfl⟩

theorem after_onSession (s : Nat) (step : Session.Action α) (c : Client) :
    after (onSession s step c) = c.modifySession s fun session => after (step session) := by
  unfold onSession
  cases hs : c.sessions[s]? with
  | none =>
    rw [modifySession, modify_of_none hs]
    rfl
  | some session =>
    rw [modifySession, modify_of_some hs]
    dsimp only
    cases step session <;> rfl

theorem onSession_ok {s : Nat} {step : Session.Action α} {x : α} {c' : Client}
    (h : onSession s step c = .ok x c') :
    ∃ session session', c.sessions[s]? = some session ∧ step session = .ok x session' ∧
      c' = { c with sessions := c.sessions.setIfInBounds s session' } := by
  unfold onSession at h
  cases hs : c.sessions[s]? with
  | none =>
    simp only [hs] at h
    cases h
  | some session =>
    simp only [hs] at h
    cases hstep : step session with
    | ok y session' =>
      simp only [hstep] at h
      cases h
      exact ⟨session, session', rfl, hstep, rfl⟩
    | error fault session' =>
      simp only [hstep] at h
      cases h

theorem cells_onSession (s : Nat) (step : Session.Action α) :
    (after (onSession s step c)).cells = c.cells := by
  rw [after_onSession]
  rfl

/-- Something a session does on its channel, and nothing else happens to the client. -/
theorem leads_onSession {s : Nat} {step : Session.Action α} (d : Session.Deed) (hfits : d.Fits)
    (hrun : ∀ session, after (step session) = d.run session) (hallowed : free s d ∨ c.Backed s d) :
    Leads free c [] Anything (onSession s step c) := by
  refine .of_after ?_ (.of_cells (cells_onSession s step))
  rw [after_onSession]
  cases hs : c.sessions[s]? with
  | none =>
    rw [modifySession, modify_of_none hs]
  | some session =>
    rw [modifySession, modify_of_some hs, hrun]
    exact .single (.ask s session d hs hfits hallowed)

theorem leads_plain {v : Value} (hv : v.proxies = []) :
    Leads free c [] Known ((Pure.pure v : Action Value) c) := by
  refine ⟨.refl, [v], Passes.refl.congr fun key => ?_, knowsAll_of_proxies hv, rfl⟩
  rw [mentions_plain hv]

/-! ### Leave to send -/

/-- A session that may do anything but end or send raw releases. -/
def Open (free : Nat → Session.Deed → Prop) (s : Nat) : Prop :=
  ∀ d : Session.Deed, d.isClose = false → d.isRelease = false → free s d

/-- Whether a request may be sent: the session is open, or live proxies name all objects in it. -/
def Grants (free : Nat → Session.Deed → Prop) (c : Client) (s : Nat) (m : Message) : Prop :=
  Open free s ∨ ∀ id ∈ m.handles, c.BackedBy s id

/-- Whether requests may be made of some values: the session is open, or it has the standard registry and
all proxies in the values are its own. -/
def Entrusts (free : Nat → Session.Deed → Prop) (c : Client) (s : Nat) (vs : List Value) : Prop :=
  Open free s ∨ c.registry s = .standard ∧ ∀ v ∈ vs, ∀ p ∈ v.proxies, c.Knows p ∧ p.session = s

theorem Grants.allowed {s : Nat} {m : Message} (h : c.Grants free s m) {d : Session.Deed}
    (hm : d.request? = some m) (hd : d.isRelease = false) : free s d ∨ c.Backed s d := by
  refine h.imp (fun hopen => hopen d ?_ hd) fun hbacked => ⟨hd, m, hm, hbacked⟩
  cases d with
  | close => cases hm
  | _ => rfl

theorem grants_nothing {s : Nat} {m : Message} (h : m.handles = []) : c.Grants free s m := by
  refine .inr fun id hid => ?_
  rw [h] at hid
  cases hid

theorem Step.registry_eq {c' : Client} (h : Step free c c') (s : Nat) : c'.registry s = c.registry s := by
  unfold registry
  cases hs' : c'.sessions[s]? with
  | none =>
    have hs : c.sessions[s]? = none := by
      rw [Array.getElem?_eq_none_iff] at hs' ⊢
      rwa [h.size_sessions] at hs'
    rw [hs]
  | some session' =>
    obtain ⟨session, hs, hsteps⟩ := h.sessions hs'
    rw [hs]
    exact Session.registry_of_steps hsteps

theorem Runs.registry_eq {c' : Client} (h : Runs free c c') (s : Nat) : c'.registry s = c.registry s := by
  induction h with
  | refl => rfl
  | tail _ hstep ih => exact (hstep.registry_eq s).trans ih

theorem Entrusts.runs {c' : Client} {s : Nat} {vs : List Value} (h : c.Entrusts free s vs)
    (hruns : Runs free c c') : c'.Entrusts free s vs := by
  refine h.imp_right fun hown => ⟨(hruns.registry_eq s).trans hown.1, fun v hv p hp => ?_⟩
  obtain ⟨hknown, hs⟩ := hown.2 v hv p hp
  exact ⟨hruns.knows hknown, hs⟩

/-- The messages of values that may be handed over name objects of live proxies only. -/
theorem Entrusts.convertAll {s : Nat} {vs : List Value} (h : c.Entrusts free s vs) {ms : List Message}
    (hms : (c.registry s).convertAll c.isReleased vs = .ok ms) :
    Open free s ∨ ∀ id ∈ Message.handlesOfAll ms, c.BackedBy s id := by
  refine h.imp_right fun hown id hid => ?_
  rw [hown.1] at hms
  obtain ⟨p, hp, hpid, hlive⟩ := Registry.handles_convertAll hms id hid
  rw [proxiesOfAll_eq] at hp
  obtain ⟨v, hv, hp⟩ := List.mem_flatMap.mp hp
  obtain ⟨hknown, hs⟩ := hown.2 v hv p hp
  exact ⟨p, hknown, hs, hpid, hlive⟩

theorem Entrusts.convert {s : Nat} {v : Value} (h : c.Entrusts free s [v]) {m : Message}
    (hm : (c.registry s).convert c.isReleased v = .ok m) : c.Grants free s m := by
  refine h.imp_right fun hown id hid => ?_
  rw [hown.1] at hm
  obtain ⟨p, hp, hpid, hlive⟩ := Registry.handles_convert hm id hid
  obtain ⟨hknown, hs⟩ := hown.2 v (List.mem_singleton_self v) p hp
  exact ⟨p, hknown, hs, hpid, hlive⟩

/-- A request to the object of a live proxy may be sent if what else it names may be. -/
theorem grants_target {p : Proxy} (hp : c.Knows p) (hlive : c.isReleased p = false) {m : Message}
    {rest : List Int32} (hm : m.handles = p.id :: rest)
    (hrest : Open free p.session ∨ ∀ id ∈ rest, c.BackedBy p.session id) : c.Grants free p.session m := by
  refine hrest.imp_right fun hbacked id hid => ?_
  rw [hm] at hid
  obtain rfl | hid := List.mem_cons.mp hid
  · exact ⟨p, hp, rfl, rfl, hlive⟩
  · exact hbacked id hid

/-! ### Requests on the channel -/

theorem leads_exchange {s : Nat} {m : Message} (hm : m.awaitsReply = true) (h : c.Grants free s m) :
    Leads free c [] Anything (exchange s m c) := leads_onSession (.exchange m) hm (fun _ => rfl) (h.allowed rfl rfl)

theorem leads_protect {s : Nat} {id : Int32} (h : c.Grants free s (.protect id)) :
    Leads free c [] Anything (protect s id c) :=
  leads_onSession (.post (.protect id)) rfl (fun _ => rfl) (h.allowed rfl rfl)

theorem leads_release {s : Nat} {id : Int32} (h : free s (.post (.release id))) :
    Leads free c [] Anything (release s id c) :=
  leads_onSession (.post (.release id)) rfl (fun _ => rfl) (.inl h)

/-! ### Replies -/

mutual

theorem leads_resolve (s : Nat) (t : Tag) (m : Message) {c : Client} (hc : c.Sound) :
    Leads free c [] Known (resolve s t m c) := by
  cases m with
  | object ref =>
    obtain ⟨hruns, hknown, hpasses⟩ : Runs free c _ ∧ _ := runs_objectFor hc s ref.id ref.className
    exact ⟨hruns, _, hpasses, knowsAll_object.mpr hknown, rfl⟩
  | objectArray items =>
    unfold resolve
    refine .bind hc (leads_resolveAll s t items [] hc fun _ h => by cases h) ?_
    intro vs c' hand _ _ hvs
    obtain ⟨hknown, hhand⟩ := hvs
    rw [hhand]
    refine ⟨.refl, [.list vs], Passes.refl.congr fun key => ?_, knowsAll_list.mpr hknown, rfl⟩
    rw [mentions_list, mentions_nil, Nat.add_zero]
  | null | bool | byte | int32 | int64 | float64 | string | vector | matrix | boolArray |
    byteArray | int32Array | int64Array | float64Array | stringArray =>
    unfold resolve
    exact leads_plain rfl
  | exception | create | callStaticMethod | callMethod | getProperty | getIndexedProperty |
    getIndexed | setProperty | getStaticProperty | setStaticProperty | protect | release |
    templateReq | templateReply =>
    unfold resolve
    exact .throw _

/-- The values of the items of a reply are known and in hand, those found before included. -/
theorem leads_resolveAll (s : Nat) (t : Tag) (ms : List Message) (done : List Value) {c : Client}
    (hc : c.Sound) (hdone : ∀ v ∈ done, c.KnowsAll v) :
    Leads free c done (fun vs c' hand => (∀ v ∈ vs, c'.KnowsAll v) ∧ hand = vs)
      (resolveAll s t ms done c) := by
  cases ms with
  | nil =>
    unfold resolveAll
    refine ⟨.refl, done.reverse, Passes.refl.congr fun key => mentions_reverse.symm, ?_, rfl⟩
    exact fun v hv => hdone v (List.mem_reverse.mp hv)
  | cons m ms =>
    unfold resolveAll
    have hfirst : Leads free c [] Known (resolve s t m c) := leads_resolve s t m hc
    cases hresolve : resolve s t m c with
    | ok v c' =>
      rw [hresolve] at hfirst
      obtain ⟨hruns, _, hpasses, hv, rfl⟩ := hfirst
      have hdone' : ∀ w ∈ v :: done, c'.KnowsAll w := by
        rw [List.forall_mem_cons]
        exact ⟨hv, fun w hw => hruns.knowsAll (hdone w hw)⟩
      exact (leads_resolveAll s t ms (v :: done) (hruns.sound hc) hdone').of_runs hruns
        (hpasses.beside done)
    | error fault c' =>
      rw [hresolve] at hfirst
      obtain ⟨hruns, hpasses⟩ := hfirst
      refine ⟨hruns.trans (runs_discardAll done.reverse), ?_⟩
      exact ((hpasses.beside done).congr fun key => mentions_reverse.symm).trans
        (passes_discardAll done.reverse)

end

/-! ### Requests -/

theorem leads_request (hc : c.Sound) {s : Nat} {m : Message} (hm : m.awaitsReply = true)
    (h : c.Grants free s m) : Leads free c [] Known (request s m c) := by
  refine .bind hc (leads_exchange hm h) ?_
  intro reply c' hand hc' _ hnone
  rw [hnone]
  exact leads_resolve s m.tag reply hc'

theorem leads_command (hc : c.Sound) {s : Nat} {m : Message} (hm : m.awaitsReply = true)
    (h : c.Grants free s m) : Leads free c [] Anything (command s m c) := by
  refine .bind hc (leads_request hc hm h) ?_
  intro v c' hand _ _ hv
  obtain ⟨_, rfl⟩ := hv
  exact (leads_modify (runs_discard v) (passes_discardAll [v])).mono fun _ _ _ hdone => hdone.2

theorem leads_converted (hc : c.Sound) {s : Nat} {args : List Value} {make : List Message → Message}
    (hm : ∀ ms, (make ms).awaitsReply = true)
    (h : ∀ ms, (c.registry s).convertAll c.isReleased args = .ok ms → c.Grants free s (make ms)) :
    Leads free c [] Known ((do request s (make (← convertAll s args)) : Action Value) c) := by
  refine .bind hc (leads_outcome _) ?_
  intro ms c' hand hc' _ hms
  obtain ⟨hms, rfl, rfl⟩ := hms
  exact leads_request hc' (hm ms) (h ms hms)

theorem leads_create (hc : c.Sound) {s : Nat} (className : String) {args : List Value}
    (h : c.Entrusts free s args) : Leads free c [] Known (create s className args c) :=
  leads_converted hc (fun _ => rfl) fun ms hms => by
    rw [Grants, Message.handles_create]
    exact h.convertAll hms

theorem leads_callStatic (hc : c.Sound) {s : Nat} (className method : String) {args : List Value}
    (h : c.Entrusts free s args) : Leads free c [] Known (callStatic s className method args c) :=
  leads_converted hc (fun _ => rfl) fun ms hms => by
    rw [Grants, Message.handles_callStaticMethod]
    exact h.convertAll hms

theorem leads_call (hc : c.Sound) {s : Nat} (h : Open free s) (id : Int32) (method : String)
    (args : List Value) : Leads free c [] Known (call s id method args c) :=
  leads_converted hc (fun _ => rfl) fun _ _ => .inl h

theorem leads_construct (hc : c.Sound) {s : Nat} (h : c.Entrusts free s []) (expression : String) :
    Leads free c [] Known (construct s expression c) := by
  refine leads_callStatic hc _ _ (h.imp_right fun hown => ⟨hown.1, fun v hv p hp => ?_⟩)
  rw [List.mem_singleton] at hv
  subst hv
  cases hp

theorem leads_assign (hc : c.Sound) {s : Nat} {v : Value} {make : Message → Message}
    (hm : ∀ m, (make m).awaitsReply = true)
    (h : ∀ m, (c.registry s).convert c.isReleased v = .ok m → c.Grants free s (make m)) :
    Leads free c [] Anything ((do command s (make (← convert s v)) : Action Unit) c) := by
  refine .bind hc (leads_outcome _) ?_
  intro m c' hand hc' _ hdone
  obtain ⟨hdone, rfl, rfl⟩ := hdone
  exact leads_command hc' (hm m) (h m hdone)

theorem leads_setProperty (hc : c.Sound) {s : Nat} (h : Open free s) (id : Int32) (property : String)
    (v : Value) : Leads free c [] Anything (setProperty s id property v c) :=
  leads_assign hc (fun _ => rfl) fun _ _ => .inl h

theorem leads_setStaticProperty (hc : c.Sound) {s : Nat} (className property : String) {v : Value}
    (h : c.Entrusts free s [v]) :
    Leads free c [] Anything (setStaticProperty s className property v c) :=
  leads_assign hc (fun _ => rfl) fun m hm => by
    have hgrants : c.Grants free s m := h.convert hm
    exact hgrants

theorem leads_fetchTemplate (hc : c.Sound) (s : Nat) (className : String) :
    Leads free c [] Anything (fetchTemplate s className c) := by
  refine .bind hc (leads_exchange rfl (grants_nothing rfl)) ?_
  intro reply c' hand _ _ hnone
  rw [hnone]
  cases reply with
  | templateReply members => exact .pure rfl
  | _ => exact .throw _

/-- Changes to a session that do not touch its channel or its table are steps. -/
theorem runs_tend (s : Nat) {f : Session → Session} (h : ∀ session : Session, session.Tended (f session)) :
    Runs free c (c.modifySession s f) := by
  cases hs : c.sessions[s]? with
  | none =>
    rw [modifySession, modify_of_none hs]
  | some session =>
    rw [modifySession, modify_of_some hs]
    exact .single (.tend s session _ hs (h session))

theorem runs_close {s : Nat} (h : free s .close) : Runs free c (c.modifySession s Session.close) := by
  cases hs : c.sessions[s]? with
  | none =>
    rw [modifySession, modify_of_none hs]
  | some session =>
    rw [modifySession, modify_of_some hs]
    exact .single (.ask s session .close hs trivial (.inl h))

theorem leads_classFor (hc : c.Sound) (s : Nat) (className : String) :
    Leads free c [] Anything (classFor s className c) := by
  unfold classFor
  apply Leads.get
  cases c.cachedTemplate? s className with
  | some template => exact .pure rfl
  | none =>
    refine .bind hc (leads_fetchTemplate hc s className) ?_
    intro template c' hand hc' _ hnone
    rw [hnone]
    refine .bind hc' (leads_modify (runs_tend s fun _ => ⟨rfl, rfl, rfl, rfl, rfl⟩) (.of_cells rfl)) ?_
    intro _ c'' hand _ _ hdone
    exact .pure hdone.2

theorem cells_classFor (s : Nat) (className : String) :
    (after (classFor s className c)).cells = c.cells := by
  have hexchange : (after (exchange s (.templateReq className) c)).cells = c.cells := cells_onSession ..
  have hfetch : (after (fetchTemplate s className c)).cells = c.cells := by
    unfold fetchTemplate
    cases h : exchange s (.templateReq className) c with
    | ok reply c' =>
      rw [h] at hexchange
      rw [bind_of_ok _ h]
      cases reply <;> exact hexchange
    | error fault c' =>
      rw [h] at hexchange
      rw [bind_of_error _ h]
      exact hexchange
  unfold classFor
  rw [get_bind]
  cases c.cachedTemplate? s className with
  | some template => rfl
  | none =>
    dsimp only
    cases h : fetchTemplate s className c with
    | ok template c' =>
      rw [h] at hfetch
      rw [bind_of_ok _ h]
      exact hfetch
    | error fault c' =>
      rw [h] at hfetch
      rw [bind_of_error _ h]
      exact hfetch

/-- The table of a class has a callable under a name just if the template declares the static method. -/
theorem lookup_statics (h : ClassHandle) (name : String) :
    h.statics.lookup name =
      if h.template.hasStaticMethod name then some ⟨h.session, h.template.className, name⟩ else none := by
  unfold ClassHandle.statics Template.hasStaticMethod
  by_cases hname : name ∈ h.template.staticMethods
  · rw [if_pos (List.contains_iff_mem.mpr hname)]
    exact List.lookup_graph (fun name => (⟨h.session, h.template.className, name⟩ : StaticMethod)) hname
  · rw [if_neg fun hcontains => hname (List.contains_iff_mem.mp hcontains), List.lookup_eq_none_iff]
    intro entry hentry
    obtain ⟨other, hother, rfl⟩ := List.mem_map.mp hentry
    exact bne_iff_ne.mpr fun heq => hname (heq ▸ hother)

theorem staticMethod_eq (h : ClassHandle) (name : String) :
    h.staticMethod name =
      if h.template.hasStaticMethod name then .ok ⟨h.session, h.template.className, name⟩
      else .error (h.template.refusal name) := by
  unfold ClassHandle.staticMethod
  rw [lookup_statics]
  cases h.template.hasStaticMethod name <;> rfl

theorem session_of_staticMethod {h : ClassHandle} {name : String} {m : StaticMethod}
    (hm : h.staticMethod name = .ok m) : m.session = h.session := by
  rw [staticMethod_eq] at hm
  split at hm <;> cases hm
  rfl

theorem leads_invokeStatic (hc : c.Sound) (m : StaticMethod) {args : List Value}
    (h : c.Entrusts free m.session args) : Leads free c [] Known (invokeStatic m args c) := by
  unfold invokeStatic
  apply Leads.get
  split
  · exact leads_callStatic hc _ _ h
  · exact .throw _

end ObjectBridge.Client
