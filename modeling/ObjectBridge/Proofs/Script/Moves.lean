import ObjectBridge.Proofs.Client.Objects
import ObjectBridge.Script.Run

/-!
# Scripts as runs

Whatever a script does, line by line, is a series of steps of its client. At all times the proxies in its
slots are known, and every proxy is counted as often as it occurs in the values of the slots and in those
kept on proxies (`State.Sound`).

What a script needs leave for (`State.Permits`) are the requests of a session that name an object by its
identifier, raw releases, ends of sessions, and the values that it hands over to a session (`State.handed`).
-/

namespace ObjectBridge.Script

open Client

/-- The value that a slot holds, if it holds one. -/
def Holding.values : Holding → List Value
  | .value v => [v]
  | _ => []

def Answer.values (answer : Answer) : List Value := answer.holding?.toList.flatMap Holding.values

namespace State

/-- The values in all slots. -/
def values (st : State) : List Value := st.slots.flatMap fun entry => entry.2.values

/-- Whether assigning to a name on a proxy would ask the server for it. -/
def assigns (st : State) (p : Proxy) (name : String) : Bool :=
  !st.client.isReleased p && !reservedNames.contains name &&
    match declaresProperty p name st.client with
    | .ok declared _ => declared
    | .error _ _ => false

/-- The session to which a step hands over values for conversion, and the operands that they come from. -/
def handed (st : State) : Step → Option (Nat × List Operand)
  | .session s (.create _ args) | .session s (.callStatic _ _ args) | .session s (.call _ _ args) =>
    some (s, args)
  | .session s (.construct _) => some (s, [])
  | .session s (.setProperty _ _ v) | .session s (.setStaticProperty _ _ v) => some (s, [v])
  | .proxy slot (.call _ args) => (st.proxy? slot).map fun p => (p.session, args)
  | .proxy slot (.set name v) =>
    (st.proxy? slot).bind fun p => if st.assigns p name then some (p.session, [v]) else none
  | .callOfClass slot _ args => (st.class? slot).map fun h => (h.session, args)
  | .invoke slot args =>
    match st.slot? slot with
    | some (.method m) => some (m.target.session, args)
    | some (.static m) => some (m.session, args)
    | _ => none
  | _ => none

theorem operands_singleton {st : State} {o : Operand} {v : Value} (h : st.operand o = .ok v) :
    st.operands [o] = .ok [v] := by
  simp only [operands, h, Except.map]

end State

/-- The session of which a step asks something about an object by the identifier alone. -/
def Step.raw? : Step → Option Nat
  | .session s (.call ..) | .session s (.getProperty ..) | .session s (.setProperty ..)
  | .session s (.getIndexed ..) | .session s (.getIndexedProperty ..) | .session s (.protect _) => some s
  | _ => none

/-- Whether a step sends raw releases to none but the sessions that `raw` names. -/
def Step.Allowed (raw : Nat → Prop) (step : Step) : Prop :=
  ∀ (s : Nat) (id : Int32), step = .session s (.release id) → raw s

namespace State

variable {free : Nat → Session.Deed → Prop} {st : State}

/-- Whether a step keeps to what is free. -/
structure Permits (free : Nat → Session.Deed → Prop) (st : State) (step : Step) : Prop where
  raw : ∀ s, step.raw? = some s → Open free s
  release : ∀ s id, step = .session s (.release id) → free s (.post (.release id))
  close : ∀ s, step = .session s .close → free s .close
  handed : ∀ s os vs, st.handed step = some (s, os) → st.operands os = .ok vs →
    st.client.Entrusts free s vs

/-- Whether something holds of every step of a run, in the state in which it is done. -/
def Throughout (holds : State → Step → Prop) : State → List Line → Prop
  | _, [] => True
  | st, line :: lines => holds st line.step ∧ Throughout holds (st.step line).2 lines

/-! ### Sound states -/

def Familiar (c : Client) : Holding → Prop
  | .value v => c.KnowsAll v
  | .method m => c.Knows m.target
  | _ => True

theorem Familiar.runs {c c' : Client} {h : Holding} (hfamiliar : Familiar c h) (hruns : Runs free c c') :
    Familiar c' h := by
  cases h with
  | value v => exact hruns.knowsAll hfamiliar
  | method m => exact hruns.knows hfamiliar
  | classHandle | static => trivial

structure Sound (st : State) : Prop where
  client : st.client.Sound
  slots : ∀ entry ∈ st.slots, Familiar st.client entry.2
  names : (st.slots.map Prod.fst).Nodup
  balanced : Balanced st.client.cells st.values

theorem Sound.slot {name : String} {held : Holding} (h : st.Sound) (hslot : st.slot? name = some held) :
    Familiar st.client held := h.slots _ (mem_of_lookup hslot)

theorem Sound.value {name : String} {v : Value} (h : st.Sound) (hv : st.value? name = some v) :
    st.client.KnowsAll v := by
  unfold value? at hv
  split at hv
  · rename_i hslot
    cases hv
    exact h.slot hslot
  · cases hv

theorem Sound.proxy {name : String} {p : Proxy} (h : st.Sound) (hp : st.proxy? name = some p) :
    st.client.Knows p := by
  obtain ⟨v, hv, hobject⟩ := Option.bind_eq_some_iff.mp hp
  have hknown := h.value hv
  cases v with
  | object q =>
    cases hobject
    exact knowsAll_object.mp hknown
  | _ => cases hobject

mutual

/-- An operand comes from slots or holds no proxy, so its value is known; if it cannot be had, the answer
leaves nothing. -/
theorem operand_cases (h : st.Sound) (o : Operand) :
    (∃ v, st.operand o = .ok v ∧ st.client.KnowsAll v) ∨
      ∃ answer, st.operand o = .error answer ∧ answer.holding? = none := by
  cases o with
  | slot name =>
    unfold operand
    cases hvalue : st.value? name with
    | none => exact .inr ⟨.noSlot, rfl, rfl⟩
    | some v => exact .inl ⟨v, rfl, h.value hvalue⟩
  | literal v =>
    unfold operand
    split
    · rename_i hplain
      exact .inl ⟨v, rfl, knowsAll_of_proxies (List.isEmpty_iff.mp hplain)⟩
    · exact .inr ⟨.noSlot, rfl, rfl⟩
  | list items =>
    unfold operand
    obtain ⟨vs, hvs, hknown⟩ | ⟨answer, hanswer, hnone⟩ := operands_cases h items
    · rw [hvs]
      exact .inl ⟨.list vs, rfl, knowsAll_list.mpr hknown⟩
    · rw [hanswer]
      exact .inr ⟨answer, rfl, hnone⟩
  | unfit fault => exact .inr ⟨.failed fault, rfl, rfl⟩

theorem operands_cases (h : st.Sound) (os : List Operand) :
    (∃ vs, st.operands os = .ok vs ∧ ∀ v ∈ vs, st.client.KnowsAll v) ∨
      ∃ answer, st.operands os = .error answer ∧ answer.holding? = none := by
  cases os with
  | nil => exact .inl ⟨[], rfl, fun _ hv => by cases hv⟩
  | cons o os =>
    unfold operands
    obtain ⟨v, hv, hknown⟩ | ⟨answer, hanswer, hnone⟩ := operand_cases h o
    · rw [hv]
      obtain ⟨vs, hvs, hall⟩ | ⟨answer, hanswer, hnone⟩ := operands_cases h os
      · rw [hvs]
        refine .inl ⟨v :: vs, rfl, ?_⟩
        rw [List.forall_mem_cons]
        exact ⟨hknown, hall⟩
      · rw [hanswer]
        exact .inr ⟨answer, rfl, hnone⟩
    · rw [hanswer]
      exact .inr ⟨answer, rfl, hnone⟩

end

/-! ### Giving up slots -/

/-- The state after some doing: the client has run, no slot was filled, what the answer leaves is
familiar, and its value is in hand beside those of the slots. -/
structure Done (free : Nat → Session.Deed → Prop) (st : State) (r : Answer × State) : Prop where
  runs : Runs free st.client r.2.client
  slots : r.2.slots.Sublist st.slots
  answer : ∀ h, r.1.holding? = some h → Familiar r.2.client h
  passes : Passes st.client st.values r.2.client (r.1.values ++ r.2.values)

theorem runs_giveUp (st : State) (h : Option Holding) : Runs free st.client (st.giveUp h).client := by
  unfold giveUp
  split
  · exact runs_discard _
  · exact .refl

theorem slots_giveUp (st : State) (h : Option Holding) : (st.giveUp h).slots = st.slots := by
  unfold giveUp
  split <;> rfl

theorem passes_giveUp (st : State) (h : Option Holding) :
    Passes st.client (h.toList.flatMap Holding.values) (st.giveUp h).client [] := by
  cases h with
  | none => exact .refl
  | some held =>
    cases held with
    | value v => exact passes_discardAll [v]
    | method | classHandle | static => exact .refl

theorem runs_clear (st : State) (name : String) : Runs free st.client (st.clear name).client :=
  runs_giveUp { st with slots := st.slots.filter fun entry => entry.1 != name } (st.slot? name)

theorem slots_clear (st : State) (name : String) : (st.clear name).slots.Sublist st.slots := by
  rw [clear, slots_giveUp]
  exact List.filter_sublist

/-- Filling a slot, or leaving it empty, takes what is to be filled in and leaves the values of the slots. -/
theorem passes_replaceSlot (hnames : (st.slots.map Prod.fst).Nodup) (name : String)
    (new : List (String × Holding)) :
    Passes st.client ((new.flatMap fun entry => entry.2.values) ++ st.values)
      (State.giveUp { st with slots := new ++ st.slots.filter fun entry => entry.1 != name }
        (st.slot? name)).client
      (State.giveUp { st with slots := new ++ st.slots.filter fun entry => entry.1 != name }
        (st.slot? name)).values := by
  have hold := passes_giveUp { st with slots := new ++ st.slots.filter fun entry => entry.1 != name }
    (st.slot? name)
  intro others hb
  rw [values, slots_giveUp, List.flatMap_append]
  refine hold _ (hb.congr fun key => ?_)
  have hlookup := mentions_lookup key Holding.values hnames name
  simp only [mentions_append, List.append_eq, values, slot?] at hlookup ⊢
  omega

theorem passes_clear (hnames : (st.slots.map Prod.fst).Nodup) (name : String) :
    Passes st.client st.values (st.clear name).client (st.clear name).values :=
  passes_replaceSlot hnames name []

/-! ### The answer of a step -/

theorem done_still (st : State) {answer : Answer} (h : answer.holding? = none) :
    Done free st (answer, st) := by
  refine ⟨.refl, .refl _, fun held hheld => ?_, ?_⟩
  · rw [h] at hheld
    cases hheld
  · rw [Answer.values, h]
    exact .refl

theorem done_act {α : Type} {action : Client.Action α} {post : α → Client → List Value → Prop}
    {present : α → Answer} (h : Leads free st.client [] post (action st.client))
    (hpresent : ∀ x c hand, post x c hand →
      (∀ held, (present x).holding? = some held → Familiar c held) ∧ hand = (present x).values) :
    Done free st (st.act action present) := by
  unfold act
  cases haction : action st.client with
  | ok x c =>
    rw [haction] at h
    obtain ⟨hruns, hand, hpasses, hpost⟩ := h
    obtain ⟨hfamiliar, rfl⟩ := hpresent x c hand hpost
    exact ⟨hruns, .refl _, hfamiliar, hpasses.beside st.values⟩
  | error fault c =>
    rw [haction] at h
    refine ⟨h.1, .refl _, fun held hheld => ?_, h.2.beside st.values⟩
    cases hheld

theorem done_value {action : Client.Action Value}
    (h : Leads free st.client [] Known (action st.client)) : Done free st (st.act action .value) := by
  refine done_act h fun x c hand hx => ⟨fun held hheld => ?_, hx.2⟩
  cases hheld
  exact hx.1

theorem done_plain {α : Type} {action : Client.Action α} {present : α → Answer}
    (h : Leads free st.client [] Anything (action st.client))
    (hpresent : ∀ x c, (∀ held, (present x).holding? = some held → Familiar c held) ∧
      (present x).values = []) : Done free st (st.act action present) :=
  done_act h fun x c _ hnone => ⟨(hpresent x c).1, hnone.trans (hpresent x c).2.symm⟩

theorem done_nothing {α : Type} {action : Client.Action α} {present : α → Answer}
    (h : Leads free st.client [] Anything (action st.client))
    (hpresent : ∀ x, (present x).holding? = none) : Done free st (st.act action present) := by
  refine done_plain h fun x c => ⟨fun held hheld => ?_, ?_⟩
  · rw [hpresent x] at hheld
    cases hheld
  · rw [Answer.values, hpresent x]
    rfl

theorem done_needs {α : Type} {a : Option α} {next : α → Answer × State}
    (h : ∀ x, a = some x → Done free st (next x)) : Done free st (st.needs a next) := by
  cases a with
  | none => exact done_still st rfl
  | some x => exact h x rfl

theorem done_operand {o : Operand} {next : Value → Answer × State} (h : st.Sound)
    (hnext : ∀ v, st.operand o = .ok v → st.client.KnowsAll v → Done free st (next v)) :
    Done free st (st.given (st.operand o) next) := by
  obtain ⟨v, hv, hknown⟩ | ⟨answer, hanswer, hnone⟩ := operand_cases h o
  · rw [hv]
    exact hnext v hv hknown
  · rw [hanswer]
    exact done_still st hnone

theorem done_operands {os : List Operand} {next : List Value → Answer × State} (h : st.Sound)
    (hnext : ∀ vs, st.operands os = .ok vs → Done free st (next vs)) :
    Done free st (st.given (st.operands os) next) := by
  obtain ⟨vs, hvs, _⟩ | ⟨answer, hanswer, hnone⟩ := operands_cases h os
  · rw [hvs]
    exact hnext vs hvs
  · rw [hanswer]
    exact done_still st hnone

/-! ### The steps of a script -/

theorem done_onSession (h : st.Sound) (s : Nat) (session : Session) {step : SessionStep}
    (hpermits : st.Permits free (.session s step)) :
    Done free st (st.performOnSession s session step) := by
  have hc := h.client
  cases step with
  | create className args =>
    refine done_operands h fun vs hvs => done_value (leads_create hc className ?_)
    exact hpermits.handed s args vs rfl hvs
  | callStatic className name args =>
    refine done_operands h fun vs hvs => done_value (leads_callStatic hc className name ?_)
    exact hpermits.handed s args vs rfl hvs
  | call id name args =>
    exact done_operands h fun vs _ => done_value (leads_call hc (hpermits.raw s rfl) id name vs)
  | construct expression => exact done_value (leads_construct hc (hpermits.handed s [] [] rfl rfl) expression)
  | getProperty => exact done_value (leads_request hc rfl (.inl (hpermits.raw s rfl)))
  | setProperty id name v =>
    exact done_operand h fun v _ _ =>
      done_nothing (leads_setProperty hc (hpermits.raw s rfl) id name v) fun _ => rfl
  | getIndexed => exact done_value (leads_request hc rfl (.inl (hpermits.raw s rfl)))
  | getIndexedProperty => exact done_value (leads_request hc rfl (.inl (hpermits.raw s rfl)))
  | getStaticProperty => exact done_value (leads_request hc rfl (grants_nothing rfl))
  | setStaticProperty className name v =>
    refine done_operand h fun v hv _ =>
      done_nothing (leads_setStaticProperty hc className name ?_) fun _ => rfl
    exact hpermits.handed s _ [v] rfl (operands_singleton hv)
  | protect => exact done_nothing (leads_protect (.inl (hpermits.raw s rfl))) fun _ => rfl
  | release id => exact done_nothing (leads_release (hpermits.release s id rfl)) fun _ => rfl
  | classFor =>
    refine done_plain (leads_classFor hc ..) fun _ c => ⟨fun held hheld => ?_, rfl⟩
    cases hheld
    trivial
  | template => exact done_nothing (leads_classFor hc ..) fun _ => rfl
  | cachedClasses | fault | info => exact done_still st rfl
  | objectFor id className =>
    obtain ⟨hruns, hknown, hpasses⟩ : Runs free st.client _ ∧ _ := runs_objectFor hc s id className
    refine ⟨hruns, .refl _, fun held hheld => ?_, hpasses.beside st.values⟩
    cases hheld
    exact knowsAll_object.mpr hknown
  | close =>
    refine ⟨runs_close (hpermits.close s rfl), .refl _, fun held hheld => ?_, .of_cells rfl⟩
    cases hheld
  | detach =>
    refine ⟨runs_tend s fun _ => ⟨rfl, rfl, rfl, rfl, rfl⟩, .refl _, fun held hheld => ?_, .of_cells rfl⟩
    cases hheld
  | classify => exact done_needs fun _ _ => done_still st rfl

/-- The proxy is held while its slot is emptied, then lets go, and is given up. -/
theorem done_release (h : st.Sound) (slot : String) {p : Proxy} (hp : st.client.Knows p) (keep : Bool) :
    Done free st (st.performOnProxy slot p (.release keep)) := by
  let before : State := { st with client := st.client.holdProxy p }
  let held := if keep then before else before.clear slot
  have hhold : Passes st.client st.values before.client (.object p :: before.values) :=
    (Passes.holdProxy hp).beside st.values
  obtain ⟨hruns, hslots, hpasses⟩ : Runs free st.client held.client ∧ held.slots.Sublist st.slots ∧
      Passes st.client st.values held.client (.object p :: held.values) := by
    have hruns : Runs free st.client before.client := runs_holdProxy p
    cases keep with
    | true => exact ⟨hruns, .refl _, hhold⟩
    | false =>
      refine ⟨hruns.trans (runs_clear before slot), slots_clear before slot, hhold.trans ?_⟩
      intro others hb
      have hclear : Passes before.client before.values held.client held.values :=
        @passes_clear before h.names slot
      have hmoved := hclear (.object p :: others) (hb.congr fun key => ?_)
      · refine hmoved.congr fun key => ?_
        simp only [mentions_append, mentions_object, List.cons_append]
        omega
      · simp only [mentions_append, mentions_object, List.cons_append]
        omega
  have hc := hruns.sound h.client
  have hact : Done free held (held.act (releaseObject p) fun _ => .nothing) :=
    done_nothing (leads_releaseObject hc (hruns.knows hp)) fun _ => rfl
  have hanswer : (held.act (releaseObject p) fun _ => .nothing).1.holding? = none := by
    unfold act
    split <;> rfl
  let acted := (held.act (releaseObject p) fun _ => .nothing).2
  have hacted : Passes held.client held.values acted.client acted.values := by
    have hpassed := hact.passes
    rw [Answer.values, hanswer] at hpassed
    exact hpassed
  refine ⟨(hruns.trans hact.runs).trans (runs_discard _), hact.slots.trans hslots, fun kept hkept => ?_, ?_⟩
  · change (held.act (releaseObject p) fun _ => .nothing).1.holding? = some kept at hkept
    rw [hanswer] at hkept
    cases hkept
  · change Passes _ _ (acted.client.discard (.object p))
      ((held.act (releaseObject p) fun _ => .nothing).1.values ++ acted.values)
    rw [Answer.values, hanswer]
    have hdiscard := (passes_discardAll (c := acted.client) [.object p]).beside acted.values
    have hgone : Passes held.client (.object p :: held.values) (acted.client.discard (.object p))
        acted.values := by
      refine Passes.trans (fun others hb => ?_) hdiscard
      have hmoved := hacted (.object p :: others) (hb.congr fun key => ?_)
      · refine hmoved.congr fun key => ?_
        simp only [mentions_append, mentions_object, List.cons_append, List.nil_append]
        omega
      · simp only [mentions_append, mentions_object, List.cons_append]
        omega
    exact hpasses.trans hgone

theorem done_onProxy (h : st.Sound) {slot : String} {p : Proxy} (hslot : st.proxy? slot = some p)
    {step : ProxyStep} (hpermits : st.Permits free (.proxy slot step)) :
    Done free st (st.performOnProxy slot p step) := by
  have hc := h.client
  have hp := h.proxy hslot
  cases step with
  | resolveName name =>
    refine done_act (leads_resolveName hc hp name).told fun a c hand ha => ?_
    obtain ⟨ha, hruns, _⟩ := ha
    cases a with
    | kept v | property v =>
      refine ⟨fun held hheld => ?_, ha.hand⟩
      cases hheld
      exact ha.known v rfl
    | method m =>
      refine ⟨fun held hheld => ?_, ha.hand⟩
      cases hheld
      have hknown : c.Knows m.target := by
        rw [ha.target m rfl]
        exact hruns.knows hp
      exact hknown
    | id | className | session | callables =>
      refine ⟨fun held hheld => ?_, ha.hand⟩
      cases hheld
  | method name =>
    refine done_act (leads_method hc hp name).told fun m c hand hm => ⟨fun held hheld => ?_, hm.1.2⟩
    cases hheld
    have hknown : c.Knows m.target := by
      rw [hm.1.1]
      exact hm.2.1.knows hp
    exact hknown
  | call name args =>
    refine done_operands h fun vs hvs => done_value (leads_callMember hc hp name ?_)
    exact hpermits.handed p.session args vs (by rw [handed, hslot]; rfl) hvs
  | get name => exact done_value (leads_getMember hc hp name)
  | set name v =>
    refine done_operand h fun v hv hknown => done_nothing (leads_setMember hc hp name hknown ?_) fun _ => rfl
    intro c' hlive hname hdeclared
    refine hpermits.handed p.session _ [v] ?_ (operands_singleton hv)
    simp only [handed, hslot, assigns, hlive, hname, hdeclared, Option.bind_some, Bool.not_false,
      Bool.and_self, if_true]
  | element index => exact done_value (leads_elementOf hc hp index)
  | elementOfProperty name index => exact done_value (leads_elementOfProperty hc hp name index)
  | protect => exact done_nothing (leads_protectObject hc hp) fun _ => rfl
  | release keep => exact done_release h slot hp keep
  | info => exact done_still st rfl
  | handle =>
    refine done_nothing ((leads_outcome _).mono fun _ _ _ hdone => hdone.2.2) fun _ => rfl
  | classOf =>
    refine done_plain (leads_classOf hc p) fun _ c => ⟨fun held hheld => ?_, rfl⟩
    cases hheld
    trivial

theorem done_hold {v : Value} (hv : st.client.KnowsAll v) :
    Done free st (.value v, { st with client := st.client.hold v }) := by
  have hhold : Runs free st.client (st.client.hold v) := runs_hold v
  refine ⟨hhold, .refl _, fun held hheld => ?_, (passes_hold hv).beside st.values⟩
  cases hheld
  exact hhold.knowsAll hv

theorem done_perform (h : st.Sound) {step : Step} (hpermits : st.Permits free step) :
    Done free st (st.perform step) := by
  have hc := h.client
  cases step with
  | session s step => exact done_needs fun session _ => done_onSession h s session hpermits
  | proxy slot step => exact done_needs fun p hp => done_onProxy h hp hpermits
  | drop slot =>
    refine ⟨runs_clear st slot, slots_clear st slot, fun held hheld => ?_, passes_clear h.names slot⟩
    cases hheld
  | copy slot => exact done_needs fun v hv => done_hold (h.value hv)
  | pick slot index =>
    simp only [perform]
    split
    · rename_i items hitems
      have hknown := knowsAll_list.mp (h.value hitems)
      exact done_needs fun v hv => done_hold (hknown v (List.mem_of_getElem? hv))
    · exact done_still st rfl
  | document slot => exact done_needs fun _ _ => done_still st rfl
  | sameObject => exact done_needs fun _ _ => done_needs fun _ _ => done_still st rfl
  | sameClass => exact done_needs fun _ _ => done_needs fun _ _ => done_still st rfl
  | callOfClass slot name args =>
    refine done_needs fun g hg => done_operands h fun vs hvs => ?_
    have hentrusts : st.client.Entrusts free g.session vs :=
      hpermits.handed g.session args vs (by rw [handed, hg]; rfl) hvs
    split
    · rename_i m hm
      rw [← session_of_staticMethod hm] at hentrusts
      exact done_value (leads_invokeStatic hc m hentrusts)
    · exact done_still st rfl
  | staticOfClass slot name =>
    refine done_needs fun g _ => ?_
    split
    · refine ⟨.refl, .refl _, fun held hheld => ?_, .refl⟩
      cases hheld
      trivial
    · exact done_still st rfl
  | invoke slot args =>
    simp only [perform]
    split
    · rename_i m hm
      refine done_operands h fun vs hvs => done_value (leads_invoke hc (h.slot hm) ?_)
      exact hpermits.handed m.target.session args vs (by rw [handed, hm]) hvs
    · rename_i m hm
      refine done_operands h fun vs hvs => done_value (leads_invokeStatic hc m ?_)
      exact hpermits.handed m.session args vs (by rw [handed, hm]) hvs
    · exact done_still st rfl

/-! ### What becomes of the answer -/

theorem runs_settle (st : State) (answer : Answer) (save : Option String) :
    Runs free st.client (st.settle answer save).client := by
  unfold settle
  split
  · exact .refl
  · rename_i holding name _
    exact runs_giveUp { st with
      slots := (name, holding) :: st.slots.filter fun entry => entry.1 != name } (st.slot? name)
  · exact runs_giveUp ..

theorem slots_settle (st : State) (answer : Answer) (save : Option String) :
    ∀ entry ∈ (st.settle answer save).slots, entry ∈ st.slots ∨ answer.holding? = some entry.2 := by
  intro entry hentry
  unfold settle at hentry
  split at hentry
  · exact .inl hentry
  · rename_i holding name hholding
    rw [State.save, slots_giveUp] at hentry
    obtain rfl | hold := List.mem_cons.mp hentry
    · exact .inr hholding
    · exact .inl (List.mem_filter.mp hold).1
  · rw [slots_giveUp] at hentry
    exact .inl hentry

theorem names_settle (hnames : (st.slots.map Prod.fst).Nodup) (answer : Answer) (save : Option String) :
    ((st.settle answer save).slots.map Prod.fst).Nodup := by
  unfold settle
  split
  · exact hnames
  · rename_i holding name _
    rw [State.save, slots_giveUp, List.map_cons, List.nodup_cons]
    refine ⟨fun hmem => ?_, hnames.sublist (List.filter_sublist.map Prod.fst)⟩
    obtain ⟨entry, hentry, heq⟩ := List.mem_map.mp hmem
    have hne := (List.mem_filter.mp hentry).2
    simp [heq] at hne
  · rw [slots_giveUp]
    exact hnames

theorem passes_settle (hnames : (st.slots.map Prod.fst).Nodup) (answer : Answer) (save : Option String) :
    Passes st.client (answer.values ++ st.values) (st.settle answer save).client
      (st.settle answer save).values := by
  unfold settle Answer.values
  split
  · rename_i hnone
    rw [hnone]
    exact .refl
  · rename_i holding name hholding
    rw [hholding]
    exact passes_replaceSlot hnames name [(name, holding)]
  · rename_i holding hholding
    rw [hholding, values, values, slots_giveUp]
    exact (passes_giveUp st (some holding)).beside st.values

/-- A line is a series of steps, and leaves the state sound. -/
theorem step_runs (h : st.Sound) {line : Line} (hpermits : st.Permits free line.step) :
    Runs free st.client (st.step line).2.client ∧ (st.step line).2.Sound := by
  have hdone : Done free st (st.perform line.step) := done_perform h hpermits
  let mid := (st.perform line.step).2
  have hsettle : Runs free mid.client (mid.settle (st.perform line.step).1 line.save).client :=
    runs_settle ..
  have hruns : Runs free st.client (st.step line).2.client := hdone.runs.trans hsettle
  have hnames : (mid.slots.map Prod.fst).Nodup := h.names.sublist (hdone.slots.map Prod.fst)
  refine ⟨hruns, hruns.sound h.client, fun entry hentry => ?_, names_settle hnames _ _, ?_⟩
  · obtain hslot | hanswer := slots_settle mid (st.perform line.step).1 line.save _ hentry
    · exact (h.slots entry (hdone.slots.subset hslot)).runs hruns
    · exact (hdone.answer entry.2 hanswer).runs hsettle
  · have hpasses := hdone.passes.trans (passes_settle hnames (st.perform line.step).1 line.save)
    have hbalanced := hpasses [] (by rw [List.append_nil]; exact h.balanced)
    rwa [List.append_nil] at hbalanced

end State

theorem run_runs {free : Nat → Session.Deed → Prop} {st : State} (h : st.Sound) {lines : List Line}
    (hpermits : State.Throughout (State.Permits free) st lines) :
    Runs free st.client (run st lines).client ∧ (run st lines).Sound := by
  induction lines generalizing st with
  | nil => exact ⟨.refl, h⟩
  | cons line lines ih =>
    obtain ⟨hfirst, hsound⟩ := State.step_runs h hpermits.1
    obtain ⟨hrest, hsound'⟩ := ih hsound hpermits.2
    exact ⟨hfirst.trans hrest, hsound'⟩

/-- A run that sends raw releases to some sessions only is a series of moves. -/
theorem run_moves {raw : Nat → Prop} {st : State} (h : st.Sound) {lines : List Line}
    (hraw : ∀ line ∈ lines, line.step.Allowed raw) :
    Moves raw st.client (run st lines).client ∧ (run st lines).Sound := by
  apply run_runs h
  clear h
  induction lines generalizing st with
  | nil => trivial
  | cons line lines ih =>
    rw [List.forall_mem_cons] at hraw
    have hopen (s : Nat) : Open (fun s d => raw s ∨ d.isRelease = false) s := fun _ _ hd => .inr hd
    refine ⟨⟨fun s _ => hopen s, fun s id hid => .inl (hraw.1 s id hid), fun _ _ => .inr rfl, ?_⟩, ih hraw.2⟩
    exact fun s _ _ _ _ => .inl (hopen s)

end ObjectBridge.Script
