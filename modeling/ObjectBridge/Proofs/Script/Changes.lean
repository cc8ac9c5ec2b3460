import ObjectBridge.Proofs.Client.Caches
import ObjectBridge.Proofs.Script.LifeCycle

/-!
# What a script remembers

Every line of a script is a series of changes of its client. A method is noted on a proxy only by a line that
finds it there (`State.Finds`), and a value is kept on it only by a line that assigns it (`State.Sets`). So
after any run the caches are in line with what the server answered (`State.Blank.consistent`).
-/

namespace ObjectBridge.Script

open Client

/-- A step that looks up a name on a proxy, if its operands can be had. -/
inductive ProxyStep.LooksUp (st : State) (name : String) : ProxyStep → Prop where
  | resolveName : LooksUp st name (.resolveName name)
  | method : LooksUp st name (.method name)
  | get : LooksUp st name (.get name)
  | call (args : List Operand) (vs : List Value) (h : st.operands args = .ok vs) :
      LooksUp st name (.call name args)

namespace State

variable {st : State} {may : Mark → Prop} {name : String} {p : Proxy}

/-- A step that looks up a name on a proxy and finds a method. -/
inductive Finds (st : State) (p : Proxy) (name : String) : Step → Prop where
  | intro (slot : String) (step : ProxyStep) (hslot : st.proxy? slot = some p)
      (hstep : step.LooksUp st name) (c : Client)
      (hmethod : Client.resolveName p name st.client = .ok (.method ⟨name, p⟩) c) :
      Finds st p name (.proxy slot step)

/-- A step that assigns to a name on a proxy, with success. -/
inductive Sets (st : State) (p : Proxy) (name : String) : Step → Prop where
  | intro (slot : String) (o : Operand) (v : Value) (hslot : st.proxy? slot = some p)
      (hv : st.operand o = .ok v) (c : Client) (hset : setMember p name v st.client = .ok () c) :
      Sets st p name (.proxy slot (.set name o))

theorem Finds.knows {step : Step} (h : st.Finds p name step) (hst : st.Sound) : st.client.Knows p := by
  obtain ⟨slot, step, hslot⟩ := h
  exact hst.proxy hslot

theorem Sets.knows {step : Step} (h : st.Sets p name step) (hst : st.Sound) : st.client.Knows p := by
  obtain ⟨slot, o, v, hslot⟩ := h
  exact hst.proxy hslot

/-- The marks that a step may leave. -/
def marks (st : State) (step : Step) : Mark → Prop
  | .callable key name => ∃ p, p.key = key ∧ st.Finds p name step
  | .kept key name => ∃ p, p.key = key ∧ st.Sets p name step

theorem changes_giveUp (st : State) (h : Option Holding) : Changes may st.client (st.giveUp h).client := by
  unfold giveUp
  split
  · exact changes_discard _
  · exact .refl

theorem changes_clear (st : State) (name : String) : Changes may st.client (st.clear name).client :=
  changes_giveUp { st with slots := st.slots.filter fun entry => entry.1 != name } (st.slot? name)

theorem changes_settle (st : State) (answer : Answer) (save : Option String) :
    Changes may st.client (st.settle answer save).client := by
  unfold settle
  split
  · exact .refl
  · rename_i holding name _
    exact changes_giveUp { st with
      slots := (name, holding) :: st.slots.filter fun entry => entry.1 != name } (st.slot? name)
  · exact changes_giveUp ..

theorem changes_act {α : Type} {action : Client.Action α} {present : α → Answer}
    (h : Changes may st.client (after (action st.client))) :
    Changes may st.client (st.act action present).2.client := by
  rw [client_act]
  exact h

theorem changes_needs {α : Type} {a : Option α} {next : α → Answer × State}
    (h : ∀ x, a = some x → Changes may st.client (next x).2.client) :
    Changes may st.client (st.needs a next).2.client := by
  cases a with
  | none => exact .refl
  | some x => exact h x rfl

theorem changes_given {α : Type} {a : Except Answer α} {next : α → Answer × State}
    (h : ∀ x, a = .ok x → Changes may st.client (next x).2.client) :
    Changes may st.client (st.given a next).2.client := by
  cases a with
  | error answer => exact .refl
  | ok x => exact h x rfl

theorem changes_performOnSession (st : State) (s : Nat) (session : Session) (step : SessionStep) :
    Changes may st.client (st.performOnSession s session step).2.client := by
  cases step with
  | create className args =>
    exact changes_given fun vs _ => changes_act (changes_converted vs (fun _ => rfl) fun _ _ h => by cases h)
  | callStatic => exact changes_given fun vs _ => changes_act (changes_callStatic _ _ vs)
  | call => exact changes_given fun vs _ => changes_act (changes_call _ _ vs)
  | construct => exact changes_act (changes_callStatic _ _ _)
  | getProperty => exact changes_act (changes_getProperty _ _)
  | setProperty | setStaticProperty =>
    exact changes_given fun v _ => changes_act (changes_assign v (fun _ => rfl) fun _ _ h => by cases h)
  | getIndexed | getIndexedProperty | getStaticProperty =>
    exact changes_act (changes_request rfl fun _ h => by cases h)
  | protect | release => exact changes_act (changes_post rfl)
  | classFor | template => exact changes_act (changes_classFor _ _)
  | cachedClasses | fault | info => exact .refl
  | objectFor id className => exact changes_objectFor s id className
  | close =>
    refine changes_modifySession fun session _ => .ask .close trivial fun _ h => ?_
    cases h
  | detach => exact changes_modifySession fun _ _ => .tend _ rfl rfl rfl rfl
  | classify => exact changes_needs fun _ _ => .refl

theorem changes_performOnProxy (h : st.Sound) {slot : String} (hslot : st.proxy? slot = some p)
    (step : ProxyStep) :
    Changes (st.marks (.proxy slot step)) st.client (st.performOnProxy slot p step).2.client := by
  have hp := h.proxy hslot
  have hfinds {name : String} (hstep : step.LooksUp st name)
      (hmethod : ∃ c, Client.resolveName p name st.client = .ok (.method ⟨name, p⟩) c) :
      st.marks (.proxy slot step) (.callable p.key name) := by
    obtain ⟨c, hmethod⟩ := hmethod
    exact ⟨p, rfl, slot, step, hslot, hstep, c, hmethod⟩
  cases step with
  | resolveName name => exact changes_act (changes_resolveName hp (hfinds .resolveName))
  | method name => exact changes_act (changes_method hp (hfinds .method))
  | get name => exact changes_act (changes_getMember hp (hfinds .get))
  | call name args =>
    exact changes_given fun vs hvs => changes_act (changes_callMember hp vs (hfinds (.call args vs hvs)))
  | set name o =>
    refine changes_given fun v hv => changes_act (changes_setMember hp fun hset => ?_)
    obtain ⟨c, hset⟩ := hset
    exact ⟨p, rfl, slot, o, v, hslot, hv, c, hset⟩
  | element => exact changes_act (changes_elementOf _)
  | elementOfProperty => exact changes_act (changes_elementOfProperty _)
  | protect => exact changes_act changes_protectObject
  | release keep =>
    let before : State := { st with client := st.client.holdProxy p }
    let held := if keep then before else before.clear slot
    have hheld : Changes (st.marks (.proxy slot (.release keep))) st.client held.client := by
      cases keep with
      | true => exact changes_holdProxy p
      | false => exact (changes_holdProxy p).trans (changes_clear before slot)
    have hrelease : Changes (st.marks (.proxy slot (.release keep))) held.client
        (held.act (releaseObject p) fun _ => .nothing).2.client := changes_act changes_releaseObject
    exact (hheld.trans hrelease).trans (changes_discard (.object p))
  | info => exact .refl
  | handle => exact changes_act (changes_outcome _)
  | classOf => exact changes_act (changes_classOf hp)

theorem changes_perform (h : st.Sound) (step : Step) :
    Changes (st.marks step) st.client (st.perform step).2.client := by
  cases step with
  | session s step => exact changes_needs fun session _ => changes_performOnSession st s session step
  | proxy slot step => exact changes_needs fun p hp => changes_performOnProxy h hp step
  | drop slot => exact changes_clear st slot
  | copy slot => exact changes_needs fun v _ => changes_hold v
  | pick slot index =>
    simp only [perform]
    split
    · exact changes_needs fun v _ => changes_hold v
    · exact .refl
  | document => exact changes_needs fun _ _ => .refl
  | sameObject | sameClass => exact changes_needs fun _ _ => changes_needs fun _ _ => .refl
  | callOfClass =>
    refine changes_needs fun g _ => changes_given fun vs _ => ?_
    split
    · exact changes_act (changes_invokeStatic _ vs)
    · exact .refl
  | staticOfClass =>
    refine changes_needs fun g _ => ?_
    split
    · exact .refl
    · exact .refl
  | invoke slot args =>
    simp only [perform]
    split
    · exact changes_given fun vs _ => changes_act (changes_invoke _ vs)
    · exact changes_given fun vs _ => changes_act (changes_invokeStatic _ vs)
    · exact .refl

/-- A line changes the client and leaves the marks of its step only. -/
theorem changes_step (h : st.Sound) (line : Line) :
    Changes (st.marks line.step) st.client (st.step line).2.client :=
  (changes_perform h line.step).trans (changes_settle ..)

/-- The sessions of a fresh state have fetched no templates. -/
structure Blank (st : State) : Prop where
  fresh : st.Fresh
  templates : ∀ (s : Nat) (session : Session), st.client.sessions[s]? = some session → session.templates = []

theorem changes_run (h : st.Sound) (lines : List Line) :
    Changes (fun _ => True) st.client (run st lines).client := by
  induction lines generalizing st with
  | nil => exact .refl
  | cons line lines ih =>
    have hsound : (st.step line).2.Sound := (step_runs h (permits_closesOnly st line.step)).2
    exact ((changes_step h line).mono fun _ _ => trivial).trans (ih hsound)

theorem Blank.consistent (h : st.Blank) (lines : List Line) : (run st lines).client.Consistent := by
  refine (changes_run h.fresh.sound lines).consistent ⟨fun s session hs => ?_, fun key cell hcell => ?_⟩
  · exact (h.fresh.sessions s session hs).informed (h.templates s session hs)
  · rw [h.fresh.cells] at hcell
    cases hcell

theorem blank_ofChannel (source : Source) (sink : Sink) : (State.ofChannel source sink).Blank := by
  refine ⟨State.fresh_ofChannel source sink, fun s session hs => ?_⟩
  cases s with
  | zero =>
    cases hs
    rfl
  | succ s => cases hs

end State

end ObjectBridge.Script
