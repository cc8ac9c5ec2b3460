import ObjectBridge.Proofs.Client.Assignment
import ObjectBridge.Proofs.Script.Changes

/-!
# What is kept on a proxy

After any run, nothing is kept on a proxy under a reserved name or a declared property. A declared property is
read and assigned in the server each time; under any other name the last value assigned is kept, and is read
without a request, until the name is assigned again (`run_localState`).
-/

namespace ObjectBridge.Script

open Client

namespace State

variable {st : State} {p : Proxy} {name : String}

theorem isReleased_run (h : st.Sound) (hp : st.client.Knows p) (lines : List Line)
    (hlive : (run st lines).client.isReleased p = false) : st.client.isReleased p = false := by
  obtain ⟨cell, hcell, _⟩ := hp
  obtain ⟨cell', hcell', hgrows⟩ := (changes_run h lines).grows hcell
  rw [isReleased_of_some hcell'] at hlive
  rw [isReleased_of_some hcell]
  by_contra hgone
  rw [hgrows.released (by simpa using hgone)] at hlive
  cases hlive

/-- What is kept on a proxy under a name stays, as long as the proxy is live and the name is not assigned. -/
theorem kept?_run (h : st.Sound) (hp : st.client.Knows p) (lines : List Line)
    (hunset : Throughout (fun st step => ¬ st.Sets p name step) st lines)
    (hlive : (run st lines).client.isReleased p = false) :
    (run st lines).client.kept? p name = st.client.kept? p name := by
  induction lines generalizing st with
  | nil => rfl
  | cons line lines ih =>
    obtain ⟨hfirst, hrest⟩ := hunset
    have hchanges := changes_step h line
    have hsound : (st.step line).2.Sound := (step_runs h (permits_closesOnly st line.step)).2
    have hknown : (st.step line).2.client.Knows p := hchanges.knows hp
    refine (ih hsound hknown hrest hlive).trans (hchanges.kept?_eq hp (isReleased_run hsound hknown lines hlive) ?_)
    rintro ⟨q, hkey, hsets⟩
    obtain rfl := hp.unique (hsets.knows h) hkey
    exact hfirst hsets

theorem mem_values_of_proxy {slot : String} (hslot : st.proxy? slot = some p) : .object p ∈ st.values := by
  obtain ⟨v, hvalue, hobject⟩ := Option.bind_eq_some_iff.mp hslot
  cases v with
  | object q =>
    cases hobject
    unfold value? at hvalue
    split at hvalue
    · rename_i hentry
      cases hvalue
      exact List.mem_flatMap.mpr ⟨_, mem_of_lookup hentry, List.mem_singleton_self _⟩
    · cases hvalue
  | _ => cases hobject

/-- A proxy in a slot is still held after an assignment to one of its names. -/
theorem held_of_set (h : st.Sound) {slot : String} (hslot : st.proxy? slot = some p) {o : Operand} {v : Value}
    (hv : st.operand o = .ok v) {c : Client} (hset : setMember p name v st.client = .ok () c) :
    holdersOf c.cells p.key ≠ 0 := by
  obtain ⟨w, hw, hknown⟩ | ⟨answer, hanswer, _⟩ := operand_cases h o
  · rw [hv] at hw
    cases hw
    have hleads : Leads (fun _ _ => True) st.client [] Anything (setMember p name v st.client) :=
      leads_setMember h.client (h.proxy hslot) name hknown fun _ _ _ _ => .inl fun _ _ _ => trivial
    rw [hset] at hleads
    obtain ⟨_, hand, hpasses, rfl⟩ := hleads
    -- Holders are counted by what is in the slots, and the slot of the proxy is as before.
    have hcount := hpasses st.values h.balanced p.key
    have hmentioned : 0 < mentions p.key st.values :=
      mentions_pos_iff.mpr ⟨.object p, mem_values_of_proxy hslot, p, List.mem_singleton_self p, rfl⟩
    rw [List.nil_append] at hcount
    omega
  · rw [hv] at hanswer
    cases hanswer

theorem step_of_set {slot : String} (hslot : st.proxy? slot = some p) {o : Operand} {v : Value}
    (hv : st.operand o = .ok v) {c : Client} (hset : setMember p name v st.client = .ok () c)
    (save : Option String) : (st.step ⟨.proxy slot (.set name o), save⟩).2 = { st with client := c } := by
  simp only [step, perform, hslot, needs, performOnProxy, hv, given, act, hset]
  rfl

end State

/-- What is known of a name on a proxy in a state. -/
structure LocalState (st : State) (p : Proxy) (name : String) : Prop where
  /-- What is kept has a name that is not reserved, and will never be a declared property. -/
  kept : ∀ v, st.client.kept? p name = some v →
    name ∉ reservedNames ∧ st.client.Denies p name ∧ ∀ later, ¬ (run st later).client.Declares p name
  /-- To read a declared property asks for it. -/
  read : ∀ v c, name ∉ reservedNames → getMember p name st.client = .ok v c → c.Declares p name →
    ReadsAnew st.client p name v c
  /-- To assign a declared property asks for that, or fails; what is kept stays. -/
  assigned : ∀ v c, setMember p name v st.client = .ok () c → c.Declares p name →
    AssignsAnew st.client p name v c
  failed : ∀ v fault c, setMember p name v st.client = .error fault c → SameLocals st.client c
  /-- Under any other name the value is kept, and no request is sent but for the class and the proxies that the
  value before held. -/
  keeps : ∀ slot o v c, st.proxy? slot = some p → st.operand o = .ok v →
    setMember p name v st.client = .ok () c → ¬ c.Declares p name →
    name ∉ reservedNames ∧ KeepsAnew st.client p name v c
  /-- It is what every later reading gives, without a request, until the name is assigned again. -/
  lasting : ∀ slot o v c, st.proxy? slot = some p → st.operand o = .ok v →
    setMember p name v st.client = .ok () c → ¬ c.Declares p name → ∀ save later,
    State.Throughout (fun st step => ¬ st.Sets p name step)
      (st.step ⟨.proxy slot (.set name o), save⟩).2 later →
    (run (st.step ⟨.proxy slot (.set name o), save⟩).2 later).client.isReleased p = false →
    (run (st.step ⟨.proxy slot (.set name o), save⟩).2 later).client.Remembers p name v
  /-- Reserved names cannot be assigned. -/
  reserved : name ∈ reservedNames → ∀ v, ∃ fault, setMember p name v st.client = .error fault st.client

theorem run_localState {st : State} (h : st.Blank) (lines : List Line) {p : Proxy}
    (hp : (run st lines).client.Knows p) (name : String) : LocalState (run st lines) p name := by
  have hc := h.consistent lines
  have hsound := h.fresh.sound_run lines
  have hmoves : Moves (fun _ => True) st.client (run st lines).client :=
    (run_moves h.fresh.sound fun _ _ _ _ _ => trivial).1
  have hlisting : (run st lines).client.Listing p.session :=
    Runs.listing hmoves h.fresh.sound.client (listing_fresh h.fresh.cells (h.fresh.sessions p.session))
  have hkeeps {slot : String} {o : Operand} {v : Value} {c : Client} (hslot : (run st lines).proxy? slot = some p)
      (hv : (run st lines).operand o = .ok v) (hset : setMember p name v (run st lines).client = .ok () c)
      (hother : ¬ c.Declares p name) : KeepsAnew (run st lines).client p name v c :=
    hc.keepsAnew hsound.client hp hset hother (State.held_of_set hsound hslot hv hset)
  refine
    { kept := fun v hkept => ?_
      read := fun v c hname hget => hc.readsAnew hp hname hget
      assigned := fun v c hset => hc.assignsAnew hsound.client hlisting hp hset
      failed := fun v fault c => sameLocals_of_failed_set hsound.client hlisting
      keeps := fun slot o v c hslot hv hset hother =>
        ⟨(hc.setMember_cases hp hset).1, hkeeps hslot hv hset hother⟩
      lasting := fun slot o v c hslot hv hset hother save later hunset hlive => ?_
      reserved := fun hname v => ?_ }
  · obtain ⟨hname, hdenies⟩ := hc.denies_of_kept hp hkept
    exact ⟨hname, hdenies, fun later => (hdenies.mono (State.changes_run hsound later)).not_declares⟩
  · have hstep := State.step_of_set hslot hv hset save
    have hafter : ((run st lines).step ⟨.proxy slot (.set name o), save⟩).2.Sound :=
      (State.step_runs hsound (State.permits_closesOnly _ _)).2
    have hknown := (State.changes_step hsound ⟨.proxy slot (.set name o), save⟩).knows hp
    rw [hstep] at hafter hknown hunset hlive ⊢
    have hbefore := State.isReleased_run hafter hknown later hlive
    have hkept := State.kept?_run hafter hknown later hunset hlive
    rw [(hkeeps hslot hv hset hother).1 hbefore] at hkept
    exact remembers_of_kept hlive (hc.setMember_cases hp hset).1 hkept
  · cases hlive : (run st lines).client.isReleased p with
    | true => exact ⟨_, setMember_of_released hlive v⟩
    | false => exact ⟨_, setMember_of_reserved hlive hname v⟩

/-- The server sends an object of a class that declares a property `x`. -/
def notingState : State := .ofChannel
  { rest := [13, 208, 9, 7, 0, 0, 0, 1, 1, 0, 0, 0, 80, 13, 208, 213, 1, 0, 0, 0, 1, 0, 0, 0, 120,
      0, 0, 0, 0, 0, 0, 0, 0] } {}

/-- Another name is assigned twice. -/
def notedLines : List Line :=
  [⟨.session 0 (.create "P" []), some "p"⟩, ⟨.proxy "p" (.set "note" (.literal (.int 4))), none⟩,
    ⟨.proxy "p" (.set "note" (.literal (.int 5))), none⟩]

/-- The last value is kept, under a name that is no declared property. -/
theorem run_localState_noted : ∃ p, (run notingState notedLines).proxy? "p" = some p ∧
    LocalState (run notingState notedLines) p "note" ∧
    (run notingState notedLines).client.kept? p "note" = some (.int 5) ∧
    (run notingState notedLines).client.Denies p "note" ∧
    ((run notingState notedLines).client.sent 0).length = 2 := by
  have hfresh : notingState.Blank := State.blank_ofChannel _ _
  have hslot : (run notingState notedLines).proxy? "p" = some ⟨0, 0, 7, some "P"⟩ := by
    decide +kernel
  have hlocal : LocalState (run notingState notedLines) ⟨0, 0, 7, some "P"⟩ "note" :=
    run_localState hfresh notedLines ((hfresh.fresh.sound_run notedLines).proxy hslot) "note"
  have hkept : (run notingState notedLines).client.kept? ⟨0, 0, 7, some "P"⟩ "note" = some (.int 5) := by
    have hread : ((run notingState notedLines).client.kept? ⟨0, 0, 7, some "P"⟩ "note").map
        (fun v => (v.kind, v.asInt?)) = some (.int, some 5) := by
      decide +kernel
    obtain ⟨v, hv, hvalues⟩ := Option.map_eq_some_iff.mp hread
    cases v <;> cases hvalues
    exact hv
  have hsent : ((run notingState notedLines).client.sent 0).length = 2 := by
    decide +kernel
  exact ⟨_, hslot, hlocal, hkept, (hlocal.kept _ hkept).2.1, hsent⟩

end ObjectBridge.Script
