import ObjectBridge.Proofs.Client.Requests

/-!
# Working with proxies as runs

The operations on a proxy are runs as well, as far as the proxy is known. Each of them looks first whether
the proxy is live, and on the way to its request nothing is released (`isReleased_classOf`); so a request to
its object names a live proxy. Values that are handed over have to be entrusted to the session of the proxy,
values that are to be kept have to be known.
-/

namespace ObjectBridge.Client

variable {free : Nat → Session.Deed → Prop} {c : Client}

theorem leads_requireLive (p : Proxy) :
    Leads free c [] (fun _ c' hand => c' = c ∧ c.isReleased p = false ∧ hand = [])
      (requireLive p c) := by
  unfold requireLive
  apply Leads.get
  split
  · exact .throw _
  · rename_i hlive
    exact .pure ⟨rfl, by simpa using hlive, rfl⟩

theorem leads_live {α : Type} {post : α → Client → List Value → Prop} (hc : c.Sound) (p : Proxy)
    {a : Action α} (h : c.isReleased p = false → Leads free c [] post (a c)) :
    Leads free c [] post ((do requireLive p; a : Action α) c) := by
  refine .bind hc (leads_requireLive p) ?_
  intro _ c' hand _ _ hdone
  obtain ⟨rfl, hlive, rfl⟩ := hdone
  exact h hlive

/-! ### Classes -/

theorem runs_note (p : Proxy) {f : Cell → Cell}
    (h : ∀ cell, (f cell).proxy = cell.proxy ∧ (f cell).since = cell.since ∧
      (f cell).released = cell.released ∧ (f cell).holders = cell.holders ∧ (f cell).locals = cell.locals) :
    Runs free c (c.modifyCell p f) := by
  apply runs_modifyCell
  intro cell _
  obtain ⟨hproxy, hsince, hreleased, hholders, hlocals⟩ := h cell
  refine ⟨hproxy, hsince, hreleased, fun hfit => ⟨fun hzero => ?_, ?_⟩, fun entry hentry => ?_⟩
  · rw [hholders] at hzero
    rw [hreleased, hlocals]
    exact hfit.gone hzero
  · rw [hlocals]
    exact hfit.names
  · rw [hlocals] at hentry
    exact .inl hentry

theorem leads_note (p : Proxy) {f : Cell → Cell}
    (h : ∀ cell, (f cell).proxy = cell.proxy ∧ (f cell).since = cell.since ∧
      (f cell).released = cell.released ∧ (f cell).holders = cell.holders ∧ (f cell).locals = cell.locals) :
    Leads free c [] (fun _ c' hand => c' = c.modifyCell p f ∧ hand = [])
      ((modify (·.modifyCell p f) : Action Unit) c) :=
  leads_modify (f := (·.modifyCell p f)) (runs_note p h) (.of_modify p fun cell => (h cell).2.2.2)

theorem leads_classOf (hc : c.Sound) (p : Proxy) : Leads free c [] Anything (classOf p c) := by
  unfold classOf
  apply Leads.get
  cases c.cells[p.key]?.bind (·.bound) with
  | some template => exact .pure rfl
  | none =>
    cases p.className with
    | none => exact .throw _
    | some className =>
      refine .bind hc (leads_classFor hc ..) ?_
      intro h c' hand hc' _ hnone
      rw [hnone]
      refine .bind hc' (leads_note p fun _ => ⟨rfl, rfl, rfl, rfl, rfl⟩) ?_
      intro _ _ hand _ _ hdone
      exact .pure hdone.2

theorem isReleased_note (p q : Proxy) {f : Cell → Cell} (h : ∀ cell, (f cell).released = cell.released) :
    (c.modifyCell p f).isReleased q = c.isReleased q := by
  unfold isReleased modifyCell
  rw [Array.getElem?_modify]
  by_cases hkey : p.key = q.key
  · rw [if_pos hkey]
    cases c.cells[q.key]? with
    | none => rfl
    | some cell => exact h cell
  · rw [if_neg hkey]

theorem isReleased_classOf (c : Client) (p q : Proxy) : (after (classOf p c)).isReleased q = c.isReleased q := by
  unfold classOf
  rw [get_bind]
  cases c.cells[p.key]?.bind (·.bound) with
  | some template => rfl
  | none =>
    cases p.className with
    | none => rfl
    | some className =>
      dsimp only
      have hcells : (after (classFor p.session className c)).cells = c.cells := cells_classFor ..
      cases hclass : classFor p.session className c with
      | ok h c' =>
        rw [hclass] at hcells
        rw [bind_of_ok _ hclass]
        have hnote : (c'.modifyCell p fun cell =>
            { cell with bound := some h.template }).isReleased q = c'.isReleased q :=
          isReleased_note p q fun _ => rfl
        refine Eq.trans hnote ?_
        rw [isReleased, show c'.cells = c.cells from hcells, isReleased]
      | error fault c' =>
        rw [hclass] at hcells
        rw [bind_of_error _ hclass]
        rw [isReleased, show (after (.error fault c' : EStateM.Result Fault Client ClassHandle)).cells =
          c.cells from hcells, isReleased]

theorem after_declaresProperty (p : Proxy) (name : String) :
    after (declaresProperty p name c) = after (classOf p c) := by
  unfold declaresProperty
  cases classOf p c with
  | ok h c' => rfl
  | error fault c' => cases fault <;> rfl

theorem leads_declaresProperty (hc : c.Sound) (p : Proxy) (name : String) :
    Leads free c [] Anything (declaresProperty p name c) := by
  have hclass : Leads free c [] Anything (classOf p c) := leads_classOf hc p
  unfold declaresProperty
  cases h : classOf p c with
  | ok x c' =>
    rw [h] at hclass
    exact hclass
  | error fault c' =>
    rw [h] at hclass
    cases fault with
    | missingClassName => exact ⟨hclass.1, [], hclass.2, rfl⟩
    | _ => exact hclass

/-! ### Names -/

/-- What a name on a proxy leaves: a value is known and in hand, a method is one of the proxy. -/
structure Gives (p : Proxy) (a : Attribute) (c : Client) (hand : List Value) : Prop where
  known : ∀ v, a.value? = some v → c.KnowsAll v
  hand : hand = a.value?.toList
  target : ∀ m, a = .method m → m.target = p

theorem gives_method (p : Proxy) (name : String) : Gives p (.method ⟨name, p⟩) c [] := by
  refine ⟨fun v hv => ?_, rfl, fun m hm => ?_⟩
  · cases hv
  · cases hm
    rfl

theorem leads_member (hc : c.Sound) {p : Proxy} (hp : c.Knows p) (hlive : c.isReleased p = false)
    (name : String) : Leads free c [] (Gives p) (member p name c) := by
  refine .bind hc (leads_classOf hc p).told ?_
  intro h c' hand hc' hruns hdone
  obtain ⟨hnone, _, hclass⟩ := hdone
  rw [hnone]
  have hlive' : c'.isReleased p = false := by
    have hframe := isReleased_classOf c p p
    rw [hclass] at hframe
    exact hframe.trans hlive
  split
  · refine .bind hc' (leads_note p fun _ => ⟨rfl, rfl, rfl, rfl, rfl⟩) ?_
    intro _ _ hand _ _ hdone
    rw [hdone.2]
    exact .pure (gives_method p name)
  · split
    · have hgrants : c'.Grants free p.session (.getProperty p.id name) :=
        grants_target (hruns.knows hp) hlive' rfl (.inr fun _ hid => by cases hid)
      refine .bind hc' (leads_request hc' rfl hgrants) ?_
      intro v _ hand _ _ hv
      refine .pure ⟨fun w hw => ?_, hv.2, fun m hm => by cases hm⟩
      cases hw
      exact hv.1
    · exact .throw _

theorem value?_of_reserved {p : Proxy} {name : String} {a : Attribute}
    (h : c.reserved? p name = some a) : a.value? = none ∧ ∀ m, a ≠ .method m := by
  unfold reserved? at h
  split at h
  · cases h
    exact ⟨rfl, fun _ hm => by cases hm⟩
  split at h
  · cases h
    exact ⟨rfl, fun _ hm => by cases hm⟩
  split at h
  · cases h
    exact ⟨rfl, fun _ hm => by cases hm⟩
  split at h
  · cases h
    exact ⟨rfl, fun _ hm => by cases hm⟩
  · cases h

theorem mem_of_lookup {α β : Type} [BEq α] [LawfulBEq α] {key : α} {value : β} {entries : List (α × β)}
    (h : entries.lookup key = some value) : (key, value) ∈ entries := by
  obtain ⟨front, back, rfl, _⟩ := List.lookup_eq_some_iff.mp h
  exact List.mem_append_right _ List.mem_cons_self

theorem knowsAll_of_kept {p : Proxy} {name : String} {v : Value} (hc : c.Sound)
    (h : c.kept? p name = some v) : c.KnowsAll v := by
  simp only [kept?, Option.bind_eq_bind, Option.bind_eq_some_iff] at h
  obtain ⟨cell, hcell, hlookup⟩ := h
  exact hc.locals p.key cell hcell (name, v) (mem_of_lookup hlookup)

theorem leads_resolveName (hc : c.Sound) {p : Proxy} (hp : c.Knows p) (name : String) :
    Leads free c [] (Gives p) (resolveName p name c) := by
  apply leads_live hc
  intro hlive
  apply Leads.get
  cases hreserved : c.reserved? p name with
  | some a =>
    obtain ⟨hnone, hmethod⟩ := value?_of_reserved hreserved
    refine .pure ⟨fun v hv => ?_, by rw [hnone]; rfl, fun m hm => absurd hm (hmethod m)⟩
    rw [hnone] at hv
    cases hv
  | none =>
    cases hkept : c.kept? p name with
    | some v =>
      have hv := knowsAll_of_kept hc hkept
      have hhold : Leads free c [] (fun _ c' hand => c' = c.hold v ∧ hand = [v])
          ((modify (·.hold v) : Action Unit) c) := ⟨runs_hold v, [v], passes_hold hv, rfl, rfl⟩
      refine .bind hc hhold ?_
      intro _ c' hand _ hruns hdone
      refine .pure ⟨fun w hw => ?_, hdone.2, fun m hm => by cases hm⟩
      cases hw
      exact hruns.knowsAll hv
    | none =>
      dsimp only
      split
      · exact .pure (gives_method p name)
      · exact leads_member hc hp hlive name

theorem leads_method (hc : c.Sound) {p : Proxy} (hp : c.Knows p) (name : String) :
    Leads free c [] (fun m _ hand => m.target = p ∧ hand = []) (method p name c) := by
  refine .bind hc (leads_resolveName hc hp name) ?_
  intro a c' hand hc' _ ha
  cases a with
  | method m => exact .pure ⟨ha.target m rfl, ha.hand⟩
  | id | className | session | callables | kept | property =>
    rw [ha.hand]
    refine .bind hc' (leads_modify (runs_discardAll _) (passes_discardAll _)) ?_
    intro _ _ hand _ _ hdone
    rw [hdone.2]
    exact .throw _

theorem leads_getMember (hc : c.Sound) {p : Proxy} (hp : c.Knows p) (name : String) :
    Leads free c [] Known (getMember p name c) := by
  refine .bind hc (leads_resolveName hc hp name) ?_
  intro a c' hand _ _ ha
  rw [ha.hand]
  cases a with
  | kept v | property v => exact .pure ⟨ha.known v rfl, rfl⟩
  | id v => exact leads_plain rfl
  | className name =>
    cases name with
    | none => exact leads_plain rfl
    | some name => exact leads_plain rfl
  | session | callables | method => exact .throw _

/-! ### Requests to the object of a proxy -/

theorem leads_invoke (hc : c.Sound) {m : BoundMethod} (hm : c.Knows m.target) {args : List Value}
    (h : c.Entrusts free m.target.session args) : Leads free c [] Known (invoke m args c) :=
  leads_live hc m.target fun hlive => leads_converted hc (fun _ => rfl) fun _ hms =>
    grants_target hm hlive Message.handles_callMethod (h.convertAll hms)

theorem leads_callMember (hc : c.Sound) {p : Proxy} (hp : c.Knows p) (name : String) {args : List Value}
    (h : c.Entrusts free p.session args) : Leads free c [] Known (callMember p name args c) := by
  refine .bind hc (leads_method hc hp name) ?_
  intro m c' hand hc' hruns hm
  obtain ⟨rfl, rfl⟩ := hm
  exact leads_invoke hc' (hruns.knows hp) (h.runs hruns)

theorem leads_elementOf (hc : c.Sound) {p : Proxy} (hp : c.Knows p) (index : Int32) :
    Leads free c [] Known (elementOf p index c) :=
  leads_live hc p fun hlive => leads_request hc rfl
    (grants_target hp hlive rfl (.inr fun _ hid => by cases hid))

theorem leads_elementOfProperty (hc : c.Sound) {p : Proxy} (hp : c.Knows p) (name : String)
    (index : Int32) : Leads free c [] Known (elementOfProperty p name index c) :=
  leads_live hc p fun hlive => leads_request hc rfl
    (grants_target hp hlive rfl (.inr fun _ hid => by cases hid))

theorem leads_protectObject (hc : c.Sound) {p : Proxy} (hp : c.Knows p) :
    Leads free c [] Anything (protectObject p c) :=
  leads_live hc p fun hlive => leads_protect (grants_target hp hlive rfl (.inr fun _ hid => by cases hid))

/-! ### Keeping values -/

theorem isReleased_hold (v : Value) (p : Proxy) : (c.hold v).isReleased p = c.isReleased p := by
  rw [hold]
  induction v.proxies generalizing c with
  | nil => rfl
  | cons q qs ih => exact ih.trans (isReleased_note q p fun _ => rfl)

theorem kept?_hold (v : Value) (p : Proxy) (name : String) : (c.hold v).kept? p name = c.kept? p name := by
  rw [hold]
  induction v.proxies generalizing c with
  | nil => rfl
  | cons q qs ih =>
    refine ih.trans ?_
    simp only [kept?, holdProxy, modifyCell, Array.getElem?_modify]
    split
    · cases c.cells[p.key]? <;> rfl
    · rfl

/-- Keeping a known value on a live proxy: it is held before the value that was kept under this name is
given up. -/
theorem leads_keep (hc : c.Sound) {p : Proxy} (hlive : c.isReleased p = false) (name : String) {v : Value}
    (hv : c.KnowsAll v) : Leads free c [] Anything (keep p name v c) := by
  have hhold : Runs free c (c.hold v) := runs_hold v
  have hheld := hhold.sound hc
  obtain ⟨cell, hcell, hcellLive⟩ := isReleased_eq_false.mp ((isReleased_hold v p).trans hlive)
  have hfit := hheld.fit p.key cell hcell
  have hold : cell.locals.lookup name = c.kept? p name := by
    rw [← kept?_hold v p name]
    simp only [kept?, hcell, Option.bind_eq_bind, Option.bind_some]
  let f (cell : Cell) : Cell :=
    { cell with locals := (cell.locals.filter fun entry => entry.1 != name) ++ [(name, v)] }
  -- Whoever holds the value passes it on to the cell, which gives the old value in return.
  have hkeep : Runs free (c.hold v) ((c.hold v).modifyCell p f) := by
    apply runs_modifyCell
    intro found hfound
    rw [hcell, Option.some.injEq] at hfound
    subst hfound
    refine ⟨rfl, rfl, rfl, fun _ => ⟨fun hzero => ?_, ?_⟩, fun entry hentry => ?_⟩
    · rw [(hfit.gone hzero).1] at hcellLive
      cases hcellLive
    · rw [List.map_append, List.nodup_append]
      refine ⟨hfit.names.sublist (List.filter_sublist.map Prod.fst), by simp, ?_⟩
      intro other hother new hnew heq
      obtain ⟨entry, hentry, rfl⟩ := List.mem_map.mp hother
      have hne := (List.mem_filter.mp hentry).2
      rw [List.map_singleton, List.mem_singleton] at hnew
      rw [heq, hnew] at hne
      simp at hne
    · obtain hother | hnew := List.mem_append.mp hentry
      · exact .inl (List.mem_filter.mp hother).1
      · rw [List.mem_singleton] at hnew
        subst hnew
        exact .inr (hhold.knowsAll hv)
  have hpass : Passes (c.hold v) [v] ((c.hold v).modifyCell p f) (c.kept? p name).toList := by
    rw [modifyCell, modify_of_some hcell]
    intro others hb
    refine hb.replace hcell fun key => ?_
    have hnames : mentions key cell.kept =
        mentions key ((cell.locals.filter fun entry => entry.1 != name).map (·.2)) +
          mentions key (c.kept? p name).toList := by
      rw [← hold]
      exact mentions_lookup_value hfit.names name
    have hkept : mentions key (f cell).kept =
        mentions key ((cell.locals.filter fun entry => entry.1 != name).map (·.2)) +
          mentions key [v] := by
      rw [← mentions_append]
      exact congrArg (mentions key) (List.map_append ..)
    simp only [mentions_append, f] at hnames hkept ⊢
    omega
  refine .mono (leads_modify ((hhold.trans hkeep).trans (runs_discardAll _)) ?_) fun _ _ _ hdone => hdone.2
  exact ((passes_hold hv).trans hpass).trans (passes_discardAll _)

/-- A value is handed over only if its name is a declared property. -/
theorem leads_setMember (hc : c.Sound) {p : Proxy} (hp : c.Knows p) (name : String) {v : Value}
    (hv : c.KnowsAll v)
    (h : ∀ c', c.isReleased p = false → reservedNames.contains name = false →
      declaresProperty p name c = .ok true c' → c.Entrusts free p.session [v]) :
    Leads free c [] Anything (setMember p name v c) := by
  apply leads_live hc
  intro hlive
  change Leads free c [] Anything ((if reservedNames.contains name then throw (.readOnly name)
    else do
      if ← declaresProperty p name then setProperty p.session p.id name v else keep p name v :
        Action Unit) c)
  split
  · exact .throw _
  · rename_i hname
    refine .bind hc (leads_declaresProperty hc p name).told ?_
    intro declared c' hand hc' hruns hdone
    obtain ⟨hnone, _, hdeclared⟩ := hdone
    rw [hnone]
    have hlive' : c'.isReleased p = false := by
      have hframe := isReleased_classOf c p p
      rw [← after_declaresProperty p name, hdeclared] at hframe
      exact hframe.trans hlive
    split
    · rename_i hyes
      rw [hyes] at hdeclared
      have hentrusts := (h c' hlive (by simpa using hname) hdeclared).runs hruns
      refine leads_assign hc' (fun _ => rfl) fun m hm => ?_
      exact grants_target (hruns.knows hp) hlive' Message.handles_setProperty (hentrusts.convert hm)
    · exact leads_keep hc' hlive' name (hruns.knowsAll hv)

/-! ### Letting go -/

/-- A known proxy that is live lets go of its object in one step. -/
theorem leads_releaseObject (hc : c.Sound) {p : Proxy} (hp : c.Knows p) :
    Leads free c [] Anything (releaseObject p c) := by
  apply leads_live hc
  intro hlive
  obtain ⟨cell, hcell, rfl⟩ := hp
  have hreleased : cell.released = false := by
    simpa only [isReleased, hcell] using hlive
  have hstep := @Step.letGo free c cell.proxy.key cell { cell with released := true } hcell
    ⟨rfl, rfl, hreleased, rfl, fun hfit => ⟨fun hzero => ⟨rfl, (hfit.gone hzero).2⟩, hfit.names⟩,
      fun _ h => h⟩
  have hcells : Passes c [] (c.modifyCell cell.proxy fun cell => { cell with released := true }) [] :=
    .of_modify cell.proxy fun _ => ⟨rfl, rfl⟩
  -- Marking the cell, forgetting the proxy and posting the release add up to one step.
  change Leads free c [] Anything (release cell.proxy.session cell.proxy.id
    ((c.modifyCell cell.proxy fun cell => { cell with released := true }).modifySession
      cell.proxy.session (·.forget cell.proxy)))
  refine .of_after ?_ (hcells.trans (.of_cells ?_))
  · rw [release, post, after_onSession]
    simp only [modifySession, modifyCell, modify_modify, modify_of_some hcell]
    exact .single hstep
  · rw [release, post, cells_onSession]
    rfl

end ObjectBridge.Client
