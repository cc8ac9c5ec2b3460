import ObjectBridge.Proofs.Client.Fetching
import ObjectBridge.Proofs.Client.Objects

/-!
# Classes and names, case by case

What looking up a class and resolving or assigning a name come to, for each way that the caches of a client
can stand: the template that a session has fetched, the class that a proxy is bound to, the values and
methods that are noted on it.
-/

namespace ObjectBridge

theorem replaced_same {α : Type} {xs : Array α} {i : Nat} {x : α} (h : xs[i]? = some x) :
    xs.setIfInBounds i x = xs := by
  apply Array.ext_getElem?
  intro j
  rw [getElem?_replaced h]
  split
  · rename_i hij
    rw [← hij, h]
  · rfl

namespace Client

variable {α : Type} {c c' : Client} {s : Nat} {p : Proxy} {name : String}

/-! ### Outcomes that only look -/

theorem outcome_of_ok {result : Client → Except Fault α} {x : α} (h : result c = .ok x) :
    outcome result c = .ok x c := by
  simp only [outcome, h]

theorem outcome_of_error {result : Client → Except Fault α} {fault : Fault} (h : result c = .error fault) :
    outcome result c = .error fault c := by
  simp only [outcome, h]

theorem after_outcome (result : Client → Except Fault α) (c : Client) : after (outcome result c) = c := by
  cases h : result c with
  | ok x => rw [outcome_of_ok h, after]
  | error fault => rw [outcome_of_error h, after]

theorem outcome_ok {result : Client → Except Fault α} {x : α} (h : outcome result c = .ok x c') :
    result c = .ok x ∧ c' = c := by
  cases hresult : result c with
  | ok y =>
    rw [outcome_of_ok hresult] at h
    cases h
    exact ⟨rfl, rfl⟩
  | error fault =>
    rw [outcome_of_error hresult] at h
    cases h

/-! ### Classes of a session -/

theorem onSession_of_some {session : Session} (hs : c.sessions[s]? = some session)
    (step : Session.Action α) :
    onSession s step c =
      match step session with
      | .ok a session => .ok a { c with sessions := c.sessions.setIfInBounds s session }
      | .error fault session =>
        .error fault { c with sessions := c.sessions.setIfInBounds s session } := by
  cases hstep : step session <;> simp only [onSession, hs, hstep]

theorem onSession_of_none (hs : c.sessions[s]? = none) (step : Session.Action α) :
    onSession s step c = .error .closed c := by
  simp only [onSession, hs]

theorem onSession_error {step : Session.Action α} {fault : Fault} (h : onSession s step c = .error fault c') :
    (c.sessions[s]? = none ∧ fault = .closed ∧ c' = c) ∨
      ∃ session session', c.sessions[s]? = some session ∧ step session = .error fault session' ∧
        c' = { c with sessions := c.sessions.setIfInBounds s session' } := by
  cases hs : c.sessions[s]? with
  | none =>
    rw [onSession_of_none hs] at h
    cases h
    exact .inl ⟨rfl, rfl, rfl⟩
  | some session =>
    rw [onSession_of_some hs] at h
    cases hstep : step session with
    | ok x session' =>
      rw [hstep] at h
      cases h
    | error reason session' =>
      rw [hstep] at h
      cases h
      exact .inr ⟨session, session', rfl, hstep, rfl⟩

theorem modifySession_replaced {session : Session} (hs : c.sessions[s]? = some session) (new : Session)
    (f : Session → Session) :
    modifySession { c with sessions := c.sessions.setIfInBounds s new } s f =
      { c with sessions := c.sessions.setIfInBounds s (f new) } := by
  have hnew : (c.sessions.setIfInBounds s new)[s]? = some new := by
    rw [getElem?_replaced hs, if_pos rfl]
  rw [modifySession, modify_of_some hnew, Array.setIfInBounds_setIfInBounds]

theorem cachedTemplate?_of_some {session : Session} (hs : c.sessions[s]? = some session) (className : String) :
    c.cachedTemplate? s className = session.templates.lookup className := by
  simp [cachedTemplate?, hs]

theorem classFor_of_cached {className : String} {template : Template}
    (h : c.cachedTemplate? s className = some template) : classFor s className c = .ok ⟨s, template⟩ c := by
  unfold classFor
  rw [get_bind, h]
  rfl

theorem classFor_of_missing {className : String} (h : c.cachedTemplate? s className = none) :
    classFor s className c =
      (do return ⟨s, ← onSession s (Session.fetch className)⟩ : Action ClassHandle) c := by
  unfold classFor
  rw [get_bind, h]
  dsimp only
  cases hs : c.sessions[s]? with
  | none =>
    have hexchange : exchange s (.templateReq className) c = .error .closed c := onSession_of_none hs _
    have htemplate : fetchTemplate s className c = .error .closed c := bind_of_error _ hexchange
    rw [bind_of_error _ htemplate]
    exact (bind_of_error _ (onSession_of_none hs _)).symm
  | some session =>
    have hexchange := onSession_of_some hs (Session.exchange (.templateReq className))
    have hfetch := onSession_of_some hs (Session.fetch className)
    rw [Session.fetch] at hfetch
    cases hreply : Session.exchange (.templateReq className) session with
    | error fault session' =>
      rw [hreply] at hexchange hfetch
      have htemplate : fetchTemplate s className c = .error fault _ := bind_of_error _ hexchange
      rw [bind_of_error _ htemplate]
      exact (bind_of_error _ hfetch).symm
    | ok reply session' =>
      rw [hreply] at hexchange hfetch
      have htemplate : fetchTemplate s className c = _ := bind_of_ok _ hexchange
      cases reply with
      | templateReply members =>
        rw [bind_of_ok _ htemplate, bind_of_ok _ hfetch]
        exact congrArg (EStateM.Result.ok _) (modifySession_replaced hs _ _)
      | _ =>
        rw [bind_of_error _ htemplate, bind_of_error _ hfetch]

theorem fetch_ok {className : String} {template : Template} {session session' : Session}
    (h : Session.fetch className session = .ok template session') :
    session'.templates = session.templates ++ [(className, template)] := by
  unfold Session.fetch at h
  cases hreply : Session.exchange (.templateReq className) session with
  | error fault mid =>
    rw [hreply] at h
    cases h
  | ok reply mid =>
    rw [hreply] at h
    cases reply with
    | templateReply members =>
      cases h
      exact congrArg (· ++ _) (Session.sent_of_exchange hreply).2.2.2
    | _ => cases h

theorem classFor_ok {className : String} {h : ClassHandle} (hclass : classFor s className c = .ok h c') :
    h.session = s ∧ c'.cachedTemplate? s className = some h.template ∧ c'.cells = c.cells := by
  have hcells := cells_classFor (c := c) s className
  rw [hclass] at hcells
  cases hcached : c.cachedTemplate? s className with
  | some template =>
    rw [classFor_of_cached hcached] at hclass
    cases hclass
    exact ⟨rfl, hcached, rfl⟩
  | none =>
    rw [classFor_of_missing hcached] at hclass
    obtain ⟨template, mid, hfetch, hpure⟩ := bind_ok.mp hclass
    obtain ⟨rfl, rfl⟩ := pure_ok.mp hpure
    obtain ⟨session, session', hs, hlearned, rfl⟩ := onSession_ok hfetch
    have hs' := (getElem?_replaced hs session' s).trans (if_pos rfl)
    rw [cachedTemplate?_of_some hs] at hcached
    refine ⟨rfl, ?_, hcells⟩
    rw [cachedTemplate?_of_some hs', fetch_ok hlearned, List.lookup_append, hcached]
    simp

theorem classFor_error {className : String} {fault : Fault} (h : classFor s className c = .error fault c') :
    (c.sessions[s]? = none ∧ fault = .closed ∧ c' = c) ∨
      ∃ session session', c.sessions[s]? = some session ∧
        Session.fetch className session = .error fault session' ∧
        c' = { c with sessions := c.sessions.setIfInBounds s session' } := by
  cases hcached : c.cachedTemplate? s className with
  | some template =>
    rw [classFor_of_cached hcached] at h
    cases h
  | none =>
    rw [classFor_of_missing hcached] at h
    obtain hfetch | ⟨_, _, _, hpure⟩ := bind_error.mp h
    · exact onSession_error hfetch
    · cases hpure

theorem fault_of_classFor {className : String} {fault : Fault}
    (h : classFor s className c = .error fault c') (id : Int32) : fault ≠ .missingClassName id := by
  obtain ⟨_, rfl, _⟩ | ⟨_, _, _, hfetch, _⟩ := classFor_error h
  · exact nofun
  · exact Session.fault_of_fetch hfetch id

/-! ### The class of a proxy -/

theorem classOf_of_bound {template : Template} (h : c.cells[p.key]?.bind (·.bound) = some template) :
    classOf p c = .ok ⟨p.session, template⟩ c := by
  unfold classOf
  rw [get_bind, h]
  rfl

theorem classOf_of_nameless (h : c.cells[p.key]?.bind (·.bound) = none) (hclass : p.className = none) :
    classOf p c = .error (.missingClassName p.id) c := by
  unfold classOf
  rw [get_bind, h, hclass]
  rfl

theorem classOf_of_unbound {className : String} (h : c.cells[p.key]?.bind (·.bound) = none)
    (hclass : p.className = some className) :
    classOf p c = (do
      let h ← classFor p.session className
      modify (·.modifyCell p fun cell => { cell with bound := some h.template })
      return h : Action ClassHandle) c := by
  unfold classOf
  rw [get_bind, h, hclass]

/-- A proxy is bound to a template. -/
def bindTo (c : Client) (p : Proxy) (template : Template) : Client :=
  c.modifyCell p fun cell => { cell with bound := some template }

/-- What comes of looking up the class of a proxy. -/
inductive ClassCase (c : Client) (p : Proxy) : EStateM.Result Fault Client ClassHandle → Prop where
  | bound (template : Template) (hbound : c.cells[p.key]?.bind (·.bound) = some template) :
      ClassCase c p (.ok ⟨p.session, template⟩ c)
  | nameless (hclass : p.className = none) : ClassCase c p (.error (.missingClassName p.id) c)
  | had (className : String) (h : ClassHandle) (mid : Client) (hclass : p.className = some className)
      (hfor : classFor p.session className c = .ok h mid) : ClassCase c p (.ok h (mid.bindTo p h.template))
  | failed (className : String) (fault : Fault) (mid : Client) (hclass : p.className = some className)
      (hfor : classFor p.session className c = .error fault mid) : ClassCase c p (.error fault mid)

theorem classOf_cases (p : Proxy) (c : Client) : ClassCase c p (classOf p c) := by
  cases hbound : c.cells[p.key]?.bind (·.bound) with
  | some template =>
    rw [classOf_of_bound hbound]
    exact .bound template hbound
  | none =>
    cases hclass : p.className with
    | none =>
      rw [classOf_of_nameless hbound hclass]
      exact .nameless hclass
    | some className =>
      rw [classOf_of_unbound hbound hclass]
      cases hfor : classFor p.session className c with
      | ok h mid =>
        rw [bind_of_ok _ hfor]
        exact .had className h mid hclass hfor
      | error fault mid =>
        rw [bind_of_error _ hfor]
        exact .failed className fault mid hclass hfor

/-- Only a proxy without a class name lacks one. -/
theorem classOf_missing {id : Int32} (h : classOf p c = .error (.missingClassName id) c') :
    p.className = none ∧ c' = c := by
  have hcases := classOf_cases p c
  rw [h] at hcases
  cases hcases with
  | nameless hclass => exact ⟨hclass, rfl⟩
  | failed className fault mid hclass hfor => exact absurd rfl (fault_of_classFor hfor id)

theorem classOf_ok (hp : c.Knows p) {h : ClassHandle} (hclass : classOf p c = .ok h c') :
    h.session = p.session ∧
      ∃ cell, c'.cells[p.key]? = some cell ∧ cell.proxy = p ∧ cell.bound = some h.template := by
  obtain ⟨cell, hcell, hproxy⟩ := hp
  have hcases := classOf_cases p c
  rw [hclass] at hcases
  cases hcases with
  | bound template hbound =>
    rw [hcell, Option.bind_some] at hbound
    exact ⟨rfl, cell, hcell, hproxy, hbound⟩
  | had className h mid hname hfor =>
    obtain ⟨hsession, _, hcells⟩ := classFor_ok hfor
    refine ⟨hsession, { cell with bound := some h.template }, ?_, hproxy, rfl⟩
    have hmid : mid.cells[p.key]? = some cell := by rw [hcells, hcell]
    rw [bindTo, modifyCell, modify_of_some hmid, getElem?_replaced hmid, if_pos rfl]

theorem declaresProperty_ok {declared : Bool} (h : declaresProperty p name c = .ok declared c') :
    (∃ found, classOf p c = .ok found c' ∧ found.template.hasProperty name = declared) ∨
      p.className = none ∧ declared = false ∧ c' = c := by
  unfold declaresProperty at h
  cases hclass : classOf p c with
  | ok found mid =>
    simp only [hclass, EStateM.Result.ok.injEq] at h
    obtain ⟨hdeclared, rfl⟩ := h
    exact .inl ⟨found, rfl, hdeclared⟩
  | error fault mid =>
    rw [hclass] at h
    cases fault with
    | missingClassName id =>
      cases h
      obtain ⟨hname, rfl⟩ := classOf_missing hclass
      exact .inr ⟨hname, rfl, rfl⟩
    | _ => cases h

/-! ### Names -/

theorem requireLive_of_released (h : c.isReleased p = true) :
    requireLive p c = .error (.released p.id) c := by
  unfold requireLive
  rw [get_bind, if_pos h]
  rfl

theorem requireLive_of_live (h : c.isReleased p = false) : requireLive p c = .ok () c := by
  unfold requireLive
  rw [get_bind, h]
  rfl

theorem reserved?_eq_none : c.reserved? p name = none ↔ name ∉ reservedNames := by
  unfold reserved? reservedNames
  split
  · simp [*]
  split
  · simp [*]
  split
  · simp [*]
  split
  · simp [*]
  · simp [*]

section Live

variable (hlive : c.isReleased p = false)

include hlive

theorem resolveName_of_reserved {a : Attribute} (h : c.reserved? p name = some a) :
    resolveName p name c = .ok a c := by
  unfold resolveName
  rw [bind_of_ok _ (requireLive_of_live hlive), get_bind, h]
  rfl

theorem resolveName_of_kept (hname : name ∉ reservedNames) {v : Value} (h : c.kept? p name = some v) :
    resolveName p name c = .ok (.kept v) (c.hold v) := by
  unfold resolveName
  rw [bind_of_ok _ (requireLive_of_live hlive), get_bind, reserved?_eq_none.mpr hname, h]
  rfl

theorem resolveName_of_callable (hname : name ∉ reservedNames) (hkept : c.kept? p name = none)
    (h : name ∈ c.callables p) : resolveName p name c = .ok (.method ⟨name, p⟩) c := by
  unfold resolveName
  rw [bind_of_ok _ (requireLive_of_live hlive), get_bind, reserved?_eq_none.mpr hname, hkept]
  dsimp only
  rw [if_pos (List.contains_iff_mem.mpr h)]
  rfl

theorem resolveName_of_member (hname : name ∉ reservedNames) (hkept : c.kept? p name = none)
    (h : name ∉ c.callables p) : resolveName p name c = member p name c := by
  unfold resolveName
  rw [bind_of_ok _ (requireLive_of_live hlive), get_bind, reserved?_eq_none.mpr hname, hkept]
  dsimp only
  rw [if_neg fun hcontains => h (List.contains_iff_mem.mp hcontains)]

theorem setMember_of_reserved (hname : name ∈ reservedNames) (v : Value) :
    setMember p name v c = .error (.readOnly name) c := by
  unfold setMember
  rw [bind_of_ok _ (requireLive_of_live hlive), List.contains_iff_mem.mpr hname]
  rfl

theorem setMember_of_unreserved (hname : name ∉ reservedNames) (v : Value) :
    setMember p name v c = (do
      if ← declaresProperty p name then setProperty p.session p.id name v else keep p name v :
        Action Unit) c := by
  unfold setMember
  rw [bind_of_ok _ (requireLive_of_live hlive), if_neg fun hcontains => hname (List.contains_iff_mem.mp hcontains)]

end Live

theorem resolveName_of_released (h : c.isReleased p = true) :
    resolveName p name c = .error (.released p.id) c :=
  bind_of_error _ (requireLive_of_released h)

/-- What comes of resolving a name on a proxy. -/
inductive NameCase (c : Client) (p : Proxy) (name : String) : EStateM.Result Fault Client Attribute → Prop where
  | released (hgone : c.isReleased p = true) : NameCase c p name (.error (.released p.id) c)
  | reserved (a : Attribute) (hlive : c.isReleased p = false) (hreserved : c.reserved? p name = some a) :
      NameCase c p name (.ok a c)
  | kept (v : Value) (hlive : c.isReleased p = false) (hname : name ∉ reservedNames)
      (hkept : c.kept? p name = some v) : NameCase c p name (.ok (.kept v) (c.hold v))
  | callable (hlive : c.isReleased p = false) (hname : name ∉ reservedNames) (hkept : c.kept? p name = none)
      (hcallable : name ∈ c.callables p) : NameCase c p name (.ok (.method ⟨name, p⟩) c)
  | member (result : EStateM.Result Fault Client Attribute) (hlive : c.isReleased p = false)
      (hname : name ∉ reservedNames) (hkept : c.kept? p name = none) (hcallable : name ∉ c.callables p)
      (hmember : member p name c = result) : NameCase c p name result

theorem resolveName_cases (p : Proxy) (name : String) (c : Client) :
    NameCase c p name (resolveName p name c) := by
  cases hlive : c.isReleased p with
  | true =>
    rw [resolveName_of_released hlive]
    exact .released hlive
  | false =>
    cases hreserved : c.reserved? p name with
    | some a =>
      rw [resolveName_of_reserved hlive hreserved]
      exact .reserved a hlive hreserved
    | none =>
      have hname := reserved?_eq_none.mp hreserved
      cases hkept : c.kept? p name with
      | some v =>
        rw [resolveName_of_kept hlive hname hkept]
        exact .kept v hlive hname hkept
      | none =>
        by_cases hcallable : name ∈ c.callables p
        · rw [resolveName_of_callable hlive hname hkept hcallable]
          exact .callable hlive hname hkept hcallable
        · exact .member _ hlive hname hkept hcallable (resolveName_of_member hlive hname hkept hcallable).symm

theorem setMember_of_released (h : c.isReleased p = true) (v : Value) :
    setMember p name v c = .error (.released p.id) c :=
  bind_of_error _ (requireLive_of_released h)

/-- An assignment is refused at once, or made by what the class of the proxy declares. -/
theorem setMember_refused_or (p : Proxy) (name : String) (v : Value) (c : Client) :
    (∃ fault, setMember p name v c = .error fault c) ∨ name ∉ reservedNames ∧ setMember p name v c = (do
      if ← declaresProperty p name then setProperty p.session p.id name v else keep p name v : Action Unit) c := by
  cases hlive : c.isReleased p with
  | true => exact .inl ⟨_, setMember_of_released hlive v⟩
  | false =>
    by_cases hname : name ∈ reservedNames
    · exact .inl ⟨_, setMember_of_reserved hlive hname v⟩
    · exact .inr ⟨hname, setMember_of_unreserved hlive hname v⟩

theorem cell_hold (v : Value) {key : Nat} {cell : Cell} (h : c.cells[key]? = some cell) :
    ∃ holders, (c.hold v).cells[key]? = some { cell with holders } := by
  rw [hold]
  induction v.proxies generalizing c cell with
  | nil => exact ⟨cell.holders, h⟩
  | cons p ps ih =>
    rw [List.foldl_cons]
    by_cases hkey : p.key = key
    · subst hkey
      have hheld : (c.holdProxy p).cells[p.key]? = some { cell with holders := cell.holders + 1 } := by
        rw [holdProxy, modifyCell, modify_of_some h, getElem?_replaced h, if_pos rfl]
      obtain ⟨holders, hheld'⟩ := ih hheld
      exact ⟨holders, hheld'⟩
    · have hsame : (c.holdProxy p).cells[key]? = some cell := by
        rw [holdProxy, modifyCell, Array.getElem?_modify, if_neg hkey, h]
      exact ih hsame

end Client

end ObjectBridge
