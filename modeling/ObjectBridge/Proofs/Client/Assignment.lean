import ObjectBridge.Proofs.Client.Dropping
import ObjectBridge.Proofs.Client.Rejection

/-!
# Assigning to names

A name is a declared property of a proxy (`Declares`) or its value is kept on the proxy, never both
(`Consistent.denies_of_kept`). To read or assign a declared property takes one request each time and
touches nothing that is kept. To keep a value takes none, but for the class of the proxy, and for the proxies
that only the value before held.
-/

namespace ObjectBridge

/-- The values kept on a proxy, by its key. -/
def localsOf (cells : Array Cell) (key : Nat) : List (String × Value) :=
  match cells[key]? with
  | some cell => cell.locals
  | none => []

theorem localsOf_of_some {cells : Array Cell} {key : Nat} {cell : Cell} (h : cells[key]? = some cell) :
    localsOf cells key = cell.locals := by
  rw [localsOf, h]

theorem localsOf_of_none {cells : Array Cell} {key : Nat} (h : cells[key]? = none) : localsOf cells key = [] := by
  rw [localsOf, h]

/-- A cell without its holders and what is remembered of the class of its proxy. -/
def Cell.bare (cell : Cell) : Cell := { cell with holders := 0, bound := none, callables := [] }

theorem keptBy_iff {cells : Array Cell} {keeper key : Nat} :
    KeptBy cells keeper key ↔ ∃ entry ∈ localsOf cells keeper, ∃ p ∈ entry.2.proxies, p.key = key := by
  constructor
  · rintro ⟨cell, hcell, v, hv, hkey⟩
    obtain ⟨entry, hentry, rfl⟩ := List.mem_map.mp hv
    rw [localsOf_of_some hcell]
    exact ⟨entry, hentry, hkey⟩
  · rintro ⟨entry, hentry, hkey⟩
    cases hcell : cells[keeper]? with
    | none =>
      rw [localsOf_of_none hcell] at hentry
      cases hentry
    | some cell =>
      rw [localsOf_of_some hcell] at hentry
      exact ⟨cell, hcell, entry.2, List.mem_map_of_mem hentry, hkey⟩

theorem Lent.localsOf {base cells : Array Cell} {hand : List Value} (h : Lent base cells hand) (key : Nat) :
    localsOf cells key = ObjectBridge.localsOf base key := by
  cases hbase : base[key]? with
  | some cell =>
    obtain ⟨holders, hcell⟩ := h.old key cell hbase
    rw [localsOf_of_some hcell, localsOf_of_some hbase]
  | none =>
    rw [localsOf_of_none hbase]
    cases hcell : cells[key]? with
    | some cell =>
      rw [localsOf_of_some hcell]
      exact (h.new key cell (Array.getElem?_eq_none_iff.mp hbase) hcell).1
    | none => exact localsOf_of_none hcell

namespace Client

variable {c c' c'' : Client} {s t : Nat} {p : Proxy} {m : Message} {name : String} {v : Value}

theorem kept?_eq (c : Client) (p : Proxy) (name : String) :
    c.kept? p name = (localsOf c.cells p.key).lookup name := by
  unfold kept? localsOf
  cases c.cells[p.key]? <;> rfl

/-! ### What is kept stays -/

/-- Everything that is kept on proxies is the same. -/
def SameLocals (c c' : Client) : Prop := ∀ key, localsOf c'.cells key = localsOf c.cells key

/-- All proxies are the same but for their holders and what is remembered of their classes. -/
def Unmoved (c c' : Client) : Prop := ∀ key : Nat, c'.cells[key]?.map Cell.bare = c.cells[key]?.map Cell.bare

theorem sameLocals_of_cells (h : c'.cells = c.cells) : SameLocals c c' := fun key => by rw [h]

theorem SameLocals.trans (h : SameLocals c c') (h' : SameLocals c' c'') : SameLocals c c'' :=
  fun key => (h' key).trans (h key)

theorem unmoved_of_cells (h : c'.cells = c.cells) : Unmoved c c' := fun key => by rw [h]

theorem Unmoved.trans (h : Unmoved c c') (h' : Unmoved c' c'') : Unmoved c c'' :=
  fun key => (h' key).trans (h key)

theorem Unmoved.cell (h : Unmoved c c') {key : Nat} {cell' : Cell} (hcell : c'.cells[key]? = some cell') :
    ∃ cell, c.cells[key]? = some cell ∧ cell'.bare = cell.bare := by
  have hkey := h key
  rw [hcell, Option.map_some, eq_comm, Option.map_eq_some_iff] at hkey
  obtain ⟨cell, hold, hbare⟩ := hkey
  exact ⟨cell, hold, hbare.symm⟩

theorem Unmoved.sameLocals (h : Unmoved c c') : SameLocals c c' := by
  intro key
  cases hcell : c'.cells[key]? with
  | some cell' =>
    obtain ⟨cell, hold, hbare⟩ := h.cell hcell
    have hlocals : cell'.bare.locals = cell.bare.locals := by rw [hbare]
    rw [localsOf_of_some hcell, localsOf_of_some hold]
    exact hlocals
  | none =>
    have hkey := h key
    rw [hcell, Option.map_none, eq_comm, Option.map_eq_none_iff] at hkey
    rw [localsOf_of_none hcell, localsOf_of_none hkey]

theorem Unmoved.liveIn (h : Unmoved c c') (hp : LiveIn c'.cells p) : LiveIn c.cells p := by
  obtain ⟨cell', hcell, hproxy, hlive⟩ := hp
  obtain ⟨cell, hold, hbare⟩ := h.cell hcell
  have hsame : cell.bare.proxy = cell'.bare.proxy ∧ cell.bare.released = cell'.bare.released := by
    rw [hbare]
    exact ⟨rfl, rfl⟩
  exact ⟨cell, hold, hsame.1.trans hproxy, hsame.2.trans hlive⟩

theorem Unmoved.keptBy (h : Unmoved c c') {keeper key : Nat} (hkept : KeptBy c'.cells keeper key) :
    KeptBy c.cells keeper key := by
  rwa [keptBy_iff, h.sameLocals keeper, ← keptBy_iff] at hkept

theorem unmoved_modifyCell {f : Cell → Cell} (hf : ∀ cell : Cell, (f cell).bare = cell.bare) :
    Unmoved c (c.modifyCell p f) := by
  intro key
  rw [modifyCell, Array.getElem?_modify]
  split
  · cases c.cells[key]? with
    | none => rfl
    | some cell => exact congrArg some (hf cell)
  · rfl

theorem unmoved_hold (v : Value) : Unmoved c (c.hold v) := by
  rw [hold]
  induction v.proxies generalizing c with
  | nil => exact unmoved_of_cells rfl
  | cons p ps ih =>
    have hfirst : Unmoved c (c.holdProxy p) := unmoved_modifyCell fun _ => rfl
    exact hfirst.trans ih

theorem unmoved_classOf (p : Proxy) (c : Client) : Unmoved c (after (classOf p c)) := by
  have hcells (className : String) : (after (classFor p.session className c)).cells = c.cells :=
    cells_classFor p.session className
  have hcases := classOf_cases p c
  generalize classOf p c = result at hcases ⊢
  cases hcases with
  | bound | nameless => exact unmoved_of_cells rfl
  | had className h mid _ hfor =>
    have hfetched := hcells className
    rw [hfor] at hfetched
    exact (unmoved_of_cells hfetched).trans (unmoved_modifyCell fun _ => rfl)
  | failed className fault mid _ hfor =>
    have hfetched := hcells className
    rw [hfor] at hfetched
    exact unmoved_of_cells hfetched

theorem sameLocals_command (hc : c.Sound) (hl : c.Listing s) (hm : m.awaitsReply = true) :
    SameLocals c (after (command s m c)) := by
  cases hexchange : exchange s m c with
  | error fault mid =>
    have hcells := cells_onSession (c := c) s (Session.exchange m)
    have hrequest : request s m c = .error fault mid := bind_of_error _ hexchange
    have hcommand : command s m c = .error fault mid := bind_of_error _ hrequest
    rw [← exchange, hexchange] at hcells
    rw [hcommand]
    exact sameLocals_of_cells hcells
  | ok reply mid =>
    have hruns := runs_exchange hm hexchange
    have hlooked := looked_resolve m.tag reply (hruns.sound hc) (hruns.listing hc hl)
      (keeps_exchange hexchange).2 (.refl s mid)
    have hrequest : request s m c = resolve s m.tag reply mid := bind_of_ok _ hexchange
    refine (sameLocals_of_cells (exchange_cells hexchange)).trans fun key => ?_
    unfold command
    cases hresolve : resolve s m.tag reply mid with
    | ok w last =>
      rw [hresolve] at hlooked hrequest
      have hcells : (last.discard w).cells = (reclaim [w] last.cells []).1 := by rw [discard, discardAll_eq]
      have hreturned := (Lent.givesUp mid.cells).reclaim [w] last.cells [] hlooked.1.lent
      rw [← hcells] at hreturned
      rw [bind_of_ok _ hrequest]
      exact hreturned.localsOf key
    | error fault last =>
      rw [hresolve] at hlooked hrequest
      rw [bind_of_error _ hrequest]
      exact hlooked.1.localsOf key

/-! ### Declared properties -/

/-- A name is a declared property of a proxy, by the template that the session has for its class. -/
def Declares (c : Client) (p : Proxy) (name : String) : Prop :=
  ∃ className template, p.className = some className ∧
    c.cachedTemplate? p.session className = some template ∧ template.hasProperty name = true

theorem Declares.mono {may : Mark → Prop} (h : c.Declares p name) (hchanges : Changes may c c') :
    c'.Declares p name := by
  obtain ⟨className, template, hclass, hcached, hproperty⟩ := h
  exact ⟨className, template, hclass, hchanges.cachedTemplate? hcached, hproperty⟩

/-- A name is no declared property of a proxy: the proxy has no class name, or its session has the template of
its class. -/
def Denies (c : Client) (p : Proxy) (name : String) : Prop :=
  p.className = none ∨ ∃ className template, p.className = some className ∧
    c.cachedTemplate? p.session className = some template ∧ template.hasProperty name = false

theorem Denies.not_declares (h : c.Denies p name) : ¬ c.Declares p name := by
  rintro ⟨className, template, hclass, hcached, hproperty⟩
  obtain hnone | ⟨other, found, hother, hfound, hnot⟩ := h
  · rw [hnone] at hclass
    cases hclass
  · rw [hclass, Option.some.injEq] at hother
    subst hother
    rw [hcached, Option.some.injEq] at hfound
    rw [← hfound, hproperty] at hnot
    cases hnot

theorem Denies.mono {may : Mark → Prop} (h : c.Denies p name) (hchanges : Changes may c c') :
    c'.Denies p name := by
  obtain hnone | ⟨className, template, hclass, hcached, hnot⟩ := h
  · exact .inl hnone
  · exact .inr ⟨className, template, hclass, hchanges.cachedTemplate? hcached, hnot⟩

/-- Nothing is kept on a proxy under a reserved name or a declared property. -/
theorem Consistent.denies_of_kept (hc : c.Consistent) (hp : c.Knows p) (h : c.kept? p name = some v) :
    name ∉ reservedNames ∧ c.Denies p name := by
  obtain ⟨cell, hcell, rfl⟩ := hp
  rw [kept?_of_some hcell] at h
  have hfaithful := hc.faithful _ cell hcell
  obtain ⟨hname, hnone | ⟨template, hbound, hnot⟩⟩ := hfaithful.locals _ (mem_of_lookup h)
  · exact ⟨hname, .inl hnone⟩
  · obtain ⟨className, hclass, hcached⟩ := hfaithful.bound template hbound
    exact ⟨hname, .inr ⟨className, template, hclass, hcached, hnot⟩⟩

theorem Consistent.cached_of_classOf (hc : c.Consistent) (hp : c.Knows p) {h : ClassHandle}
    (hclass : classOf p c = .ok h c') :
    ∃ className, p.className = some className ∧ c'.cachedTemplate? p.session className = some h.template := by
  cases hname : p.className with
  | none =>
    rw [hc.classOf_nameless hp hname] at hclass
    cases hclass
  | some className =>
    rw [hc.classOf_eq hp hname] at hclass
    obtain ⟨found, mid, hfor, hbind⟩ := bind_ok.mp hclass
    cases hbind
    exact ⟨className, rfl, (classFor_ok hfor).2.1⟩

theorem Consistent.declaresProperty_cases (hc : c.Consistent) (hp : c.Knows p) {declared : Bool}
    (h : declaresProperty p name c = .ok declared c') :
    Asks p.session (c.fetches p) c c' ∧
      (declared = true ∧ c'.Declares p name ∨ declared = false ∧ c'.Denies p name) := by
  obtain ⟨found, hclass, hproperty⟩ | ⟨hnone, rfl, rfl⟩ := declaresProperty_ok h
  · obtain ⟨className, hname, hcached⟩ := hc.cached_of_classOf hp hclass
    refine ⟨hc.asks_classOf hp hclass, ?_⟩
    cases declared with
    | true => exact .inl ⟨rfl, className, found.template, hname, hcached, hproperty⟩
    | false => exact .inr ⟨rfl, .inr ⟨className, found.template, hname, hcached, hproperty⟩⟩
  · have hfetches : c'.fetches p = [] := by rw [fetches, hnone]
    rw [hfetches]
    exact ⟨asks_refl c', .inr ⟨rfl, .inl hnone⟩⟩

/-! ### Reading -/

/-- A name was read by a request for it, after one for the class where that was missing, and the value is that
of the reply. -/
def ReadsAnew (c : Client) (p : Proxy) (name : String) (v : Value) (c' : Client) : Prop :=
  Asks p.session (.getProperty p.id name :: c.fetches p) c c' ∧
    ∃ before reply answered, Asks p.session (c.fetches p) c before ∧
      exchange p.session (.getProperty p.id name) before = .ok reply answered ∧
      resolve p.session .getProperty reply answered = .ok v c'

theorem Consistent.readsAnew (hc : c.Consistent) (hp : c.Knows p) (hname : name ∉ reservedNames)
    (h : getMember p name c = .ok v c') (hdeclared : c'.Declares p name) : ReadsAnew c p name v c' := by
  obtain ⟨a, mid, hresolve, hrest⟩ := bind_ok.mp h
  have hcases := resolveName_cases p name c
  rw [hresolve] at hcases
  cases hcases with
  | reserved _ _ hreserved =>
    rw [reserved?_eq_none.mpr hname] at hreserved
    cases hreserved
  | kept w _ _ hkept =>
    cases hrest
    have hheld : Changes (fun _ => True) c (c.hold v) := changes_hold v
    exact absurd hdeclared ((hc.denies_of_kept hp hkept).2.mono hheld).not_declares
  | callable => cases hrest
  | member _ _ _ _ _ hmember =>
    obtain ⟨found, before, hclass, hmember⟩ := bind_ok.mp hmember
    split at hmember
    · cases hmember
      cases hrest
    split at hmember
    · obtain ⟨w, last, hget, hpure⟩ := bind_ok.mp hmember
      cases hpure
      cases hrest
      obtain ⟨reply, answered, hexchange, hvalue⟩ := bind_ok.mp hget
      have hfetches := hc.asks_classOf hp hclass
      exact ⟨hfetches.trans (asks_request hget), before, reply, answered, hfetches, hexchange, hvalue⟩
    · cases hmember

/-! ### Assigning -/

/-- A name was assigned by a request with the converted value, after one for the class where that was missing,
and what is kept is the same. The value of the reply, if it holds proxies, is given up. -/
def AssignsAnew (c : Client) (p : Proxy) (name : String) (v : Value) (c' : Client) : Prop :=
  SameLocals c c' ∧ ∃ m, (c.registry p.session).convert c.isReleased v = .ok m ∧
    ∀ t, ∃ ps, c'.sent t = releasing ps ++
      ((if t = p.session then .setProperty p.id name m :: c.fetches p else []) ++ c.sent t)

/-- A value was kept under a name, after a request for the class where that was missing. Proxies that the
value before led to are released, if nobody holds them any more. -/
def KeepsAnew (c : Client) (p : Proxy) (name : String) (v : Value) (c' : Client) : Prop :=
  (c'.isReleased p = false → c'.kept? p name = some v) ∧
    ∀ t, ∃ ps, Releases t c c' (c.kept? p name).toList ps ∧
      c'.sent t = releasing ps ++ ((if t = p.session then c.fetches p else []) ++ c.sent t)

/-- A successful assignment goes to the server or is kept, after the class of the proxy was looked up. -/
theorem Consistent.setMember_cases (hc : c.Consistent) (hp : c.Knows p) (h : setMember p name v c = .ok () c') :
    name ∉ reservedNames ∧ Asks p.session (c.fetches p) c (after (classOf p c)) ∧
      Changes (fun _ => True) (after (classOf p c)) c' ∧
      ((after (classOf p c)).Declares p name ∧
          setProperty p.session p.id name v (after (classOf p c)) = .ok () c' ∨
        (after (classOf p c)).Denies p name ∧ keep p name v (after (classOf p c)) = .ok () c') := by
  obtain ⟨fault, hrefused⟩ | ⟨hname, hset⟩ := setMember_refused_or p name v c
  · rw [hrefused] at h
    cases h
  · rw [hset] at h
    obtain ⟨declared, mid, hdeclared, hrest⟩ := bind_ok.mp h
    have hmid : after (classOf p c) = mid := by
      rw [← after_declaresProperty p name, hdeclared]
      rfl
    rw [hmid]
    obtain ⟨hasks, ⟨rfl, hyes⟩ | ⟨rfl, hno⟩⟩ := hc.declaresProperty_cases hp hdeclared
    · have hset : setProperty p.session p.id name v mid = .ok () c' := hrest
      have hchanges : Changes (fun _ => True) mid (after (setProperty p.session p.id name v mid)) :=
        changes_assign v (fun _ => rfl) fun _ _ heq => by cases heq
      rw [hset] at hchanges
      exact ⟨hname, hasks, hchanges, .inl ⟨hyes, hset⟩⟩
    · obtain ⟨cell, hcell, hother⟩ := undeclared_of_declaresProperty hp hdeclared
      have hkeep : keep p name v mid = .ok () c' := hrest
      have hchanges : Changes (fun _ => True) mid (after (keep p name v mid)) :=
        changes_keep hcell hname hother trivial
      rw [hkeep] at hchanges
      exact ⟨hname, hasks, hchanges, .inr ⟨hno, hkeep⟩⟩

theorem Consistent.assignsAnew (hcons : c.Consistent) (hc : c.Sound) (hl : c.Listing p.session)
    (hp : c.Knows p) (h : setMember p name v c = .ok () c') (hdeclared : c'.Declares p name) :
    AssignsAnew c p name v c' := by
  have hruns : Runs (fun _ _ => True) c (after (classOf p c)) := (leads_classOf hc p).runs
  obtain ⟨_, hfetches, hchanges, ⟨_, hset⟩ | ⟨hno, _⟩⟩ := hcons.setMember_cases hp h
  · have hreleased : (after (classOf p c)).isReleased = c.isReleased := funext (isReleased_classOf c p)
    obtain ⟨m, mid, hconvert, hcommand⟩ := bind_ok.mp hset
    obtain ⟨hm, rfl⟩ := outcome_ok hconvert
    have hsame : SameLocals (after (classOf p c)) (after (command p.session (.setProperty p.id name m)
        (after (classOf p c)))) := sameLocals_command (hruns.sound hc) (hruns.listing hc hl) rfl
    rw [hruns.registry_eq, hreleased] at hm
    rw [hcommand] at hsame
    refine ⟨(unmoved_classOf p c).sameLocals.trans hsame, m, hm, fun t => ?_⟩
    obtain ⟨w, last, hrequest, hgiven⟩ := bind_ok.mp hcommand
    cases hgiven
    have hlast : Runs (fun _ _ => True) (after (classOf p c)) (after (request p.session
        (.setProperty p.id name m) (after (classOf p c)))) :=
      (leads_request (hruns.sound hc) rfl (.inl fun _ _ _ => trivial)).runs
    rw [hrequest] at hlast
    have hsound : last.Sound := hlast.sound (hruns.sound hc)
    obtain ⟨ps, _, hsent⟩ := discardAll_drops hsound.keys [w] t
    rw [(hfetches.trans (asks_request hrequest)) t] at hsent
    exact ⟨ps, hsent⟩
  · exact absurd hdeclared (hno.mono hchanges).not_declares

/-- A value is held, and kept in place of the one before, which is not given up yet. -/
def stored (c : Client) (p : Proxy) (name : String) (v : Value) : Client :=
  (c.hold v).modifyCell p fun cell => cell.keep name v

theorem keep_eq (p : Proxy) (name : String) (v : Value) (c : Client) :
    keep p name v c = .ok () ((c.stored p name v).discardAll (c.kept? p name).toList) := rfl

theorem Releases.earlier {mid : Client} {vs : List Value} {ps : List Proxy} (h : Releases t mid c' vs ps)
    (hlive : ∀ q, LiveIn mid.cells q → LiveIn c.cells q)
    (hkept : ∀ keeper key, Loosened mid.cells c'.cells keeper key → KeptBy c.cells keeper key) :
    Releases t c c' vs ps := by
  refine ⟨h.1, fun q hq => ?_⟩
  obtain ⟨hthere, hq, hdropped⟩ := h.2 q hq
  exact ⟨hthere, hlive q hq, hdropped.earlier hkept⟩

theorem cells_stored (hp : c.Knows p) (name : String) (v : Value) :
    ∃ cell, (c.hold v).cells[p.key]? = some cell ∧ cell.proxy = p ∧
      (c.stored p name v).cells = (c.hold v).cells.setIfInBounds p.key (cell.keep name v) := by
  obtain ⟨cell, hcell, hproxy⟩ := hp
  obtain ⟨holders, hheld⟩ := cell_hold v hcell
  refine ⟨{ cell with holders }, hheld, hproxy, ?_⟩
  rw [stored, modifyCell, modify_of_some hheld]

theorem sent_stored (c : Client) (p : Proxy) (name : String) (v : Value) (t : Nat) :
    (c.stored p name v).sent t = c.sent t := by
  have hasks : Asks t [] c (c.stored p name v) := asks_of_sessions (sessions_hold v c)
  rw [hasks t, ite_self, List.nil_append]

theorem keep_drops (hc : c.Sound) (hp : c.Knows p) (h : keep p name v c = .ok () c')
    (hheld : holdersOf c'.cells p.key ≠ 0) (t : Nat) :
    ∃ ps, Releases t c c' (c.kept? p name).toList ps ∧ c'.sent t = releasing ps ++ c.sent t := by
  rw [keep_eq] at h
  cases h
  obtain ⟨cell, hcell, _, hcells⟩ := cells_stored hp name v
  have hruns : Runs (fun _ _ => True) c (c.hold v) := runs_hold v
  have hkeys (key : Nat) (found : Cell) (hfound : (c.stored p name v).cells[key]? = some found) :
      found.proxy.key = key := by
    rw [hcells] at hfound
    refine keys_replaced hcell (hruns.sound hc).keys ?_ key found hfound
    rfl
  obtain ⟨ps, hreleases, hsent⟩ := discardAll_drops hkeys (c.kept? p name).toList t
  rw [sent_stored] at hsent
  refine ⟨ps, hreleases.earlier (fun q hq => ?_) fun keeper key hkept => ?_, hsent⟩
  · rw [hcells] at hq
    exact (unmoved_hold v).liveIn (liveIn_of_replaced hcell hq rfl id)
  · -- Somebody holds this proxy, so it is not one of those that led to others.
    obtain ⟨⟨found, hfound, hmember⟩, hzero⟩ := hkept
    rw [hcells] at hfound
    obtain ⟨rfl, _⟩ | hsame := getElem?_replaced_cases hcell hfound
    · exact absurd hzero hheld
    · exact (unmoved_hold v).keptBy ⟨found, hsame, hmember⟩

theorem kept?_of_keep (hp : c.Knows p) (h : keep p name v c = .ok () c') (hlive : c'.isReleased p = false) :
    c'.kept? p name = some v := by
  rw [keep_eq] at h
  cases h
  obtain ⟨cell, hcell, hproxy, hcells⟩ := cells_stored hp name v
  have hstored : (c.stored p name v).cells[p.key]? = some (cell.keep name v) := by
    rw [hcells, getElem?_replaced hcell, if_pos rfl]
  have hchanges : Changes (fun _ => False) (c.stored p name v)
      ((c.stored p name v).discardAll (c.kept? p name).toList) := changes_discardAll _
  rw [hchanges.kept?_eq ⟨_, hstored, hproxy⟩ hlive not_false, kept?_of_some hstored, Cell.lookup_keep,
    if_pos rfl]

theorem Consistent.keepsAnew (hcons : c.Consistent) (hc : c.Sound) (hp : c.Knows p)
    (h : setMember p name v c = .ok () c') (hother : ¬ c'.Declares p name)
    (hheld : holdersOf c'.cells p.key ≠ 0) : KeepsAnew c p name v c' := by
  have hruns : Runs (fun _ _ => True) c (after (classOf p c)) := (leads_classOf hc p).runs
  have hunmoved := unmoved_classOf p c
  obtain ⟨_, hfetches, hchanges, ⟨hyes, _⟩ | ⟨_, hkeep⟩⟩ := hcons.setMember_cases hp h
  · exact absurd (hyes.mono hchanges) hother
  · refine ⟨kept?_of_keep (hruns.knows hp) hkeep, fun t => ?_⟩
    obtain ⟨ps, hreleases, hsent⟩ := keep_drops (hruns.sound hc) (hruns.knows hp) hkeep hheld t
    rw [kept?_eq, hunmoved.sameLocals p.key, ← kept?_eq] at hreleases
    rw [hfetches t] at hsent
    exact ⟨ps, hreleases.earlier (fun q => hunmoved.liveIn) fun _ _ hkept => hunmoved.keptBy hkept.1, hsent⟩

theorem sameLocals_of_failed_set (hc : c.Sound) (hl : c.Listing p.session) {fault : Fault}
    (h : setMember p name v c = .error fault c') : SameLocals c c' := by
  obtain ⟨reason, hrefused⟩ | ⟨_, hset⟩ := setMember_refused_or p name v c
  · rw [hrefused] at h
    cases h
    exact sameLocals_of_cells rfl
  · rw [hset] at h
    have hclass : SameLocals c (after (declaresProperty p name c)) := by
      rw [after_declaresProperty]
      exact (unmoved_classOf p c).sameLocals
    have hruns : Runs (fun _ _ => True) c (after (declaresProperty p name c)) :=
      (leads_declaresProperty hc p name).runs
    obtain hdeclared | ⟨declared, mid, hdeclared, hrest⟩ := bind_error.mp h
    · rwa [hdeclared] at hclass
    · rw [hdeclared] at hclass hruns
      cases declared with
      | false => cases hrest
      | true =>
        obtain hconvert | ⟨m, last, hconvert, hcommand⟩ := bind_error.mp hrest
        · have hsame := after_outcome (fun c => (c.registry p.session).convert c.isReleased v) mid
          rw [← convert, hconvert] at hsame
          exact hclass.trans (sameLocals_of_cells (congrArg Client.cells hsame))
        · obtain ⟨_, rfl⟩ := outcome_ok hconvert
          have hset : SameLocals last (after (command p.session (.setProperty p.id name m) last)) :=
            sameLocals_command (hruns.sound hc) (hruns.listing hc hl) rfl
          rw [hcommand] at hset
          exact hclass.trans hset

/-- To read a name gives a value and leaves all sessions as they are. -/
def Remembers (c : Client) (p : Proxy) (name : String) (v : Value) : Prop :=
  ∃ c', getMember p name c = .ok v c' ∧ c'.sessions = c.sessions

theorem remembers_of_kept (hlive : c.isReleased p = false) (hname : name ∉ reservedNames)
    (h : c.kept? p name = some v) : c.Remembers p name v :=
  ⟨c.hold v, bind_of_ok _ (resolveName_of_kept hlive hname h), sessions_hold v c⟩

end Client

end ObjectBridge
