import ObjectBridge.Proofs.Client.Changes
import ObjectBridge.Proofs.Template.Names

/-!
# Caches in line

A proxy is bound to the template that its session has for its class, the methods found on it are declared in
that template, and nothing is kept on it under a reserved name or a declared property (`Faithful`). Every
change preserves this, and it takes no template, no found method and, from a live proxy, no kept value away
(`Changes.onward`, `Changes.grows`).
-/

namespace ObjectBridge

/-! ### What a cell keeps -/

/-- What becomes of the cell under a key by changes that leave certain marks. -/
structure Cell.Grows (may : Mark → Prop) (key : Nat) (old new : Cell) : Prop where
  proxy : new.proxy = old.proxy
  released : old.released = true → new.released = true
  callables : ∀ name ∈ old.callables, name ∈ new.callables
  looked : ∀ name ∈ new.callables, name ∈ old.callables ∨ may (.callable key name)
  kept : new.released = false → ∀ name, ¬ may (.kept key name) →
    new.locals.lookup name = old.locals.lookup name

namespace Cell

variable {may : Mark → Prop} {key : Nat} {cell cell' cell'' : Cell}

theorem lookup_filter_other {entries : List (String × Value)} {name other : String} (h : other ≠ name) :
    (entries.filter fun entry => entry.1 != name).lookup other = entries.lookup other := by
  induction entries with
  | nil => rfl
  | cons entry entries ih =>
    by_cases hname : entry.1 = name
    · have hother : (other == entry.1) = false := by simpa [hname] using h
      rw [List.filter_cons_of_neg (by simp [hname]), ih, List.lookup_cons, hother]
    · rw [List.filter_cons_of_pos (by simpa using hname), List.lookup_cons, List.lookup_cons, ih]

theorem lookup_filter_self (entries : List (String × Value)) (name : String) :
    (entries.filter fun entry => entry.1 != name).lookup name = none := by
  rw [List.lookup_eq_none_iff]
  intro entry hentry
  have hne := (List.mem_filter.mp hentry).2
  rw [bne_iff_ne] at hne
  simpa using hne.symm

theorem lookup_keep (cell : Cell) (name other : String) (v : Value) :
    (cell.keep name v).locals.lookup other = if other = name then some v else cell.locals.lookup other := by
  rw [keep, List.lookup_append]
  split
  · rename_i heq
    rw [heq, lookup_filter_self]
    simp
  · rename_i hne
    rw [lookup_filter_other hne]
    simp [List.lookup_cons, beq_false_of_ne hne]

theorem Grows.refl (cell : Cell) : cell.Grows may key cell :=
  ⟨rfl, id, fun _ h => h, fun _ h => .inl h, fun _ _ _ => rfl⟩

theorem Grows.trans (h : cell.Grows may key cell') (h' : cell'.Grows may key cell'') :
    cell.Grows may key cell'' := by
  refine ⟨h'.proxy.trans h.proxy, fun hgone => h'.released (h.released hgone),
    fun name hname => h'.callables name (h.callables name hname), fun name hname => ?_,
    fun hlive name hmay => ?_⟩
  · obtain hbefore | hmarked := h'.looked name hname
    · exact h.looked name hbefore
    · exact .inr hmarked
  · have hlive' : cell'.released = false := by
      by_contra hgone
      rw [h'.released (by simpa using hgone)] at hlive
      cases hlive
    exact (h'.kept hlive name hmay).trans (h.kept hlive' name hmay)

end Cell

namespace Client

variable {may : Mark → Prop} {c c' : Client} {s key : Nat} {p : Proxy} {name className : String}
  {cell cell' : Cell}

theorem Edit.grows (h : c.Edit may key cell cell') : cell.Grows may key cell' := by
  cases h with
  | count holders => exact ⟨rfl, id, fun _ h => h, fun _ h => .inl h, fun _ _ _ => rfl⟩
  | bind className template => exact ⟨rfl, id, fun _ h => h, fun _ h => .inl h, fun _ _ _ => rfl⟩
  | release => exact ⟨rfl, fun _ => rfl, fun _ h => h, fun _ h => .inl h, fun _ _ _ => rfl⟩
  | finish =>
    refine ⟨rfl, fun _ => rfl, fun _ h => h, fun _ h => .inl h, fun hlive => ?_⟩
    cases hlive
  | look name template hbound hmethod hmay =>
    refine ⟨rfl, id, fun other hother => mem_insertName.mpr (.inr hother), fun other hother => ?_,
      fun _ _ _ => rfl⟩
    obtain rfl | hother := mem_insertName.mp hother
    · exact .inr hmay
    · exact .inl hother
  | keep name v hname hother hmay =>
    refine ⟨rfl, id, fun _ h => h, fun _ h => .inl h, fun _ other hnot => ?_⟩
    rw [Cell.lookup_keep, if_neg]
    rintro rfl
    exact hnot hmay

theorem Change.grows (h : Change may c c') (hcell : c.cells[key]? = some cell) :
    ∃ cell', c'.cells[key]? = some cell' ∧ cell.Grows may key cell' := by
  cases h with
  | session => exact ⟨cell, hcell, .refl cell⟩
  | make new hbound hcallables hlocals =>
    obtain ⟨hlt, _⟩ := Array.getElem?_eq_some_iff.mp hcell
    refine ⟨cell, ?_, .refl cell⟩
    rw [Array.getElem?_push, if_neg (Nat.ne_of_lt hlt)]
    exact hcell
  | edit other old new hold hedit =>
    dsimp only
    rw [getElem?_replaced hold]
    split
    · rename_i hkey
      subst hkey
      rw [hold, Option.some.injEq] at hcell
      subst hcell
      exact ⟨new, rfl, hedit.grows⟩
    · exact ⟨cell, hcell, .refl cell⟩

theorem Changes.grows (h : Changes may c c') (hcell : c.cells[key]? = some cell) :
    ∃ cell', c'.cells[key]? = some cell' ∧ cell.Grows may key cell' := by
  induction h with
  | refl => exact ⟨cell, hcell, .refl cell⟩
  | tail _ hstep ih =>
    obtain ⟨mid, hmid, hgrows⟩ := ih
    obtain ⟨cell', hcell', hgrows'⟩ := hstep.grows hmid
    exact ⟨cell', hcell', hgrows.trans hgrows'⟩

/-! ### Found methods and kept values -/

theorem mem_callables :
    name ∈ c.callables p ↔ ∃ cell, c.cells[p.key]? = some cell ∧ name ∈ cell.callables := by
  unfold callables
  cases c.cells[p.key]? <;> simp

theorem kept?_of_some (hcell : c.cells[p.key]? = some cell) (name : String) :
    c.kept? p name = cell.locals.lookup name := by
  simp [kept?, hcell]

theorem isReleased_of_some (hcell : c.cells[p.key]? = some cell) : c.isReleased p = cell.released := by
  simp [isReleased, hcell]

theorem Changes.callables_mono (h : Changes may c c') (hname : name ∈ c.callables p) :
    name ∈ c'.callables p := by
  obtain ⟨cell, hcell, hmem⟩ := mem_callables.mp hname
  obtain ⟨cell', hcell', hgrows⟩ := h.grows hcell
  exact mem_callables.mpr ⟨cell', hcell', hgrows.callables name hmem⟩

theorem Change.callables_cases (h : Change may c c') (hname : name ∈ c'.callables p) :
    name ∈ c.callables p ∨ may (.callable p.key name) := by
  obtain ⟨cell', hcell', hmem⟩ := mem_callables.mp hname
  cases hcell : c.cells[p.key]? with
  | some cell =>
    obtain ⟨found, hfound, hgrows⟩ := h.grows hcell
    rw [hcell', Option.some.injEq] at hfound
    subst hfound
    exact (hgrows.looked name hmem).imp_left fun hbefore => mem_callables.mpr ⟨cell, hcell, hbefore⟩
  | none =>
    -- A cell that was not there before is a new one, on which nothing is found yet.
    exfalso
    cases h with
    | session =>
      rw [hcell] at hcell'
      cases hcell'
    | make new hbound hcallables hlocals =>
      rw [Array.getElem?_push] at hcell'
      split at hcell'
      · rw [Option.some.injEq] at hcell'
        rw [← hcell', hcallables] at hmem
        cases hmem
      · rw [hcell] at hcell'
        cases hcell'
    | edit other old new hold hedit =>
      obtain ⟨rfl, _⟩ | hsame := getElem?_replaced_cases hold hcell'
      · rw [hcell] at hold
        cases hold
      · rw [hcell] at hsame
        cases hsame

theorem Changes.callables_cases (h : Changes may c c') (hname : name ∈ c'.callables p) :
    name ∈ c.callables p ∨ may (.callable p.key name) := by
  induction h with
  | refl => exact .inl hname
  | tail _ hstep ih =>
    obtain hbefore | hmarked := hstep.callables_cases hname
    · exact ih hbefore
    · exact .inr hmarked

theorem Changes.kept?_eq (h : Changes may c c') (hp : c.Knows p) (hlive : c'.isReleased p = false)
    (hmay : ¬ may (.kept p.key name)) : c'.kept? p name = c.kept? p name := by
  obtain ⟨cell, hcell, _⟩ := hp
  obtain ⟨cell', hcell', hgrows⟩ := h.grows hcell
  rw [isReleased_of_some hcell'] at hlive
  rw [kept?_of_some hcell', kept?_of_some hcell]
  exact hgrows.kept hlive name hmay

/-! ### Known classes -/

theorem Change.onward (h : Change may c c') {session : Session} (hs : c.sessions[s]? = some session) :
    ∃ session', c'.sessions[s]? = some session' ∧ session.Onward session' := by
  cases h with
  | make | edit => exact ⟨session, hs, .refl session⟩
  | session t old new hold hchange =>
    dsimp only
    rw [getElem?_replaced hold]
    split
    · rename_i hts
      subst hts
      rw [hold, Option.some.injEq] at hs
      subst hs
      exact ⟨new, rfl, hchange.effect.onward⟩
    · exact ⟨session, hs, .refl session⟩

theorem Changes.onward (h : Changes may c c') {session : Session} (hs : c.sessions[s]? = some session) :
    ∃ session', c'.sessions[s]? = some session' ∧ session.Onward session' := by
  induction h with
  | refl => exact ⟨session, hs, .refl session⟩
  | tail _ hstep ih =>
    obtain ⟨mid, hmid, honward⟩ := ih
    obtain ⟨session', hs', honward'⟩ := hstep.onward hmid
    exact ⟨session', hs', honward.trans honward'⟩

theorem cachedTemplate?_eq_some {className : String} {template : Template} :
    c.cachedTemplate? s className = some template ↔
      ∃ session, c.sessions[s]? = some session ∧ session.templates.lookup className = some template := by
  simp [cachedTemplate?, Option.bind_eq_some_iff]

theorem Changes.cachedTemplate? (h : Changes may c c') {className : String} {template : Template}
    (hcached : c.cachedTemplate? s className = some template) :
    c'.cachedTemplate? s className = some template := by
  obtain ⟨session, hs, hlookup⟩ := cachedTemplate?_eq_some.mp hcached
  obtain ⟨session', hs', honward⟩ := h.onward hs
  exact cachedTemplate?_eq_some.mpr ⟨session', hs', Session.lookup_of_front honward.templates hlookup⟩

/-! ### Caches in line -/

/-- A cell whose caches are in line with what the sessions know. -/
structure Faithful (c : Client) (cell : Cell) : Prop where
  bound : ∀ template, cell.bound = some template → ∃ className, cell.proxy.className = some className ∧
    c.cachedTemplate? cell.proxy.session className = some template
  sorted : cell.callables.Pairwise (· < ·)
  callables : ∀ name ∈ cell.callables, ∃ template, cell.bound = some template ∧ template.hasMethod name = true
  locals : ∀ entry ∈ cell.locals, entry.1 ∉ reservedNames ∧ cell.Undeclared entry.1

structure Consistent (c : Client) : Prop where
  informed : ∀ (s : Nat) (session : Session), c.sessions[s]? = some session → session.Informed
  faithful : ∀ (key : Nat) (cell : Cell), c.cells[key]? = some cell → c.Faithful cell

theorem Faithful.mono (h : c.Faithful cell) (hcached : ∀ s className template,
    c.cachedTemplate? s className = some template → c'.cachedTemplate? s className = some template) :
    c'.Faithful cell := by
  refine ⟨fun template hbound => ?_, h.sorted, h.callables, h.locals⟩
  obtain ⟨className, hclass, hknown⟩ := h.bound template hbound
  exact ⟨className, hclass, hcached _ _ _ hknown⟩

theorem Edit.faithful (h : c.Edit may key cell cell') (hcell : c.Faithful cell) : c.Faithful cell' := by
  cases h with
  | count | release => exact ⟨hcell.bound, hcell.sorted, hcell.callables, hcell.locals⟩
  | finish => exact ⟨hcell.bound, hcell.sorted, hcell.callables, fun _ hentry => by cases hentry⟩
  | bind className template hclass hcached =>
    -- A cell that was bound before was bound to the same template.
    have hsame (other : Template) (hbound : cell.bound = some other) : other = template := by
      obtain ⟨name, hname, hknown⟩ := hcell.bound other hbound
      rw [hclass, Option.some.injEq] at hname
      subst hname
      rw [hcached, Option.some.injEq] at hknown
      exact hknown.symm
    refine ⟨fun other hbound => ?_, hcell.sorted, fun name hname => ?_, fun entry hentry => ?_⟩
    · cases hbound
      exact ⟨className, hclass, hcached⟩
    · obtain ⟨other, hbound, hmethod⟩ := hcell.callables name hname
      rw [hsame other hbound] at hmethod
      exact ⟨template, rfl, hmethod⟩
    · obtain ⟨hname, hnone | ⟨other, hbound, hproperty⟩⟩ := hcell.locals entry hentry
      · exact ⟨hname, .inl hnone⟩
      · rw [hsame other hbound] at hproperty
        exact ⟨hname, .inr ⟨template, rfl, hproperty⟩⟩
  | look name template hbound hmethod hmay =>
    refine ⟨hcell.bound, pairwise_insertName hcell.sorted, fun other hother => ?_, hcell.locals⟩
    obtain rfl | hother := mem_insertName.mp hother
    · exact ⟨template, hbound, hmethod⟩
    · exact hcell.callables other hother
  | keep name v hname hother hmay =>
    refine ⟨hcell.bound, hcell.sorted, hcell.callables, fun entry hentry => ?_⟩
    obtain hbefore | hnew := List.mem_append.mp hentry
    · exact hcell.locals entry (List.mem_filter.mp hbefore).1
    · rw [List.mem_singleton.mp hnew]
      exact ⟨hname, hother⟩

theorem Change.consistent (h : Change may c c') (hc : c.Consistent) : c'.Consistent := by
  have hmono (s : Nat) (className : String) (template : Template)
      (hcached : c.cachedTemplate? s className = some template) :
      c'.cachedTemplate? s className = some template :=
    Changes.cachedTemplate? (.single h) hcached
  cases h with
  | session t old new hold hchange =>
    refine ⟨fun s session hs => ?_, fun key cell hcell => (hc.faithful key cell hcell).mono hmono⟩
    obtain ⟨_, rfl⟩ | hsame := getElem?_replaced_cases hold hs
    · exact hchange.effect.informed (hc.informed t old hold)
    · exact hc.informed s session hsame
  | make new hbound hcallables hlocals =>
    refine ⟨hc.informed, fun key cell hcell => Faithful.mono ?_ hmono⟩
    rw [Array.getElem?_push] at hcell
    split at hcell
    · rw [Option.some.injEq] at hcell
      subst hcell
      refine ⟨?_, ?_, ?_, ?_⟩ <;> simp [hbound, hcallables, hlocals]
    · exact hc.faithful key cell hcell
  | edit other old new hold hedit =>
    refine ⟨hc.informed, fun key cell hcell => Faithful.mono ?_ hmono⟩
    obtain ⟨_, rfl⟩ | hsame := getElem?_replaced_cases hold hcell
    · exact hedit.faithful (hc.faithful other old hold)
    · exact hc.faithful key cell hsame

theorem Changes.consistent (h : Changes may c c') (hc : c.Consistent) : c'.Consistent := by
  induction h with
  | refl => exact hc
  | tail _ hstep ih => exact hstep.consistent ih

/-! ### The class of a proxy -/

theorem modifyCell_of_same {f : Cell → Cell} (hcell : c.cells[p.key]? = some cell) (hf : f cell = cell) :
    c.modifyCell p f = c := by
  rw [modifyCell, modify_of_some hcell, hf, replaced_same hcell]

/-- The class of a proxy is that of its session, whether the proxy is bound to it or not. -/
theorem Consistent.classOf_eq (hc : c.Consistent) (hp : c.Knows p) {className : String}
    (hclass : p.className = some className) :
    classOf p c = (do
      let h ← classFor p.session className
      modify (·.bindTo p h.template)
      return h : Action ClassHandle) c := by
  obtain ⟨cell, hcell, hproxy⟩ := hp
  cases hbound : c.cells[p.key]?.bind (·.bound) with
  | none => exact classOf_of_unbound hbound hclass
  | some template =>
    rw [hcell, Option.bind_some] at hbound
    obtain ⟨name, hname, hcached⟩ := (hc.faithful p.key cell hcell).bound template hbound
    rw [hproxy, hclass, Option.some.injEq] at hname
    subst hname
    rw [hproxy] at hcached
    have hsame : c.bindTo p template = c := modifyCell_of_same hcell (by rw [← hbound])
    rw [bind_of_ok _ (classFor_of_cached hcached), classOf_of_bound (by rw [hcell, Option.bind_some, hbound])]
    exact congrArg (EStateM.Result.ok _) hsame.symm

theorem Consistent.classOf_of_cached (hc : c.Consistent) (hp : c.Knows p) {className : String}
    {template : Template} (hclass : p.className = some className)
    (hcached : c.cachedTemplate? p.session className = some template) :
    classOf p c = .ok ⟨p.session, template⟩ (c.bindTo p template) := by
  rw [hc.classOf_eq hp hclass, bind_of_ok _ (classFor_of_cached hcached)]
  rfl

theorem Consistent.className_of_cached (hc : c.Consistent) {template : Template}
    (h : c.cachedTemplate? s className = some template) : template.className = className := by
  obtain ⟨session, hs, hlookup⟩ := cachedTemplate?_eq_some.mp h
  obtain ⟨members, _, rfl⟩ := ((hc.informed s session hs).known className template).mp hlookup
  rfl

/-- A method that was found on a proxy is declared in the template that the session has for its class. -/
theorem Consistent.template_of_callable (hc : c.Consistent) (hp : c.Knows p) (h : name ∈ c.callables p) :
    ∃ className template, p.className = some className ∧
      c.cachedTemplate? p.session className = some template ∧ template.hasMethod name = true := by
  obtain ⟨cell, hcell, rfl⟩ := hp
  obtain ⟨found, hfound, hname⟩ := mem_callables.mp h
  rw [hcell, Option.some.injEq] at hfound
  subst hfound
  have hfaithful := hc.faithful _ cell hcell
  obtain ⟨template, hbound, hmethod⟩ := hfaithful.callables name hname
  obtain ⟨className, hclass, hcached⟩ := hfaithful.bound template hbound
  exact ⟨className, template, hclass, hcached, hmethod⟩

theorem Consistent.classOf_nameless (hc : c.Consistent) (hp : c.Knows p) (hclass : p.className = none) :
    classOf p c = .error (.missingClassName p.id) c := by
  refine classOf_of_nameless (Option.eq_none_iff_forall_ne_some.mpr fun template hbound => ?_) hclass
  obtain ⟨cell, hcell, rfl⟩ := hp
  rw [hcell, Option.bind_some] at hbound
  obtain ⟨className, hname, _⟩ := (hc.faithful _ cell hcell).bound template hbound
  rw [hclass] at hname
  cases hname

theorem mem_callables_of_resolveName (hp : c.Knows p) {m : BoundMethod}
    (h : resolveName p name c = .ok (.method m) c') : name ∈ c'.callables p := by
  have hcases := resolveName_cases p name c
  rw [h] at hcases
  cases hcases with
  | reserved _ _ hreserved => exact absurd rfl ((value?_of_reserved hreserved).2 m)
  | callable _ _ _ hcallable => exact hcallable
  | member _ _ _ _ _ hmember =>
    obtain ⟨found, mid, hclass, hrest⟩ := bind_ok.mp hmember
    obtain ⟨_, cell, hcell, _⟩ := classOf_ok hp hclass
    split at hrest
    · cases hrest
      refine mem_callables.mpr ⟨{ cell with callables := insertName name cell.callables }, ?_,
        mem_insertName.mpr (.inl rfl)⟩
      change (mid.cells.modify p.key _)[p.key]? = _
      rw [modify_of_some hcell, getElem?_replaced hcell, if_pos rfl]
    split at hrest
    · obtain ⟨_, _, _, hpure⟩ := bind_ok.mp hrest
      cases hpure
    · cases hrest

/-! ### Known proxies -/

theorem Knows.unique {q : Proxy} (hp : c.Knows p) (hq : c.Knows q) (h : q.key = p.key) : q = p := by
  obtain ⟨cell, hcell, rfl⟩ := hp
  obtain ⟨found, hfound, rfl⟩ := hq
  rw [h, hcell, Option.some.injEq] at hfound
  rw [hfound]

theorem Changes.knows (h : Changes may c c') (hp : c.Knows p) : c'.Knows p := by
  obtain ⟨cell, hcell, rfl⟩ := hp
  obtain ⟨cell', hcell', hgrows⟩ := h.grows hcell
  exact ⟨cell', hcell', hgrows.proxy⟩

end Client

end ObjectBridge
