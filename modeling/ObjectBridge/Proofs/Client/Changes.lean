import ObjectBridge.Proofs.Client.Lookup

/-!
# What is remembered on proxies

`Client.Change` is all that ever happens to a client, with all that it leaves: what a session learns, and on
a proxy the class that is bound, the methods that are found and the values that are kept. The latter two
leave a mark (`Mark`), and a series of changes (`Changes`) tells which marks it may leave. Every operation is
such a series.
-/

namespace ObjectBridge

/-- What is noted on a proxy under a name: a method that was found, or a value that is kept. -/
inductive Mark where
  | callable (key : Nat) (name : String)
  | kept (key : Nat) (name : String)

/-- A name that is no declared property of a proxy, as far as the proxy has got its class. -/
def Cell.Undeclared (cell : Cell) (name : String) : Prop :=
  cell.proxy.className = none ∨ ∃ template, cell.bound = some template ∧ template.hasProperty name = false

/-- A cell with one value more kept on it, in place of the one that was kept under this name. -/
def Cell.keep (cell : Cell) (name : String) (v : Value) : Cell :=
  { cell with locals := (cell.locals.filter fun entry => entry.1 != name) ++ [(name, v)] }

namespace Client

variable {α β : Type} {may may' : Mark → Prop} {c c' : Client} {s key : Nat} {p : Proxy} {name : String}

/-- How the cell under a key changes. -/
inductive Edit (may : Mark → Prop) (c : Client) (key : Nat) (cell : Cell) : Cell → Prop where
  | count (holders : Nat) : Edit may c key cell { cell with holders }
  | release : Edit may c key cell { cell with released := true }
  | finish : Edit may c key cell cell.finished
  | bind (className : String) (template : Template) (hclass : cell.proxy.className = some className)
      (hcached : c.cachedTemplate? cell.proxy.session className = some template) :
      Edit may c key cell { cell with bound := some template }
  | look (name : String) (template : Template) (hbound : cell.bound = some template)
      (hmethod : template.hasMethod name = true) (hmay : may (.callable key name)) :
      Edit may c key cell { cell with callables := insertName name cell.callables }
  | keep (name : String) (v : Value) (hname : name ∉ reservedNames) (hother : cell.Undeclared name)
      (hmay : may (.kept key name)) : Edit may c key cell (cell.keep name v)

inductive Change (may : Mark → Prop) (c : Client) : Client → Prop where
  | session (s : Nat) (old new : Session) (hs : c.sessions[s]? = some old) (hchange : old.Change new) :
      Change may c { c with sessions := c.sessions.setIfInBounds s new }
  | make (cell : Cell) (hbound : cell.bound = none) (hcallables : cell.callables = [])
      (hlocals : cell.locals = []) : Change may c { c with cells := c.cells.push cell }
  | edit (key : Nat) (old new : Cell) (hcell : c.cells[key]? = some old) (hedit : c.Edit may key old new) :
      Change may c { c with cells := c.cells.setIfInBounds key new }

/-- Series of changes that leave certain marks only. -/
abbrev Changes (may : Mark → Prop) : Client → Client → Prop := Relation.ReflTransGen (Change may)

theorem Change.mono (h : Change may c c') (hmay : ∀ mark, may mark → may' mark) : Change may' c c' := by
  cases h with
  | session s old new hs hchange => exact .session s old new hs hchange
  | make cell hbound hcallables hlocals => exact .make cell hbound hcallables hlocals
  | edit key old new hcell hedit =>
    refine .edit key old new hcell ?_
    cases hedit with
    | count holders => exact .count holders
    | release => exact .release
    | finish => exact .finish
    | bind className template hclass hcached => exact .bind className template hclass hcached
    | look name template hbound hmethod h => exact .look name template hbound hmethod (hmay _ h)
    | keep name v hname hother h => exact .keep name v hname hother (hmay _ h)

theorem Changes.mono (h : Changes may c c') (hmay : ∀ mark, may mark → may' mark) : Changes may' c c' := by
  induction h with
  | refl => exact .refl
  | tail _ hstep ih => exact ih.tail (hstep.mono hmay)

/-! ### Single changes -/

theorem changes_bind {a : Action α} {f : α → Action β} (ha : Changes may c (after (a c)))
    (hf : ∀ x mid, a c = .ok x mid → Changes may mid (after (f x mid))) :
    Changes may c (after ((a >>= f) c)) := by
  cases h : a c with
  | ok x mid =>
    rw [h] at ha
    rw [bind_of_ok f h]
    exact ha.trans (hf x mid h)
  | error fault mid =>
    rw [h] at ha
    rw [bind_of_error f h]
    exact ha

theorem changes_outcome (result : Client → Except Fault α) : Changes may c (after (outcome result c)) := by
  rw [after_outcome]

theorem changes_modifySession {f : Session → Session}
    (h : ∀ session, c.sessions[s]? = some session → session.Change (f session)) :
    Changes may c (c.modifySession s f) := by
  cases hs : c.sessions[s]? with
  | none =>
    rw [modifySession, modify_of_none hs]
  | some session =>
    rw [modifySession, modify_of_some hs]
    exact .single (.session s session _ hs (h session hs))

theorem changes_modifyCell {f : Cell → Cell}
    (h : ∀ cell, c.cells[p.key]? = some cell → c.Edit may p.key cell (f cell)) :
    Changes may c (c.modifyCell p f) := by
  cases hcell : c.cells[p.key]? with
  | none =>
    rw [modifyCell, modify_of_none hcell]
  | some cell =>
    rw [modifyCell, modify_of_some hcell]
    exact .single (.edit p.key cell _ hcell (h cell hcell))

theorem changes_onSession {step : Session.Action α}
    (h : ∀ session, c.sessions[s]? = some session → session.Change (after (step session))) :
    Changes may c (after (onSession s step c)) := by
  rw [after_onSession]
  exact changes_modifySession h

theorem changes_exchange {m : Message} (hm : m.awaitsReply = true)
    (hother : ∀ className, m ≠ .templateReq className) : Changes may c (after (exchange s m c)) :=
  changes_onSession fun _ _ => .ask (.exchange m) hm fun className hd =>
    hother className (Session.Deed.exchange.inj hd)

theorem changes_post {m : Message} (hm : m.awaitsReply = false) : Changes may c (after (post s m c)) :=
  changes_onSession fun _ _ => .ask (.post m) hm fun _ hd => by cases hd

/-! ### Holding and giving up -/

theorem changes_holdProxy (p : Proxy) : Changes may c (c.holdProxy p) :=
  changes_modifyCell fun _ _ => .count _

theorem changes_hold (v : Value) : Changes may c (c.hold v) := by
  rw [hold]
  induction v.proxies generalizing c with
  | nil => exact .refl
  | cons p ps ih => exact (changes_holdProxy p).trans ih

theorem changes_told (sessions : Array Session) (cells : Array Cell) (p : Proxy) :
    Changes may ⟨sessions, cells⟩ ⟨told sessions p, cells⟩ := by
  have htold : told sessions p = (sessions.modify p.session (·.forget p)).modify p.session fun session =>
      after (Session.post (.release p.id) session) := by
    rw [modify_modify, told]
  have hforget : Changes may ⟨sessions, cells⟩ ⟨sessions.modify p.session (·.forget p), cells⟩ :=
    changes_modifySession (c := ⟨sessions, cells⟩) fun _ _ => .tend _ rfl rfl rfl rfl
  rw [htold]
  refine hforget.trans (changes_modifySession (c := ⟨sessions.modify p.session (·.forget p), cells⟩)
    fun session _ => .ask (.post (.release p.id)) rfl fun _ hd => ?_)
  cases hd

theorem changes_discardAll (vs : List Value) : Changes may c (c.discardAll vs) := by
  have hcells (sessions : Array Session) (pending : List Value) (cells : Array Cell) (gone : List Proxy) :
      Changes may ⟨sessions, cells⟩ ⟨sessions, (reclaim pending cells gone).1⟩ := by
    fun_induction reclaim pending cells gone with
    | case1 => exact .refl
    | case2 | case3 | case4 | case7 => assumption
    | case5 cells gone p rest cell hcell hzero hone ih =>
      exact .trans (.single (.edit p.key cell _ hcell .finish)) ih
    | case6 cells gone p rest cell hcell hzero hone ih =>
      exact .trans (.single (.edit p.key cell _ hcell (.count _))) ih
  have htold (gone : List Proxy) (sessions : Array Session) (cells : Array Cell) :
      Changes may ⟨sessions, cells⟩ ⟨gone.foldl told sessions, cells⟩ := by
    induction gone generalizing sessions with
    | nil => exact .refl
    | cons p gone ih => exact (changes_told sessions cells p).trans (ih (told sessions p))
  rw [discardAll_eq]
  exact (hcells c.sessions vs c.cells []).trans (htold _ _ _)

theorem changes_discard (v : Value) : Changes may c (c.discard v) := changes_discardAll [v]

theorem changes_objectFor (s : Nat) (id : Int32) (className : Option String) :
    Changes may c (c.objectFor s id className).2 := by
  cases h : c.standing? s id with
  | some p =>
    rw [objectFor_of_some className h]
    exact changes_holdProxy p
  | none =>
    rw [objectFor_of_none className h]
    have henter : Changes may c (c.modifySession s (·.enter id c.cells.size)) :=
      changes_modifySession fun _ _ => .tend _ rfl rfl rfl rfl
    refine henter.tail ?_
    exact .make { proxy := ⟨c.cells.size, s, id, className⟩, since := c.sentBy s } rfl rfl rfl

/-! ### Requests -/

mutual

theorem changes_resolve (s : Nat) (t : Tag) (m : Message) {c : Client} :
    Changes may c (after (resolve s t m c)) := by
  cases m with
  | object ref => exact changes_objectFor s ref.id ref.className
  | objectArray items =>
    unfold resolve
    exact changes_bind (changes_resolveAll s t items []) fun _ _ _ => .refl
  | _ =>
    unfold resolve
    exact .refl

theorem changes_resolveAll (s : Nat) (t : Tag) (ms : List Message) (done : List Value) {c : Client} :
    Changes may c (after (resolveAll s t ms done c)) := by
  cases ms with
  | nil =>
    unfold resolveAll
    exact .refl
  | cons m ms =>
    have hfirst : Changes may c (after (resolve s t m c)) := changes_resolve s t m
    unfold resolveAll
    cases h : resolve s t m c with
    | ok v mid =>
      rw [h] at hfirst
      exact hfirst.trans (changes_resolveAll s t ms (v :: done))
    | error fault mid =>
      rw [h] at hfirst
      exact hfirst.trans (changes_discardAll _)

end

theorem changes_request {m : Message} (hm : m.awaitsReply = true)
    (hother : ∀ className, m ≠ .templateReq className) : Changes may c (after (request s m c)) :=
  changes_bind (changes_exchange hm hother) fun reply _ _ => changes_resolve s m.tag reply

theorem changes_command {m : Message} (hm : m.awaitsReply = true)
    (hother : ∀ className, m ≠ .templateReq className) : Changes may c (after (command s m c)) :=
  changes_bind (changes_request hm hother) fun v _ _ => changes_discard v

theorem changes_converted (args : List Value) {make : List Message → Message}
    (hm : ∀ ms, (make ms).awaitsReply = true) (hother : ∀ ms className, make ms ≠ .templateReq className) :
    Changes may c (after ((do request s (make (← convertAll s args)) : Action Value) c)) :=
  changes_bind (changes_outcome _) fun ms _ _ => changes_request (hm ms) (hother ms)

theorem changes_assign (v : Value) {make : Message → Message} (hm : ∀ m, (make m).awaitsReply = true)
    (hother : ∀ m className, make m ≠ .templateReq className) :
    Changes may c (after ((do command s (make (← convert s v)) : Action Unit) c)) :=
  changes_bind (changes_outcome _) fun m _ _ => changes_command (hm m) (hother m)

theorem changes_callStatic (className method : String) (args : List Value) :
    Changes may c (after (callStatic s className method args c)) :=
  changes_converted args (fun _ => rfl) fun _ _ heq => by cases heq

theorem changes_call (id : Int32) (method : String) (args : List Value) :
    Changes may c (after (call s id method args c)) :=
  changes_converted args (fun _ => rfl) fun _ _ heq => by cases heq

theorem changes_invokeStatic (m : StaticMethod) (args : List Value) :
    Changes may c (after (invokeStatic m args c)) := by
  unfold invokeStatic
  rw [get_bind]
  split
  · exact changes_callStatic _ _ _
  · exact .refl

/-! ### Classes -/

theorem changes_classFor (s : Nat) (className : String) : Changes may c (after (classFor s className c)) := by
  cases h : c.cachedTemplate? s className with
  | some template =>
    rw [classFor_of_cached h]
    exact .refl
  | none =>
    rw [classFor_of_missing h]
    refine changes_bind (changes_onSession fun session hs => .fetch className ?_) fun _ _ _ => .refl
    rwa [cachedTemplate?_of_some hs] at h

theorem changes_classOf (hp : c.Knows p) : Changes may c (after (classOf p c)) := by
  have hcases := classOf_cases p c
  generalize classOf p c = result at hcases ⊢
  cases hcases with
  | bound | nameless => exact .refl
  | had className h mid hclass hfor =>
    have hfetched : Changes may c mid := by
      have hafter : Changes may c (after (classFor p.session className c)) := changes_classFor _ _
      rwa [hfor] at hafter
    obtain ⟨_, hcached, hcells⟩ := classFor_ok hfor
    obtain ⟨cell, hcell, rfl⟩ := hp
    refine hfetched.trans (changes_modifyCell fun found hfound => ?_)
    rw [hcells, hcell, Option.some.injEq] at hfound
    subst hfound
    exact .bind className h.template hclass hcached
  | failed className fault mid hclass hfor =>
    have hfetched : Changes may c (after (classFor p.session className c)) := changes_classFor _ _
    rwa [hfor] at hfetched

/-! ### Names -/

theorem changes_live {next : Unit → Action α} (h : c.isReleased p = false → Changes may c (after (next () c))) :
    Changes may c (after ((requireLive p >>= next) c)) := by
  cases hreleased : c.isReleased p with
  | true =>
    rw [bind_of_error _ (requireLive_of_released hreleased)]
    exact .refl
  | false =>
    rw [bind_of_ok _ (requireLive_of_live hreleased)]
    exact h hreleased

theorem changes_getProperty (id : Int32) (property : String) :
    Changes may c (after (getProperty s id property c)) :=
  changes_request rfl fun _ heq => by cases heq

theorem changes_member (hp : c.Knows p)
    (hmay : (∃ c', member p name c = .ok (.method ⟨name, p⟩) c') → may (.callable p.key name)) :
    Changes may c (after (member p name c)) := by
  unfold member at hmay ⊢
  refine changes_bind (changes_classOf hp) fun h mid hh => ?_
  obtain ⟨_, cell, hcell, _, hbound⟩ := classOf_ok hp hh
  rw [bind_of_ok _ hh] at hmay
  split
  · rename_i hmethod
    rw [if_pos hmethod] at hmay
    refine changes_bind (changes_modifyCell fun found hfound => ?_) fun _ _ _ => .refl
    rw [hcell, Option.some.injEq] at hfound
    subst hfound
    exact .look name h.template hbound hmethod (hmay ⟨_, rfl⟩)
  · split
    · exact changes_bind (changes_getProperty _ _) fun _ _ _ => .refl
    · exact .refl

theorem changes_resolveName (hp : c.Knows p)
    (hmay : (∃ c', resolveName p name c = .ok (.method ⟨name, p⟩) c') → may (.callable p.key name)) :
    Changes may c (after (resolveName p name c)) := by
  have hcases := resolveName_cases p name c
  generalize resolveName p name c = result at hcases hmay ⊢
  cases hcases with
  | released | reserved | callable => exact .refl
  | kept v => exact changes_hold v
  | member result _ _ _ _ hmember =>
    subst hmember
    exact changes_member hp hmay

theorem changes_method (hp : c.Knows p)
    (hmay : (∃ c', resolveName p name c = .ok (.method ⟨name, p⟩) c') → may (.callable p.key name)) :
    Changes may c (after (method p name c)) := by
  refine changes_bind (changes_resolveName hp hmay) fun a mid _ => ?_
  cases a with
  | method m => exact .refl
  | _ => exact changes_bind (changes_discardAll _) fun _ _ _ => .refl

theorem changes_getMember (hp : c.Knows p)
    (hmay : (∃ c', resolveName p name c = .ok (.method ⟨name, p⟩) c') → may (.callable p.key name)) :
    Changes may c (after (getMember p name c)) := by
  refine changes_bind (changes_resolveName hp hmay) fun a mid _ => ?_
  cases a with
  | className name => cases name <;> exact .refl
  | _ => exact .refl

/-! ### Requests to the object of a proxy -/

theorem changes_invoke (m : BoundMethod) (args : List Value) : Changes may c (after (invoke m args c)) :=
  changes_live fun _ => changes_call _ _ args

theorem changes_callMember (hp : c.Knows p) (args : List Value)
    (hmay : (∃ c', resolveName p name c = .ok (.method ⟨name, p⟩) c') → may (.callable p.key name)) :
    Changes may c (after (callMember p name args c)) :=
  changes_bind (changes_method hp hmay) fun m _ _ => changes_invoke m args

theorem changes_elementOf (index : Int32) : Changes may c (after (elementOf p index c)) :=
  changes_live fun _ => changes_request rfl fun _ heq => by cases heq

theorem changes_elementOfProperty (index : Int32) :
    Changes may c (after (elementOfProperty p name index c)) :=
  changes_live fun _ => changes_request rfl fun _ heq => by cases heq

theorem changes_protectObject : Changes may c (after (protectObject p c)) :=
  changes_live fun _ => changes_post rfl

theorem changes_releaseObject : Changes may c (after (releaseObject p c)) := by
  refine changes_live fun _ => ?_
  have hrelease : Changes may c (c.modifyCell p fun cell => { cell with released := true }) :=
    changes_modifyCell fun _ _ => .release
  have hforget : Changes may (c.modifyCell p fun cell => { cell with released := true })
      ((c.modifyCell p fun cell => { cell with released := true }).modifySession p.session (·.forget p)) :=
    changes_modifySession fun _ _ => .tend _ rfl rfl rfl rfl
  exact (hrelease.trans hforget).trans (changes_post rfl)

/-! ### Keeping values -/

theorem changes_keep {v : Value} {cell : Cell} (hcell : c.cells[p.key]? = some cell) (hname : name ∉ reservedNames)
    (hother : cell.Undeclared name) (hmay : may (.kept p.key name)) :
    Changes may c (after (keep p name v c)) := by
  have hkeep : Changes may (c.hold v) ((c.hold v).modifyCell p fun cell => cell.keep name v) := by
    refine changes_modifyCell fun found hfound => ?_
    obtain ⟨holders, hheld⟩ := cell_hold v hcell
    rw [hheld, Option.some.injEq] at hfound
    subst hfound
    exact .keep name v hname hother hmay
  exact ((changes_hold v).trans hkeep).trans (changes_discardAll _)

/-- A name that is no declared property is none as far as the proxy has got its class. -/
theorem undeclared_of_declaresProperty (hp : c.Knows p) (h : declaresProperty p name c = .ok false c') :
    ∃ cell, c'.cells[p.key]? = some cell ∧ cell.Undeclared name := by
  obtain ⟨found, hclass, hdeclared⟩ | ⟨hname, _, rfl⟩ := declaresProperty_ok h
  · obtain ⟨_, cell, hcell, _, hbound⟩ := classOf_ok hp hclass
    exact ⟨cell, hcell, .inr ⟨found.template, hbound, hdeclared⟩⟩
  · obtain ⟨cell, hcell, rfl⟩ := hp
    exact ⟨cell, hcell, .inl hname⟩

theorem changes_setMember (hp : c.Knows p) {v : Value}
    (hmay : (∃ c', setMember p name v c = .ok () c') → may (.kept p.key name)) :
    Changes may c (after (setMember p name v c)) := by
  obtain ⟨fault, hrefused⟩ | ⟨hname, hset⟩ := setMember_refused_or p name v c
  · rw [hrefused]
    exact .refl
  · rw [hset] at hmay ⊢
    have hdeclares : Changes may c (after (declaresProperty p name c)) := by
      rw [after_declaresProperty]
      exact changes_classOf hp
    refine changes_bind hdeclares fun declared mid hdeclared => ?_
    cases declared with
    | true => exact changes_assign v (fun _ => rfl) fun _ _ heq => by cases heq
    | false =>
      obtain ⟨cell, hcell, hother⟩ := undeclared_of_declaresProperty hp hdeclared
      refine changes_keep hcell hname hother (hmay ⟨after (keep p name v mid), ?_⟩)
      exact bind_of_ok _ hdeclared

end Client

end ObjectBridge
