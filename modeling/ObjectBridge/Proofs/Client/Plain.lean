import ObjectBridge.Proofs.Client.Caches

/-!
# Names without caches

A name on a proxy can be resolved with neither the methods noted on the proxy nor the class bound to it: from
the values kept on it and the template that the session has, or fetches, for its class (`plainName`). In a
client whose caches are in line this comes to the same (`Consistent.resolveName_plain`): the same outcome, the
same sessions, and so the same requests, and the same proxies but for what is noted on them.
-/

namespace ObjectBridge

/-- A cell without what is remembered of the class of its proxy. -/
def Cell.plain (cell : Cell) : Cell := { cell with bound := none, callables := [] }

namespace Client

variable {α β : Type} {c c' : Client} {s : Nat} {p : Proxy} {name className : String}

def plain (c : Client) : Client := { c with cells := c.cells.map Cell.plain }

/-- An outcome without what is remembered of classes. -/
def erased : EStateM.Result Fault Client α → EStateM.Result Fault Client α
  | .ok x c => .ok x c.plain
  | .error fault c => .error fault c.plain

/-- An operation that neither looks at what is remembered of classes nor adds to it. -/
def Blind (a : Action α) : Prop := ∀ c : Client, a c.plain = erased (a c)

/-! ### Plain resolution -/

/-- A declared member of the class of a proxy, by the template that the session has for the class. -/
def plainMember (p : Proxy) (name : String) : Action Attribute :=
  match p.className with
  | none => throw (.missingClassName p.id)
  | some className => do
    let h ← classFor p.session className
    if h.template.hasMethod name then return .method ⟨name, p⟩
    else if h.template.hasProperty name then return .property (← getProperty p.session p.id name)
    else throw (.unknownMember className name)

/-- What a name on a proxy stands for, but for the name of the list of methods found on it. -/
def plainName (p : Proxy) (name : String) : Action Attribute := do
  requireLive p
  match (← get).reserved? p name with
  | some a => pure a
  | none =>
    match (← get).kept? p name with
    | some v =>
      modify (·.hold v)
      return .kept v
    | none => plainMember p name

/-! ### Blind operations -/

theorem blind_pure (x : α) : Blind (pure x) := fun _ => rfl

theorem blind_throw (fault : Fault) : Blind (throw fault : Action α) := fun _ => rfl

theorem blind_bind {a : Action α} {f : α → Action β} (ha : Blind a) (hf : ∀ x, Blind (f x)) :
    Blind (a >>= f) := by
  intro c
  have hplain := ha c
  cases h : a c with
  | ok x mid =>
    rw [h] at hplain
    rw [bind_of_ok f h, bind_of_ok f hplain]
    exact hf x mid
  | error fault mid =>
    rw [h] at hplain
    rw [bind_of_error f h, bind_of_error f hplain]
    rfl

theorem blind_modify {f : Client → Client} (h : ∀ c, f c.plain = (f c).plain) :
    Blind (modify f : Action PUnit) := fun c => congrArg (EStateM.Result.ok PUnit.unit) (h c)

theorem blind_onSession (step : Session.Action α) : Blind (onSession s step) := by
  intro c
  cases hs : c.sessions[s]? with
  | none =>
    rw [onSession_of_none hs, onSession_of_none (c := c.plain) hs]
    rfl
  | some session =>
    rw [onSession_of_some hs, onSession_of_some (c := c.plain) hs]
    cases step session <;> rfl

theorem cells_plain (c : Client) (key : Nat) : c.plain.cells[key]? = c.cells[key]?.map Cell.plain :=
  Array.getElem?_map ..

theorem plain_modifyCell {f g : Cell → Cell} (h : ∀ cell : Cell, (f cell).plain = g cell.plain) :
    (c.modifyCell p f).plain = c.plain.modifyCell p g := by
  simp only [modifyCell, plain, Client.mk.injEq, true_and]
  apply Array.ext_getElem?
  intro key
  simp only [Array.getElem?_map, Array.getElem?_modify]
  split
  · cases c.cells[key]? with
    | none => rfl
    | some cell => exact congrArg some (h cell)
  · rfl

theorem plain_holdProxy (p : Proxy) (c : Client) : c.plain.holdProxy p = (c.holdProxy p).plain := by
  rw [holdProxy, holdProxy, plain_modifyCell]
  exact fun _ => rfl

theorem plain_hold (v : Value) (c : Client) : c.plain.hold v = (c.hold v).plain := by
  rw [hold, hold]
  induction v.proxies generalizing c with
  | nil => rfl
  | cons p ps ih =>
    rw [List.foldl_cons, List.foldl_cons, plain_holdProxy]
    exact ih (c.holdProxy p)

theorem plain_isReleased (c : Client) (p : Proxy) : c.plain.isReleased p = c.isReleased p := by
  simp only [isReleased, cells_plain]
  cases c.cells[p.key]? <;> rfl

theorem plain_kept? (c : Client) (p : Proxy) (name : String) : c.plain.kept? p name = c.kept? p name := by
  simp only [kept?, cells_plain]
  cases c.cells[p.key]? <;> rfl

theorem plain_standing? (c : Client) (s : Nat) (id : Int32) : c.plain.standing? s id = c.standing? s id := by
  unfold standing?
  congr 1
  funext session
  congr 1
  funext key
  rw [cells_plain]
  cases c.cells[key]? <;> rfl

theorem plain_objectFor (c : Client) (s : Nat) (id : Int32) (className : Option String) :
    c.plain.objectFor s id className =
      ((c.objectFor s id className).1, (c.objectFor s id className).2.plain) := by
  have hstanding := plain_standing? c s id
  cases h : c.standing? s id with
  | some p =>
    rw [h] at hstanding
    rw [objectFor_of_some className h, objectFor_of_some className hstanding]
    exact congrArg (Prod.mk p) (plain_holdProxy p c)
  | none =>
    rw [h] at hstanding
    rw [objectFor_of_none className h, objectFor_of_none className hstanding]
    simp [plain, modifySession, sentBy, Cell.plain]

theorem reclaim_object (p : Proxy) (rest : List Value) (cells : Array Cell) (gone : List Proxy) :
    reclaim (.object p :: rest) cells gone =
      match cells[p.key]? with
      | none => reclaim rest cells gone
      | some cell =>
        if cell.holders = 0 then reclaim rest cells gone
        else if cell.holders = 1 then
          reclaim (cell.kept ++ rest) (cells.setIfInBounds p.key cell.finished)
            (if cell.released then gone else cell.proxy :: gone)
        else
          reclaim rest (cells.setIfInBounds p.key { cell with holders := cell.holders - 1 }) gone := by
  rw [reclaim]
  split <;> rename_i hcell <;> rw [hcell]

theorem plain_reclaim (pending : List Value) (cells : Array Cell) (gone : List Proxy) :
    reclaim pending (cells.map Cell.plain) gone =
      ((reclaim pending cells gone).1.map Cell.plain, (reclaim pending cells gone).2) := by
  have hset (cells : Array Cell) (key : Nat) (cell : Cell) :
      (cells.map Cell.plain).setIfInBounds key cell.plain = (cells.setIfInBounds key cell).map Cell.plain :=
    Array.map_setIfInBounds.symm
  fun_induction reclaim pending cells gone with
  | case1 => rw [reclaim]
  | case2 cells gone items rest ih => rw [reclaim, ih]
  | case3 cells gone p rest hcell ih =>
    rw [reclaim_object, Array.getElem?_map, hcell, Option.map_none]
    exact ih
  | case4 cells gone p rest cell hcell hzero ih =>
    rw [reclaim_object, Array.getElem?_map, hcell, Option.map_some]
    exact (if_pos hzero).trans ih
  | case5 cells gone p rest cell hcell hzero hone ih =>
    rw [← hset] at ih
    rw [reclaim_object, Array.getElem?_map, hcell, Option.map_some]
    exact (if_neg hzero).trans ((if_pos hone).trans ih)
  | case6 cells gone p rest cell hcell hzero hone ih =>
    rw [← hset] at ih
    rw [reclaim_object, Array.getElem?_map, hcell, Option.map_some]
    exact (if_neg hzero).trans ((if_neg hone).trans ih)
  | case7 cells gone v rest hlist hobject ih =>
    rw [reclaim.eq_4 _ _ _ _ hlist hobject, ih]

theorem plain_discardAll (vs : List Value) (c : Client) :
    c.plain.discardAll vs = (c.discardAll vs).plain := by
  rw [discardAll_eq, discardAll_eq]
  simp only [plain, plain_reclaim]

mutual

theorem blind_resolve (s : Nat) (t : Tag) (m : Message) : Blind (resolve s t m) := by
  cases m with
  | object ref =>
    intro c
    unfold resolve
    exact congrArg (fun found : Proxy × Client => EStateM.Result.ok (Value.object found.1) found.2)
      (plain_objectFor c s ref.id ref.className)
  | objectArray items =>
    unfold resolve
    exact blind_bind (blind_resolveAll s t items []) fun _ => blind_pure _
  | _ =>
    unfold resolve
    exact fun _ => rfl

theorem blind_resolveAll (s : Nat) (t : Tag) (ms : List Message) (done : List Value) :
    Blind (resolveAll s t ms done) := by
  cases ms with
  | nil =>
    unfold resolveAll
    exact blind_pure _
  | cons m ms =>
    intro c
    have hfirst := blind_resolve s t m c
    unfold resolveAll
    cases h : resolve s t m c with
    | ok v mid =>
      rw [h] at hfirst
      simp only [hfirst, erased]
      exact blind_resolveAll s t ms (v :: done) mid
    | error fault mid =>
      rw [h] at hfirst
      simp only [hfirst, erased, plain_discardAll]

end

theorem blind_request (m : Message) : Blind (request s m) :=
  blind_bind (blind_onSession _) fun reply => blind_resolve s m.tag reply

theorem blind_classFor (s : Nat) (className : String) : Blind (classFor s className) := by
  intro c
  have hsame : c.plain.cachedTemplate? s className = c.cachedTemplate? s className := rfl
  cases h : c.cachedTemplate? s className with
  | some template =>
    rw [h] at hsame
    rw [classFor_of_cached h, classFor_of_cached hsame]
    rfl
  | none =>
    rw [h] at hsame
    rw [classFor_of_missing h, classFor_of_missing hsame]
    exact blind_bind (blind_onSession _) (fun _ => blind_pure _) c

theorem blind_getProperty (id : Int32) (name : String) : Blind (getProperty s id name) :=
  blind_request (.getProperty id name)

theorem blind_requireLive (p : Proxy) : Blind (requireLive p) := by
  intro c
  have hsame := plain_isReleased c p
  cases h : c.isReleased p with
  | true => rw [requireLive_of_released h, requireLive_of_released (hsame.trans h), erased]
  | false => rw [requireLive_of_live h, requireLive_of_live (hsame.trans h), erased]

theorem blind_plainMember (p : Proxy) (name : String) : Blind (plainMember p name) := by
  unfold plainMember
  cases p.className with
  | none => exact blind_throw _
  | some className =>
    refine blind_bind (blind_classFor _ _) fun h => ?_
    split
    · exact blind_pure _
    split
    · exact blind_bind (blind_getProperty _ _) fun _ => blind_pure _
    · exact blind_throw _

theorem plain_reserved? (h : name ≠ "cache") (c : Client) : c.plain.reserved? p name = c.reserved? p name := by
  simp only [reserved?, if_neg h]

theorem blind_plainName (h : name ≠ "cache") : Blind (plainName p name) := by
  refine blind_bind (blind_requireLive p) fun _ c => ?_
  rw [get_bind, get_bind, plain_reserved? h]
  cases c.reserved? p name with
  | some a => rfl
  | none =>
    dsimp only
    rw [get_bind, get_bind, plain_kept?]
    cases c.kept? p name with
    | some v => exact blind_bind (blind_modify (plain_hold v)) (fun _ => blind_pure _) c
    | none => exact blind_plainMember p name c

/-! ### Caches make no difference -/

theorem Blind.congr {a : Action α} (ha : Blind a) (h : c'.plain = c.plain) : erased (a c') = erased (a c) := by
  rw [← ha c', ← ha c, h]

theorem plain_noted {f : Cell → Cell} (h : ∀ cell : Cell, (f cell).plain = cell.plain) :
    (c.modifyCell p f).plain = c.plain := by
  rw [plain_modifyCell (g := id) h]
  cases hcell : c.plain.cells[p.key]? with
  | none => rw [modifyCell, modify_of_none hcell]
  | some cell => exact modifyCell_of_same hcell rfl

theorem Consistent.plainMember_of_callable (hc : c.Consistent) (hp : c.Knows p) (h : name ∈ c.callables p) :
    plainMember p name c = .ok (.method ⟨name, p⟩) c := by
  obtain ⟨className, template, hclass, hcached, hmethod⟩ := hc.template_of_callable hp h
  unfold plainMember
  rw [hclass]
  dsimp only
  rw [bind_of_ok _ (classFor_of_cached hcached), if_pos hmethod]
  rfl

theorem Consistent.erased_member (hc : c.Consistent) (hp : c.Knows p) (name : String) :
    erased (member p name c) = erased (plainMember p name c) := by
  unfold member plainMember
  cases hclass : p.className with
  | none =>
    rw [bind_of_error _ (hc.classOf_nameless hp hclass)]
    rfl
  | some className =>
    have hof := hc.classOf_eq hp hclass
    dsimp only
    cases hfor : classFor p.session className c with
    | error fault mid =>
      rw [bind_of_error _ hfor] at hof
      rw [bind_of_error _ hof, bind_of_error _ hfor]
    | ok h mid =>
      rw [bind_of_ok _ hfor] at hof
      have hbound : (mid.bindTo p h.template).plain = mid.plain := plain_noted fun _ => rfl
      have hchanges : Changes (fun _ => True) c mid := by
        have hafter : Changes (fun _ => True) c (after (classFor p.session className c)) := changes_classFor _ _
        rwa [hfor] at hafter
      -- The fault names the class by its template here and by the proxy there.
      have hname := (hchanges.consistent hc).className_of_cached (classFor_ok hfor).2.1
      have hlooked : ((mid.bindTo p h.template).modifyCell p fun cell =>
          { cell with callables := insertName name cell.callables }).plain = mid.plain := by
        rw [plain_noted, hbound]
        exact fun _ => rfl
      rw [bind_of_ok _ hfor]
      refine (congrArg erased (bind_of_ok _ hof)).trans ?_
      split
      · exact congrArg (EStateM.Result.ok _) hlooked
      split
      · exact (blind_bind (blind_getProperty _ _) fun _ => blind_pure _).congr hbound
      · rw [hname]
        exact congrArg (EStateM.Result.error _) hbound

theorem Consistent.erased_resolveName (hc : c.Consistent) (hp : c.Knows p) (name : String) :
    erased (resolveName p name c) = erased (plainName p name c) := by
  have hcases := resolveName_cases p name c
  generalize resolveName p name c = result at hcases ⊢
  unfold plainName
  cases hcases with
  | released hgone => rw [bind_of_error _ (requireLive_of_released hgone)]
  | reserved a hlive hreserved =>
    rw [bind_of_ok _ (requireLive_of_live hlive), get_bind, hreserved]
    rfl
  | kept v hlive hname hkept =>
    rw [bind_of_ok _ (requireLive_of_live hlive), get_bind, reserved?_eq_none.mpr hname]
    dsimp only
    rw [get_bind, hkept]
    rfl
  | callable hlive hname hkept hcallable =>
    rw [bind_of_ok _ (requireLive_of_live hlive), get_bind, reserved?_eq_none.mpr hname]
    dsimp only
    rw [get_bind, hkept]
    dsimp only
    rw [hc.plainMember_of_callable hp hcallable]
  | member result hlive hname hkept hcallable hmember =>
    rw [bind_of_ok _ (requireLive_of_live hlive), get_bind, reserved?_eq_none.mpr hname]
    dsimp only
    rw [get_bind, hkept]
    dsimp only
    rw [← hmember, hc.erased_member hp]

/-- Names are resolved as if nothing were remembered of methods and classes. -/
theorem Consistent.resolveName_plain (hc : c.Consistent) (hp : c.Knows p) (h : name ≠ "cache") :
    erased (resolveName p name c) = plainName p name c.plain :=
  (hc.erased_resolveName hp name).trans (blind_plainName h c).symm

end Client

end ObjectBridge
