import ObjectBridge.Proofs.Client.Balance

/-!
# Holding as moves

Taking hold of values, giving them up and finding the proxy of an object are series of steps, and say who
has what in hand afterwards. Giving up works through all cells first and tells the server afterwards
(`reclaim`, then `letGo`); as the first touches cells only and the second sessions only, it comes to the
same as letting go one by one (`runs_discardAll`).
-/

namespace ObjectBridge.Client

variable {free : Nat → Session.Deed → Prop} {c : Client}

theorem runs_modifyCell (p : Proxy) (f : Cell → Cell)
    (h : ∀ cell, c.cells[p.key]? = some cell → c.Adjusts cell (f cell)) :
    Runs free c (c.modifyCell p f) := by
  cases hcell : c.cells[p.key]? with
  | none =>
    rw [modifyCell, modify_of_none hcell]
  | some cell =>
    rw [modifyCell, modify_of_some hcell]
    exact .single (.adjust p.key cell (f cell) hcell (h cell hcell))

theorem runs_holdProxy (p : Proxy) : Runs free c (c.holdProxy p) := by
  apply runs_modifyCell
  intro cell _
  refine ⟨rfl, rfl, rfl, fun hfit => ⟨fun hzero => ?_, hfit.names⟩, fun _ h => .inl h⟩
  exact absurd hzero (Nat.succ_ne_zero _)

theorem runs_hold (v : Value) : Runs free c (c.hold v) := by
  rw [hold]
  induction v.proxies generalizing c with
  | nil => exact .refl
  | cons p ps ih => exact (runs_holdProxy p).trans ih

theorem passes_hold {v : Value} (hv : c.KnowsAll v) : Passes c [] (c.hold v) [v] := by
  have hproxies (ps : List Proxy) {c : Client} (hps : ∀ p ∈ ps, c.Knows p) :
      Passes c [] (ps.foldl holdProxy c) (ps.map .object) := by
    induction ps generalizing c with
    | nil => exact .refl
    | cons p ps ih =>
      rw [List.forall_mem_cons] at hps
      have hfirst := Passes.holdProxy hps.1
      have hruns : Runs (fun _ _ => True) c (c.holdProxy p) := runs_holdProxy p
      have hrest := ih fun q hq => hruns.knows (hps.2 q hq)
      refine (hfirst.trans (hrest.beside [.object p])).congr fun key => ?_
      rw [mentions_append, List.map_cons, mentions_object, mentions_object, mentions_nil, Nat.add_zero,
        Nat.add_comm]
  refine (hproxies v.proxies hv).congr fun key => ?_
  rw [mentions_objects, mentions_cons, mentions_nil, Nat.add_zero]

/-! ### Giving up -/

/-- What `letGo` does is what a session does when it forgets a proxy and posts the release, as far as it
is up. -/
theorem letGo_eq (sessions : Array Session) (cells : Array Cell) (p : Proxy) :
    letGo ⟨sessions, cells⟩ p = ⟨told sessions p, cells⟩ := by
  unfold letGo modifySession told
  refine congrArg (fun f => Client.mk (sessions.modify p.session f) cells) (funext fun session => ?_)
  dsimp only
  by_cases hup : (session.forget p).isUp = true
  · rw [if_pos hup]
    cases Session.post (.release p.id) (session.forget p) <;> rfl
  · rw [if_neg hup]
    rw [Session.isUp_iff] at hup
    exact (Session.post_of_down _ hup).symm

theorem foldl_letGo (gone : List Proxy) (sessions : Array Session) (cells : Array Cell) :
    gone.foldl letGo ⟨sessions, cells⟩ = ⟨gone.foldl told sessions, cells⟩ := by
  induction gone generalizing sessions with
  | nil => rfl
  | cons p gone ih => rw [List.foldl_cons, letGo_eq, ih, List.foldl_cons]

/-- Working through the pending values and telling the server of each proxy as it goes. -/
theorem runs_reclaim (pending : List Value) (cells : Array Cell) (gone : List Proxy)
    (sessions : Array Session) :
    Runs free ⟨gone.reverse.foldl told sessions, cells⟩
      ⟨(reclaim pending cells gone).2.foldl told sessions, (reclaim pending cells gone).1⟩ := by
  -- Only the last holder of a proxy changes more than a count; if the proxy is live, it lets go there.
  fun_induction reclaim pending cells gone with
  | case1 cells gone => exact .refl
  | case2 cells gone items rest ih => exact ih
  | case3 cells gone p rest h ih => exact ih
  | case4 cells gone p rest cell h hzero ih => exact ih
  | case5 cells gone p rest cell h hzero hone ih =>
    refine .trans ?_ ih
    by_cases hreleased : cell.released = true
    · rw [dif_pos hreleased]
      refine .single (.adjust p.key cell cell.finished h ⟨rfl, rfl, hreleased.symm, ?_, ?_⟩)
      · exact fun _ => cell.fit_finished
      · intro entry hentry
        cases hentry
    · rw [dif_neg hreleased, List.reverse_cons, List.foldl_append]
      refine .single (.letGo p.key cell cell.finished h
        ⟨rfl, rfl, by simpa using hreleased, rfl, fun _ => cell.fit_finished, ?_⟩)
      intro entry hentry
      cases hentry
  | case6 cells gone p rest cell h hzero hone ih =>
    refine .trans ?_ ih
    refine .single (.adjust p.key cell _ h
      ⟨rfl, rfl, rfl, fun hfit => ⟨fun hnone => ?_, hfit.names⟩, fun _ h => .inl h⟩)
    dsimp only at hnone
    omega
  | case7 cells gone v rest hlist hobject ih => exact ih

theorem discardAll_eq (vs : List Value) :
    c.discardAll vs =
      ⟨(reclaim vs c.cells []).2.foldl told c.sessions, (reclaim vs c.cells []).1⟩ :=
  foldl_letGo ..

theorem runs_discardAll (vs : List Value) : Runs free c (c.discardAll vs) := by
  rw [discardAll_eq]
  exact runs_reclaim vs c.cells [] c.sessions

theorem runs_discard (v : Value) : Runs free c (c.discard v) := runs_discardAll [v]

theorem passes_discardAll (vs : List Value) : Passes c vs (c.discardAll vs) [] := by
  intro others hb
  rw [discardAll_eq]
  exact balanced_reclaim vs c.cells [] hb

/-! ### The proxy of an object -/

theorem standing?_eq_some {s : Nat} {id : Int32} {p : Proxy} :
    c.standing? s id = some p ↔ ∃ session key cell, c.sessions[s]? = some session ∧
      session.table.lookup id = some key ∧ c.cells[key]? = some cell ∧ cell.holders ≠ 0 ∧
      cell.released = false ∧ cell.proxy = p := by
  simp only [standing?, Option.bind_eq_bind, Option.bind_eq_some_iff]
  refine ⟨fun h => ?_, fun h => ?_⟩
  · obtain ⟨session, hs, key, hkey, cell, hcell, hp⟩ := h
    split at hp
    · rename_i hlive
      exact ⟨session, key, cell, hs, hkey, hcell, hlive.1, hlive.2, Option.some.inj hp⟩
    · cases hp
  · obtain ⟨session, key, cell, hs, hkey, hcell, hheld, hlive, rfl⟩ := h
    exact ⟨session, hs, key, hkey, cell, hcell, if_pos ⟨hheld, hlive⟩⟩

theorem runs_find (s : Nat) (id : Int32) (className : Option String) :
    Runs free c (c.objectFor s id className).2 := by
  cases h : c.standing? s id with
  | none => exact .single (.make s id className h)
  | some p =>
    rw [objectFor_of_some className h]
    exact runs_holdProxy p

/-- Who asks for the proxy of an object gets a known proxy in hand. -/
theorem runs_objectFor (hc : c.Sound) (s : Nat) (id : Int32) (className : Option String) :
    Runs free c (c.objectFor s id className).2 ∧
      (c.objectFor s id className).2.Knows (c.objectFor s id className).1 ∧
      Passes c [] (c.objectFor s id className).2 [.object (c.objectFor s id className).1] := by
  refine ⟨runs_find s id className, ?_⟩
  cases h : c.standing? s id with
  | none =>
    rw [objectFor_of_none className h]
    exact ⟨⟨_, Array.getElem?_push_size, rfl⟩, fun others hb => hb.push rfl rfl rfl⟩
  | some p =>
    rw [objectFor_of_some className h]
    have hruns : Runs free c (c.holdProxy p) := runs_holdProxy p
    obtain ⟨_, key, cell, _, _, hcell, _, _, rfl⟩ := standing?_eq_some.mp h
    have hknown : c.Knows cell.proxy := ⟨cell, by rw [hc.keys key cell hcell, hcell], rfl⟩
    exact ⟨hruns.knows hknown, Passes.holdProxy hknown⟩

end ObjectBridge.Client
