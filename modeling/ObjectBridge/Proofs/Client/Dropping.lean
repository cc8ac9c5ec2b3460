import ObjectBridge.Proofs.Client.Asking
import ObjectBridge.Proofs.Client.Reach

/-!
# What is dropped

To give up values takes no request, but the proxies that nobody holds any more let go of their objects. Each
of these had its last holder among the values given up, directly or over other such proxies (`Dropped`), and
each is told once (`discardAll_drops`).
-/

namespace ObjectBridge

section Cells

variable {before after : Array Cell} {vs rest : List Value} {key keeper : Nat}

/-- A proxy was kept on another that nobody holds any more. -/
def Loosened (before after : Array Cell) (keeper key : Nat) : Prop :=
  KeptBy before keeper key ∧ holdersOf after keeper = 0

/-- Nobody holds a proxy any more that some values led to, over proxies that nobody holds any more either. -/
def Dropped (before after : Array Cell) (vs : List Value) (key : Nat) : Prop :=
  holdersOf after key = 0 ∧
    ∃ v ∈ vs, ∃ p ∈ v.proxies, Relation.ReflTransGen (Loosened before after) p.key key

theorem Dropped.mono {ws : List Value} (h : Dropped before after vs key)
    (hproxies : ∀ v ∈ vs, ∀ p ∈ v.proxies, ∃ w ∈ ws, p ∈ w.proxies) : Dropped before after ws key := by
  obtain ⟨hzero, v, hv, p, hp, hchain⟩ := h
  obtain ⟨w, hw, hpw⟩ := hproxies v hv p hp
  exact ⟨hzero, w, hw, p, hpw, hchain⟩

theorem Dropped.cons {v : Value} (h : Dropped before after rest key) : Dropped before after (v :: rest) key :=
  h.mono fun w hw _ hp => ⟨w, List.mem_cons_of_mem v hw, hp⟩

theorem Dropped.first {p : Proxy} (hzero : holdersOf after p.key = 0) :
    Dropped before after (.object p :: rest) p.key :=
  ⟨hzero, .object p, List.mem_cons_self, p, List.mem_singleton_self p, .refl⟩

theorem Dropped.over {p : Proxy} {cell : Cell} (h : Dropped before after (cell.kept ++ rest) key)
    (hcell : before[p.key]? = some cell) (hzero : holdersOf after p.key = 0) :
    Dropped before after (.object p :: rest) key := by
  obtain ⟨hgone, v, hv, q, hq, hchain⟩ := h
  obtain hv | hv := List.mem_append.mp hv
  · have hfirst : Loosened before after p.key q.key := ⟨⟨cell, hcell, v, hv, q, hq, rfl⟩, hzero⟩
    exact ⟨hgone, .object p, List.mem_cons_self, p, List.mem_singleton_self p, .head hfirst hchain⟩
  · exact ⟨hgone, v, List.mem_cons_of_mem _ hv, q, hq, hchain⟩

theorem Dropped.earlier {mid : Array Cell} (h : Dropped mid after vs key)
    (hkept : ∀ keeper key, Loosened mid after keeper key → KeptBy before keeper key) :
    Dropped before after vs key := by
  obtain ⟨hzero, v, hv, p, hp, hchain⟩ := h
  refine ⟨hzero, v, hv, p, hp, ?_⟩
  exact Relation.ReflTransGen.mono (fun keeper key hkeeper => ⟨hkept keeper key hkeeper, hkeeper.2⟩) _ _ hchain

/-- The cell of a proxy says that it has not let go of its object. -/
def LiveIn (cells : Array Cell) (p : Proxy) : Prop :=
  ∃ cell, cells[p.key]? = some cell ∧ cell.proxy = p ∧ cell.released = false

section Replaced

variable {cells : Array Cell} {i : Nat} {old new : Cell} (hcell : cells[i]? = some old)

include hcell

theorem keptBy_of_replaced (h : KeptBy (cells.setIfInBounds i new) keeper key)
    (hnew : ∀ v ∈ new.kept, v ∈ old.kept) : KeptBy cells keeper key := by
  obtain ⟨found, hfound, v, hv, hkey⟩ := h
  obtain ⟨rfl, rfl⟩ | hsame := getElem?_replaced_cases hcell hfound
  · exact ⟨old, hcell, v, hnew v hv, hkey⟩
  · exact ⟨found, hsame, v, hv, hkey⟩

theorem liveIn_of_replaced {p : Proxy} (h : LiveIn (cells.setIfInBounds i new) p)
    (hproxy : new.proxy = old.proxy) (hreleased : new.released = false → old.released = false) :
    LiveIn cells p := by
  obtain ⟨found, hfound, hp, hlive⟩ := h
  obtain ⟨hkey, rfl⟩ | hsame := getElem?_replaced_cases hcell hfound
  · exact ⟨old, hkey ▸ hcell, hproxy ▸ hp, hreleased hlive⟩
  · exact ⟨found, hsame, hp, hlive⟩

theorem keys_replaced (hkeys : ∀ (key : Nat) (cell : Cell), cells[key]? = some cell → cell.proxy.key = key)
    (hproxy : new.proxy = old.proxy) (key : Nat) (cell : Cell)
    (h : (cells.setIfInBounds i new)[key]? = some cell) : cell.proxy.key = key := by
  obtain ⟨rfl, rfl⟩ | hsame := getElem?_replaced_cases hcell h
  · rw [hproxy]
    exact hkeys i old hcell
  · exact hkeys key cell hsame

end Replaced

end Cells

namespace Client

variable {c c' : Client} {s t : Nat} {p : Proxy} {m : Message} {vs : List Value}

theorem holdersOf_reclaim (pending : List Value) (cells : Array Cell) (gone : List Proxy) {key : Nat}
    (h : holdersOf cells key = 0) : holdersOf (reclaim pending cells gone).1 key = 0 := by
  fun_induction reclaim pending cells gone with
  | case1 => exact h
  | case2 _ _ _ _ ih | case3 _ _ _ _ _ ih | case4 _ _ _ _ _ _ _ ih | case7 _ _ _ _ _ _ ih => exact ih h
  | case5 cells gone p rest cell hcell hzero hone ih =>
    refine ih ?_
    rw [holdersOf_replaced hcell]
    split
    · rfl
    · exact h
  | case6 cells gone p rest cell hcell hzero hone ih =>
    refine ih ?_
    rw [holdersOf_replaced hcell]
    split
    · rename_i hkey
      rw [← hkey, holdersOf, hcell] at h
      exact absurd h hzero
    · exact h

/-- The proxies that let go of their objects were live, and are dropped. -/
theorem mem_reclaim (pending : List Value) (cells : Array Cell) (gone : List Proxy)
    (hkeys : ∀ (key : Nat) (cell : Cell), cells[key]? = some cell → cell.proxy.key = key) :
    ∃ more, (reclaim pending cells gone).2 = gone.reverse ++ more ∧ more.Nodup ∧
      ∀ q ∈ more, LiveIn cells q ∧ Dropped cells (reclaim pending cells gone).1 pending q.key := by
  fun_induction reclaim pending cells gone with
  | case1 => exact ⟨[], (List.append_nil _).symm, .nil, fun _ hq => by cases hq⟩
  | case2 cells gone items rest ih =>
    obtain ⟨more, hmore, hnodup, hgone⟩ := ih hkeys
    refine ⟨more, hmore, hnodup, fun q hq => ⟨(hgone q hq).1, (hgone q hq).2.mono fun v hv r hr => ?_⟩⟩
    obtain hv | hv := List.mem_append.mp hv
    · refine ⟨.list items, List.mem_cons_self, ?_⟩
      rw [Value.proxies, proxiesOfAll_eq]
      exact List.mem_flatMap.mpr ⟨v, hv, hr⟩
    · exact ⟨v, List.mem_cons_of_mem _ hv, hr⟩
  | case3 _ _ _ _ _ ih | case4 _ _ _ _ _ _ _ ih | case7 _ _ _ _ _ _ ih =>
    obtain ⟨more, hmore, hnodup, hgone⟩ := ih hkeys
    exact ⟨more, hmore, hnodup, fun q hq => ⟨(hgone q hq).1, (hgone q hq).2.cons⟩⟩
  | case5 cells gone p rest cell hcell hzero hone ih =>
    -- The last holder leaves what is kept on the proxy, which is worked through next.
    simp only [dite_eq_ite] at ih
    obtain ⟨more, hmore, hnodup, hgone⟩ := ih (keys_replaced hcell hkeys rfl)
    have hfinished : (cells.setIfInBounds p.key cell.finished)[p.key]? = some cell.finished := by
      rw [getElem?_replaced hcell, if_pos rfl]
    have hlast := holdersOf_reclaim (cell.kept ++ rest) (cells.setIfInBounds p.key cell.finished)
      (if cell.released then gone else cell.proxy :: gone) (by rw [holdersOf, hfinished]; rfl)
    have hearlier (q : Proxy) (hq : q ∈ more) := (hgone q hq).2.earlier fun _ _ hkeeper =>
      keptBy_of_replaced hcell hkeeper.1 fun v hv => by cases hv
    have hrest (q : Proxy) (hq : q ∈ more) := And.intro
      (liveIn_of_replaced hcell (hgone q hq).1 rfl fun h => by cases h) ((hearlier q hq).over hcell hlast)
    cases hreleased : cell.released with
    | true =>
      rw [hreleased] at hmore hrest
      exact ⟨more, hmore, hnodup, hrest⟩
    | false =>
      rw [hreleased] at hmore hrest hlast
      have hkey : cell.proxy.key = p.key := hkeys p.key cell hcell
      refine ⟨cell.proxy :: more, ?_, List.nodup_cons.mpr ⟨fun hmem => ?_, hnodup⟩, fun q hq => ?_⟩
      · rw [hmore]
        simp
      · -- It is finished by now, and the others are live.
        obtain ⟨⟨found, hfound, _, hlive⟩, _⟩ := hgone cell.proxy hmem
        rw [hkey, hfinished, Option.some.injEq] at hfound
        subst hfound
        cases hlive
      · obtain rfl | hq := List.mem_cons.mp hq
        · refine ⟨⟨cell, hkey ▸ hcell, rfl, hreleased⟩, ?_⟩
          rw [hkey]
          exact .first hlast
        · exact hrest q hq
  | case6 cells gone p rest cell hcell hzero hone ih =>
    obtain ⟨more, hmore, hnodup, hgone⟩ := ih (keys_replaced hcell hkeys rfl)
    refine ⟨more, hmore, hnodup, fun q hq => ⟨liveIn_of_replaced hcell (hgone q hq).1 rfl id, ?_⟩⟩
    have hearlier := (hgone q hq).2.earlier fun _ _ hkeeper =>
      keptBy_of_replaced hcell hkeeper.1 fun _ hv => hv
    exact hearlier.cons

/-! ### What is told -/

theorem sent_post (m : Message) (session : Session) :
    (after (Session.post m session)).channel.sent = m :: session.channel.sent ∨
      (after (Session.post m session)).channel.sent = session.channel.sent := by
  by_cases hup : session.standing = .up
  · obtain ⟨channel, hsend, heq⟩ | ⟨channel, cause, hsent, heq⟩ | ⟨_, heq⟩ := Session.post_cases m hup
    · rw [heq]
      exact .inl (Channel.send_ok hsend).2.2.2.2
    · rw [heq]
      exact .inr hsent
    · rw [heq]
      exact .inr rfl
  · rw [Session.post_of_down m hup]
    exact .inr rfl

/-- The requests that release the objects of some proxies, the latest first. -/
def releasing (ps : List Proxy) : List Message := (ps.map fun p => .release p.id).reverse

theorem sent_told (p : Proxy) (sessions : Array Session) (cells : Array Cell) (t : Nat) :
    ∃ ps, ps.Sublist [p] ∧ (∀ q ∈ ps, q.session = t) ∧
      sent ⟨told sessions p, cells⟩ t = releasing ps ++ sent ⟨sessions, cells⟩ t := by
  have hsame (hsent : sent ⟨told sessions p, cells⟩ t = sent ⟨sessions, cells⟩ t) :
      ∃ ps, ps.Sublist [p] ∧ (∀ q ∈ ps, q.session = t) ∧
        sent ⟨told sessions p, cells⟩ t = releasing ps ++ sent ⟨sessions, cells⟩ t :=
    ⟨[], List.nil_sublist _, by simp, hsent⟩
  by_cases hpt : p.session = t
  · cases hs : sessions[t]? with
    | none =>
      refine hsame ?_
      rw [told, hpt, modify_of_none hs]
    | some session =>
      have htold : sent ⟨told sessions p, cells⟩ t =
          (after (Session.post (.release p.id) (session.forget p))).channel.sent := by
        refine sent_of_some ?_
        simp only [told, Array.getElem?_modify, hpt, if_true, hs, Option.map_some]
      rw [htold, sent_of_some (c := ⟨sessions, cells⟩) hs]
      obtain hposted | hnot := sent_post (.release p.id) (session.forget p)
      · refine ⟨[p], List.Sublist.refl _, fun q hq => ?_, hposted⟩
        rw [List.mem_singleton.mp hq, hpt]
      · exact ⟨[], List.nil_sublist _, by simp, hnot⟩
  · refine hsame ?_
    unfold sent told
    dsimp only
    rw [Array.getElem?_modify, if_neg hpt]

theorem sent_foldl_told (gone : List Proxy) (sessions : Array Session) (cells : Array Cell) (t : Nat) :
    ∃ ps, ps.Sublist gone ∧ (∀ q ∈ ps, q.session = t) ∧
      sent ⟨gone.foldl told sessions, cells⟩ t = releasing ps ++ sent ⟨sessions, cells⟩ t := by
  induction gone generalizing sessions with
  | nil => exact ⟨[], .slnil, by simp, rfl⟩
  | cons p gone ih =>
    obtain ⟨first, hfirst, hthere, hsent⟩ := sent_told p sessions cells t
    obtain ⟨rest, hrest, hall, hsent'⟩ := ih (told sessions p)
    refine ⟨first ++ rest, hfirst.append hrest, fun q hq => ?_, ?_⟩
    · exact (List.mem_append.mp hq).elim (hthere q) (hall q)
    · rw [List.foldl_cons, hsent', hsent, releasing, releasing, releasing, List.map_append,
        List.reverse_append, List.append_assoc]

/-- The releases that a session has sent on the way from one client to another, and nothing else: each is of a
proxy of the session that was live before and whose last holders were certain values. -/
def Releases (t : Nat) (c c' : Client) (vs : List Value) (ps : List Proxy) : Prop :=
  ps.Nodup ∧ ∀ q ∈ ps, q.session = t ∧ LiveIn c.cells q ∧ Dropped c.cells c'.cells vs q.key

theorem discardAll_drops (hkeys : ∀ (key : Nat) (cell : Cell), c.cells[key]? = some cell → cell.proxy.key = key)
    (vs : List Value) (t : Nat) :
    ∃ ps, Releases t c (c.discardAll vs) vs ps ∧ (c.discardAll vs).sent t = releasing ps ++ c.sent t := by
  obtain ⟨gone, hgone, hnodup, hdropped⟩ := mem_reclaim vs c.cells [] hkeys
  obtain ⟨ps, hsub, hthere, hsent⟩ := sent_foldl_told gone c.sessions (reclaim vs c.cells []).1 t
  rw [discardAll_eq, hgone]
  refine ⟨ps, ⟨hnodup.sublist hsub, fun q hq => ⟨hthere q hq, hdropped q (hsub.subset hq)⟩⟩, hsent⟩

end Client

end ObjectBridge
