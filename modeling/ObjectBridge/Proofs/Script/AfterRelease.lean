import ObjectBridge.Proofs.Client.Terms
import ObjectBridge.Proofs.Script.Lockstep

/-!
# Nothing after a release

A client that names the objects of a session by its own proxies only never names one that it has released,
until it has a new proxy for it (`run_silentAfterRelease`): the old proxy refuses all that is asked of it or
of its methods, and a value that holds it cannot be converted.
-/

namespace ObjectBridge

namespace Client

variable {c : Client} {p : Proxy}

/-- All that is asked of a proxy or of a method of it fails with `released`, and nothing happens. -/
structure Refuses (p : Proxy) (c : Client) : Prop where
  resolveName : ∀ name, Client.resolveName p name c = .error (.released p.id) c
  getMember : ∀ name, Client.getMember p name c = .error (.released p.id) c
  setMember : ∀ name v, Client.setMember p name v c = .error (.released p.id) c
  method : ∀ name, Client.method p name c = .error (.released p.id) c
  callMember : ∀ name args, Client.callMember p name args c = .error (.released p.id) c
  invoke : ∀ m args, m.target = p → Client.invoke m args c = .error (.released p.id) c
  elementOf : ∀ index, Client.elementOf p index c = .error (.released p.id) c
  elementOfProperty : ∀ name index, Client.elementOfProperty p name index c = .error (.released p.id) c
  protectObject : Client.protectObject p c = .error (.released p.id) c
  releaseObject : Client.releaseObject p c = .error (.released p.id) c
  handle : Client.handle p c = .error (.released p.id) c

theorem refused {α : Type} (h : c.isReleased p = true) (next : Unit → Action α) :
    (requireLive p >>= next) c = .error (.released p.id) c := by
  refine bind_of_error next ?_
  unfold requireLive
  rw [get_bind, if_pos h]
  rfl

theorem refuses_of_released (h : c.isReleased p = true) : Refuses p c := by
  have hname (name : String) : resolveName p name c = .error (.released p.id) c := refused h _
  have hmethod (name : String) : method p name c = .error (.released p.id) c := bind_of_error _ (hname name)
  refine ⟨hname, fun name => bind_of_error _ (hname name), fun _ _ => refused h _, hmethod,
    fun name _ => bind_of_error _ (hmethod name), fun m args hm => ?_, fun _ => refused h _,
    fun _ _ => refused h _, refused h _, refused h _, ?_⟩
  · subst hm
    exact refused h _
  · unfold handle outcome Registry.handle
    dsimp only
    rw [if_pos h]

end Client

namespace Script

/-- A step that names the objects of a session by its proxies only: it asks for nothing by an identifier,
and it hands over no proxies of other sessions. -/
structure State.OwnProxies (s : Nat) (st : State) (step : Step) : Prop where
  raw : step.raw? ≠ some s
  release : ∀ id, step ≠ .session s (.release id)
  handed : ∀ os vs, st.handed step = some (s, os) → st.operands os = .ok vs →
    ∀ v ∈ vs, ∀ p ∈ v.proxies, p.session = s

/-- A session may only end of its own accord; all else that it sends has to name live proxies. -/
def backedOnly (s : Nat) (t : Nat) (d : Session.Deed) : Prop := t ≠ s ∨ d = .close

namespace State

variable {st : State} {s : Nat}

theorem permits_of_ownProxies (h : st.Sound) (hregistry : st.client.registry s = .standard) {step : Step}
    (hown : st.OwnProxies s step) : st.Permits (backedOnly s) step := by
  refine ⟨fun t hraw => ?_, fun t id hrelease => ?_, fun _ _ => .inr rfl, fun t os vs hhanded hvs => ?_⟩
  · have hne : t ≠ s := fun heq => hown.raw (heq ▸ hraw)
    exact fun _ _ _ => .inl hne
  · exact .inl fun heq => hown.release id (heq ▸ hrelease)
  · by_cases hts : t = s
    · subst hts
      refine .inr ⟨hregistry, fun v hv p hp => ⟨?_, hown.handed os vs hhanded hvs v hv p hp⟩⟩
      obtain ⟨ws, hws, hknown⟩ | ⟨answer, hanswer, _⟩ := operands_cases h os
      · rw [hvs] at hws
        cases hws
        exact hknown v hv p hp
      · rw [hvs] at hanswer
        cases hanswer
    · exact .inl fun _ _ _ => .inl hts

theorem throughout_permits (h : st.Sound) (hregistry : st.client.registry s = .standard)
    {lines : List Line} (hown : Throughout (OwnProxies s) st lines) :
    Throughout (Permits (backedOnly s)) st lines := by
  induction lines generalizing st with
  | nil => trivial
  | cons line lines ih =>
    have hpermits := permits_of_ownProxies h hregistry hown.1
    obtain ⟨hruns, hsound⟩ := step_runs h hpermits
    exact ⟨hpermits, ih hsound ((hruns.registry_eq s).trans hregistry) hown.2⟩

end State

/-- In a run with the standard registry that names the objects of a session by its proxies only: between a
release on the wire and a later request that names its object, as its target or at any depth, a new
proxy was made for the object. Every proxy made before the release, and every other one that has let go of its
object, refuses from then on all that is asked of it and of its methods. -/
theorem run_silentAfterRelease {st : State} (h : st.Fresh) {lines : List Line} {s : Nat} {start : Session}
    (hstart : st.client.sessions[s]? = some start) (hregistry : start.registry = .standard)
    (hown : State.Throughout (State.OwnProxies s) st lines) {session : Session}
    (hs : (run st lines).client.sessions[s]? = some session) :
    (∃ cut, session.OnWire start.channel.writer.sink.accepted cut ∧
      ∀ (i j : Nat) (id : Int32) (m : Message), i < j →
        (session.requests ++ cut.toList)[i]? = some (.release id) →
        (session.requests ++ cut.toList)[j]? = some m → id ∈ m.handles →
        ∃ (key : Nat) (cell : Cell), (run st lines).client.cells[key]? = some cell ∧
          cell.isOf s id = true ∧ i < cell.since ∧ cell.since ≤ j) ∧
      ∀ (key : Nat) (cell : Cell), (run st lines).client.cells[key]? = some cell →
        cell.proxy.session = s →
        (cell.released = true ∨
          ∃ i, cell.since ≤ i ∧ session.requests[i]? = some (.release cell.proxy.id)) →
        ∀ later, Client.Refuses cell.proxy (run (run st lines) later).client := by
  have hstandard : st.client.registry s = .standard := by
    rw [Client.registry, hstart]
    exact hregistry
  obtain ⟨hruns, hsound⟩ := run_runs h.sound (State.throughout_permits h.sound hstandard hown)
  have hfree (d : Session.Deed) (m : Message) (_ : d.Fits) (hd : backedOnly s s d)
      (hm : d.request? = some m) : ¬ True := by
    obtain hne | rfl := hd
    · exact absurd rfl hne
    · cases hm
  have hplaced : (run st lines).client.Placed (fun _ => True) start.channel.writer.sink.accepted s := by
    refine hruns.placed hfree (fun _ => trivial) h.sound.client (Client.accounted_fresh h.cells (h.sessions s))
      (Client.placed_fresh h.cells fun found hfound => ?_)
    rw [hstart, Option.some.injEq] at hfound
    subst hfound
    exact ⟨h.sessions s start hstart, rfl⟩
  obtain ⟨cut, hwire, htraced, _⟩ := hplaced session hs
  refine ⟨⟨cut, hwire, fun i j id m hlt hi hj hid => ?_⟩, fun key cell hcell hcs hgone later => ?_⟩
  · obtain ⟨key, cell, hcell, hof, hsince, hsilent⟩ := htraced.named j m hj trivial id hid
    refine ⟨key, cell, hcell, hof, ?_, hsince⟩
    -- The term of a proxy that was made before the release would hold it, and terms hold none.
    by_contra hle
    have hjlt : j < session.requests.length + 1 := by
      have hlength := (List.getElem?_eq_some_iff.mp hj).1
      rw [List.length_append] at hlength
      have hcut : cut.toList.length ≤ 1 := by cases cut <;> simp
      omega
    rw [List.getElem?_append_left (by omega)] at hi
    exact hsilent i (Nat.le_of_not_lt hle) hlt hi
  · have hreleased : cell.released = true := by
      obtain hreleased | ⟨i, hsince, hi⟩ := hgone
      · exact hreleased
      · -- As long as it is live, no release was sent since it was made.
        by_contra hlive
        exact htraced.quiet cell.proxy.id key cell hcell (Cell.isOf_iff.mpr ⟨hcs, rfl⟩)
          (by simpa using hlive) i hsince (List.getElem?_eq_some_iff.mp hi).1 hi
    have hon : Client.Moves (fun _ => True) (run st lines).client (run (run st lines) later).client :=
      (run_moves hsound fun _ _ _ _ _ => trivial).1
    obtain ⟨cell', hcell', hproxy, hreleased'⟩ := hon.gone hcell hreleased
    apply Client.refuses_of_released
    have hkey : cell.proxy.key = key := hsound.client.keys key cell hcell
    rw [Client.isReleased, hkey, hcell']
    exact hreleased'

/-- The server knows an object that it names in two replies. -/
def renamedState : State := .ofChannel
  { rest := [13, 208, 9, 7, 0, 0, 0, 0, 13, 208, 9, 7, 0, 0, 0, 0, 13, 208, 0] } {}

/-- The first proxy of the object is released while a copy of it is kept, and the second one is handed over
in a list. -/
def renamedLines : List Line :=
  [⟨.session 0 (.create "Point" []), some "first"⟩, ⟨.copy "first", some "copy"⟩,
    ⟨.proxy "first" (.release false), none⟩, ⟨.session 0 (.create "Point" []), some "second"⟩,
    ⟨.session 0 (.callStatic "Point" "Add" [.list [.slot "second"]]), none⟩]

/-- A step that hands over nothing but proxies of its session, as far as that can be looked up. -/
theorem State.ownProxies_of_all {s : Nat} {st : State} {step : Step} (hraw : step.raw? ≠ some s)
    (hrelease : ∀ id, step ≠ .session s (.release id)) (os : List Operand)
    (hhanded : st.handed step = none ∨ st.handed step = some (s, os))
    (hall : (st.operands os).toOption.all (fun vs => vs.all fun v => v.proxies.all (·.session == s)) = true) :
    st.OwnProxies s step := by
  refine ⟨hraw, hrelease, fun os' vs hos hvs v hv p hp => ?_⟩
  obtain hnone | hsome := hhanded
  · rw [hnone] at hos
    cases hos
  · rw [hsome, Option.some.injEq, Prod.mk.injEq] at hos
    rw [hos.2, hvs] at hall
    simp only [Except.toOption, Option.all_some, List.all_eq_true, beq_iff_eq] at hall
    exact hall v hv p hp

/-- The last request names the released object, by its second proxy; the first one refuses. -/
theorem run_silentAfterRelease_renamed :
    ∃ session, (run renamedState renamedLines).client.sessions[0]? = some session ∧
      session.requests[1]? = some (.release 7) ∧
      (∃ m, session.requests[3]? = some m ∧ 7 ∈ m.handles) ∧
      (∃ (key : Nat) (cell : Cell), (run renamedState renamedLines).client.cells[key]? = some cell ∧
        cell.isOf 0 7 = true ∧ 1 < cell.since ∧ cell.since ≤ 3) ∧
      Client.Refuses ⟨0, 0, 7, none⟩ (run renamedState renamedLines).client := by
  have hown : State.Throughout (State.OwnProxies 0) renamedState renamedLines := by
    refine ⟨?_, ?_, ?_, ?_, ?_, trivial⟩
    · exact State.ownProxies_of_all (by simp [Step.raw?]) (by simp) [] (.inr rfl) rfl
    · exact State.ownProxies_of_all (by simp [Step.raw?]) (by simp) [] (.inl rfl) rfl
    · exact State.ownProxies_of_all (by simp [Step.raw?]) (by simp) [] (.inl rfl) rfl
    · exact State.ownProxies_of_all (by simp [Step.raw?]) (by simp) [] (.inr rfl) rfl
    · exact State.ownProxies_of_all (by simp [Step.raw?]) (by simp) [.list [.slot "second"]] (.inr rfl)
        (by decide +kernel)
  have hrun : ((run renamedState renamedLines).client.sessions[0]?).map (fun session =>
      (session.requests[1]?.map (Session.isReleaseOf 7), session.requests[3]?.map Message.handles)) =
      some (some true, some [7]) := by
    decide +kernel
  have hcell : ((run renamedState renamedLines).client.cells[0]?).map (fun cell =>
      (cell.proxy, cell.released)) = some (⟨0, 0, 7, none⟩, true) := by
    decide +kernel
  obtain ⟨session, hs, heq⟩ := Option.map_eq_some_iff.mp hrun
  obtain ⟨cell, hfound, hproxy⟩ := Option.map_eq_some_iff.mp hcell
  rw [Prod.mk.injEq] at heq hproxy
  obtain ⟨release, hrelease, hof⟩ := Option.map_eq_some_iff.mp heq.1
  obtain ⟨m, hm, hhandles⟩ := Option.map_eq_some_iff.mp heq.2
  obtain ⟨⟨cut, _, hbetween⟩, hrefuses⟩ :=
    run_silentAfterRelease (State.fresh_ofChannel _ _) rfl rfl hown hs
  rw [Session.isReleaseOf_iff] at hof
  subst hof
  have hmem : 7 ∈ m.handles := by
    rw [hhandles]
    exact List.mem_singleton_self 7
  have hwire {n : Nat} {m : Message} (hn : session.requests[n]? = some m) :
      (session.requests ++ cut.toList)[n]? = some m := by
    rw [List.getElem?_append_left (List.getElem?_eq_some_iff.mp hn).1, hn]
  refine ⟨session, hs, hrelease, ⟨m, hm, hmem⟩,
    hbetween 1 3 7 m (by decide) (hwire hrelease) (hwire hm) hmem, ?_⟩
  have hrefused := hrefuses 0 cell hfound (by rw [hproxy.1]) (.inl hproxy.2) []
  rwa [hproxy.1] at hrefused

end Script

end ObjectBridge
