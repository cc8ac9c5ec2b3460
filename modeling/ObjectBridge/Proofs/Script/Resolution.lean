import Mathlib.Data.List.Induction
import ObjectBridge.Proofs.Client.Asking
import ObjectBridge.Proofs.Client.Plain
import ObjectBridge.Proofs.Script.Changes

/-!
# The names of a proxy

After any run a name on a proxy stands for the same as if nothing were remembered of methods and classes, and
to find out takes the same requests. The methods that are listed for a proxy are those that some line of the
run found on it (`run_resolution`).
-/

namespace ObjectBridge.Script

open Client

namespace State

variable {st : State} {p : Proxy} {name : String} {line : Line} {lines : List Line}

theorem changes_of_lookup {slot : String} {step : ProxyStep} {m : BoundMethod} {c : Client}
    (hstep : step.LooksUp st name) (h : Client.resolveName p name st.client = .ok (.method m) c) :
    Changes (fun _ => True) c (st.performOnProxy slot p step).2.client := by
  have hmethod : Client.method p name st.client = .ok m c := bind_of_ok _ h
  cases hstep with
  | resolveName =>
    rw [performOnProxy, client_act, h]
    exact .refl
  | method =>
    rw [performOnProxy, client_act, hmethod]
    exact .refl
  | get =>
    have hget : getMember p name st.client = .error (.notAProperty (classLabel p) name) c := bind_of_ok _ h
    rw [performOnProxy, client_act, hget]
    exact .refl
  | call args vs hvs =>
    have hcall : callMember p name vs st.client = Client.invoke m vs c := bind_of_ok _ hmethod
    rw [performOnProxy, hvs, given, client_act, hcall]
    exact changes_invoke m vs

theorem Finds.callable (h : st.Finds p name line.step) (hst : st.Sound) :
    name ∈ (st.step line).2.client.callables p := by
  obtain ⟨step, save⟩ := line
  obtain ⟨slot, step, hslot, hstep, c, hmethod⟩ := h
  have hfound := mem_callables_of_resolveName (hst.proxy hslot) hmethod
  have hperform : Changes (fun _ => True) c (st.perform (.proxy slot step)).2.client := by
    rw [perform, hslot]
    exact changes_of_lookup hstep hmethod
  have hstep : Changes (fun _ => True) c (st.step ⟨.proxy slot step, save⟩).2.client :=
    hperform.trans (changes_settle ..)
  exact hstep.callables_mono hfound

theorem callables_congr {c : Client} {q : Proxy} (h : q.key = p.key) : c.callables q = c.callables p := by
  rw [callables, callables, h]

/-- The methods noted on a proxy are those that the lines found on it. -/
theorem mem_callables_run (h : st.Fresh) (p : Proxy) (name : String) :
    name ∈ (run st lines).client.callables p ↔
      ∃ front line back q, lines = front ++ line :: back ∧ q.key = p.key ∧
        (run st front).Finds q name line.step := by
  induction lines using List.reverseRecOn with
  | nil =>
    have hnone : st.client.callables p = [] := by
      rw [callables, h.cells]
      rfl
    change name ∈ st.client.callables p ↔ _
    simp [hnone]
  | append_singleton lines line ih =>
    rw [run_concat]
    have hsound := h.sound_run lines
    have hchanges := changes_step hsound line
    constructor
    · intro hname
      obtain hbefore | ⟨q, hkey, hfinds⟩ := hchanges.callables_cases hname
      · obtain ⟨front, first, back, q, hlines, hkey, hfinds⟩ := ih.mp hbefore
        exact ⟨front, first, back ++ [line], q, by rw [hlines, List.append_assoc]; rfl, hkey, hfinds⟩
      · exact ⟨lines, line, [], q, rfl, hkey, hfinds⟩
    · rintro ⟨front, first, back, q, hlines, hkey, hfinds⟩
      -- The line that found the method is the last one, or one of those before.
      cases back using List.reverseRecOn with
      | nil =>
        obtain ⟨rfl, hlast⟩ := List.append_inj' hlines rfl
        cases hlast
        rw [← callables_congr hkey]
        exact hfinds.callable hsound
      | append_singleton back last =>
        rw [← List.cons_append, ← List.append_assoc] at hlines
        obtain ⟨rfl, _⟩ := List.append_inj' hlines rfl
        exact hchanges.callables_mono (ih.mpr ⟨front, first, back, q, rfl, hkey, hfinds⟩)

end State

/-- How the names of a proxy are resolved after some lines. -/
structure Resolution (st : State) (lines : List Line) (p : Proxy) : Prop where
  /-- A name has the same outcome, and leaves the same sessions and the same proxies, as in a client that
  remembers nothing of methods and classes. -/
  plain : ∀ name, name ≠ "cache" →
    erased (Client.resolveName p name (run st lines).client) = plainName p name (run st lines).client.plain
  /-- What it stands for is had by the requests that it needs, and no others are sent. -/
  requests : ∀ name a c, Client.resolveName p name (run st lines).client = .ok a c →
    Asks p.session ((run st lines).client.needed p name a) (run st lines).client c
  reserved : (run st lines).client.isReleased p = false → ∀ name a,
    (run st lines).client.reserved? p name = some a →
    Client.resolveName p name (run st lines).client = .ok a (run st lines).client
  cache : (run st lines).client.isReleased p = false →
    Client.resolveName p "cache" (run st lines).client =
      .ok (.callables ((run st lines).client.callables p)) (run st lines).client
  /-- The methods listed are those that a line found on the proxy, each of them once and in order. -/
  sorted : ((run st lines).client.callables p).Pairwise (· < ·)
  names : ∀ name, name ∈ (run st lines).client.callables p ↔ ∃ front line back,
    lines = front ++ line :: back ∧ (run st front).Finds p name line.step
  declared : ∀ name, name ∈ (run st lines).client.callables p → ∃ className template,
    p.className = some className ∧
      (run st lines).client.cachedTemplate? p.session className = some template ∧
      template.hasMethod name = true

theorem run_resolution {st : State} (h : st.Blank) (lines : List Line) {p : Proxy}
    (hp : (run st lines).client.Knows p) : Resolution st lines p := by
  have hc := h.consistent lines
  have hcache (c : Client) : c.reserved? p "cache" = some (.callables (c.callables p)) := rfl
  refine
    { plain := fun name => hc.resolveName_plain hp
      requests := fun name a c => hc.asks_resolveName hp
      reserved := fun hlive name a => resolveName_of_reserved hlive
      cache := fun hlive => resolveName_of_reserved hlive (hcache _)
      sorted := ?_
      names := fun name => ?_
      declared := fun name => hc.template_of_callable hp }
  · obtain ⟨cell, hcell, _⟩ := hp
    rw [callables, hcell]
    exact (hc.faithful p.key cell hcell).sorted
  · rw [State.mem_callables_run h.fresh]
    constructor
    · rintro ⟨front, line, back, q, hlines, hkey, hfinds⟩
      -- A proxy that was known then is known now, so it is the one with this key.
      have hq := hfinds.knows (h.fresh.sound_run front)
      have hafter : (run st lines).client.Knows q := by
        rw [hlines, run, List.foldl_append]
        have hchanges := State.changes_run (h.fresh.sound_run front) (line :: back)
        exact hchanges.knows hq
      obtain rfl := hp.unique hafter hkey
      exact ⟨front, line, back, hlines, hfinds⟩
    · rintro ⟨front, line, back, hlines, hfinds⟩
      exact ⟨front, line, back, p, hlines, rfl, hfinds⟩

/-- The server sends an object of a class that declares a method `f`, and properties `f` and `x`; `x` is
true. -/
def declaringState : State := .ofChannel
  { rest := [13, 208, 9, 7, 0, 0, 0, 1, 1, 0, 0, 0, 80, 13, 208, 213, 2, 0, 0, 0, 1, 0, 0, 0, 102,
      1, 0, 0, 0, 120, 1, 0, 0, 0, 1, 0, 0, 0, 102, 0, 0, 0, 0, 13, 208, 1, 1] } {}

/-- The names are looked up one after the other. -/
def declaredLines : List Line :=
  [⟨.session 0 (.create "P" []), some "p"⟩, ⟨.proxy "p" (.resolveName "f"), none⟩,
    ⟨.proxy "p" (.get "x"), none⟩]

/-- The method is found, and listed from then on. -/
theorem run_resolution_declared : ∃ p, (run declaringState declaredLines).proxy? "p" = some p ∧
    Resolution declaringState declaredLines p ∧
    (run declaringState declaredLines).client.callables p = ["f"] ∧
    ∃ front line back, declaredLines = front ++ line :: back ∧
      (run declaringState front).Finds p "f" line.step := by
  have hfresh : declaringState.Blank := State.blank_ofChannel _ _
  have hslot : (run declaringState declaredLines).proxy? "p" = some ⟨0, 0, 7, some "P"⟩ := by
    decide +kernel
  have hresolution : Resolution declaringState declaredLines ⟨0, 0, 7, some "P"⟩ :=
    run_resolution hfresh declaredLines ((hfresh.fresh.sound_run declaredLines).proxy hslot)
  have hcallables : (run declaringState declaredLines).client.callables ⟨0, 0, 7, some "P"⟩ = ["f"] := by
    decide +kernel
  refine ⟨_, hslot, hresolution, hcallables, (hresolution.names "f").mp ?_⟩
  rw [hcallables]
  exact List.mem_singleton_self _

end ObjectBridge.Script
