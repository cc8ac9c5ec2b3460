import ObjectBridge.Proofs.Client.LifeCycle
import ObjectBridge.Proofs.Client.Requests

/-!
# Alike but for a session

Two clients are alike but for a session if they differ at most in its channel, in how it stands and in the
replies that it has noted (`Client.Alike`). What is done to a client without a channel, or by the way on one
like the release of a dropped proxy, leaves alike clients alike, and a session that is not up as it is
(`Client.Mild`).
-/

namespace ObjectBridge

namespace Session

variable {α : Type} {a b d : Session}

/-- Sessions that differ at most in the channel, the standing and the replies noted. -/
def Alike (a b : Session) : Prop :=
  ∃ channel standing answers,
    b = { a with channel := channel, standing := standing, answers := answers }

namespace Alike

theorem refl (a : Session) : a.Alike a := ⟨a.channel, a.standing, a.answers, rfl⟩

theorem symm (h : a.Alike b) : b.Alike a := by
  obtain ⟨_, _, _, rfl⟩ := h
  exact ⟨a.channel, a.standing, a.answers, rfl⟩

theorem trans (h : a.Alike b) (h' : b.Alike d) : a.Alike d := by
  obtain ⟨_, _, _, rfl⟩ := h
  obtain ⟨channel, standing, answers, rfl⟩ := h'
  exact ⟨channel, standing, answers, rfl⟩

theorem transact (step : Channel.Action α) (a : Session) : a.Alike (after (Session.transact step a)) := by
  unfold Session.transact
  split
  · exact refl a
  · exact refl a
  · split
    · exact ⟨_, a.standing, a.answers, rfl⟩
    · split
      · exact ⟨_, _, a.answers, rfl⟩
      · exact ⟨_, a.standing, a.answers, rfl⟩

theorem forget (h : a.Alike b) (p : Proxy) : (a.forget p).Alike (b.forget p) := by
  obtain ⟨channel, standing, answers, rfl⟩ := h
  exact ⟨channel, standing, answers, rfl⟩

end Alike

end Session

namespace Client

variable {α β : Type} {s t : Nat} {c c' : Client} {refusal fault : Fault}

/-- Clients that differ at most in the channel of a session, in how it stands and in the replies that it has
noted. -/
structure Alike (s : Nat) (c c' : Client) : Prop where
  cells : c'.cells = c.cells
  sessions : ∀ t, Option.Rel (fun a b => a.Alike b ∧ (t ≠ s → b = a)) c.sessions[t]? c'.sessions[t]?

theorem alike_modifySession (c : Client) {f : Session → Session} (hf : ∀ a : Session, a.Alike (f a)) :
    c.Alike s (c.modifySession s f) := by
  refine ⟨rfl, fun t => ?_⟩
  rw [modifySession, Array.getElem?_modify]
  by_cases hst : s = t
  · rw [if_pos hst]
    cases c.sessions[t]? with
    | none => exact .none
    | some session => exact .some ⟨hf session, fun hne => absurd hst.symm hne⟩
  · rw [if_neg hst]
    cases c.sessions[t]? with
    | none => exact .none
    | some session => exact .some ⟨.refl session, fun _ => rfl⟩

namespace Alike

/-- Alike clients have the same sessions, and all but one of them are the same. -/
theorem cases (h : c.Alike s c') (t : Nat) :
    c.sessions[t]? = none ∧ c'.sessions[t]? = none ∨
      ∃ a b, c.sessions[t]? = some a ∧ c'.sessions[t]? = some b ∧ a.Alike b ∧ (t ≠ s → b = a) := by
  have hrel := h.sessions t
  revert hrel
  generalize c.sessions[t]? = found, c'.sessions[t]? = found'
  intro hrel
  cases hrel with
  | none => exact .inl ⟨rfl, rfl⟩
  | some hab => exact .inr ⟨_, _, rfl, rfl, hab⟩

theorem same (h : c.Alike s c') (hts : t ≠ s) : c'.sessions[t]? = c.sessions[t]? := by
  obtain ⟨hs, hs'⟩ | ⟨a, b, hs, hs', _, hsame⟩ := h.cases t
  · rw [hs, hs']
  · rw [hs, hs', hsame hts]

theorem registry (h : c.Alike s c') (t : Nat) : c'.registry t = c.registry t := by
  obtain ⟨hs, hs'⟩ | ⟨a, _, hs, hs', ⟨_, _, _, rfl⟩, _⟩ := h.cases t
  · rw [Client.registry, Client.registry, hs, hs']
  · rw [Client.registry, Client.registry, hs, hs']

theorem isReleased (h : c.Alike s c') : c'.isReleased = c.isReleased := by
  funext p
  rw [Client.isReleased, h.cells, Client.isReleased]

theorem cachedTemplate? (h : c.Alike s c') (t : Nat) (className : String) :
    c'.cachedTemplate? t className = c.cachedTemplate? t className := by
  obtain ⟨hs, hs'⟩ | ⟨a, _, hs, hs', ⟨_, _, _, rfl⟩, _⟩ := h.cases t
  · rw [Client.cachedTemplate?, Client.cachedTemplate?, hs, hs']
  · rw [Client.cachedTemplate?, Client.cachedTemplate?, hs, hs']
    rfl

theorem isAlive (h : c.Alike s c') (t : Nat) : c'.isAlive t = c.isAlive t := by
  obtain ⟨hs, hs'⟩ | ⟨a, _, hs, hs', ⟨_, _, _, rfl⟩, _⟩ := h.cases t
  · rw [Client.isAlive, Client.isAlive, hs, hs', h.cells]
  · rw [Client.isAlive, Client.isAlive, hs, hs', h.cells]

theorem standing? (h : c.Alike s c') (t : Nat) (id : Int32) : c'.standing? t id = c.standing? t id := by
  obtain ⟨hs, hs'⟩ | ⟨a, _, hs, hs', ⟨_, _, _, rfl⟩, _⟩ := h.cases t
  · rw [Client.standing?, Client.standing?, hs, hs', h.cells]
  · rw [Client.standing?, Client.standing?, hs, hs', h.cells]
    rfl

theorem objectFor (h : c.Alike s c') (t : Nat) (id : Int32) (className : Option String) :
    (c'.objectFor t id className).1 = (c.objectFor t id className).1 := by
  have hstanding := h.standing? t id
  cases hfound : c.standing? t id with
  | some p =>
    rw [hfound] at hstanding
    rw [objectFor_of_some className hfound, objectFor_of_some className hstanding]
  | none =>
    rw [hfound] at hstanding
    rw [objectFor_of_none className hfound, objectFor_of_none className hstanding, h.cells]

theorem modifyCell (h : c.Alike s c') (p : Proxy) (f : Cell → Cell) :
    (c.modifyCell p f).Alike s (c'.modifyCell p f) :=
  ⟨congrArg (·.modify p.key f) h.cells, h.sessions⟩

theorem modifySession (h : c.Alike s c') (t : Nat) {f : Session → Session}
    (hf : t = s → ∀ a b, a.Alike b → (f a).Alike (f b)) :
    (c.modifySession t f).Alike s (c'.modifySession t f) := by
  refine ⟨h.cells, fun i => ?_⟩
  simp only [Client.modifySession, Array.getElem?_modify]
  split
  · rename_i hti
    subst hti
    obtain ⟨hs, hs'⟩ | ⟨a, b, hs, hs', hab, hsame⟩ := h.cases t
    · rw [hs, hs']
      exact .none
    · rw [hs, hs']
      refine .some ⟨?_, fun hne => congrArg f (hsame hne)⟩
      by_cases hts : t = s
      · exact hf hts a b hab
      · rw [hsame hts]
        exact .refl (f a)
  · exact h.sessions i

theorem hold (h : c.Alike s c') (v : Value) : (c.hold v).Alike s (c'.hold v) := by
  rw [Client.hold, Client.hold]
  induction v.proxies generalizing c c' with
  | nil => exact h
  | cons p ps ih => exact ih (h.modifyCell p _)

theorem letGo (h : c.Alike s c') (p : Proxy) : (c.letGo p).Alike s (c'.letGo p) := by
  -- The release may be sent in one client and not in the other: that shows on the channel alone.
  have htold (c : Client) : c.letGo p = c.modifySession p.session fun session =>
      after (Session.post (.release p.id) (session.forget p)) := letGo_eq c.sessions c.cells p
  rw [htold, htold]
  refine h.modifySession p.session fun _ a b hab => ?_
  exact ((Session.Alike.transact _ _).symm.trans (hab.forget p)).trans (Session.Alike.transact _ _)

theorem discardAll (h : c.Alike s c') (vs : List Value) : (c.discardAll vs).Alike s (c'.discardAll vs) := by
  have hfold (gone : List Proxy) {c c' : Client} (h : c.Alike s c') :
      (gone.foldl Client.letGo c).Alike s (gone.foldl Client.letGo c') := by
    induction gone generalizing c c' with
    | nil => exact h
    | cons p gone ih => exact ih (h.letGo p)
  rw [Client.discardAll, Client.discardAll, h.cells]
  exact hfold _ ⟨rfl, h.sessions⟩

end Alike

/-- Changes that depend on no channel and leave the standing and the registry of each session as they are
wherever it is not up. -/
structure Mild (f : Client → Client) : Prop where
  alike : ∀ {s c c'}, c.Alike s c' → (f c).Alike s (f c')
  refusal : ∀ {s c reason}, c.refusal? s = some reason → (f c).refusal? s = some reason
  registry : ∀ c t, (f c).registry t = c.registry t

theorem mild_of_runs {f : Client → Client} (hruns : ∀ c, Runs (fun _ _ => True) c (f c))
    (halike : ∀ {s c c'}, c.Alike s c' → (f c).Alike s (f c')) : Mild f :=
  ⟨halike, fun {_ c _} h => (hruns c).refusal? h, fun c t => (hruns c).registry_eq t⟩

theorem mild_id : Mild id := ⟨id, id, fun _ _ => rfl⟩

theorem mild_hold (v : Value) : Mild (·.hold v) := mild_of_runs (fun _ => runs_hold v) (·.hold v)

theorem mild_discardAll (vs : List Value) : Mild (·.discardAll vs) :=
  mild_of_runs (fun _ => runs_discardAll vs) (·.discardAll vs)

theorem mild_modifyCell (p : Proxy) (f : Cell → Cell) : Mild (·.modifyCell p f) :=
  ⟨(·.modifyCell p f), id, fun _ _ => rfl⟩

theorem mild_modifySession (t : Nat) {f : Session → Session}
    (halike : ∀ a b, a.Alike b → (f a).Alike (f b)) (hstanding : ∀ a, (f a).standing = a.standing)
    (hregistry : ∀ a, (f a).registry = a.registry) : Mild (·.modifySession t f) := by
  refine ⟨fun h => h.modifySession t fun _ => halike, fun {s c reason} h => ?_, fun c i => ?_⟩
  · simp only [refusal?, modifySession, Array.getElem?_modify] at h ⊢
    split
    · cases hs : c.sessions[s]? with
      | none =>
        rw [hs] at h
        cases h
      | some session =>
        rw [hs] at h
        exact (Session.refusal?_congr (hstanding session)).trans h
    · exact h
  · rw [registry, modifySession, Array.getElem?_modify, registry]
    by_cases hti : t = i
    · rw [if_pos hti]
      cases c.sessions[i]? with
      | none => rfl
      | some session => exact hregistry session
    · rw [if_neg hti]

theorem Mild.comp {f g : Client → Client} (hf : Mild f) (hg : Mild g) : Mild fun c => g (f c) :=
  ⟨fun h => hg.alike (hf.alike h), fun h => hg.refusal (hf.refusal h),
    fun c t => (hg.registry (f c) t).trans (hf.registry c t)⟩

end Client

end ObjectBridge
