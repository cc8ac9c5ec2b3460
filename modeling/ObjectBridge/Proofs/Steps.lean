import ObjectBridge.Fault

/-!
# Steps that can fail

Readers, writers, channels, sessions and clients all step in the same way: a step gives a value or a
fault, and in both cases a state. What a sequence of two steps comes to is read off here once.
-/

namespace ObjectBridge

variable {ε σ α β : Type}

/-- The state that a step ends in, whether it succeeds or fails. -/
def after : EStateM.Result ε σ α → σ
  | .ok _ s => s
  | .error _ s => s

/-- What a step gives: a value or a fault. -/
def verdict : EStateM.Result ε σ α → Except ε α
  | .ok x _ => .ok x
  | .error fault _ => .error fault

/-- The fault that stands in place of a value, if there is one. -/
def fault? : Except ε α → Option ε
  | .ok _ => none
  | .error fault => some fault

theorem fault?_eq_some {x : Except ε α} {fault : ε} : fault? x = some fault ↔ x = .error fault := by
  cases x <;> simp [fault?]

theorem bind_of_ok {a : EStateM ε σ α} (f : α → EStateM ε σ β) {s mid : σ} {x : α}
    (h : a s = .ok x mid) : (a >>= f) s = f x mid := by
  show EStateM.bind a f s = _
  simp only [EStateM.bind, h]

theorem bind_of_error {a : EStateM ε σ α} (f : α → EStateM ε σ β) {s mid : σ} {fault : ε}
    (h : a s = .error fault mid) : (a >>= f) s = .error fault mid := by
  show EStateM.bind a f s = _
  simp only [EStateM.bind, h]

theorem get_bind (f : σ → EStateM ε σ β) (s : σ) :
    ((MonadState.get : EStateM ε σ σ) >>= f) s = f s s := rfl

theorem bind_ok {a : EStateM ε σ α} {f : α → EStateM ε σ β} {s s' : σ} {y : β} :
    (a >>= f) s = .ok y s' ↔ ∃ x mid, a s = .ok x mid ∧ f x mid = .ok y s' := by
  cases h : a s with
  | ok x mid =>
    rw [bind_of_ok f h]
    refine ⟨fun hf => ⟨x, mid, rfl, hf⟩, fun hf => ?_⟩
    obtain ⟨_, _, hx, hf⟩ := hf
    cases hx
    exact hf
  | error fault mid =>
    rw [bind_of_error f h]
    simp

theorem bind_error {a : EStateM ε σ α} {f : α → EStateM ε σ β} {s s' : σ} {fault : ε} :
    (a >>= f) s = .error fault s' ↔
      a s = .error fault s' ∨ ∃ x mid, a s = .ok x mid ∧ f x mid = .error fault s' := by
  cases h : a s with
  | ok x mid =>
    rw [bind_of_ok f h]
    refine ⟨fun hf => .inr ⟨x, mid, rfl, hf⟩, fun hf => ?_⟩
    obtain hf | ⟨_, _, hx, hf⟩ := hf
    · cases hf
    · cases hx
      exact hf
  | error reason mid =>
    rw [bind_of_error f h]
    simp

theorem pure_ok {x y : α} {s s' : σ} :
    (pure x : EStateM ε σ α) s = .ok y s' ↔ x = y ∧ s = s' := by
  show EStateM.Result.ok x s = .ok y s' ↔ _
  simp

theorem throw_ok {fault : ε} {y : α} {s s' : σ} :
    ¬ (throw fault : EStateM ε σ α) s = .ok y s' := by
  show ¬ EStateM.Result.error fault s = .ok y s'
  simp

end ObjectBridge
