import ObjectBridge.Dial

/-!
# The course of dialling

What is done while dialling is settled by the first attempt that is not refused, or else by the last one
that is made. Main statement: `dial_course`, which gives all events in order and the result, and says when
the start hook runs. The loop of attempts never runs out: `exhausted` is of no account.
-/

namespace ObjectBridge

variable {α : Type} {gap : Nat} {address : String} {attempt : Nat → Except IoError α}
  {hook : Option (Except Fault Unit)} {exhausted : Fault} {n last : Nat}

def refused : Except IoError α → Bool
  | .ok _ => false
  | .error cause => cause.kind = .connectionRefused

/-- Of the attempts from `first` to `last`, `n` is the first that is not refused, or the last one. -/
structure EndsAt (attempt : Nat → Except IoError α) (first last n : Nat) : Prop where
  first_le : first ≤ n
  le_last : n ≤ last
  refused_before : ∀ k, first ≤ k → k < n → refused (attempt k) = true
  last_of_refused : refused (attempt n) = true → n = last

/-- The attempts from number `n` on, `more` of them after the first, and what is done after each of them
but the last. -/
def attemptsFrom (between : Nat → DialEvent) (n : Nat) : Nat → List DialEvent
  | 0 => [.attempt n]
  | more + 1 => .attempt n :: between n :: attemptsFrom between (n + 1) more

/-- What is done after a refusal: the start hook runs after that of attempt 1, if there is one. -/
def afterRefusal (gap : Nat) (hook : Option (Except Fault Unit)) (n : Nat) : DialEvent :=
  if hook.isSome ∧ n = 1 then .startHook else .pause gap

/-- What follows a refusal that is not the last, where `rest` comes of the attempts that are left. -/
def Dialled.afterHook (gap : Nat) (hook : Option (Except Fault Unit)) (rest : Dialled α) : Dialled α :=
  match hook with
  | some (.error fault) => ⟨[.startHook], .error fault⟩
  | some (.ok ()) => .after .startHook rest
  | none => .after (.pause gap) rest

/-! ### One attempt -/

theorem dialFrom_of_end (left : Nat) (h : refused (attempt n) = true → n = last) :
    dialFrom gap address attempt hook last exhausted n (left + 1) =
      ⟨[.attempt n], (attempt n).mapError (.connectFailed address n)⟩ := by
  unfold dialFrom
  cases hn : attempt n with
  | ok connection => rfl
  | error cause =>
    have hend : cause.kind ≠ .connectionRefused ∨ n = last := by
      by_cases hkind : cause.kind = .connectionRefused
      · exact .inr (h (by simp [hn, refused, hkind]))
      · exact .inl hkind
    simp only [if_pos hend]
    rfl

theorem dialFrom_of_refused (left : Nat) (h : refused (attempt n) = true) (hne : n ≠ last) :
    dialFrom gap address attempt hook last exhausted n (left + 1) =
      .after (.attempt n)
        (.afterHook gap hook (dialFrom gap address attempt none last exhausted (n + 1) left)) := by
  cases hn : attempt n with
  | ok connection => simp [hn, refused] at h
  | error cause =>
    have hkind : cause.kind = .connectionRefused := by simpa [hn, refused] using h
    have hgoes : ¬ (cause.kind ≠ .connectionRefused ∨ n = last) := by simp [hkind, hne]
    simp only [dialFrom, hn, if_neg hgoes]
    cases hook with
    | none => rfl
    | some outcome => cases outcome <;> rfl

/-! ### All attempts -/

namespace EndsAt

theorem of_end {first : Nat} (hle : first ≤ last) (h : refused (attempt first) = true → first = last) :
    EndsAt attempt first last first :=
  ⟨Nat.le_refl _, hle, fun _ hfirst hlt => absurd hlt (Nat.not_lt.mpr hfirst), h⟩

theorem of_refused {first : Nat} (h : refused (attempt first) = true)
    (hends : EndsAt attempt (first + 1) last n) : EndsAt attempt first last n := by
  refine ⟨by have := hends.first_le; omega, hends.le_last, fun k hfirst hlt => ?_, hends.last_of_refused⟩
  obtain rfl | hfirst := Nat.eq_or_lt_of_le hfirst
  · exact h
  · exact hends.refused_before k hfirst hlt

theorem exists_of_le (attempt : Nat → Except IoError α) {first : Nat} (hle : first ≤ last) :
    ∃ n, EndsAt attempt first last n := by
  induction hleft : last - first generalizing first with
  | zero =>
    have hlast : first = last := by omega
    exact ⟨first, of_end hle fun _ => hlast⟩
  | succ left ih =>
    by_cases h : refused (attempt first) = true
    · have hnext : first + 1 ≤ last := by omega
      obtain ⟨n, hn⟩ := ih hnext (by omega)
      exact ⟨n, hn.of_refused h⟩
    · exact ⟨first, of_end hle fun hfirst => absurd hfirst h⟩

theorem two_le_iff (h : EndsAt attempt 1 last n) : 2 ≤ n ↔ refused (attempt 1) = true ∧ 2 ≤ last := by
  have hfirst := h.first_le
  have hlast := h.le_last
  refine ⟨fun hn => ⟨h.refused_before 1 (Nat.le_refl _) hn, by omega⟩, fun ⟨hrefused, htwo⟩ => ?_⟩
  refine Nat.le_of_not_lt fun hlt => ?_
  obtain rfl : n = 1 := by omega
  have hend := h.last_of_refused hrefused
  omega

end EndsAt

/-- From the second attempt on there is no hook: all refusals are waited for. -/
theorem dialFrom_none (gap : Nat) (address : String) (exhausted : Fault) {first : Nat}
    (h : EndsAt attempt first last n) :
    dialFrom gap address attempt none last exhausted first (last + 1 - first) =
      ⟨attemptsFrom (fun _ => .pause gap) first (n - first),
        (attempt n).mapError (.connectFailed address n)⟩ := by
  have hfirst := h.first_le
  have hlast := h.le_last
  -- Of the attempts up to `last` those behind attempt `n` are never made, so the induction is on `n - first`.
  induction hmore : n - first generalizing first with
  | zero =>
    have hn : first = n := by omega
    subst hn
    obtain ⟨left, hleft⟩ : ∃ left, last + 1 - first = left + 1 := ⟨last - first, by omega⟩
    rw [hleft, dialFrom_of_end left h.last_of_refused]
    rfl
  | succ more ih =>
    have hrefused : refused (attempt first) = true := h.refused_before first (Nat.le_refl _) (by omega)
    have hleft : last + 1 - first = (last + 1 - (first + 1)) + 1 := by omega
    have hrest : EndsAt attempt (first + 1) last n :=
      ⟨by omega, hlast, fun k hk => h.refused_before k (by omega), h.last_of_refused⟩
    rw [hleft, dialFrom_of_refused _ hrefused (by omega), ih hrest (by omega) (by omega)]
    rfl

theorem attemptsFrom_congr {between between' : Nat → DialEvent} {more : Nat}
    (h : ∀ k, n ≤ k → between k = between' k) :
    attemptsFrom between n more = attemptsFrom between' n more := by
  induction more generalizing n with
  | zero => rfl
  | succ more ih => rw [attemptsFrom, attemptsFrom, h n (Nat.le_refl _), ih fun k hk => h k (by omega)]

theorem attemptsFrom_afterRefusal (more : Nat) :
    attemptsFrom (afterRefusal gap hook) 1 (more + 1) =
      .attempt 1 :: afterRefusal gap hook 1 :: attemptsFrom (fun _ => .pause gap) 2 more := by
  have hrest : attemptsFrom (afterRefusal gap hook) 2 more =
      attemptsFrom (fun _ => .pause gap) 2 more :=
    attemptsFrom_congr fun k hk => if_neg fun hand => by omega
  rw [attemptsFrom, hrest]

/-! ### The hook -/

theorem dialFrom_of_hook {fault : Fault} (h : EndsAt attempt 1 last n) (hn : 2 ≤ n) :
    dialFrom gap address attempt (some (.error fault)) last exhausted 1 last =
      ⟨[.attempt 1, .startHook], .error fault⟩ := by
  have hlast := h.le_last
  obtain ⟨left, rfl⟩ : ∃ left, last = left + 1 := ⟨last - 1, by omega⟩
  rw [dialFrom_of_refused left (h.refused_before 1 (Nat.le_refl _) hn) (by omega)]
  rfl

/-- A hook that does not fail where it runs leaves the attempts to decide. -/
theorem dialFrom_of_attempts (h : EndsAt attempt 1 last n)
    (hhook : ∀ fault, hook = some (.error fault) → ¬ 2 ≤ n) :
    dialFrom gap address attempt hook last exhausted 1 last =
      ⟨attemptsFrom (afterRefusal gap hook) 1 (n - 1),
        (attempt n).mapError (.connectFailed address n)⟩ := by
  have hfirst := h.first_le
  have hlast := h.le_last
  obtain ⟨left, rfl⟩ : ∃ left, last = left + 1 := ⟨last - 1, by omega⟩
  obtain rfl | hn := Nat.eq_or_lt_of_le hfirst
  · rw [dialFrom_of_end left h.last_of_refused]
    rfl
  · have hrest : EndsAt attempt 2 (left + 1) n :=
      ⟨hn, hlast, fun k hk => h.refused_before k (by omega), h.last_of_refused⟩
    have hpaused := dialFrom_none gap address exhausted hrest
    have hleft : left + 1 + 1 - 2 = left := by omega
    have hmore : n - 1 = (n - 2) + 1 := by omega
    rw [hleft] at hpaused
    rw [dialFrom_of_refused left (h.refused_before 1 (Nat.le_refl _) hn) (by omega), hpaused, hmore,
      attemptsFrom_afterRefusal]
    cases hook with
    | none => rfl
    | some outcome =>
      cases outcome with
      | error fault => exact absurd hn (hhook fault rfl)
      | ok _ => rfl

theorem count_startHook_pauses (more : Nat) :
    (attemptsFrom (fun _ => .pause gap) n more).count .startHook = 0 := by
  induction more generalizing n with
  | zero => rfl
  | succ more ih => simp [attemptsFrom, ih]

theorem count_startHook_attempts (hfirst : 1 ≤ n) :
    (attemptsFrom (afterRefusal gap hook) 1 (n - 1)).count .startHook =
      if hook.isSome ∧ 2 ≤ n then 1 else 0 := by
  obtain rfl | hn := Nat.eq_or_lt_of_le hfirst
  · rw [if_neg fun hand => absurd hand.2 (by omega)]
    rfl
  · have hmore : n - 1 = (n - 2) + 1 := by omega
    rw [hmore, attemptsFrom_afterRefusal]
    cases hook with
    | none => simp [afterRefusal, count_startHook_pauses]
    | some outcome => simp [afterRefusal, count_startHook_pauses, show 2 ≤ n from hn]

theorem count_startHook (h : EndsAt attempt 1 last n) :
    (dialFrom gap address attempt hook last exhausted 1 last).events.count .startHook =
      if hook.isSome ∧ 2 ≤ n then 1 else 0 := by
  by_cases hfails : ∃ fault, hook = some (.error fault) ∧ 2 ≤ n
  · obtain ⟨fault, rfl, hn⟩ := hfails
    rw [dialFrom_of_hook h hn]
    simp [hn]
  · rw [dialFrom_of_attempts h fun fault hhook hn => hfails ⟨fault, hhook, hn⟩]
    exact count_startHook_attempts h.first_le

/-! ### Dialling -/

/-- Dialling makes the attempts 1, 2, 3, … up to the first that is not refused or that is the last one
allowed, and comes to the connection of that attempt or to a fault with its number and its error. The hook
runs once if there is one, attempt 1 was refused and another one is allowed, and then between attempts 1
and 2; if it fails, that is the result. What the loop would come to without an attempt left plays no
part. -/
theorem dial_course (policy : RetryPolicy) (address : String) (attempt : Nat → Except IoError α)
    (hook : Option (Except Fault Unit)) :
    ∃ n, EndsAt attempt 1 (max policy.retries 1) n ∧
      ((∀ fault, hook = some (.error fault) →
          ¬ (refused (attempt 1) = true ∧ 2 ≤ max policy.retries 1)) →
        dial policy address attempt hook =
          ⟨attemptsFrom (afterRefusal policy.gap hook) 1 (n - 1),
            (attempt n).mapError (.connectFailed address n)⟩) ∧
      (∀ fault, hook = some (.error fault) → refused (attempt 1) = true →
        2 ≤ max policy.retries 1 →
        dial policy address attempt hook = ⟨[.attempt 1, .startHook], .error fault⟩) ∧
      (dial policy address attempt hook).events.count .startHook =
        (if hook.isSome ∧ refused (attempt 1) = true ∧ 2 ≤ max policy.retries 1 then 1 else 0) ∧
      ∀ exhausted, dialFrom policy.gap address attempt hook (max policy.retries 1) exhausted 1
        (max policy.retries 1) = dial policy address attempt hook := by
  have hlast : 1 ≤ max policy.retries 1 := Nat.le_max_right _ _
  obtain ⟨n, hends⟩ := EndsAt.exists_of_le attempt hlast
  have htwo := hends.two_le_iff
  refine ⟨n, hends, fun hhook => ?_, fun fault hhook hrefused hlast => ?_, ?_, fun exhausted => ?_⟩
  · exact dialFrom_of_attempts hends fun fault hfault hn => hhook fault hfault (htwo.mp hn)
  · subst hhook
    exact dialFrom_of_hook hends (htwo.mpr ⟨hrefused, hlast⟩)
  · simp only [← htwo]
    exact count_startHook hends
  · by_cases hfails : ∃ fault, hook = some (.error fault) ∧ 2 ≤ n
    · obtain ⟨fault, rfl, hn⟩ := hfails
      exact (dialFrom_of_hook hends hn).trans (dialFrom_of_hook hends hn).symm
    · have hhook : ∀ fault, hook = some (.error fault) → ¬ 2 ≤ n :=
        fun fault hfault hn => hfails ⟨fault, hfault, hn⟩
      exact (dialFrom_of_attempts hends hhook).trans (dialFrom_of_attempts hends hhook).symm

example : dial ⟨3, 10⟩ "host:1" (fun n => if n < 3 then .error ⟨.connectionRefused, none⟩ else .ok n)
      (some (.ok ())) =
    ⟨[.attempt 1, .startHook, .attempt 2, .pause 10, .attempt 3], .ok 3⟩ := by
  rfl

end ObjectBridge
