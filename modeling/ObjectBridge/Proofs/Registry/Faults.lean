import ObjectBridge.Registry

/-!
# Faults of conversions

The rules that come with the registry refuse a value with a fault that leaves the session as it is. So a fatal
fault of a conversion is one that a rule which was added gave for the value that it was chosen for
(`convert_eq_error_iff_rejects`).
-/

namespace ObjectBridge.Registry

variable {r : Registry} {released : Proxy → Bool} {fault : Fault}

mutual

/-- A conversion ends with a fault because a rule that was added to the standard ones rejects the value, or a
member of it that the standard rule for lists has come to. -/
inductive Rejects (r : Registry) (released : Proxy → Bool) (fault : Fault) : Value → Prop where
  | chosen {v : Value} {rule : Rule}
      {convert : (Proxy → Bool) → List (Except Fault Message) → Value → Except Fault Message}
      (hrule : r.ruleFor? released v = some rule) (hconverter : rule.converter = .custom convert)
      (h : r.convert released v = .error fault) : Rejects r released fault v
  | member {items : List Value} {rule : Rule} (hrule : r.ruleFor? released (.list items) = some rule)
      (hconverter : rule.converter = .array) (h : RejectsAmong r released fault items) :
      Rejects r released fault (.list items)

/-- The first of some values that has no message is one that an added rule rejects. -/
inductive RejectsAmong (r : Registry) (released : Proxy → Bool) (fault : Fault) : List Value → Prop where
  | head {v : Value} {vs : List Value} (h : Rejects r released fault v) : RejectsAmong r released fault (v :: vs)
  | tail {v : Value} {vs : List Value} {m : Message} (hv : r.convert released v = .ok m)
      (h : RejectsAmong r released fault vs) : RejectsAmong r released fault (v :: vs)

end

theorem not_rejectsAmong_nil : ¬ r.RejectsAmong released fault [] := nofun

mutual

/-- Only a registry to which a rule was added rejects values so. -/
theorem Rejects.added {v : Value} (h : r.Rejects released fault v) :
    ∃ rule ∈ r.rules, ∃ convert, rule.converter = .custom convert := by
  cases h with
  | chosen hrule hconverter => exact ⟨_, List.mem_of_find?_eq_some hrule, _, hconverter⟩
  | member _ _ h => exact h.added

theorem RejectsAmong.added {vs : List Value} (h : r.RejectsAmong released fault vs) :
    ∃ rule ∈ r.rules, ∃ convert, rule.converter = .custom convert := by
  cases h with
  | head h => exact h.added
  | tail _ h => exact h.added

end

theorem local_of_convertObject {v : Value} (h : convertObject released v = .error fault) :
    fault.isFatal = false := by
  cases v with
  | object p =>
    simp only [convertObject, handle] at h
    split at h
    · cases h
      rfl
    · cases h
  | _ =>
    cases h
    rfl

theorem local_of_convertScalar {v : Value} (h : convertScalar v = .error fault) :
    fault.isFatal = false := by
  cases v <;> cases h <;> rfl

theorem local_of_convertArray {v : Value} (h : convertArray v = .error fault) :
    fault.isFatal = false := by
  cases v with
  | matrix m =>
    simp only [convertArray] at h
    split at h <;> cases h
  | _ =>
    cases h <;> rfl

-- Only the standard rule for lists goes on to other values; a rule that was added answers for itself.
mutual

/-- The rules that come with the registry give no fatal faults. -/
theorem rejects_of_convert {v : Value} (h : r.convert released v = .error fault)
    (hfatal : fault.isFatal = true) : r.Rejects released fault v := by
  cases hrule : r.ruleFor? released v with
  | none =>
    unfold convert at h
    rw [hrule] at h
    cases h
    cases hfatal
  | some rule =>
    cases hconverter : rule.converter with
    | custom convert => exact .chosen hrule hconverter h
    | object =>
      unfold convert at h
      simp only [hrule, hconverter] at h
      rw [local_of_convertObject h] at hfatal
      cases hfatal
    | scalar =>
      unfold convert at h
      simp only [hrule, hconverter] at h
      rw [local_of_convertScalar h] at hfatal
      cases hfatal
    | array =>
      have hplain (h : convertArray v = .error fault) : r.Rejects released fault v := by
        rw [local_of_convertArray h] at hfatal
        cases hfatal
      unfold convert at h
      cases v with
      | list items =>
        simp only [hrule, hconverter] at h
        cases hitems : r.convertAll released items with
        | error reason =>
          rw [hitems] at h
          cases h
          exact .member hrule hconverter (rejectsAmong_of_convertAll hitems hfatal)
        | ok ms =>
          rw [hitems] at h
          cases h
      | _ =>
        simp only [hrule, hconverter] at h
        exact hplain h

theorem rejectsAmong_of_convertAll {vs : List Value} (h : r.convertAll released vs = .error fault)
    (hfatal : fault.isFatal = true) : r.RejectsAmong released fault vs := by
  cases vs with
  | nil => cases h
  | cons v vs =>
    unfold convertAll at h
    cases hv : r.convert released v with
    | error reason =>
      rw [hv] at h
      cases h
      exact .head (rejects_of_convert hv hfatal)
    | ok m =>
      rw [hv] at h
      cases hvs : r.convertAll released vs with
      | error reason =>
        simp only [hvs] at h
        cases h
        exact .tail hv (rejectsAmong_of_convertAll hvs hfatal)
      | ok ms =>
        simp only [hvs] at h
        cases h

end

mutual

theorem Rejects.convert {v : Value} (h : r.Rejects released fault v) : r.convert released v = .error fault := by
  cases h with
  | chosen _ _ h => exact h
  | member hrule hconverter h =>
    unfold Registry.convert
    simp only [hrule, hconverter, h.convertAll]
    rfl

theorem RejectsAmong.convertAll {vs : List Value} (h : r.RejectsAmong released fault vs) :
    r.convertAll released vs = .error fault := by
  cases h with
  | head h =>
    unfold Registry.convertAll
    rw [h.convert]
  | tail hv h =>
    unfold Registry.convertAll
    simp only [hv, h.convertAll]

end

/-- A conversion ends with a fatal fault just if an added rule rejects the value with it. -/
theorem convert_eq_error_iff_rejects {v : Value} (hfatal : fault.isFatal = true) :
    r.convert released v = .error fault ↔ r.Rejects released fault v :=
  ⟨fun h => rejects_of_convert h hfatal, Rejects.convert⟩

/-- A registry whose only rule takes every value for malformed. -/
def strict : Registry where
  catalogue := .standard
  rules := [⟨"strict", fun _ _ => true, .custom fun _ _ _ => .error (.malformed (.other "refused"))⟩]

end ObjectBridge.Registry
