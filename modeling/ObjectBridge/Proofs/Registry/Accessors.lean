import ObjectBridge.Proofs.Registry.Tagged

/-!
# What native code reads of a value

A value is looked at through accessors, each for the kinds that it has an answer for (`accessors_kind`). The integer
that is read is the one that the message of the value carries (`integers_of_convert`), as a double it is the nearest
one, and the accessors say the same of a value that was sent to the server and came back (`accessors_normal`).
-/

namespace ObjectBridge.Value

variable {v : Value}

theorem accessors_kind (v : Value) :
    (v.isNull = true ↔ v.kind = .null) ∧ (v.asBool?.isSome = true ↔ v.kind = .bool) ∧
      (v.asInt?.isSome = true ↔ v.kind = .byte ∨ v.kind = .int) ∧
      (v.asFloat?.isSome = true ↔ v.kind = .byte ∨ v.kind = .int ∨ v.kind = .float) ∧
      (v.asText?.isSome = true ↔ v.kind = .string) ∧ (v.asObject?.isSome = true ↔ v.kind = .object) := by
  cases v <;> simp [isNull, asBool?, asInt?, asFloat?, asText?, asObject?, kind]

/-- The accessors have an answer for every scalar. Beyond them there is only the one for objects. -/
theorem isScalar_eq (v : Value) :
    v.isScalar = (v.isNull || v.asBool?.isSome || v.asFloat?.isSome || v.asText?.isSome) := by
  cases v <;> rfl

/-! ### Integers -/

theorem toInt_byte (b : UInt8) : (Int64.ofNat b.toNat).toInt = b.toNat :=
  Int64.toInt_ofNat_of_lt (Nat.lt_trans b.toNat_lt (by decide))

theorem integers_of_asInt? {n : Int64} (h : v.asInt? = some n) : v.integers = [n.toInt] := by
  cases v with
  | int k =>
    cases h
    rfl
  | byte b =>
    cases h
    rw [integers, toInt_byte]
  | _ => cases h

/-- The integer that is read is the one that the message of the value carries. -/
theorem integers_of_convert {released : Proxy → Bool} {m : Message} {n : Int64}
    (hm : Registry.standard.convert released v = .ok m) (h : v.asInt? = some n) : m.integers = [n.toInt] :=
  (Registry.integers_convert hm).trans (integers_of_asInt? h)

theorem asFloat?_of_asInt? {n : Int64} (h : v.asInt? = some n) : v.asFloat? = some (.ofInt n.toInt) := by
  cases v with
  | int k =>
    cases h
    rfl
  | byte b =>
    cases h
    rw [asFloat?, toInt_byte]
  | _ => cases h

/-! ### There and back -/

/-- Of the value that comes back from the server the accessors say what they say of the one that was sent. -/
theorem accessors_normal (v : Value) :
    v.normal.isNull = v.isNull ∧ v.normal.asBool? = v.asBool? ∧ v.normal.asInt? = v.asInt? ∧
      v.normal.asFloat? = v.asFloat? ∧ v.normal.asText? = v.asText? ∧ v.normal.asObject? = v.asObject? := by
  cases v with
  | matrix m =>
    by_cases h : m.cols = 1
    · rw [normal_of_column h]
      exact ⟨rfl, rfl, rfl, rfl, rfl, rfl⟩
    · rw [normal_of_not_column h]
      exact ⟨rfl, rfl, rfl, rfl, rfl, rfl⟩
  | _ => exact ⟨rfl, rfl, rfl, rfl, rfl, rfl⟩

end ObjectBridge.Value
