import ObjectBridge.Registry

/-!
# Normal values

Of some values the standard registry makes the same message: an array of doubles travels as a vector without
labels, and a matrix of one column as the vector of that column. `Value.normal` is the one of them that a
message stands for. It is reached in one go, and its message is that of the value (`convert_normal`); and
the registry has a message for every value whose proxies all have their objects (`exists_convert`).
-/

namespace ObjectBridge

/-- An integer that fits stays the same when it is narrowed. -/
theorem toInt_toInt32 {v : Int64} (h : -0x80000000 ≤ v.toInt ∧ v.toInt < 0x80000000) :
    v.toInt32.toInt = v.toInt := by
  rw [Int64.toInt_toInt32]
  exact Int.bmod_eq_of_le (by omega) (by omega)

/-- The only column of a matrix, with the row labels. The label of the column is left out. -/
def LabelledMatrix.onlyColumn (m : LabelledMatrix) (h : m.cols = 1) : LabelledVector :=
  ⟨m.rowLabels, m.data, by
    rw [m.length_data, h, Nat.mul_one]
    exact m.rowLabels_fit⟩

namespace Value

mutual

def normal : Value → Value
  | float64Array vs => vector (.ofValues vs)
  | matrix m => if h : m.cols = 1 then vector (m.onlyColumn h) else matrix m
  | list items => list (normalOfAll items)
  | v => v

def normalOfAll : List Value → List Value
  | [] => []
  | v :: vs => normal v :: normalOfAll vs

end

theorem normal_of_column {m : LabelledMatrix} (h : m.cols = 1) :
    (matrix m).normal = vector (m.onlyColumn h) := dif_pos h

theorem normal_of_not_column {m : LabelledMatrix} (h : m.cols ≠ 1) : (matrix m).normal = matrix m :=
  dif_neg h

mutual

theorem normal_normal (v : Value) : v.normal.normal = v.normal := by
  cases v with
  | matrix m =>
    by_cases h : m.cols = 1
    · rw [normal_of_column h]
      rfl
    · rw [normal_of_not_column h, normal_of_not_column h]
  | list items => exact congrArg list (normalOfAll_normalOfAll items)
  | _ => rfl

theorem normalOfAll_normalOfAll (vs : List Value) : normalOfAll (normalOfAll vs) = normalOfAll vs := by
  cases vs with
  | nil => rfl
  | cons v vs => rw [normalOfAll, normalOfAll, normal_normal v, normalOfAll_normalOfAll vs]

end

mutual

theorem proxies_normal (v : Value) : v.normal.proxies = v.proxies := by
  cases v with
  | matrix m =>
    by_cases h : m.cols = 1
    · rw [normal_of_column h]
      rfl
    · rw [normal_of_not_column h]
  | list items => exact proxiesOfAll_normalOfAll items
  | _ => rfl

theorem proxiesOfAll_normalOfAll (vs : List Value) : proxiesOfAll (normalOfAll vs) = proxiesOfAll vs := by
  cases vs with
  | nil => rfl
  | cons v vs =>
    rw [normalOfAll, proxiesOfAll, proxiesOfAll, proxies_normal v, proxiesOfAll_normalOfAll vs]

end

end Value

namespace Registry

variable {released : Proxy → Bool}

/-! ### The rules of the standard registry -/

theorem convert_object (p : Proxy) :
    standard.convert released (.object p) = (handle released p).map Message.object := by
  unfold convert
  rfl

theorem convert_list (items : List Value) :
    standard.convert released (.list items) =
      (standard.convertAll released items).map Message.objectArray := by
  unfold convert
  rfl

theorem convert_int (v : Int64) : standard.convert released (.int v) = .ok (.ofInt v) := by
  unfold convert
  rfl

theorem convert_vector (v : LabelledVector) : standard.convert released (.vector v) = .ok (.vector v) := by
  unfold convert
  rfl

theorem convert_of_column {m : LabelledMatrix} (h : m.cols = 1) :
    standard.convert released (.matrix m) = .ok (.vector (m.onlyColumn h)) := by
  have hvector : m.asColumnVector? = some (m.onlyColumn h) := dif_pos h
  unfold convert
  show convertArray (.matrix m) = _
  simp only [convertArray, hvector]

theorem convert_of_not_column {m : LabelledMatrix} (h : m.cols ≠ 1) :
    standard.convert released (.matrix m) = .ok (.matrix m) := by
  have hnone : m.asColumnVector? = none := dif_neg h
  unfold convert
  show convertArray (.matrix m) = _
  simp only [convertArray, hnone]

theorem convert_object_ok {p : Proxy} {m : Message} :
    standard.convert released (.object p) = .ok m ↔ released p = false ∧ m = .object p.ref := by
  rw [convert_object, handle]
  cases released p <;> simp [Except.map, eq_comm]

theorem convert_list_ok {items : List Value} {m : Message} :
    standard.convert released (.list items) = .ok m ↔
      ∃ ms, standard.convertAll released items = .ok ms ∧ m = .objectArray ms := by
  rw [convert_list]
  cases standard.convertAll released items <;> simp [Except.map, eq_comm]

theorem convertAll_cons_ok {r : Registry} {v : Value} {vs : List Value} {ms : List Message} :
    r.convertAll released (v :: vs) = .ok ms ↔
      ∃ m rest, r.convert released v = .ok m ∧ r.convertAll released vs = .ok rest ∧ ms = m :: rest := by
  rw [convertAll]
  cases r.convert released v with
  | error fault => simp
  | ok m => cases r.convertAll released vs <;> simp [eq_comm]

/-! ### What they make of normal values -/

mutual

/-- A value and its normal value have one message. -/
theorem convert_normal (v : Value) :
    standard.convert released v.normal = standard.convert released v := by
  cases v with
  | matrix m =>
    by_cases h : m.cols = 1
    · rw [Value.normal_of_column h, convert_vector, convert_of_column h]
    · rw [Value.normal_of_not_column h]
  | list items =>
    unfold Value.normal
    rw [convert_list, convert_list, convertAll_normal items]
  | float64Array vs =>
    unfold Value.normal convert
    rfl
  | _ => rfl

theorem convertAll_normal (vs : List Value) :
    standard.convertAll released (Value.normalOfAll vs) = standard.convertAll released vs := by
  cases vs with
  | nil => rfl
  | cons v vs =>
    unfold Value.normalOfAll convertAll
    rw [convert_normal v, convertAll_normal vs]

end

mutual

theorem exists_convert {v : Value} (h : ∀ p ∈ v.proxies, released p = false) :
    ∃ m, standard.convert released v = .ok m := by
  cases v with
  | object p =>
    refine ⟨.object p.ref, ?_⟩
    rw [convert_object, handle, h p (List.mem_singleton_self p)]
    rfl
  | list items =>
    obtain ⟨ms, hms⟩ := exists_convertAll h
    refine ⟨.objectArray ms, ?_⟩
    rw [convert_list, hms]
    rfl
  | int v => exact ⟨_, convert_int v⟩
  | matrix m =>
    by_cases h : m.cols = 1
    · exact ⟨_, convert_of_column h⟩
    · exact ⟨_, convert_of_not_column h⟩
  | null | bool | byte | float | string | boolArray | byteArray | int32Array | int64Array
  | float64Array | stringArray | vector =>
    unfold convert
    exact ⟨_, rfl⟩

theorem exists_convertAll {vs : List Value} (h : ∀ p ∈ Value.proxiesOfAll vs, released p = false) :
    ∃ ms, standard.convertAll released vs = .ok ms := by
  cases vs with
  | nil => exact ⟨[], rfl⟩
  | cons v vs =>
    rw [Value.proxiesOfAll, List.forall_mem_append] at h
    obtain ⟨m, hm⟩ := exists_convert h.1
    obtain ⟨ms, hms⟩ := exists_convertAll h.2
    refine ⟨m :: ms, ?_⟩
    unfold convertAll
    rw [hm, hms]

end

end Registry

end ObjectBridge
