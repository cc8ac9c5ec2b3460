import ObjectBridge.Table.Matrix

/-!
# Tables and their parts

A table that is built has the parts it was built from, every table can be built from its parts, and a
table that cannot be built is malformed. `LabelledMatrix.assemble` puts a matrix together from its
labels, its shape and its values.
-/

namespace ObjectBridge

/-! ### Labels -/

/-- The labels that a list of names stands for: an empty one stands for none. -/
def givenLabels (names : List String) : Option (List String) := if names = [] then none else some names

theorem givenLabels_of_ne {names : List String} (h : names ≠ []) : givenLabels names = some names :=
  if_neg h

theorem labelsFit_given {names : List String} {count : Nat} (h : names = [] ∨ names.length = count) :
    LabelsFit (givenLabels names) count := by
  unfold givenLabels
  split
  · exact labelsFit_none count
  · rename_i hne
    exact labelsFit_some hne (h.resolve_left hne)

/-! ### Vectors -/

namespace LabelledVector

theorem withLabels_fault {names : List String} {values : List Binary64} {fault : Fault}
    (h : withLabels names values = .error fault) : fault.ofContent = true := by
  unfold withLabels at h
  split at h
  · cases h
  · split at h <;> cases h
    rfl

theorem withLabels_ok {names : List String} {values : List Binary64} {v : LabelledVector} :
    withLabels names values = .ok v ↔
      (names = [] ∨ names.length = values.length) ∧ v.labels = givenLabels names ∧
        v.values = values := by
  obtain ⟨labels, values', hfit⟩ := v
  unfold withLabels givenLabels
  by_cases hne : names = []
  · simp [hne, ofValues, eq_comm]
  · by_cases hlen : names.length = values.length
    · simp [hne, hlen, eq_comm]
    · simp [hne, hlen]

theorem withLabels_parts (v : LabelledVector) {names : List String} (h : v.labels = some names) :
    withLabels names v.values = .ok v := by
  obtain ⟨hne, hlen⟩ := v.labels_fit names h
  exact withLabels_ok.mpr ⟨.inr hlen, h.trans (givenLabels_of_ne hne).symm, rfl⟩

theorem parts_of_withLabels {names : List String} {values : List Binary64} {v : LabelledVector}
    (hne : names ≠ []) (h : withLabels names values = .ok v) :
    v.labels = some names ∧ v.values = values := by
  obtain ⟨_, hlabels, hvalues⟩ := withLabels_ok.mp h
  exact ⟨hlabels.trans (givenLabels_of_ne hne), hvalues⟩

end LabelledVector

/-! ### Matrices -/

namespace LabelledMatrix

/-- What a matrix is made of, whether it fits or not. -/
structure Parts where
  rows : Nat
  cols : Nat
  rowLabels : Option (List String)
  colLabels : Option (List String)
  data : List Binary64

def parts (m : LabelledMatrix) : Parts := ⟨m.rows, m.cols, m.rowLabels, m.colLabels, m.data⟩

theorem ofColumns_fault {rows cols : Nat} {data : List Binary64} {fault : Fault}
    (h : ofColumns rows cols data = .error fault) : fault.ofContent = true := by
  unfold ofColumns at h
  split at h
  · split at h <;> cases h
    rfl
  · cases h
    rfl

theorem ofColumns_ok {rows cols : Nat} {data : List Binary64} {m : LabelledMatrix} :
    ofColumns rows cols data = .ok m ↔
      (rows * cols < sizeLimit ∧ data.length = rows * cols) ∧ m.parts = ⟨rows, cols, none, none, data⟩ := by
  obtain ⟨rows', cols', rowLabels, colLabels, data', _, _, _, _⟩ := m
  unfold ofColumns parts
  by_cases hsize : rows * cols < sizeLimit
  · by_cases hlen : data.length = rows * cols
    · simp [hsize, hlen, eq_comm]
    · simp [hsize, hlen]
  · simp [hsize]

theorem checkLabels_fault {direction : Axis} {names : List String} {count : Nat} {fault : Fault}
    (h : checkLabels direction names count = .error fault) : fault.ofContent = true := by
  unfold checkLabels at h
  split at h
  · cases h
  · split at h <;> cases h
    rfl

theorem checkLabels_fit {direction : Axis} {names : List String} {count : Nat}
    (h : LabelsFit (some names) count) : checkLabels direction names count = .ok ⟨some names, h⟩ := by
  obtain ⟨hne, hlen⟩ := h names rfl
  simp only [checkLabels, hne, hlen, dif_pos, dif_neg, not_false_eq_true]

theorem map_checkLabels_ok {α : Type} {direction : Axis} {names : List String} {count : Nat}
    {f : { labels : Option (List String) // LabelsFit labels count } → α} {a : α} :
    (checkLabels direction names count).map f = .ok a ↔
      ∃ h : names = [] ∨ names.length = count, f ⟨givenLabels names, labelsFit_given h⟩ = a := by
  unfold checkLabels givenLabels
  by_cases hne : names = []
  · simp [hne, Except.map]
  · by_cases hlen : names.length = count
    · simp [hne, hlen, Except.map]
    · simp [hne, hlen, Except.map]

def withLabelsAlong (axis : Axis) (m : LabelledMatrix) (names : List String) : Except Fault LabelledMatrix :=
  match axis with
  | .row => m.withRowLabels names
  | .column => m.withColLabels names

def Parts.extent (p : Parts) : Axis → Nat
  | .row => p.rows
  | .column => p.cols

def Parts.labelled (p : Parts) (axis : Axis) (labels : Option (List String)) : Parts :=
  match axis with
  | .row => { p with rowLabels := labels }
  | .column => { p with colLabels := labels }

theorem map_eq_error {α β : Type} {x : Except Fault α} {f : α → β} {fault : Fault} :
    x.map f = .error fault ↔ x = .error fault := by
  cases x <;> simp [Except.map]

theorem withLabelsAlong_fault {m : LabelledMatrix} {names : List String} {fault : Fault} (axis : Axis)
    (h : m.withLabelsAlong axis names = .error fault) : fault.ofContent = true := by
  have hcheck : checkLabels axis names (m.parts.extent axis) = .error fault := by
    cases axis <;> exact map_eq_error.mp h
  exact checkLabels_fault hcheck

theorem withLabelsAlong_ok {m t : LabelledMatrix} {names : List String} (axis : Axis) :
    m.withLabelsAlong axis names = .ok t ↔
      (names = [] ∨ names.length = m.parts.extent axis) ∧
        t.parts = m.parts.labelled axis (givenLabels names) := by
  obtain ⟨rows, cols, rowLabels, colLabels, data, _, _, _, _⟩ := t
  cases axis with
  | row =>
    rw [withLabelsAlong, withRowLabels, map_checkLabels_ok, ← exists_prop]
    exact exists_congr fun _ => by simp [parts, Parts.labelled, eq_comm]
  | column =>
    rw [withLabelsAlong, withColLabels, map_checkLabels_ok, ← exists_prop]
    exact exists_congr fun _ => by simp [parts, Parts.labelled, eq_comm]

/-- A matrix from its labels, where there are any, its shape and its values. -/
def assemble (rowLabels colLabels : Option (List String)) (rows cols : Nat)
    (data : List Binary64) : Except Fault LabelledMatrix := do
  let m ← ofColumns rows cols data
  let m ← match rowLabels with
    | some names => m.withRowLabels names
    | none => pure m
  match colLabels with
  | some names => m.withColLabels names
  | none => pure m

theorem bind_eq_ok {α β : Type} {x : Except Fault α} {f : α → Except Fault β} {b : β} :
    x >>= f = .ok b ↔ ∃ a, x = .ok a ∧ f a = .ok b := by
  cases x <;> simp [bind, Except.bind]

theorem bind_eq_error {α β : Type} {x : Except Fault α} {f : α → Except Fault β} {fault : Fault} :
    x >>= f = .error fault ↔ x = .error fault ∨ ∃ a, x = .ok a ∧ f a = .error fault := by
  cases x <;> simp [bind, Except.bind]

theorem assemble_fault {rowLabels colLabels : Option (List String)} {rows cols : Nat}
    {data : List Binary64} {fault : Fault}
    (h : assemble rowLabels colLabels rows cols data = .error fault) : fault.ofContent = true := by
  have hcols {m : LabelledMatrix} (h : (match colLabels with
      | some names => m.withColLabels names
      | none => Except.ok m) = .error fault) : fault.ofContent = true := by
    cases colLabels with
    | none => cases h
    | some names => exact withLabelsAlong_fault .column h
  obtain h | ⟨m, _, h⟩ := bind_eq_error.mp h
  · exact ofColumns_fault h
  · cases rowLabels with
    | none => exact hcols h
    | some names =>
      obtain h | ⟨m', _, h⟩ := bind_eq_error.mp h
      · exact withLabelsAlong_fault .row h
      · exact hcols h

theorem assemble_parts (t : LabelledMatrix) :
    assemble t.rowLabels t.colLabels t.rows t.cols t.data = .ok t := by
  obtain ⟨rows, cols, rowLabels, colLabels, data, hlen, hsize, hrow, hcol⟩ := t
  have hcolumns : ofColumns rows cols data =
      .ok ⟨rows, cols, none, none, data, hlen, hsize, labelsFit_none _, labelsFit_none _⟩ := by
    simp only [ofColumns, hsize, hlen, dif_pos]
  unfold assemble
  rw [hcolumns]
  cases rowLabels with
  | none =>
    cases colLabels with
    | none => rfl
    | some names =>
      simp only [bind, Except.bind, pure, Except.pure, withColLabels, checkLabels_fit hcol, Except.map]
  | some names =>
    cases colLabels with
    | none =>
      simp only [bind, Except.bind, pure, Except.pure, withRowLabels, checkLabels_fit hrow, Except.map]
    | some names' =>
      simp only [bind, Except.bind, withRowLabels, withColLabels, checkLabels_fit hrow,
        checkLabels_fit hcol, Except.map]

theorem parts_of_assemble {rowLabels colLabels : Option (List String)} {rows cols : Nat}
    {data : List Binary64} {t : LabelledMatrix} (hrow : rowLabels ≠ some [])
    (hcol : colLabels ≠ some []) (h : assemble rowLabels colLabels rows cols data = .ok t) :
    t.parts = ⟨rows, cols, rowLabels, colLabels, data⟩ := by
  have hgiven {names : List String} (h : some names ≠ some []) : givenLabels names = some names :=
    givenLabels_of_ne fun hnil => h (congrArg some hnil)
  obtain ⟨m, hm, hrest⟩ := bind_eq_ok.mp h
  obtain ⟨_, hm⟩ := ofColumns_ok.mp hm
  cases rowLabels with
  | none =>
    cases colLabels with
    | none =>
      cases hrest
      exact hm
    | some names =>
      obtain ⟨_, ht⟩ := (withLabelsAlong_ok .column).mp hrest
      rw [ht, hm, hgiven hcol]
      rfl
  | some names =>
    obtain ⟨m', hm', hlast⟩ := bind_eq_ok.mp hrest
    obtain ⟨_, hm'⟩ := (withLabelsAlong_ok .row).mp hm'
    rw [hm, hgiven hrow] at hm'
    cases colLabels with
    | none =>
      cases hlast
      exact hm'
    | some names' =>
      obtain ⟨_, ht⟩ := (withLabelsAlong_ok .column).mp hlast
      rw [ht, hm', hgiven hcol]
      rfl

end LabelledMatrix

end ObjectBridge
