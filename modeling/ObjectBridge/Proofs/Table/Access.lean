import ObjectBridge.Proofs.Table.Assembly

/-!
# Values of a matrix by row and column

The values of a matrix stand column after column, so a column is a stretch of them and a value has its place
in a column. The rows that a matrix is made of are read from it again.
-/

namespace ObjectBridge

/-! ### Stretches of equal length -/

/-- Lists of one length, one behind the other: the stretch at a multiple of this length is one of them. -/
theorem stretch_flatMap {α β : Type} {f : α → List β} {n : Nat} {xs : List α}
    (h : ∀ x ∈ xs, (f x).length = n) {i : Nat} {x : α} (hx : xs[i]? = some x) :
    ((xs.flatMap f).drop (i * n)).take n = f x := by
  induction xs generalizing i with
  | nil => cases hx
  | cons first xs ih =>
    have hfirst : (f first).length = n := h first (List.mem_cons_self ..)
    have hrest : ∀ x ∈ xs, (f x).length = n := fun x hx => h x (List.mem_cons_of_mem _ hx)
    rw [List.flatMap_cons]
    cases i with
    | zero =>
      cases hx
      rw [Nat.zero_mul, List.drop_zero, List.take_append_of_le_length (Nat.le_of_eq hfirst.symm),
        List.take_of_length_le (Nat.le_of_eq hfirst)]
    | succ i =>
      have hskip : (i + 1) * n = (f first).length + i * n := by
        rw [hfirst, Nat.succ_mul, Nat.add_comm]
      rw [hskip, List.drop_append, List.drop_of_length_le (Nat.le_add_right _ _), List.nil_append,
        Nat.add_sub_cancel_left]
      exact ih hrest hx

theorem length_flatMap_of_length {α β : Type} {f : α → List β} {n : Nat} {xs : List α}
    (h : ∀ x ∈ xs, (f x).length = n) : (xs.flatMap f).length = xs.length * n := by
  rw [List.length_flatMap, List.map_congr_left h, List.map_const', List.sum_replicate_nat]

namespace LabelledMatrix

variable {m : LabelledMatrix} {row col : Nat}

/-! ### Places -/

theorem column_end_le (hcol : col < m.cols) : col * m.rows + m.rows ≤ m.data.length := by
  rw [m.length_data, Nat.mul_comm m.rows, ← Nat.succ_mul]
  exact Nat.mul_le_mul_right _ hcol

theorem length_column {column : List Binary64} (h : m.column? col = some column) :
    column.length = m.rows := by
  unfold column? at h
  split at h <;> cases h
  rename_i hcol
  have hend := column_end_le hcol
  rw [List.length_take, List.length_drop]
  omega

theorem isSome_column : (m.column? col).isSome ↔ col < m.cols := by
  unfold column?
  split <;> simp [*]

theorem isSome_get : (m.get? row col).isSome ↔ row < m.rows ∧ col < m.cols := by
  unfold get?
  split
  · rename_i hin
    have hend := column_end_le hin.2
    have hplace : col * m.rows + row < m.data.length := by omega
    simp [hin, List.getElem?_eq_getElem hplace]
  · rename_i hout
    simp [hout]

theorem get_eq_column : m.get? row col = (m.column? col).bind (·[row]?) := by
  unfold get? column?
  by_cases hcol : col < m.cols
  · rw [if_pos hcol, Option.bind_some, List.getElem?_take]
    by_cases hrow : row < m.rows
    · rw [if_pos ⟨hrow, hcol⟩, if_pos hrow, List.getElem?_drop]
    · rw [if_neg fun hand => hrow hand.1, if_neg hrow]
  · rw [if_neg fun hand => hcol hand.2, if_neg hcol, Option.bind_none]

/-! ### Rows -/

def width (rows : List (List Binary64)) : Nat := (rows.head?.map List.length).getD 0

def Rectangular (rows : List (List Binary64)) : Prop := ∀ row ∈ rows, row.length = width rows

/-- Row `i` is the first whose width differs from that of the first row. -/
structure FirstRagged (rows : List (List Binary64)) (i : Nat) (row : List Binary64) : Prop where
  at_place : rows[i]? = some row
  ragged : row.length ≠ width rows
  even_before : ∀ j earlier, j < i → rows[j]? = some earlier → earlier.length = width rows

variable {rows : List (List Binary64)} {cols : Nat}

theorem find?_ragged_eq_none :
    rows.zipIdx.find? (fun (row, _) => row.length != width rows) = none ↔ Rectangular rows := by
  rw [List.find?_eq_none]
  refine ⟨fun h row hmem => ?_, fun h => ?_⟩
  · obtain ⟨i, hi, rfl⟩ := List.getElem_of_mem hmem
    have hrow := h (rows[i], i) (List.mk_mem_zipIdx_iff_getElem?.mpr (List.getElem?_eq_getElem hi))
    simpa using hrow
  · rintro ⟨row, i⟩ hmem
    have hrow : row ∈ rows := List.fst_mem_of_mem_zipIdx hmem
    simp [h row hrow]

theorem find?_ragged_eq_some {i : Nat} {line : List Binary64} :
    rows.zipIdx.find? (fun (row, _) => row.length != width rows) = some (line, i) ↔
      FirstRagged rows i line := by
  rw [List.find?_eq_some_iff_getElem]
  refine ⟨fun h => ?_, fun h => ?_⟩
  · obtain ⟨hline, k, hk, heq, hbefore⟩ := h
    rw [List.length_zipIdx] at hk
    rw [List.getElem_zipIdx, Nat.zero_add] at heq
    cases heq
    refine ⟨List.getElem?_eq_getElem hk, by simpa using hline, fun j earlier hj hearlier => ?_⟩
    have hjrow := hbefore j hj
    obtain ⟨_, rfl⟩ := List.getElem?_eq_some_iff.mp hearlier
    simpa using hjrow
  · obtain ⟨hi, rfl⟩ := List.getElem?_eq_some_iff.mp h.at_place
    refine ⟨by simpa using h.ragged, i, by simpa using hi, by simp, fun j hj => ?_⟩
    have heven := h.even_before j rows[j] hj (List.getElem?_eq_getElem (Nat.lt_trans hj hi))
    simpa using heven

theorem ofRows_of_rectangular (h : Rectangular rows) :
    ofRows rows = ofColumns rows.length (width rows) (transposed (width rows) rows) := by
  unfold ofRows
  dsimp only
  rw [← width, find?_ragged_eq_none.mpr h]

theorem ofRows_of_ragged {i : Nat} {line : List Binary64} (h : FirstRagged rows i line) :
    ofRows rows = .error (.malformed (.raggedRow i line.length (width rows))) := by
  unfold ofRows
  dsimp only
  rw [← width, find?_ragged_eq_some.mpr h]

theorem exists_firstRagged (h : ¬ Rectangular rows) : ∃ i line, FirstRagged rows i line := by
  cases hfind : rows.zipIdx.find? (fun (row, _) => row.length != width rows) with
  | none => exact absurd (find?_ragged_eq_none.mp hfind) h
  | some found => exact ⟨found.2, found.1, find?_ragged_eq_some.mp hfind⟩

/-! ### Columns of rows -/

theorem across_cons {c : Nat} {row : List Binary64} (hc : c < row.length) :
    (row :: rows).filterMap (·[c]?) = row[c] :: rows.filterMap (·[c]?) :=
  List.filterMap_cons_some (f := (·[c]?)) (List.getElem?_eq_getElem hc)

theorem length_across {c : Nat} (h : ∀ row ∈ rows, c < row.length) :
    (rows.filterMap (·[c]?)).length = rows.length := by
  induction rows with
  | nil => rfl
  | cons row rows ih =>
    have hc : c < row.length := h row (List.mem_cons_self ..)
    rw [across_cons hc, List.length_cons, List.length_cons,
      ih fun row hrow => h row (List.mem_cons_of_mem _ hrow)]

theorem getElem?_across {c : Nat} (h : ∀ row ∈ rows, c < row.length) (r : Nat) :
    (rows.filterMap (·[c]?))[r]? = rows[r]?.bind (·[c]?) := by
  induction rows generalizing r with
  | nil => rfl
  | cons row rows ih =>
    have hc : c < row.length := h row (List.mem_cons_self ..)
    rw [across_cons hc]
    cases r with
    | zero => simp [List.getElem?_eq_getElem hc]
    | succ r => exact ih (fun row hrow => h row (List.mem_cons_of_mem _ hrow)) r

theorem length_of_column (h : Rectangular rows) :
    ∀ c ∈ List.range (width rows), (rows.filterMap (·[c]?)).length = rows.length := by
  intro c hc
  refine length_across fun row hrow => ?_
  rw [h row hrow]
  exact List.mem_range.mp hc

theorem length_transposed (h : Rectangular rows) :
    (transposed (width rows) rows).length = rows.length * width rows := by
  rw [transposed, length_flatMap_of_length (length_of_column h), List.length_range, Nat.mul_comm]

theorem length_flatten (h : Rectangular rows) : rows.flatten.length = rows.length * width rows := by
  have hflat := length_flatMap_of_length (f := id) h
  rwa [List.flatMap_id] at hflat

theorem ofRows_ok {rows : List (List Binary64)} {m : LabelledMatrix} :
    ofRows rows = .ok m ↔
      (Rectangular rows ∧ rows.length * width rows < sizeLimit) ∧
        m.parts = ⟨rows.length, width rows, none, none, transposed (width rows) rows⟩ := by
  by_cases h : Rectangular rows
  · rw [ofRows_of_rectangular h, ofColumns_ok]
    simp [h, length_transposed h]
  · obtain ⟨i, line, hfirst⟩ := exists_firstRagged h
    rw [ofRows_of_ragged hfirst]
    simp [h]

/-- Rows make a matrix just if they are equally wide, as long as their values can be counted. -/
theorem exists_ofRows (hcount : rows.flatten.length < sizeLimit) :
    (∃ m, ofRows rows = .ok m) ↔ Rectangular rows := by
  refine ⟨fun ⟨m, hm⟩ => (ofRows_ok.mp hm).1.1, fun h => ?_⟩
  have hsize : rows.length * width rows < sizeLimit := by rwa [← length_flatten h]
  rw [ofRows_of_rectangular h, ofColumns, dif_pos hsize, dif_pos (length_transposed h)]
  exact ⟨_, rfl⟩

theorem column_ofRows (h : ofRows rows = .ok m) {c : Nat} (hc : c < width rows) :
    m.column? c = some (rows.filterMap (·[c]?)) := by
  obtain ⟨⟨hrect, _⟩, hparts⟩ := ofRows_ok.mp h
  obtain ⟨hrows, hcols, _, _, hdata⟩ := Parts.mk.inj hparts
  have hplace : (List.range (width rows))[c]? = some c := by simp [hc]
  rw [column?, hrows, hcols, hdata, if_pos hc, transposed,
    stretch_flatMap (length_of_column hrect) hplace]

/-- The rows that a matrix is made of are its rows. -/
theorem get_ofRows (h : ofRows rows = .ok m) (r c : Nat) : m.get? r c = rows[r]?.bind (·[c]?) := by
  obtain ⟨⟨hrect, _⟩, hparts⟩ := ofRows_ok.mp h
  by_cases hc : c < width rows
  · rw [get_eq_column, column_ofRows h hc, Option.bind_some]
    refine getElem?_across (fun row hrow => ?_) r
    rw [hrect row hrow]
    exact hc
  · have hcols : m.cols = width rows := congrArg Parts.cols hparts
    rw [get?, if_neg fun hin => hc (hcols ▸ hin.2)]
    cases hr : rows[r]? with
    | none => rfl
    | some row =>
      have hwide := hrect row (List.mem_of_getElem? hr)
      rw [Option.bind_some, List.getElem?_eq_none (by omega)]

end LabelledMatrix

end ObjectBridge
