import ObjectBridge.Table.Vector

/-!
# Labelled matrices

A dense matrix of doubles, stored column after column as it travels, with optional labels for its
rows and for its columns. Shape and labels fit by type: there are exactly `rows * cols` values, their
number is a 64-bit word, and labels are absent or complete.
-/

namespace ObjectBridge

/-- The number of sizes that a 64-bit word can hold. -/
def sizeLimit : Nat := 0x10000000000000000

/-- A matrix of doubles in column-major order. -/
structure LabelledMatrix where
  rows : Nat
  cols : Nat
  rowLabels : Option (List String)
  colLabels : Option (List String)
  data : List Binary64
  length_data : data.length = rows * cols
  size_lt : rows * cols < sizeLimit
  rowLabels_fit : LabelsFit rowLabels rows
  colLabels_fit : LabelsFit colLabels cols

namespace LabelledMatrix

/-- A matrix without labels from its columns, one after the other. -/
def ofColumns (rows cols : Nat) (data : List Binary64) : Except Fault LabelledMatrix :=
  if hsize : rows * cols < sizeLimit then
    if hlen : data.length = rows * cols then
      .ok ⟨rows, cols, none, none, data, hlen, hsize, labelsFit_none _, labelsFit_none _⟩
    else .error (.malformed (.matrixBody rows cols (rows * cols) data.length))
  else .error (.malformed (.matrixOverflow rows cols))

/-- The values of a list of rows, column after column. -/
def transposed (cols : Nat) (rows : List (List Binary64)) : List Binary64 :=
  (List.range cols).flatMap fun c => rows.filterMap fun row => row[c]?

/-- A matrix without labels from its rows, which have to be equally wide. -/
def ofRows (rows : List (List Binary64)) : Except Fault LabelledMatrix :=
  let cols := (rows.head?.map List.length).getD 0
  match rows.zipIdx.find? fun (row, _) => row.length != cols with
  | some (row, i) => .error (.malformed (.raggedRow i row.length cols))
  | none => ofColumns rows.length cols (transposed cols rows)

/-- Labels of one direction: an empty list stands for none, any other has to be complete. -/
def checkLabels (axis : Axis) (names : List String) (count : Nat) :
    Except Fault { labels : Option (List String) // LabelsFit labels count } :=
  if hne : names = [] then .ok ⟨none, labelsFit_none _⟩
  else if hlen : names.length = count then .ok ⟨some names, labelsFit_some hne hlen⟩
  else .error (.malformed (.axisLabels axis names.length count))

def withRowLabels (m : LabelledMatrix) (names : List String) : Except Fault LabelledMatrix :=
  (checkLabels .row names m.rows).map fun labels =>
    { m with rowLabels := labels.val, rowLabels_fit := labels.property }

def withColLabels (m : LabelledMatrix) (names : List String) : Except Fault LabelledMatrix :=
  (checkLabels .column names m.cols).map fun labels =>
    { m with colLabels := labels.val, colLabels_fit := labels.property }

def get? (m : LabelledMatrix) (row col : Nat) : Option Binary64 :=
  if row < m.rows ∧ col < m.cols then m.data[col * m.rows + row]? else none

/-- The values of a column from top to bottom. -/
def column? (m : LabelledMatrix) (col : Nat) : Option (List Binary64) :=
  if col < m.cols then some ((m.data.drop (col * m.rows)).take m.rows) else none

/-- A matrix of one column as a vector, which keeps the row labels. -/
def asColumnVector? (m : LabelledMatrix) : Option LabelledVector :=
  if h : m.cols = 1 then
    some ⟨m.rowLabels, m.data, by
      have hlen := m.length_data
      rw [h, Nat.mul_one] at hlen
      rw [hlen]
      exact m.rowLabels_fit⟩
  else none

def empty : LabelledMatrix :=
  ⟨0, 0, none, none, [], rfl, by decide, labelsFit_none _, labelsFit_none _⟩

instance : Inhabited LabelledMatrix := ⟨empty⟩

end LabelledMatrix

end ObjectBridge
