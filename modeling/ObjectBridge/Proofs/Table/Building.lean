import ObjectBridge.Proofs.Message.Robustness
import ObjectBridge.Proofs.Table.Access

/-!
# Tables from wherever they come

A matrix is built of columns or of rows or comes in a message, and labels can be given to it any number of
times; a vector is built of values or is the column of a matrix or comes in a message. Main statement:
`LabelledMatrix.tables_fit`. What a matrix is built of fits whenever it is accepted, the matrix has just
these parts, and its values are found by row and column.
-/

namespace ObjectBridge

namespace LabelledMatrix

/-! ### Parts -/

/-- There is a value for each row and column, their number is a word, and labels are absent or complete. -/
structure Parts.Fit (p : Parts) : Prop where
  length_data : p.data.length = p.rows * p.cols
  size_lt : p.rows * p.cols < sizeLimit
  rowLabels : LabelsFit p.rowLabels p.rows
  colLabels : LabelsFit p.colLabels p.cols

def Parts.matrix (p : Parts) (h : p.Fit) : LabelledMatrix :=
  ⟨p.rows, p.cols, p.rowLabels, p.colLabels, p.data, h.length_data, h.size_lt, h.rowLabels, h.colLabels⟩

/-- A matrix that came in a message, at whatever depth. -/
def Received (m : LabelledMatrix) : Prop :=
  ∃ catalogue r msg r', Reader.message catalogue r = .ok msg r' ∧ .matrix m ∈ msg.parts

/-- Where a matrix comes from. -/
inductive Origin where
  | columns (rows cols : Nat) (data : List Binary64)
  | lines (rows : List (List Binary64))
  | received (m : LabelledMatrix) (h : Received m)
  | rowLabels (origin : Origin) (names : List String)
  | colLabels (origin : Origin) (names : List String)

namespace Origin

def build : Origin → Except Fault LabelledMatrix
  | columns rows cols data => ofColumns rows cols data
  | lines rows => ofRows rows
  | received m _ => .ok m
  | rowLabels origin names => origin.build >>= (·.withRowLabels names)
  | colLabels origin names => origin.build >>= (·.withColLabels names)

/-- The parts that are given. Of labels that are given again the last ones count. -/
def parts : Origin → Parts
  | columns rows cols data => ⟨rows, cols, none, none, data⟩
  | lines rows => ⟨rows.length, width rows, none, none, transposed (width rows) rows⟩
  | received m _ => m.parts
  | rowLabels origin names => { origin.parts with rowLabels := givenLabels names }
  | colLabels origin names => { origin.parts with colLabels := givenLabels names }

/-- What is asked of the parts as they are given. -/
def Accepted : Origin → Prop
  | columns rows cols data => rows * cols < sizeLimit ∧ data.length = rows * cols
  | lines rows => Rectangular rows ∧ rows.length * width rows < sizeLimit
  | received _ _ => True
  | rowLabels origin names => origin.Accepted ∧ (names = [] ∨ names.length = origin.parts.rows)
  | colLabels origin names => origin.Accepted ∧ (names = [] ∨ names.length = origin.parts.cols)

end Origin

/-! ### What is accepted -/

theorem asColumnVector?_eq_some {m : LabelledMatrix} {v : LabelledVector} :
    m.asColumnVector? = some v ↔ m.cols = 1 ∧ v.labels = m.rowLabels ∧ v.values = m.data := by
  obtain ⟨labels, values, hfit⟩ := v
  unfold asColumnVector?
  by_cases h : m.cols = 1
  · simp [h, eq_comm]
  · simp [h]

theorem parts_inj {m m' : LabelledMatrix} : m.parts = m'.parts ↔ m = m' := by
  obtain ⟨rows, cols, rowLabels, colLabels, data, _, _, _, _⟩ := m
  obtain ⟨rows', cols', rowLabels', colLabels', data', _, _, _, _⟩ := m'
  simp [parts]

theorem Received.fit {m : LabelledMatrix} (h : Received m) : m.parts.Fit := by
  obtain ⟨catalogue, r, msg, r', hread, hmem⟩ := h
  have hshaped := (Reader.yields_messageWithin catalogue _ r msg r' hread).2 m hmem
  have hsize : m.rows * m.cols < 0x80000000 * 0x80000000 :=
    Nat.mul_lt_mul_of_lt_of_lt hshaped.rows_lt hshaped.cols_lt
  exact ⟨hshaped.data, Nat.lt_trans hsize (by decide), hshaped.rowLabels, hshaped.colLabels⟩

namespace Origin

theorem fit_parts {origin : Origin} (h : origin.Accepted) : origin.parts.Fit := by
  induction origin with
  | columns rows cols data => exact ⟨h.2, h.1, labelsFit_none _, labelsFit_none _⟩
  | lines rows => exact ⟨length_transposed h.1, h.2, labelsFit_none _, labelsFit_none _⟩
  | received m hm => exact hm.fit
  | rowLabels origin names ih => exact { ih h.1 with rowLabels := labelsFit_given h.2 }
  | colLabels origin names ih => exact { ih h.1 with colLabels := labelsFit_given h.2 }

/-- Labels are given to what was built, and checked against it. -/
theorem build_bind_ok {origin : Origin} {give : LabelledMatrix → Except Fault LabelledMatrix}
    {P : Parts → Prop} {f : Parts → Parts} {m : LabelledMatrix}
    (hbuild : ∀ t, origin.build = .ok t ↔ origin.Accepted ∧ t.parts = origin.parts)
    (hgive : ∀ t, give t = .ok m ↔ P t.parts ∧ m.parts = f t.parts) :
    origin.build >>= give = .ok m ↔
      (origin.Accepted ∧ P origin.parts) ∧ m.parts = f origin.parts := by
  simp only [bind_eq_ok, hbuild, hgive]
  refine ⟨fun h => ?_, fun h => ?_⟩
  · obtain ⟨t, ⟨haccepted, hparts⟩, hp, hm⟩ := h
    rw [← hparts]
    exact ⟨⟨haccepted, hp⟩, hm⟩
  · obtain ⟨⟨haccepted, hp⟩, hm⟩ := h
    exact ⟨origin.parts.matrix (fit_parts haccepted), ⟨haccepted, rfl⟩, hp, hm⟩

/-- A matrix is built just if what is given for it is accepted, and of nothing else. -/
theorem build_ok {origin : Origin} {m : LabelledMatrix} :
    origin.build = .ok m ↔ origin.Accepted ∧ m.parts = origin.parts := by
  induction origin generalizing m with
  | columns rows cols data => exact ofColumns_ok
  | lines rows => exact ofRows_ok
  | received t h =>
    simp only [build, parts, Accepted, true_and, parts_inj, Except.ok.injEq]
    exact eq_comm
  | rowLabels origin names ih =>
    exact build_bind_ok (P := fun p => names = [] ∨ names.length = p.rows)
      (f := fun p => { p with rowLabels := givenLabels names }) (fun _ => ih)
      fun _ => withLabelsAlong_ok .row
  | colLabels origin names ih =>
    exact build_bind_ok (P := fun p => names = [] ∨ names.length = p.cols)
      (f := fun p => { p with colLabels := givenLabels names }) (fun _ => ih)
      fun _ => withLabelsAlong_ok .column

theorem fit_of_build {origin : Origin} {m : LabelledMatrix} (h : origin.build = .ok m) :
    m.parts.Fit := by
  obtain ⟨haccepted, hparts⟩ := build_ok.mp h
  rw [hparts]
  exact fit_parts haccepted

end Origin

end LabelledMatrix

/-! ### Vectors -/

/-- A vector that was made of values, with labels or without, that is the column of a matrix, or that came
in a message. -/
inductive LabelledVector.Obtained : LabelledVector → Prop where
  | values (vs : List Binary64) : Obtained (.ofValues vs)
  | labelled {names : List String} {vs : List Binary64} {v : LabelledVector}
    (h : LabelledVector.withLabels names vs = .ok v) : Obtained v
  | column {origin : LabelledMatrix.Origin} {m : LabelledMatrix} {v : LabelledVector}
    (hm : origin.build = .ok m) (h : m.asColumnVector? = some v) : Obtained v
  | received {catalogue : Catalogue} {r r' : Reader} {msg : Message} {v : LabelledVector}
    (h : Reader.message catalogue r = .ok msg r') (hmem : .vector v ∈ msg.parts) : Obtained v

theorem LabelledVector.Obtained.fit {v : LabelledVector} (h : v.Obtained) :
    LabelsFit v.labels v.values.length := by
  cases h with
  | values vs => exact labelsFit_none _
  | labelled h =>
    obtain ⟨hnames, hlabels, hvalues⟩ := LabelledVector.withLabels_ok.mp h
    rw [hlabels, hvalues]
    exact labelsFit_given hnames
  | column hm h =>
    obtain ⟨hcols, hlabels, hvalues⟩ := LabelledMatrix.asColumnVector?_eq_some.mp h
    have hfit := LabelledMatrix.Origin.fit_of_build hm
    have hlen := hfit.length_data
    dsimp only [LabelledMatrix.parts] at hlen
    rw [hcols, Nat.mul_one] at hlen
    rw [hlabels, hvalues, hlen]
    exact hfit.rowLabels
  | received h hmem => exact ((Reader.yields_messageWithin _ _ _ _ _ h).1 v hmem).labels

/-! ### All tables -/

namespace LabelledMatrix

/-- A matrix, wherever it comes from, is built just if the parts that are given are accepted, is made of these
parts, and they fit; the labels of a vector fit too, wherever it comes from. So a value is found just at the
places within the shape, each column lies within the values, and a value is what its column holds. Rows make
a matrix just if they are equally wide, as long as a word counts their values, and they are its rows; of rows
that are not, the first that differs from row 0 is named. -/
theorem tables_fit :
    (∀ (origin : Origin) m, (origin.build = .ok m ↔ origin.Accepted ∧ m.parts = origin.parts) ∧
        (origin.build = .ok m → m.parts.Fit)) ∧
      (∀ v : LabelledVector, v.Obtained → LabelsFit v.labels v.values.length) ∧
      (∀ (m : LabelledMatrix) row col,
        ((m.get? row col).isSome ↔ row < m.rows ∧ col < m.cols) ∧
          (col < m.cols → col * m.rows + m.rows ≤ m.data.length ∧ m.data.length < sizeLimit) ∧
          ((m.column? col).isSome ↔ col < m.cols) ∧
          (∀ column, m.column? col = some column → column.length = m.rows) ∧
          m.get? row col = (m.column? col).bind (·[row]?)) ∧
      ∀ rows : List (List Binary64),
        (rows.flatten.length < sizeLimit → ((∃ m, ofRows rows = .ok m) ↔ Rectangular rows)) ∧
          (∀ m r c, ofRows rows = .ok m → m.get? r c = rows[r]?.bind (·[c]?)) ∧
          (¬ Rectangular rows → ∃ i row, FirstRagged rows i row ∧
            ofRows rows = .error (.malformed (.raggedRow i row.length (width rows)))) := by
  refine ⟨fun origin m => ⟨Origin.build_ok, Origin.fit_of_build⟩, fun v => LabelledVector.Obtained.fit,
    fun m row col => ⟨isSome_get, fun hcol => ⟨column_end_le hcol, ?_⟩, isSome_column,
      fun column => length_column, get_eq_column⟩,
    fun rows => ⟨exists_ofRows, fun m r c hm => get_ofRows hm r c, fun hragged => ?_⟩⟩
  · rw [m.length_data]
    exact m.size_lt
  · obtain ⟨i, row, hfirst⟩ := exists_firstRagged hragged
    exact ⟨i, row, hfirst, ofRows_of_ragged hfirst⟩

example (x y z : Binary64) :
    ofRows [[x, y], [y, z], [z]] = .error (.malformed (.raggedRow 2 1 2)) := by
  rfl

end LabelledMatrix

end ObjectBridge
