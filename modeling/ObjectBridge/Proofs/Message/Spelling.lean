import ObjectBridge.Proofs.Message.Streaming

/-!
# How bytes spell messages

The fields of a message are its header and its body. Main statement: `reads_message`, the reader of the
standard catalogue succeeds on held bytes exactly if these begin with bytes that spell the layout of the
message it returns. The only condition besides is that the bytes of every matrix can be counted
(`Message.Sized`): their number is the one that travels nowhere.
-/

namespace ObjectBridge

namespace Message

mutual

def matrices : Message → List LabelledMatrix
  | matrix t => [t]
  | objectArray items => matricesOfAll items
  | create _ args | callStaticMethod _ _ args | callMethod _ _ args => matricesOfAll args
  | setProperty _ _ value | setStaticProperty _ _ value => matrices value
  | _ => []

def matricesOfAll : List Message → List LabelledMatrix
  | [] => []
  | m :: ms => matrices m ++ matricesOfAll ms

end

/-- The number of bytes of every matrix in a message is a 64-bit word. -/
def Sized (m : Message) : Prop := ∀ t ∈ m.matrices, t.rows * t.cols * 8 < sizeLimit

theorem matricesOfAll_eq (ms : List Message) : matricesOfAll ms = ms.flatMap matrices := by
  induction ms with
  | nil => rfl
  | cons m ms ih => rw [matricesOfAll, ih, List.flatMap_cons]

theorem layouts_eq (ms : List Message) : layouts ms = ms.flatMap layout := by
  induction ms with
  | nil => rfl
  | cons m ms ih => rw [layouts, ih, List.flatMap_cons]

theorem forall_matricesOfAll {ms : List Message} :
    (∀ t ∈ matricesOfAll ms, t.rows * t.cols * 8 < sizeLimit) ↔ ∀ m ∈ ms, m.Sized := by
  rw [matricesOfAll_eq]
  simp only [List.mem_flatMap, forall_exists_index, and_imp, Sized]
  exact ⟨fun h m hm t ht => h t m hm ht, fun h t m hm ht => h m hm t ht⟩

def body (m : Message) : List Field := m.layout.drop 2

theorem layout_eq (m : Message) : m.layout = m.header ++ m.body := by
  cases m <;> rfl

/-- Bytes that spell the body of a message with this tag. -/
def Tagged (t : Tag) (m : Message) (bytes : List UInt8) : Prop :=
  m.tag = t ∧ m.Sized ∧ Spells m.body bytes

end Message

namespace Reader

variable {α β ι : Type}

/-- A step that makes a value from what it reads: what is read fits `good` and is spelled by
`fields`. -/
def Builds (limit : Nat) (a : Action β) (make : ι → β) (good : ι → Prop) (fields : ι → List Field) :
    Prop :=
  Reads limit a fun y bytes => ∃ i, y = make i ∧ good i ∧ Spells (fields i) bytes

theorem Builds.last {limit : Nat} {a : Action α} {good : α → Prop} {fields : α → List Field}
    (make : α → β) (hstream : Streamed a)
    (ha : Reads limit a fun x front => good x ∧ Spells (fields x) front) :
    Builds limit (a >>= fun x => pure (make x)) make good fields := by
  refine .congr ?_ (.bind hstream ha fun x => .pure limit (make x))
  intro y bytes
  refine ⟨fun h => ?_, fun h => ?_⟩
  · obtain ⟨x, front, _, rfl, ⟨hgood, hfront⟩, rfl, rfl⟩ := h
    exact ⟨x, rfl, hgood, by rwa [List.append_nil]⟩
  · obtain ⟨x, rfl, hgood, hbytes⟩ := h
    exact ⟨x, bytes, [], (List.append_nil _).symm, ⟨hgood, hbytes⟩, rfl, rfl⟩

theorem Builds.cons {limit : Nat} {a : Action α} {f : α → Action β} {fs : α → List Field}
    {make : α → ι → β} {good : ι → Prop} {gs : ι → List Field} (hstream : Streamed a)
    (ha : Reads limit a fun x front => Spells (fs x) front)
    (hf : ∀ x, Builds limit (f x) (make x) good gs) :
    Builds limit (a >>= f) (fun i : α × ι => make i.1 i.2) (fun i => good i.2)
      fun i => fs i.1 ++ gs i.2 := by
  refine .congr ?_ (.bind hstream ha hf)
  intro y bytes
  refine ⟨fun h => ?_, fun h => ?_⟩
  · obtain ⟨x, front, back, rfl, hfront, i, rfl, hgood, hback⟩ := h
    exact ⟨(x, i), rfl, hgood, spells_append.mpr ⟨front, back, rfl, hfront, hback⟩⟩
  · obtain ⟨⟨x, i⟩, rfl, hgood, hbytes⟩ := h
    obtain ⟨front, back, rfl, hfront, hback⟩ := spells_append.mp hbytes
    exact ⟨x, front, back, rfl, hfront, i, rfl, hgood, hback⟩

/-- A reader that makes the messages of one tag, and from their bodies. -/
theorem Builds.tagged {limit : Nat} {a : Action Message} {make : ι → Message} {good : ι → Prop}
    {fields : ι → List Field} {t : Tag} (h : Builds limit a make good fields)
    (htag : ∀ i, (make i).tag = t) (hmake : ∀ m : Message, m.tag = t → ∃ i, m = make i)
    (hgood : ∀ i, good i ↔ (make i).Sized) (hfields : ∀ i, fields i = (make i).body) :
    Reads limit a (Message.Tagged t) := by
  refine .congr ?_ h
  intro m bytes
  refine ⟨fun h => ?_, fun h => ?_⟩
  · obtain ⟨i, rfl, hi, hbytes⟩ := h
    exact ⟨htag i, (hgood i).mp hi, by rwa [← hfields i]⟩
  · obtain ⟨ht, hsized, hbytes⟩ := h
    obtain ⟨i, rfl⟩ := hmake m ht
    exact ⟨i, rfl, (hgood i).mpr hsized, by rwa [hfields i]⟩

theorem true_iff_sized {m : Message} (h : m.matrices = []) : True ↔ m.Sized := by
  rw [Message.Sized, h]
  simp

/-- A reader of messages whose body is one part, with no matrix in it. -/
theorem reads_single {limit : Nat} {a : Action α} {fields : α → List Field} {t : Tag} (make : α → Message)
    (hstream : Streamed a) (ha : Reads limit a fun x front => Spells (fields x) front)
    (htag : ∀ x, (make x).tag = t) (hmake : ∀ m : Message, m.tag = t → ∃ x, m = make x)
    (hplain : ∀ x, (make x).matrices = []) (hfields : ∀ x, fields x = (make x).body) :
    Reads limit (a >>= fun x => pure (make x)) (Message.Tagged t) :=
  (Builds.last make hstream ha.always).tagged htag hmake (fun x => true_iff_sized (hplain x)) hfields

/-! ### Parts of messages -/

theorem reads_labels (limit : Nat) :
    Reads limit labels fun names front => names ≠ some [] ∧ Spells (Field.labels names) front := by
  refine .congr ?_ (.bind (streamed_count _) (reads_count limit "label block" "label block")
    (S := fun n names back =>
      (n = 0 ∧ names = none ∧ back = []) ∨
        (n ≠ 0 ∧ ∃ ss, names = some ss ∧ ss.length = n ∧ Spells (ss.flatMap Field.text) back))
    fun n => ?_)
  · intro names bytes
    refine ⟨fun h => ?_, fun h => ?_⟩
    · obtain ⟨n, front, back, rfl, hlength, ⟨rfl, rfl, rfl⟩ | ⟨hne, ss, rfl, rfl, hback⟩⟩ := h
      · exact ⟨by simp, by rwa [List.append_nil]⟩
      · refine ⟨?_, spells_cons.mpr ⟨front, back, rfl, hlength, hback⟩⟩
        intro hnil
        cases hnil
        exact hne rfl
    · obtain ⟨hne, hbytes⟩ := h
      cases names with
      | none =>
        exact ⟨0, bytes, [], (List.append_nil _).symm, hbytes, .inl ⟨rfl, rfl, rfl⟩⟩
      | some ss =>
        obtain ⟨front, back, rfl, hlength, hback⟩ := spells_cons.mp hbytes
        refine ⟨ss.length, front, back, rfl, hlength, .inr ⟨?_, ss, rfl, rfl, hback⟩⟩
        intro hzero
        rw [List.eq_nil_of_length_eq_zero hzero] at hne
        exact hne rfl
  · split
    · rename_i hn
      exact .congr (fun names back => by simp [hn]) (.pure limit _)
    · rename_i hn
      refine .congr ?_ (.bind (streamed_texts _) (reads_texts limit n) fun _ => .pure limit _)
      intro names back
      refine ⟨fun h => ?_, fun h => ?_⟩
      · obtain ⟨ss, front, _, rfl, ⟨hlen, hfront⟩, rfl, rfl⟩ := h
        exact .inr ⟨hn, ss, rfl, hlen, by rwa [List.append_nil]⟩
      · obtain ⟨hzero, _⟩ | ⟨_, ss, rfl, hlen, hback⟩ := h
        · exact absurd hzero hn
        · exact ⟨ss, back, [], (List.append_nil _).symm, ⟨hlen, hback⟩, rfl, rfl⟩

def refFields (ref : ObjectRef) : List Field :=
  .word .i32 ref.id ::
    match ref.className with
    | some name => .flag true :: Field.text name
    | none => [.flag false]

theorem reads_objectRef (limit : Nat) :
    Reads limit objectRef fun ref front => Spells (refFields ref) front := by
  refine .congr ?_ (.bind (streamed_word _) (reads_word limit .i32) fun id =>
    .bind streamed_flag (reads_flag limit)
      (S := fun v ref back =>
        (v = false ∧ ref = ⟨id, none⟩ ∧ back = []) ∨
          (v = true ∧ ∃ name, ref = ⟨id, some name⟩ ∧ Spells (Field.text name) back))
      fun v => ?_)
  · intro ref bytes
    obtain ⟨id, className⟩ := ref
    refine ⟨fun h => ?_, fun h => ?_⟩
    · obtain ⟨id', front, _, rfl, hid, v, middle, back, rfl, hv, hrest⟩ := h
      refine spells_cons.mpr ⟨front, middle ++ back, rfl, ?_⟩
      obtain ⟨rfl, href, rfl⟩ | ⟨rfl, name, href, hback⟩ := hrest
      · cases href
        exact ⟨hid, by rwa [List.append_nil]⟩
      · cases href
        exact ⟨hid, spells_cons.mpr ⟨middle, back, rfl, hv, hback⟩⟩
    · obtain ⟨front, tail, rfl, hid, htail⟩ := spells_cons.mp h
      cases className with
      | none =>
        exact ⟨id, front, tail, rfl, hid, false, tail, [], (List.append_nil _).symm, htail,
          .inl ⟨rfl, rfl, rfl⟩⟩
      | some name =>
        obtain ⟨middle, back, rfl, hv, hback⟩ := spells_cons.mp htail
        exact ⟨id, front, _, rfl, hid, true, middle, back, rfl, hv, .inr ⟨rfl, name, rfl, hback⟩⟩
  · cases v with
    | false => exact .congr (fun ref back => by simp) (.pure limit _)
    | true =>
      refine .congr ?_ (.bind streamed_text (reads_text limit) fun _ => .pure limit _)
      intro ref back
      refine ⟨fun h => ?_, fun h => ?_⟩
      · obtain ⟨name, front, _, rfl, hfront, rfl, rfl⟩ := h
        exact .inr ⟨rfl, name, rfl, by rwa [List.append_nil]⟩
      · obtain ⟨hfalse, _⟩ | ⟨_, name, rfl, hback⟩ := h
        · cases hfalse
        · exact ⟨name, back, [], (List.append_nil _).symm, hback, rfl, rfl⟩

theorem reads_outcome (limit : Nat) (e : Except Fault α) :
    Reads limit (outcome e) fun x back => e = .ok x ∧ back = [] := by
  cases e with
  | ok x => exact .congr (fun y back => by rw [Except.ok.injEq, eq_comm]) (.pure limit x)
  | error fault => exact .congr (fun y back => by simp) (.throw limit fault)

def vectorFields (v : LabelledVector) : List Field :=
  Field.labels v.labels ++ [.length "float64 array" v.values.length, .words .f64 v.values]

theorem reads_vector (limit : Nat) :
    Reads limit vector fun v front => Spells (vectorFields v) front := by
  refine .congr ?_ (.bind streamed_labels (reads_labels limit) fun names =>
    .bind (streamed_words _ _) (reads_words_counted limit .f64 "float64 array" (by decide))
      (S := fun values v back =>
        names.elim (.ok (.ofValues values)) (LabelledVector.withLabels · values) = .ok v ∧ back = [])
      fun values => ?_)
  · intro v bytes
    refine ⟨fun h => ?_, fun h => ?_⟩
    · obtain ⟨names, front, _, rfl, ⟨hne, hnames⟩, values, back, _, rfl, hvalues, hv, rfl⟩ := h
      rw [List.append_nil]
      refine spells_append.mpr ⟨front, back, rfl, ?_⟩
      cases names with
      | none =>
        cases hv
        exact ⟨hnames, hvalues⟩
      | some ss =>
        have hss : ss ≠ [] := fun hnil => hne (congrArg some hnil)
        obtain ⟨hlabels, rfl⟩ := LabelledVector.parts_of_withLabels hss hv
        exact ⟨by rwa [hlabels], hvalues⟩
    · obtain ⟨front, back, rfl, hnames, hvalues⟩ := spells_append.mp h
      refine ⟨v.labels, front, back, rfl, ⟨fun hnil => (v.labels_fit [] hnil).1 rfl, hnames⟩,
        v.values, back, [], (List.append_nil _).symm, hvalues, ?_, rfl⟩
      cases hlabels : v.labels with
      | some ss => exact v.withLabels_parts hlabels
      | none =>
        obtain ⟨labels, values, hfit⟩ := v
        cases hlabels
        rfl
  · cases names with
    | none => exact reads_outcome limit (.ok (LabelledVector.ofValues values))
    | some names => exact reads_outcome limit _

def matrixFields (t : LabelledMatrix) : List Field :=
  Field.labels t.rowLabels ++ Field.labels t.colLabels ++
    [.length "matrix rows" t.rows, .length "matrix columns" t.cols, .words .f64 t.data]

theorem reads_matrix (limit : Nat) :
    Reads limit matrix fun t front =>
      t.rows * t.cols * 8 < sizeLimit ∧ Spells (matrixFields t) front := by
  rw [matrix_eq]
  refine .congr ?_ (.bind streamed_labels (reads_labels limit) fun rowLabels =>
    .bind streamed_labels (reads_labels limit) fun colLabels =>
    .bind (streamed_count _) (reads_count limit "rows" "matrix rows") fun rows =>
    .bind (streamed_count _) (reads_count limit "columns" "matrix columns")
      (S := fun cols t back => ∃ data, (data.length = rows * cols ∧
        rows * cols * 8 < sizeLimit) ∧ Spells [.words .f64 data] back ∧
        LabelledMatrix.assemble rowLabels colLabels rows cols data = .ok t)
      fun cols => ?_)
  · intro t bytes
    rw [matrixFields, List.append_assoc]
    refine ⟨fun h => ?_, fun h => ?_⟩
    · obtain ⟨rowLabels, front, _, rfl, ⟨hrowne, hrow⟩, colLabels, front', _, rfl, ⟨hcolne, hcol⟩,
        rows, third, _, rfl, hrows, cols, fourth, back, rfl, hcols, data, ⟨_, hsize⟩, hdata, ht⟩ := h
      cases LabelledMatrix.parts_of_assemble hrowne hcolne ht
      exact ⟨hsize, spells_append.mpr ⟨_, _, rfl, hrow, spells_append.mpr ⟨_, _, rfl, hcol,
        spells_cons.mpr ⟨_, _, rfl, hrows, spells_cons.mpr ⟨_, _, rfl, hcols, hdata⟩⟩⟩⟩⟩
    · obtain ⟨hsize, h⟩ := h
      obtain ⟨front, _, rfl, hrow, h⟩ := spells_append.mp h
      obtain ⟨front', _, rfl, hcol, h⟩ := spells_append.mp h
      obtain ⟨third, _, rfl, hrows, h⟩ := spells_cons.mp h
      obtain ⟨fourth, back, rfl, hcols, hdata⟩ := spells_cons.mp h
      exact ⟨t.rowLabels, front, _, rfl, ⟨fun hnil => (t.rowLabels_fit [] hnil).1 rfl, hrow⟩,
        t.colLabels, front', _, rfl, ⟨fun hnil => (t.colLabels_fit [] hnil).1 rfl, hcol⟩,
        t.rows, third, _, rfl, hrows, t.cols, fourth, back, rfl, hcols,
        t.data, ⟨t.length_data, hsize⟩, hdata, t.assemble_parts⟩
  · split
    · refine .congr ?_ (.bind (streamed_words _ _) (reads_words limit .f64 (rows * cols)) fun data =>
        reads_outcome limit (LabelledMatrix.assemble rowLabels colLabels rows cols data))
      intro t back
      refine ⟨fun h => ?_, fun h => ?_⟩
      · obtain ⟨data, front, _, rfl, ⟨hdata, hfront⟩, ht, rfl⟩ := h
        exact ⟨data, hdata, by rwa [List.append_nil], ht⟩
      · obtain ⟨data, hdata, hback, ht⟩ := h
        exact ⟨data, back, [], (List.append_nil _).symm, ⟨hdata, hback⟩, ht, rfl⟩
    · rename_i hlimit
      refine .congr ?_ (.throw limit _)
      intro t back
      refine ⟨False.elim, fun h => ?_⟩
      obtain ⟨data, ⟨_, hsize⟩, _⟩ := h
      omega

def membersFields (ms : Members) : List Field :=
  Field.texts "string array" ms.properties ++
    (Field.texts "string array" ms.methods ++ Field.texts "string array" ms.staticMethods)

theorem reads_members (limit : Nat) :
    Reads limit members fun ms front => Spells (membersFields ms) front := by
  have htexts := reads_texts_counted limit "string array"
  refine .congr ?_ (Builds.cons (streamed_texts none) htexts fun properties =>
    Builds.cons (streamed_texts none) htexts fun methods =>
    Builds.last (Members.mk properties methods) (streamed_texts none) htexts.always)
  intro ms front
  refine ⟨fun h => ?_, fun h => ?_⟩
  · obtain ⟨i, rfl, _, hfront⟩ := h
    exact hfront
  · exact ⟨(ms.properties, ms.methods, ms.staticMethods), rfl, trivial, h⟩

/-! ### Bodies -/

section

variable {limit : Nat} {item : Action Message} (hstream : Streamed item)
  (hitem : Reads limit item fun m front => m.Sized ∧ Spells m.layout front)

include hstream hitem

theorem reads_items (count : Nat) :
    Reads limit (repeated item count) fun ms bytes =>
      ms.length = count ∧ (∀ m ∈ ms, m.Sized) ∧ Spells (Message.layouts ms) bytes :=
  .congr (fun ms bytes => by rw [Message.layouts_eq]) (reads_repeated hstream hitem count)

theorem reads_arguments :
    Reads limit (arguments item) fun args bytes =>
      (∀ m ∈ args, m.Sized) ∧ Spells (.arity args.length :: Message.layouts args) bytes := by
  refine .congr ?_ (.bind (streamed_word .u16) (reads_word limit .u16) fun n =>
    reads_items hstream hitem n.toNat)
  intro args bytes
  rw [spells_cons]
  refine ⟨fun h => ?_, fun h => ?_⟩
  · obtain ⟨n, front, back, rfl, hn, hlen, hsized, hback⟩ := h
    rw [Field.word, spells_raw] at hn
    exact ⟨hsized, front, back, rfl, spells_arity.mpr ⟨hlen ▸ n.toNat_lt, by rw [hn, hlen]; rfl⟩, hback⟩
  · obtain ⟨hsized, front, back, rfl, harity, hback⟩ := h
    obtain ⟨hlt, rfl⟩ := spells_arity.mp harity
    have hn : (UInt16.ofNat args.length).toNat = args.length := by
      rw [UInt16.toNat_ofNat']
      exact Nat.mod_eq_of_lt hlt
    refine ⟨UInt16.ofNat args.length, _, back, rfl, ?_, hn.symm, hsized, hback⟩
    rw [Field.word, spells_raw]
    show littleEndian 2 args.length = littleEndian 2 (UInt16.ofNat args.length).toNat
    rw [hn]

theorem reads_objectArray :
    Reads limit (count "object array" >>= repeated item) fun ms bytes =>
      (∀ m ∈ ms, m.Sized) ∧
        Spells (.length "object array" ms.length :: Message.layouts ms) bytes := by
  refine .congr ?_ (.bind (streamed_count _) (reads_count limit "object array" "object array")
    fun n => reads_items hstream hitem n)
  intro ms bytes
  rw [spells_cons]
  refine ⟨fun h => ?_, fun h => ?_⟩
  · obtain ⟨_, front, back, rfl, hlength, rfl, hsized, hback⟩ := h
    exact ⟨hsized, front, back, rfl, hlength, hback⟩
  · obtain ⟨hsized, front, back, rfl, hlength, hback⟩ := h
    exact ⟨_, front, back, rfl, hlength, rfl, hsized, hback⟩

/-- The body of a message of a tag is read from exactly the bytes that spell it. -/
theorem reads_payload (t : Tag) : Reads limit (payload item (Message.empty t)) (Message.Tagged t) := by
  have htext := reads_text limit
  have hid := reads_word limit .i32
  have hargs := reads_arguments hstream hitem
  cases t with
  | null =>
    refine .congr ?_ (.pure limit Message.null)
    intro m front
    refine ⟨fun h => ?_, fun h => ?_⟩
    · obtain ⟨rfl, rfl⟩ := h
      have hsized : Message.null.Sized := by
        intro t ht
        cases ht
      exact ⟨rfl, hsized, rfl⟩
    · obtain ⟨htag, _, hfront⟩ := h
      cases m with
      | null => exact ⟨rfl, hfront⟩
      | _ => cases htag
  | bool =>
    exact reads_single Message.bool streamed_flag (reads_flag limit)
      (fun _ => rfl) (fun | .bool x, _ => ⟨x, rfl⟩) (fun _ => rfl) fun _ => rfl
  | byte =>
    exact reads_single Message.byte (streamed_word .u8) (reads_word limit .u8)
      (fun _ => rfl) (fun | .byte x, _ => ⟨x, rfl⟩) (fun _ => rfl) fun _ => rfl
  | int32 =>
    exact reads_single Message.int32 (streamed_word .i32) hid
      (fun _ => rfl) (fun | .int32 x, _ => ⟨x, rfl⟩) (fun _ => rfl) fun _ => rfl
  | int64 =>
    exact reads_single Message.int64 (streamed_word .i64) (reads_word limit .i64)
      (fun _ => rfl) (fun | .int64 x, _ => ⟨x, rfl⟩) (fun _ => rfl) fun _ => rfl
  | float64 =>
    exact reads_single Message.float64 (streamed_word .f64) (reads_word limit .f64)
      (fun _ => rfl) (fun | .float64 x, _ => ⟨x, rfl⟩) (fun _ => rfl) fun _ => rfl
  | string =>
    exact reads_single Message.string streamed_text htext
      (fun _ => rfl) (fun | .string x, _ => ⟨x, rfl⟩) (fun _ => rfl) fun _ => rfl
  | object =>
    exact reads_single Message.object streamed_objectRef (reads_objectRef limit)
      (fun _ => rfl) (fun | .object x, _ => ⟨x, rfl⟩) (fun _ => rfl) fun _ => rfl
  | vector =>
    exact reads_single Message.vector streamed_vector (reads_vector limit)
      (fun _ => rfl) (fun | .vector x, _ => ⟨x, rfl⟩) (fun _ => rfl) fun _ => rfl
  | matrix =>
    have hsized (t : LabelledMatrix) : t.rows * t.cols * 8 < sizeLimit ↔ (Message.matrix t).Sized := by
      simp only [Message.Sized, Message.matrices, List.forall_mem_singleton]
    exact (Builds.last Message.matrix streamed_matrix (reads_matrix limit)).tagged (fun _ => rfl)
      (fun | .matrix x, _ => ⟨x, rfl⟩) hsized fun _ => rfl
  | exception =>
    exact reads_single Message.exception streamed_text htext
      (fun _ => rfl) (fun | .exception x, _ => ⟨x, rfl⟩) (fun _ => rfl) fun _ => rfl
  | boolArray =>
    exact reads_single Message.boolArray (streamed_flags none) (reads_flags limit "bool array")
      (fun _ => rfl) (fun | .boolArray x, _ => ⟨x, rfl⟩) (fun _ => rfl) fun _ => rfl
  | byteArray =>
    exact reads_single Message.byteArray (streamed_bytes none) (reads_bytes limit "byte array")
      (fun _ => rfl) (fun | .byteArray x, _ => ⟨x, rfl⟩) (fun _ => rfl) fun _ => rfl
  | int32Array =>
    have hwords := reads_words_counted limit .i32 "int32 array" (by decide)
    exact reads_single Message.int32Array (streamed_words .i32 none) hwords
      (fun _ => rfl) (fun | .int32Array x, _ => ⟨x, rfl⟩) (fun _ => rfl) fun _ => rfl
  | int64Array =>
    have hwords := reads_words_counted limit .i64 "int64 array" (by decide)
    exact reads_single Message.int64Array (streamed_words .i64 none) hwords
      (fun _ => rfl) (fun | .int64Array x, _ => ⟨x, rfl⟩) (fun _ => rfl) fun _ => rfl
  | float64Array =>
    have hwords := reads_words_counted limit .f64 "float64 array" (by decide)
    exact reads_single Message.float64Array (streamed_words .f64 none) hwords
      (fun _ => rfl) (fun | .float64Array x, _ => ⟨x, rfl⟩) (fun _ => rfl) fun _ => rfl
  | stringArray =>
    exact reads_single Message.stringArray (streamed_texts none) (reads_texts_counted limit "string array")
      (fun _ => rfl) (fun | .stringArray x, _ => ⟨x, rfl⟩) (fun _ => rfl) fun _ => rfl
  | objectArray =>
    show Reads limit (count "object array" >>= fun n => repeated item n >>= fun ms =>
      pure (Message.objectArray ms)) _
    rw [← bind_assoc]
    exact (Builds.last Message.objectArray ((streamed_count _).bind fun _ => streamed_repeated hstream _)
      (reads_objectArray hstream hitem)).tagged (fun _ => rfl) (fun | .objectArray x, _ => ⟨x, rfl⟩)
      (fun _ => Message.forall_matricesOfAll.symm) fun _ => rfl
  | create =>
    exact (Builds.cons streamed_text htext fun c =>
      Builds.last (Message.create c) (streamed_arguments hstream) hargs).tagged (fun _ => rfl)
      (fun | .create c args, _ => ⟨(c, args), rfl⟩)
      (fun _ => Message.forall_matricesOfAll.symm) fun _ => rfl
  | callStaticMethod =>
    exact (Builds.cons streamed_text htext fun c => Builds.cons streamed_text htext fun name =>
      Builds.last (Message.callStaticMethod c name) (streamed_arguments hstream) hargs).tagged
      (fun _ => rfl) (fun | .callStaticMethod c name args, _ => ⟨(c, name, args), rfl⟩)
      (fun _ => Message.forall_matricesOfAll.symm) fun _ => (List.append_assoc ..).symm
  | callMethod =>
    exact (Builds.cons (streamed_word .i32) hid fun id => Builds.cons streamed_text htext fun name =>
      Builds.last (Message.callMethod id name) (streamed_arguments hstream) hargs).tagged
      (fun _ => rfl) (fun | .callMethod id name args, _ => ⟨(id, name, args), rfl⟩)
      (fun _ => Message.forall_matricesOfAll.symm) fun _ => rfl
  | getProperty =>
    exact (Builds.cons (streamed_word .i32) hid fun id =>
      Builds.last (Message.getProperty id) streamed_text htext.always).tagged (fun _ => rfl)
      (fun | .getProperty id name, _ => ⟨(id, name), rfl⟩) (fun _ => true_iff_sized rfl) fun _ => rfl
  | getIndexedProperty =>
    exact (Builds.cons (streamed_word .i32) hid fun id => Builds.cons streamed_text htext fun name =>
      Builds.last (Message.getIndexedProperty id name) (streamed_word .i32) hid.always).tagged
      (fun _ => rfl) (fun | .getIndexedProperty id name index, _ => ⟨(id, name, index), rfl⟩)
      (fun _ => true_iff_sized rfl) fun _ => rfl
  | getIndexed =>
    exact (Builds.cons (streamed_word .i32) hid fun id =>
      Builds.last (Message.getIndexed id) (streamed_word .i32) hid.always).tagged (fun _ => rfl)
      (fun | .getIndexed id index, _ => ⟨(id, index), rfl⟩) (fun _ => true_iff_sized rfl) fun _ => rfl
  | setProperty =>
    exact (Builds.cons (streamed_word .i32) hid fun id => Builds.cons streamed_text htext fun name =>
      Builds.last (Message.setProperty id name) hstream hitem).tagged (fun _ => rfl)
      (fun | .setProperty id name value, _ => ⟨(id, name, value), rfl⟩) (fun _ => Iff.rfl) fun _ => rfl
  | getStaticProperty =>
    exact (Builds.cons streamed_text htext fun c =>
      Builds.last (Message.getStaticProperty c) streamed_text htext.always).tagged (fun _ => rfl)
      (fun | .getStaticProperty c name, _ => ⟨(c, name), rfl⟩) (fun _ => true_iff_sized rfl) fun _ => rfl
  | setStaticProperty =>
    exact (Builds.cons streamed_text htext fun c => Builds.cons streamed_text htext fun name =>
      Builds.last (Message.setStaticProperty c name) hstream hitem).tagged (fun _ => rfl)
      (fun | .setStaticProperty c name value, _ => ⟨(c, name, value), rfl⟩) (fun _ => Iff.rfl)
      fun _ => (List.append_assoc ..).symm
  | protect =>
    exact (Builds.last Message.protect (streamed_word .i32) hid.always).tagged (fun _ => rfl)
      (fun | .protect id, _ => ⟨id, rfl⟩) (fun _ => true_iff_sized rfl) fun _ => rfl
  | release =>
    exact (Builds.last Message.release (streamed_word .i32) hid.always).tagged (fun _ => rfl)
      (fun | .release id, _ => ⟨id, rfl⟩) (fun _ => true_iff_sized rfl) fun _ => rfl
  | templateReq =>
    exact (Builds.last Message.templateReq streamed_text htext.always).tagged (fun _ => rfl)
      (fun | .templateReq c, _ => ⟨c, rfl⟩) (fun _ => true_iff_sized rfl) fun _ => rfl
  | templateReply =>
    exact (Builds.last Message.templateReply streamed_members (reads_members limit).always).tagged
      (fun _ => rfl) (fun | .templateReply x, _ => ⟨x, rfl⟩) (fun _ => true_iff_sized rfl)
      fun _ => (List.append_assoc ..).symm

end

/-! ### Messages -/

theorem header_length {code : UInt8} {front : List UInt8}
    (h : Spells [.word .u16 magic, .word .u8 code] front) : front.length = 3 := by
  obtain ⟨lead, tail, rfl, hlead, htail⟩ := spells_cons.mp h
  rw [Field.word, spells_raw] at hlead htail
  rw [hlead, htail]
  rfl

theorem reads_header (limit : Nat) :
    Reads limit header fun code front => Spells [.word .u16 magic, .word .u8 code] front := by
  refine .congr ?_ (.bind (streamed_word .u16) (reads_word limit .u16)
    (S := fun found code back => found = magic ∧ Spells [.word .u8 code] back) fun found => ?_)
  · intro code front
    rw [spells_cons]
    refine ⟨fun h => ?_, fun h => ?_⟩
    · obtain ⟨_, lead, tail, rfl, hlead, rfl, htail⟩ := h
      exact ⟨lead, tail, rfl, hlead, htail⟩
    · obtain ⟨lead, tail, rfl, hlead, htail⟩ := h
      exact ⟨magic, lead, tail, rfl, hlead, rfl, htail⟩
  · split
    · exact .congr (fun code front => by simp [*]) (reads_word limit .u8)
    · exact .congr (fun code front => by simp [*]) (.throw limit _)

theorem standard_find? (code : UInt8) :
    Catalogue.standard.find? code = (Tag.ofCode? code).map Message.empty := by
  simp only [Catalogue.find?, Catalogue.standard, Tag.ofCode?, List.find?_map, Option.map_map]
  rfl

/-- At a depth that the bytes cannot exceed, a message is read from exactly the bytes that spell it. -/
theorem reads_messageWithin (depth limit : Nat) (h : limit < depth) :
    Reads limit (messageWithin .standard depth) fun m front => m.Sized ∧ Spells m.layout front := by
  induction depth generalizing limit with
  | zero => omega
  | succ depth ih =>
    -- The header takes three bytes, so that whatever is nested comes with a lower limit.
    refine .congr ?_ (.bind_consuming 3 streamed_header (reads_header limit)
      (fun code front hfront => Nat.le_of_eq (header_length hfront).symm)
      (S := fun code m back => m.tag.code = code ∧ m.Sized ∧ Spells m.body back)
      fun hleast code => ?_)
    · intro m bytes
      rw [m.layout_eq, spells_append]
      refine ⟨fun h => ?_, fun h => ?_⟩
      · obtain ⟨_, front, back, rfl, hfront, rfl, hsized, hback⟩ := h
        exact ⟨hsized, front, back, rfl, hfront, hback⟩
      · obtain ⟨hsized, front, back, rfl, hfront, hback⟩ := h
        exact ⟨_, front, back, rfl, hfront, rfl, hsized, hback⟩
    · rw [standard_find?]
      cases hcode : Tag.ofCode? code with
      | none =>
        refine .congr ?_ (.throw _ _)
        intro m back
        refine ⟨False.elim, fun h => ?_⟩
        rw [← h.1, Tag.ofCode?_code] at hcode
        cases hcode
      | some t =>
        refine .congr ?_ (reads_payload (streamed_messageWithin _ depth) (ih (limit - 3) ?_) t)
        · intro m back
          refine ⟨fun h => ?_, fun h => ?_⟩
          · exact ⟨h.1 ▸ Tag.code_of_ofCode? hcode, h.2⟩
          · rw [← h.1, Tag.ofCode?_code] at hcode
            cases hcode
            exact ⟨rfl, h.2⟩
        · omega

theorem reads_message (limit : Nat) :
    Reads limit (message .standard) fun m front => m.Sized ∧ Spells m.layout front := by
  intro bytes m rest _
  have hleft : (held bytes).left = bytes.length := by rw [left_eq_length_stream, stream_held]
  rw [message, hleft]
  exact reads_messageWithin (bytes.length + 1) bytes.length (Nat.lt_succ_self _) bytes m rest
    (Nat.le_refl _)

end Reader

end ObjectBridge
