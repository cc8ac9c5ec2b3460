import ObjectBridge.Proofs.Message.Parts
import ObjectBridge.Proofs.Message.Spelling
import ObjectBridge.Wire.Channel

/-!
# Reading whatever arrives

The bytes of a message come from the other side, and so do the counts that drive the reading. Main
statement: `message_total`. Whatever the catalogue, the source and the state of the reader, the reading of
a message follows its recursion to the end: every message that is part of another costs a header, so the
bound on the depth is never what stops it. It takes no byte that was not made sure of, and it gives a
message whose tables are all in shape or a fault of the stream.
-/

namespace ObjectBridge

/-! ### Tables in shape -/

/-- A vector whose labels are absent or complete, and whose size fits the word that carried it. -/
structure LabelledVector.Shaped (v : LabelledVector) : Prop where
  labels : LabelsFit v.labels v.values.length
  size_lt : v.values.length < 0x80000000

/-- A matrix whose values fill its shape, whose labels are absent or complete, and whose shape fits the
words that carried it. -/
structure LabelledMatrix.Shaped (t : LabelledMatrix) : Prop where
  data : t.data.length = t.rows * t.cols
  rowLabels : LabelsFit t.rowLabels t.rows
  colLabels : LabelsFit t.colLabels t.cols
  rows_lt : t.rows < 0x80000000
  cols_lt : t.cols < 0x80000000

/-- All tables of a message are in shape, at every depth. -/
def Message.Shaped (m : Message) : Prop :=
  (∀ v, .vector v ∈ m.parts → v.Shaped) ∧ ∀ t, .matrix t ∈ m.parts → t.Shaped

namespace Message

theorem shaped_vector {v : LabelledVector} : (vector v).Shaped ↔ v.Shaped := by
  simp [Shaped, parts]

theorem shaped_matrix {t : LabelledMatrix} : (matrix t).Shaped ↔ t.Shaped := by
  simp [Shaped, parts]

/-- Whether a message is a vector or a matrix. -/
def isTable : Message → Bool
  | vector _ | matrix _ => true
  | _ => false

/-- A message that is no table is in shape if all messages in it are. -/
theorem Shaped.of_inner {m : Message} (inner : List Message) (hparts : m.parts = m :: partsOfAll inner)
    (hm : m.isTable = false) (h : ∀ part ∈ inner, part.Shaped) : m.Shaped := by
  have hin {part : Message} (hpart : part ∈ m.parts) (hne : part ≠ m) :
      ∃ m' ∈ inner, part ∈ m'.parts := by
    rw [hparts] at hpart
    exact mem_partsOfAll.mp ((List.mem_cons.mp hpart).resolve_left hne)
  refine ⟨fun v hmem => ?_, fun t hmem => ?_⟩
  · have hne : vector v ≠ m := by
      rintro rfl
      cases hm
    obtain ⟨m', hm', hmem⟩ := hin hmem hne
    exact (h m' hm').1 v hmem
  · have hne : matrix t ≠ m := by
      rintro rfl
      cases hm
    obtain ⟨m', hm', hmem⟩ := hin hmem hne
    exact (h m' hm').2 t hmem

end Message

namespace Reader

variable {α β : Type}

/-! ### The depth is no bound -/

theorem Streamed.left_le {a : Action α} (ha : Streamed a) (r : Reader) :
    (after (a r)).left ≤ r.left := by
  rw [left_eq_length_stream, left_eq_length_stream]
  exact (ha.suffix r).length_le

/-- Two steps that do the same wherever at most so many bytes are left. -/
def Agree (limit : Nat) (a b : Action α) : Prop := ∀ r, r.left ≤ limit → a r = b r

namespace Agree

variable {limit : Nat}

theorem refl (a : Action α) : Agree limit a a := fun _ _ => rfl

theorem bind {a b : Action α} {f g : α → Action β} (ha : Streamed a) (hab : Agree limit a b)
    (hfg : ∀ x, Agree limit (f x) (g x)) : Agree limit (a >>= f) (b >>= g) := by
  intro r hr
  have hle := ha.left_le r
  cases h : a r with
  | ok x mid =>
    rw [h] at hle
    rw [bind_of_ok f h, bind_of_ok g (hab r hr ▸ h)]
    exact hfg x mid (Nat.le_trans hle hr)
  | error fault mid => rw [bind_of_error f h, bind_of_error g (hab r hr ▸ h)]

theorem collect {step step' : Action α} (hs : Streamed step) (h : Agree limit step step')
    (count : Nat) (done : List α) :
    Agree limit (Reader.collect step count done) (Reader.collect step' count done) := by
  induction count generalizing done with
  | zero => exact refl _
  | succ count ih => exact bind hs h fun x => ih (x :: done)

theorem arguments {item item' : Action Message} (hs : Streamed item) (h : Agree limit item item') :
    Agree limit (Reader.arguments item) (Reader.arguments item') :=
  bind (streamed_word _) (refl _) fun _ => collect hs h _ []

theorem payload {item item' : Action Message} (hs : Streamed item) (h : Agree limit item item')
    (blank : Message) : Agree limit (Reader.payload item blank) (Reader.payload item' blank) := by
  have hargs := streamed_arguments hs
  cases blank with
  | objectArray _ =>
    exact bind (streamed_count _) (refl _) fun _ =>
      bind (streamed_repeated hs _) (collect hs h _ []) fun _ => refl _
  | create _ _ =>
    exact bind streamed_text (refl _) fun _ => bind hargs (arguments hs h) fun _ => refl _
  | callStaticMethod _ _ _ =>
    exact bind streamed_text (refl _) fun _ => bind streamed_text (refl _) fun _ =>
      bind hargs (arguments hs h) fun _ => refl _
  | callMethod _ _ _ =>
    exact bind (streamed_word _) (refl _) fun _ => bind streamed_text (refl _) fun _ =>
      bind hargs (arguments hs h) fun _ => refl _
  | setProperty _ _ _ =>
    exact bind (streamed_word _) (refl _) fun _ => bind streamed_text (refl _) fun _ =>
      bind hs h fun _ => refl _
  | setStaticProperty _ _ _ =>
    exact bind streamed_text (refl _) fun _ => bind streamed_text (refl _) fun _ =>
      bind hs h fun _ => refl _
  | _ => exact refl _

end Agree

theorem header_left {r r' : Reader} {code : UInt8} (h : header r = .ok code r') :
    r'.left + 3 = r.left := by
  obtain ⟨front, hstream, hfront⟩ :=
    (reads_header r.stream.length r.stream code r'.stream (Nat.le_refl _)).mp (streamed_header.ok h)
  rw [left_eq_length_stream, left_eq_length_stream, hstream, List.length_append,
    header_length hfront, Nat.add_comm]

/-- What is read behind a header, with `item` for the messages inside. -/
def ofCode (catalogue : Catalogue) (item : Action Message) (code : UInt8) : Action Message :=
  match catalogue.find? code with
  | some blank => payload item blank
  | none => throw (.unknownTag code)

theorem streamed_ofCode {item : Action Message} (h : Streamed item) (catalogue : Catalogue)
    (code : UInt8) : Streamed (ofCode catalogue item code) := by
  unfold ofCode
  split
  · exact streamed_payload h _
  · exact .throw rfl

theorem Agree.ofCode {limit : Nat} {item item' : Action Message} (h : Agree limit item item')
    (hs : Streamed item) (catalogue : Catalogue) (code : UInt8) :
    Agree limit (Reader.ofCode catalogue item code) (Reader.ofCode catalogue item' code) := by
  unfold Reader.ofCode
  split
  · exact .payload hs h _
  · exact .refl _

theorem messageWithin_succ (catalogue : Catalogue) (depth : Nat) :
    messageWithin catalogue (depth + 1) =
      (do ofCode catalogue (messageWithin catalogue depth) (← header)) := rfl

/-- Depths that the bytes cannot exceed make no difference. -/
theorem agree_messageWithin (catalogue : Catalogue) {limit depth depth' : Nat} (h : limit < depth)
    (h' : limit < depth') :
    Agree limit (messageWithin catalogue depth) (messageWithin catalogue depth') := by
  induction depth generalizing limit depth' with
  | zero => omega
  | succ depth ih =>
    cases depth' with
    | zero => omega
    | succ depth' =>
      intro r hr
      rw [messageWithin_succ, messageWithin_succ]
      cases hheader : header r with
      | ok code mid =>
        have hleft := header_left hheader
        rw [bind_of_ok _ hheader, bind_of_ok _ hheader]
        -- The header is gone, so both depths still exceed what is left.
        have hitem : Agree mid.left (messageWithin catalogue depth) (messageWithin catalogue depth') :=
          ih (by omega) (by omega)
        exact hitem.ofCode (streamed_messageWithin catalogue depth) catalogue code mid (Nat.le_refl _)
      | error fault mid => rw [bind_of_error _ hheader, bind_of_error _ hheader]

/-- A message is a header and what is read behind it, where messages inside are read in the same way. -/
theorem message_eq (catalogue : Catalogue) (r : Reader) :
    message catalogue r = (do ofCode catalogue (message catalogue) (← header)) r := by
  rw [message, messageWithin_succ]
  cases hheader : header r with
  | ok code mid =>
    have hleft := header_left hheader
    rw [bind_of_ok _ hheader, bind_of_ok _ hheader]
    have hitem : Agree mid.left (messageWithin catalogue r.left) (message catalogue) := by
      intro q hq
      have hdepths : Agree q.left (messageWithin catalogue r.left)
          (messageWithin catalogue (q.left + 1)) :=
        agree_messageWithin catalogue (by omega) (by omega)
      exact hdepths q (Nat.le_refl _)
    exact hitem.ofCode (streamed_messageWithin catalogue _) catalogue code mid (Nat.le_refl _)
  | error fault mid => rw [bind_of_error _ hheader, bind_of_error _ hheader]

/-! ### What is read is in shape -/

/-- A step whose results are all of some kind. -/
def Yields (good : α → Prop) (a : Action α) : Prop := ∀ r x r', a r = .ok x r' → good x

namespace Yields

theorem pure {good : α → Prop} {x : α} (h : good x) : Yields good (Pure.pure x) := by
  intro r y r' hok
  obtain ⟨rfl, _⟩ := pure_ok.mp hok
  exact h

theorem throw {good : α → Prop} {fault : Fault} : Yields good (MonadExcept.throw fault) :=
  fun _ _ _ hok => absurd hok throw_ok

theorem bind {good : α → Prop} {good' : β → Prop} {a : Action α} {f : α → Action β}
    (ha : Yields good a) (hf : ∀ x, good x → Yields good' (f x)) : Yields good' (a >>= f) := by
  intro r y r' hok
  obtain ⟨x, mid, hx, hy⟩ := bind_ok.mp hok
  exact hf x (ha _ _ _ hx) _ _ _ hy

/-- Of two steps the second decides, whatever the first gives. -/
theorem behind {good : β → Prop} {a : Action α} {f : α → Action β} (hf : ∀ x, Yields good (f x)) :
    Yields good (a >>= f) := by
  have hany : Yields (fun _ => True) a := fun _ _ _ _ => trivial
  exact hany.bind fun x _ => hf x

theorem collect {good : α → Prop} {step : Action α} (h : Yields good step) (count : Nat)
    {done : List α} (hdone : ∀ x ∈ done, good x) :
    Yields (fun xs => ∀ x ∈ xs, good x) (Reader.collect step count done) := by
  induction count generalizing done with
  | zero => exact pure fun x hx => hdone x (List.mem_reverse.mp hx)
  | succ count ih => exact bind h fun x hx => ih (List.forall_mem_cons.mpr ⟨hx, hdone⟩)

theorem repeated {good : α → Prop} {step : Action α} (h : Yields good step) (count : Nat) :
    Yields (fun xs => ∀ x ∈ xs, good x) (Reader.repeated step count) :=
  collect h count (by simp)

theorem arguments {good : Message → Prop} {item : Action Message} (h : Yields good item) :
    Yields (fun ms => ∀ m ∈ ms, good m) (Reader.arguments item) :=
  behind fun _ => h.repeated _

end Yields

theorem yields_vector : Yields LabelledVector.Shaped vector := by
  intro r v r' h
  obtain ⟨front, _, hspells⟩ :=
    (reads_vector r.stream.length r.stream v r'.stream (Nat.le_refl _)).mp (streamed_vector.ok h)
  obtain ⟨_, back, _, _, hback⟩ := spells_append.mp hspells
  obtain ⟨_, _, _, hlength, _⟩ := spells_cons.mp hback
  exact ⟨v.labels_fit, (spells_length.mp hlength).1⟩

theorem yields_matrix : Yields LabelledMatrix.Shaped matrix := by
  intro r t r' h
  obtain ⟨front, _, _, hspells⟩ :=
    (reads_matrix r.stream.length r.stream t r'.stream (Nat.le_refl _)).mp (streamed_matrix.ok h)
  obtain ⟨_, back, _, _, hback⟩ := spells_append.mp hspells
  obtain ⟨_, _, _, hrows, hrest⟩ := spells_cons.mp hback
  obtain ⟨_, _, _, hcols, _⟩ := spells_cons.mp hrest
  exact ⟨t.length_data, t.rowLabels_fit, t.colLabels_fit, (spells_length.mp hrows).1,
    (spells_length.mp hcols).1⟩

theorem yields_payload {item : Action Message} (h : Yields Message.Shaped item) (blank : Message) :
    Yields Message.Shaped (payload item blank) := by
  have leaf {m : Message} (hparts : m.parts = [m]) (hm : m.isTable = false) : m.Shaped :=
    .of_inner [] hparts hm (by simp)
  cases blank with
  | null => exact .pure (leaf rfl rfl)
  | vector _ => exact .bind yields_vector fun v hv => .pure (Message.shaped_vector.mpr hv)
  | matrix _ => exact .bind yields_matrix fun t ht => .pure (Message.shaped_matrix.mpr ht)
  | bool _ | byte _ | int32 _ | int64 _ | float64 _ | string _ | exception _ | object _ | boolArray _
  | byteArray _ | int32Array _ | int64Array _ | float64Array _ | stringArray _ | protect _ | release _
  | templateReq _ | templateReply _ => exact .behind fun _ => .pure (leaf rfl rfl)
  | getProperty _ _ | getIndexed _ _ | getStaticProperty _ _ =>
    exact .behind fun _ => .behind fun _ => .pure (leaf rfl rfl)
  | getIndexedProperty _ _ _ =>
    exact .behind fun _ => .behind fun _ => .behind fun _ => .pure (leaf rfl rfl)
  | objectArray _ =>
    exact .behind fun _ => .bind (h.repeated _) fun ms hms =>
      .pure (.of_inner ms rfl rfl hms)
  | create _ _ =>
    exact .behind fun _ => .bind h.arguments fun ms hms =>
      .pure (.of_inner ms rfl rfl hms)
  | callStaticMethod _ _ _ | callMethod _ _ _ =>
    exact .behind fun _ => .behind fun _ => .bind h.arguments fun ms hms =>
      .pure (.of_inner ms rfl rfl hms)
  | setProperty _ _ _ | setStaticProperty _ _ _ =>
    exact .behind fun _ => .behind fun _ => .bind h fun m hm =>
      .pure (.of_inner [m] (by simp [Message.parts, Message.partsOfAll]) rfl
        (List.forall_mem_singleton.mpr hm))

theorem yields_messageWithin (catalogue : Catalogue) (depth : Nat) :
    Yields Message.Shaped (messageWithin catalogue depth) := by
  induction depth with
  | zero => exact .behind fun _ => .throw
  | succ depth ih =>
    refine .behind fun code => ?_
    split
    · exact yields_payload ih _
    · exact .throw

/-! ### Any stream -/

/-- Whatever catalogue, source and buffer: reading a message is a header and what the code in it asks
for, where the messages inside are read in the same way. It comes to a message whose tables are all in
shape, and has consumed at least its header, or to a fault of the stream. Either way no byte was consumed
that was not made sure of. A channel that fails to receive therefore fails for good. -/
theorem message_total (catalogue : Catalogue) :
    (∀ r, message catalogue r = (do ofCode catalogue (message catalogue) (← header)) r) ∧
      (∀ r, (∃ m r', message catalogue r = .ok m r' ∧ m.Shaped ∧ r'.left + 3 ≤ r.left ∧
            r'.strayed = r.strayed) ∨
          ∃ fault r', message catalogue r = .error fault r' ∧ fault.ofStream = true ∧
            r'.left ≤ r.left ∧ r'.strayed = r.strayed) ∧
      ∀ c, (∃ m c', Channel.receive catalogue c = .ok m c') ∨
        ∃ fault c', Channel.receive catalogue c = .error fault c' ∧ fault.isFatal = true := by
  refine ⟨message_eq catalogue, fun r => ?_, fun c => ?_⟩
  · have hstays := (streamed_message catalogue).stays r
    have hitem := streamed_message catalogue
    have hleft := hitem.left_le r
    cases h : message catalogue r with
    | ok m r' =>
      rw [h] at hstays
      refine .inl ⟨m, r', rfl, yields_messageWithin catalogue _ r m r' h, ?_, hstays⟩
      rw [message_eq] at h
      obtain ⟨code, mid, hheader, hrest⟩ := bind_ok.mp h
      have hrest' := (streamed_ofCode hitem catalogue code).left_le mid
      rw [hrest] at hrest'
      rw [← header_left hheader]
      exact Nat.add_le_add_right hrest' 3
    | error fault r' =>
      rw [h] at hstays hleft
      exact .inr ⟨fault, r', rfl, (streamed_message catalogue).fault h, hleft, hstays⟩
  · cases hread : message catalogue c.reader with
    | ok m r' =>
      exact .inl ⟨m, { c with reader := r' }, by simp only [Channel.receive, Channel.reading, hread]⟩
    | error fault r' =>
      exact .inr ⟨fault, { c with reader := r' }, by simp only [Channel.receive, Channel.reading, hread],
        (streamed_message catalogue).fatal hread⟩

end Reader

end ObjectBridge
