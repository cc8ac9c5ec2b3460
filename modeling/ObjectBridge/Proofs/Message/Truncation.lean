import ObjectBridge.Proofs.Message.Robustness
import ObjectBridge.Proofs.Message.RoundTrip
import ObjectBridge.Proofs.Wire.Taking

/-!
# Streams that end too early

The reader of a message takes the fields of its layout, one after the other (`follows_message`), and checks
what is in a field only when all of it is there. Main statement: `read_truncated`. Of written messages
whose bytes are cut off somewhere, exactly those that lie wholly before the cut are read, and then the end of
the stream is reported, in terms of the one field that is cut.
-/

namespace ObjectBridge

namespace Reader

/-! ### Parts of messages -/

theorem follows_labels {names : Option (List String)} (h : names ≠ some []) :
    Follows labels (Field.labels names) names := by
  cases names with
  | none => exact (follows_count "label block" "label block" 0).bind (.done none)
  | some ss =>
    have hne : ss.length ≠ 0 := fun hzero => h (by rw [List.eq_nil_of_length_eq_zero hzero])
    refine (follows_count "label block" "label block" ss.length).bind ?_
    rw [if_neg hne]
    exact (follows_texts ss).last some

theorem follows_objectRef (ref : ObjectRef) : Follows objectRef (refFields ref) ref := by
  obtain ⟨id, className⟩ := ref
  refine (follows_word .i32 (f := .word .i32 id) rfl).bind ?_
  cases className with
  | none => exact (follows_flag false).bind (.done _)
  | some name =>
    exact (follows_flag true).bind ((follows_text name).last fun name => ObjectRef.mk id (some name))

theorem follows_outcome {α : Type} {e : Except Fault α} {x : α} (h : e = .ok x) :
    Follows (outcome e) [] x := by
  subst h
  exact .done x

theorem follows_vector (v : LabelledVector) : Follows vector (vectorFields v) v := by
  refine (follows_labels fun hnil => (v.labels_fit [] hnil).1 rfl).bind
    ((follows_words_counted .f64 "float64 array" (by decide) v.values).finish ?_)
  cases hlabels : v.labels with
  | some names => exact follows_outcome (v.withLabels_parts hlabels)
  | none =>
    obtain ⟨labels, values, hfit⟩ := v
    cases hlabels
    exact .done _

theorem follows_matrix (t : LabelledMatrix) (hsized : t.rows * t.cols * 8 < sizeLimit) :
    Follows matrix (matrixFields t) t := by
  rw [matrix_eq, matrixFields, List.append_assoc]
  refine (follows_labels fun hnil => (t.rowLabels_fit [] hnil).1 rfl).bind
    ((follows_labels fun hnil => (t.colLabels_fit [] hnil).1 rfl).bind
      ((follows_count "rows" "matrix rows" t.rows).bind
        ((follows_count "columns" "matrix columns" t.cols).bind ?_)))
  have hdata := follows_words .f64 t.data (by rw [t.length_data]; exact hsized)
  rw [t.length_data] at hdata
  rw [if_pos t.size_lt]
  exact hdata.bind (follows_outcome t.assemble_parts)

theorem follows_members (ms : Members) : Follows members (membersFields ms) ms :=
  (follows_texts_counted "string array" ms.properties).bind
    ((follows_texts_counted "string array" ms.methods).bind
      ((follows_texts_counted "string array" ms.staticMethods).last
        (Members.mk ms.properties ms.methods)))

/-! ### Messages -/

theorem follows_header (m : Message) : Follows header m.header m.tag.code := by
  refine (follows_word .u16 (f := .word .u16 magic) rfl).bind ?_
  rw [if_pos rfl]
  exact follows_word .u8 rfl

theorem follows_layouts {item : Action Message} {ms : List Message}
    (h : ∀ m ∈ ms, Follows item m.layout m) :
    Follows (repeated item ms.length) (Message.layouts ms) ms := by
  rw [Message.layouts_eq]
  exact follows_repeated h

theorem follows_arguments {item : Action Message} {args : List Message}
    (h : ∀ m ∈ args, Follows item m.layout m) :
    Follows (arguments item) (.arity args.length :: Message.layouts args) args := by
  intro hfits
  have hlt : args.length < 0x10000 := by
    have hfit := hfits _ List.mem_cons_self
    by_contra hge
    simp [Field.fits, Field.fault?, hge] at hfit
  have hn : (UInt16.ofNat args.length).toNat = args.length := by
    rw [UInt16.toNat_ofNat']
    exact Nat.mod_eq_of_lt hlt
  have hword : Follows (word .u16) [.arity args.length] (UInt16.ofNat args.length) := by
    apply follows_word
    show littleEndian 2 args.length = littleEndian 2 (UInt16.ofNat args.length).toNat
    rw [hn]
  refine hword.bind ?_ hfits
  rw [hn]
  exact follows_layouts h

/-- What is read behind the header of a message, as a function of the message that is expected. -/
theorem message_standard (m : Message) :
    ofCode .standard (message .standard) m.tag.code = payload (message .standard) (.empty m.tag) := by
  rw [ofCode, standard_find?, Tag.ofCode?_code]
  rfl

mutual

/-- The reader of a message takes the fields of its layout. -/
theorem follows_message (m : Message) (h : m.Sized) : Follows (message .standard) m.layout m := by
  -- The bound on the depth is enough for all there is to read, so messages inside are read alike.
  have heq : message .standard = (do ofCode .standard (message .standard) (← header)) :=
    funext (message_eq .standard)
  rw [heq, m.layout_eq]
  refine (follows_header m).bind ?_
  rw [message_standard]
  have hid (id : Int32) : Follows (word .i32) [.word .i32 id] id := follows_word .i32 rfl
  cases m with
  | null => exact .done _
  | bool v => exact (follows_flag v).last Message.bool
  | byte v => exact (follows_word .u8 rfl).last Message.byte
  | int32 v => exact (hid v).last Message.int32
  | int64 v => exact (follows_word .i64 rfl).last Message.int64
  | float64 v => exact (follows_word .f64 rfl).last Message.float64
  | string v => exact (follows_text v).last Message.string
  | exception v => exact (follows_text v).last Message.exception
  | object ref => exact (follows_objectRef ref).last Message.object
  | vector v => exact (follows_vector v).last Message.vector
  | matrix t =>
    exact (follows_matrix t (h t (List.mem_singleton_self t))).last Message.matrix
  | boolArray vs => exact (follows_flags "bool array" vs).last Message.boolArray
  | byteArray vs => exact (follows_bytes "byte array" vs).last Message.byteArray
  | int32Array vs =>
    exact (follows_words_counted .i32 "int32 array" (by decide) vs).last Message.int32Array
  | int64Array vs =>
    exact (follows_words_counted .i64 "int64 array" (by decide) vs).last Message.int64Array
  | float64Array vs =>
    exact (follows_words_counted .f64 "float64 array" (by decide) vs).last Message.float64Array
  | stringArray vs => exact (follows_texts_counted "string array" vs).last Message.stringArray
  | objectArray items =>
    exact (follows_count "object array" "object array" items.length).bind
      ((follows_layouts (follows_each items (Message.forall_matricesOfAll.mp h))).last Message.objectArray)
  | create className args =>
    have hargs := follows_arguments (follows_each args (Message.forall_matricesOfAll.mp h))
    exact (follows_text className).bind (hargs.last (Message.create className))
  | callStaticMethod className method args =>
    have hargs := follows_arguments (follows_each args (Message.forall_matricesOfAll.mp h))
    exact ((follows_text className).bind ((follows_text method).bind
      (hargs.last (Message.callStaticMethod className method)))).congr (List.append_assoc ..).symm
  | callMethod id method args =>
    have hargs := follows_arguments (follows_each args (Message.forall_matricesOfAll.mp h))
    exact (hid id).bind ((follows_text method).bind (hargs.last (Message.callMethod id method)))
  | getProperty id property => exact (hid id).bind ((follows_text property).last (Message.getProperty id))
  | getIndexedProperty id property index =>
    exact (hid id).bind ((follows_text property).bind
      ((hid index).last (Message.getIndexedProperty id property)))
  | getIndexed id index => exact (hid id).bind ((hid index).last (Message.getIndexed id))
  | setProperty id property value =>
    exact (hid id).bind ((follows_text property).bind
      ((follows_message value h).last (Message.setProperty id property)))
  | getStaticProperty className property =>
    exact (follows_text className).bind ((follows_text property).last (Message.getStaticProperty className))
  | setStaticProperty className property value =>
    exact ((follows_text className).bind ((follows_text property).bind
      ((follows_message value h).last (Message.setStaticProperty className property)))).congr
      (List.append_assoc ..).symm
  | protect id => exact (hid id).last Message.protect
  | release id => exact (hid id).last Message.release
  | templateReq className => exact (follows_text className).last Message.templateReq
  | templateReply members =>
    exact ((follows_members members).last Message.templateReply).congr (List.append_assoc ..).symm

theorem follows_each (ms : List Message) (h : ∀ m ∈ ms, m.Sized) :
    ∀ m ∈ ms, Follows (message .standard) m.layout m := by
  cases ms with
  | nil => simp
  | cons m ms =>
    rw [List.forall_mem_cons] at h ⊢
    exact ⟨follows_message m h.1, follows_each ms h.2⟩

end

/-! ### Cut streams -/

theorem exists_whole (ms : List Message) (cut : Nat) (hcut : cut ≤ (ms.flatMap Message.encode).length) :
    ∃ whole behind, ms = whole ++ behind ∧ (whole.flatMap Message.encode).length ≤ cut ∧
      ∀ m ∈ behind.head?, cut < ((whole ++ [m]).flatMap Message.encode).length := by
  induction ms generalizing cut with
  | nil => exact ⟨[], [], rfl, Nat.zero_le _, by simp⟩
  | cons m ms ih =>
    rw [List.flatMap_cons, List.length_append] at hcut
    by_cases hshort : cut < m.encode.length
    · refine ⟨[], m :: ms, rfl, Nat.zero_le _, fun first hfirst => ?_⟩
      cases hfirst
      rwa [List.nil_append, List.flatMap_singleton]
    · obtain ⟨whole, behind, rfl, hle, hlt⟩ := ih (cut - m.encode.length) (by omega)
      refine ⟨m :: whole, behind, rfl, ?_, fun first hfirst => ?_⟩
      · rw [List.flatMap_cons, List.length_append]
        omega
      · have hrest := hlt first hfirst
        rw [List.cons_append, List.flatMap_cons, List.length_append]
        omega

/-- A message that is cut is not read: the end of the stream is reported in the field that is cut. So it
is also where no message is left. -/
theorem message_cut {ms : List Message} (hfits : ∀ m ∈ ms, m.encodeFault? = none)
    (hsized : ∀ m ∈ ms, m.Sized) {cut : Nat} (hcut : cut ≤ (ms.flatMap Message.encode).length)
    (hfirst : ∀ m ∈ ms.head?, cut < m.encode.length) :
    ∃ f arrived, CutIn (ms.flatMap Message.layout ++ [.word .u16 magic]) cut f arrived ∧
      message .standard (held ((ms.flatMap Message.encode).take cut)) =
        .error (.endOfStream f.bytes.length arrived) (held (f.bytes.take arrived)) := by
  cases ms with
  | nil =>
    obtain rfl : cut = 0 := Nat.le_zero.mp hcut
    exact ⟨.word .u16 magic, 0, ⟨[], [], rfl, rfl, Nat.zero_lt_two⟩, rfl⟩
  | cons m ms =>
    rw [List.forall_mem_cons] at hfits hsized
    have hshort := hfirst m rfl
    have hall := firstFault?_eq_none_iff.mp hfits.1
    rw [Message.encode_eq hfits.1] at hshort
    obtain ⟨f, arrived, hin, herror⟩ := (follows_message m hsized.1 hall).cut cut hshort
    rw [List.flatMap_cons, List.flatMap_cons, List.append_assoc, Message.encode_eq hfits.1,
      List.take_append_of_le_length (Nat.le_of_lt hshort)]
    exact ⟨f, arrived, hin.append _, herror⟩

theorem message_held {m : Message} (hfits : m.encodeFault? = none) (hsized : m.Sized)
    (suffix : List UInt8) : message .standard (held (m.encode ++ suffix)) = .ok m (held suffix) := by
  have hspells : Spells m.layout m.encode := by
    rw [Message.encode_eq hfits]
    exact spells_written (firstFault?_eq_none_iff.mp hfits)
  exact (reads_message _ _ m suffix (Nat.le_refl _)).mpr ⟨m.encode, rfl, hsized, hspells⟩

/-- Reading a message stops at its end, so a message that begins with another one is that one. -/
theorem eq_of_encode_prefix {m m' : Message} (hfits : m.encodeFault? = none) (hsized : m.Sized)
    (hfits' : m'.encodeFault? = none) (hsized' : m'.Sized) (h : m.encode <+: m'.encode) : m = m' := by
  obtain ⟨suffix, hsuffix⟩ := h
  have hread := message_held hfits hsized suffix
  have hread' := message_held hfits' hsized' []
  rw [List.append_nil, ← hsuffix, hread] at hread'
  exact (EStateM.Result.ok.inj hread').1

/-- A step that fails on the bytes of a calm reader fails on the reader. -/
theorem Streamed.error_of_held {α : Type} {a : Action α} (ha : Streamed a) {r : Reader} (hr : r.Calm)
    {fault : Fault} {rest : List UInt8} (h : a (held r.stream) = .error fault (held rest)) :
    ∃ r', a r = .error fault r' ∧ r'.stream = rest := by
  obtain ⟨hview, _⟩ := ha.calm hr
  rw [h] at hview
  cases hr' : a r with
  | ok x r' =>
    rw [hr'] at hview
    cases congrArg Prod.fst hview
  | error other r' =>
    rw [hr'] at hview
    have hfault : other = fault := Except.error.inj (congrArg Prod.fst hview)
    have hstream : r'.stream = (held rest).stream := congrArg Prod.snd hview
    rw [stream_held] at hstream
    exact ⟨r', by rw [hfault], hstream⟩

end Reader

open Reader

/-- When a source ends somewhere in the bytes of written messages, those that lie wholly before the cut
are read, and the next reading fails with the end of the stream: it needs all bytes of the field that is cut,
and has those that arrived of it, which are fewer. At the border of two messages, or behind the last one, that
is the first field of the message that is missing. So of two messages none is written as a front of the
other. -/
theorem read_truncated (ms : List Message) (cut : Nat) (source : Source)
    (hfits : ∀ m ∈ ms, m.encodeFault? = none) (hsized : ∀ m ∈ ms, m.Sized)
    (hcut : cut ≤ (ms.flatMap Message.encode).length) (hcalm : source.Calm)
    (hsource : source.rest = (ms.flatMap Message.encode).take cut) :
    (∃ whole behind r r' f arrived, ms = whole ++ behind ∧
        (whole.flatMap Message.encode).length ≤ cut ∧
        (∀ m ∈ behind.head?, cut < ((whole ++ [m]).flatMap Message.encode).length) ∧
        repeated (message .standard) whole.length (ofSource source) = .ok whole r ∧
        message .standard r = .error (.endOfStream f.bytes.length arrived) r' ∧
        CutIn (ms.flatMap Message.layout ++ [.word .u16 magic]) cut f arrived ∧
        r'.stream = f.bytes.take arrived) ∧
      ∀ m ∈ ms, ∀ m' ∈ ms, m.encode <+: m'.encode → m = m' := by
  refine ⟨?_, fun m hm m' hm' hfront => ?_⟩
  · obtain ⟨whole, behind, rfl, hle, hlt⟩ := exists_whole ms cut hcut
    rw [List.forall_mem_append] at hfits hsized
    rw [List.flatMap_append, List.length_append] at hcut
    have hfirst (m : Message) (hm : m ∈ behind.head?) :
        cut - (whole.flatMap Message.encode).length < m.encode.length := by
      have hlt := hlt m hm
      rw [List.flatMap_append, List.length_append, List.flatMap_singleton] at hlt
      omega
    obtain ⟨f, arrived, hin, herror⟩ := message_cut hfits.2 hsized.2 (by omega) hfirst
    have hread := repeated_message_held hfits.1 hsized.1
      ((behind.flatMap Message.encode).take (cut - (whole.flatMap Message.encode).length))
    have hstream : (ofSource source).stream = whole.flatMap Message.encode ++
        (behind.flatMap Message.encode).take (cut - (whole.flatMap Message.encode).length) := by
      rw [stream_ofSource, hsource, List.flatMap_append, List.take_append, List.take_of_length_le hle]
    rw [← hstream] at hread
    obtain ⟨r, hr, hleft, hcalm'⟩ :=
      (streamed_repeated (streamed_message .standard) whole.length).ok_of_held (calm_ofSource hcalm) hread
    rw [← hleft] at herror
    obtain ⟨r', hr', hrest⟩ := (streamed_message .standard).error_of_held hcalm' herror
    refine ⟨whole, behind, r, r', f, arrived, rfl, hle, hlt, hr, hr', ?_, hrest⟩
    -- The cut is found behind the whole messages, where it is counted from their end.
    have hbehind := hin.behind (whole.flatMap Message.layout)
    rw [← flatMap_encode hfits.1, Nat.add_sub_cancel' hle, ← List.append_assoc,
      ← List.flatMap_append] at hbehind
    exact hbehind
  · exact eq_of_encode_prefix (hfits m hm) (hsized m hm) (hfits m' hm') (hsized m' hm') hfront

/-- A release, and behind it an array whose last text is cut after its first letter. The bytes come in
pieces of one, two and from there on three bytes, with an interruption. -/
theorem read_truncated_letter :
    ∃ r r' f arrived, repeated (message .standard) 1 (ofSource
        { rest := [13, 208, 211, 3, 0, 0, 0, 13, 208, 109, 2, 0, 0, 0, 13, 208, 1, 1,
            13, 208, 8, 2, 0, 0, 0, 104]
          step := some 3, pieces := [1, 2], outages := [(5, .failure .interrupted)] }) =
        .ok [.release 3] r ∧
      message .standard r = .error (.endOfStream f.bytes.length arrived) r' ∧
      CutIn ([Message.release 3, .objectArray [.bool true, .string "hi"]].flatMap Message.layout ++
        [.word .u16 magic]) 26 f arrived ∧
      r'.stream = f.bytes.take arrived := by
  have hsized : ∀ m ∈ [Message.release 3, .objectArray [.bool true, .string "hi"]], m.Sized := by
    simp [Message.Sized, Message.matrices, Message.matricesOfAll]
  obtain ⟨⟨whole, behind, r, r', f, arrived, hms, hle, hlt, hr, hr', hin, hrest⟩, _⟩ :=
    read_truncated [.release 3, .objectArray [.bool true, .string "hi"]] 26
      { rest := [13, 208, 211, 3, 0, 0, 0, 13, 208, 109, 2, 0, 0, 0, 13, 208, 1, 1,
          13, 208, 8, 2, 0, 0, 0, 104]
        step := some 3, pieces := [1, 2], outages := [(5, .failure .interrupted)] }
      (List.forall_mem_cons.mpr ⟨rfl, List.forall_mem_singleton.mpr rfl⟩) hsized (by decide)
      ⟨by decide, by decide, by decide⟩ rfl
  refine ⟨r, r', f, arrived, ?_, hr', hin, hrest⟩
  rcases whole with _ | ⟨first, _ | ⟨second, others⟩⟩
  · rw [List.nil_append] at hms
    subst hms
    exact absurd (hlt _ rfl) (by decide)
  · cases hms
    exact hr
  · rw [List.cons_append, List.cons_append, List.cons.injEq, List.cons.injEq] at hms
    obtain ⟨rfl, rfl, hnone⟩ := hms
    rw [(List.append_eq_nil_iff.mp (Eq.symm hnone)).1] at hle
    exact absurd hle (by decide)

end ObjectBridge
