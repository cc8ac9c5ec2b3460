import ObjectBridge.Proofs.Table.Assembly
import ObjectBridge.Proofs.Wire.FieldReading

/-!
# Reading messages from a stream

All parts of a message and messages themselves are read by streamed steps, whatever the catalogue: how
the bytes arrive makes no difference to what is read, no byte is consumed that was not made sure of, and
every fault is one of the stream.
-/

namespace ObjectBridge.Reader

theorem streamed_labels : Streamed labels := by
  refine (streamed_count _).bind fun n => ?_
  split
  · exact .pure _
  · exact (streamed_texts _).bind fun _ => .pure _

theorem streamed_objectRef : Streamed objectRef := by
  refine (streamed_word _).bind fun id => streamed_flag.bind fun v => ?_
  split
  · exact streamed_text.bind fun _ => .pure _
  · exact .pure _

theorem streamed_outcome {α : Type} {e : Except Fault α}
    (h : ∀ fault, e = .error fault → fault.ofContent = true) : Streamed (outcome e) := by
  cases e with
  | ok x => exact .pure x
  | error fault => exact .throw (h fault rfl)

theorem streamed_vector : Streamed vector := by
  refine streamed_labels.bind fun names => (streamed_words _ _).bind fun values => ?_
  split
  · exact streamed_outcome fun fault => LabelledVector.withLabels_fault
  · exact .pure _

theorem matrix_eq : matrix = (do
    let rowLabels ← labels
    let colLabels ← labels
    let rows ← count "rows"
    let cols ← count "columns"
    if rows * cols < sizeLimit then
      let data ← words .f64 (some (rows * cols))
      outcome (LabelledMatrix.assemble rowLabels colLabels rows cols data)
    else throw (.malformed (.matrixOverflow rows cols))) := rfl

theorem streamed_matrix : Streamed matrix := by
  rw [matrix_eq]
  refine streamed_labels.bind fun rowLabels => streamed_labels.bind fun colLabels =>
    (streamed_count _).bind fun rows => (streamed_count _).bind fun cols => ?_
  split
  · exact (streamed_words _ _).bind fun data => streamed_outcome fun fault =>
      LabelledMatrix.assemble_fault
  · exact .throw rfl

theorem streamed_members : Streamed members :=
  (streamed_texts _).bind fun _ => (streamed_texts _).bind fun _ => (streamed_texts _).bind fun _ =>
    .pure _

theorem streamed_arguments {item : Action Message} (h : Streamed item) : Streamed (arguments item) :=
  (streamed_word _).bind fun _ => streamed_repeated h _

theorem streamed_payload {item : Action Message} (h : Streamed item) (blank : Message) :
    Streamed (payload item blank) := by
  cases blank with
  | null => exact .pure _
  | bool _ => exact streamed_flag.bind fun _ => .pure _
  | byte _ | int32 _ | int64 _ | float64 _ => exact (streamed_word _).bind fun _ => .pure _
  | string _ | exception _ | templateReq _ => exact streamed_text.bind fun _ => .pure _
  | object _ => exact streamed_objectRef.bind fun _ => .pure _
  | vector _ => exact streamed_vector.bind fun _ => .pure _
  | matrix _ => exact streamed_matrix.bind fun _ => .pure _
  | boolArray _ => exact (streamed_flags _).bind fun _ => .pure _
  | byteArray _ => exact (streamed_bytes _).bind fun _ => .pure _
  | int32Array _ | int64Array _ | float64Array _ => exact (streamed_words _ _).bind fun _ => .pure _
  | stringArray _ => exact (streamed_texts _).bind fun _ => .pure _
  | objectArray _ => exact (streamed_count _).bind fun _ => (streamed_repeated h _).bind fun _ => .pure _
  | create _ _ => exact streamed_text.bind fun _ => (streamed_arguments h).bind fun _ => .pure _
  | callStaticMethod _ _ _ =>
    exact streamed_text.bind fun _ => streamed_text.bind fun _ =>
      (streamed_arguments h).bind fun _ => .pure _
  | callMethod _ _ _ =>
    exact (streamed_word _).bind fun _ => streamed_text.bind fun _ =>
      (streamed_arguments h).bind fun _ => .pure _
  | getProperty _ _ => exact (streamed_word _).bind fun _ => streamed_text.bind fun _ => .pure _
  | getIndexedProperty _ _ _ =>
    exact (streamed_word _).bind fun _ => streamed_text.bind fun _ =>
      (streamed_word _).bind fun _ => .pure _
  | getIndexed _ _ => exact (streamed_word _).bind fun _ => (streamed_word _).bind fun _ => .pure _
  | setProperty _ _ _ =>
    exact (streamed_word _).bind fun _ => streamed_text.bind fun _ => h.bind fun _ => .pure _
  | getStaticProperty _ _ => exact streamed_text.bind fun _ => streamed_text.bind fun _ => .pure _
  | setStaticProperty _ _ _ =>
    exact streamed_text.bind fun _ => streamed_text.bind fun _ => h.bind fun _ => .pure _
  | protect _ | release _ => exact (streamed_word _).bind fun _ => .pure _
  | templateReply _ => exact streamed_members.bind fun _ => .pure _

theorem streamed_header : Streamed header := by
  refine (streamed_word _).bind fun found => ?_
  split
  · exact streamed_word _
  · exact .throw rfl

theorem streamed_messageWithin (catalogue : Catalogue) (depth : Nat) :
    Streamed (messageWithin catalogue depth) := by
  induction depth with
  | zero => exact streamed_header.bind fun _ => .throw rfl
  | succ depth ih =>
    refine streamed_header.bind fun code => ?_
    split
    · exact streamed_payload ih _
    · exact .throw rfl

theorem streamed_message (catalogue : Catalogue) : Streamed (message catalogue) where
  ok {r x r'} h := by
    have hok := (streamed_messageWithin catalogue _).ok h
    rw [message, left_eq_length_stream, stream_held, ← left_eq_length_stream]
    exact hok
  calm {r} hr := by
    have hcalm := (streamed_messageWithin catalogue (r.left + 1)).calm hr
    rw [left_eq_length_stream] at hcalm
    rw [message, message, left_eq_length_stream, left_eq_length_stream, stream_held]
    exact hcalm
  ending r := by
    rw [message, message, left_ending]
    exact (streamed_messageWithin catalogue _).ending r
  course r := by
    rw [message, message, left_ending]
    exact (streamed_messageWithin catalogue _).course r
  fault h := (streamed_messageWithin catalogue _).fault h

end ObjectBridge.Reader
