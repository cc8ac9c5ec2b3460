import ObjectBridge.Proofs.Message.Spelling
import ObjectBridge.Proofs.Wire.Delivery

/-!
# Round trips

Both directions go through `reads_message`. What a writer delivers spells the layouts of its messages, so
that a reader gets the messages back and stops in front of whatever follows (`read_written`). What a
reader accepts spells the layout of the message it returns, so that writing the message gives the bytes
again, up to the bytes of truth values (`written_of_read`).
-/

namespace ObjectBridge

open Reader

theorem Message.encode_eq {m : Message} (h : m.encodeFault? = none) :
    m.encode = m.layout.flatMap Field.bytes :=
  writable_of_fits (firstFault?_eq_none_iff.mp h)

theorem flatMap_encode {ms : List Message} (h : ∀ m ∈ ms, m.encodeFault? = none) :
    ms.flatMap Message.encode = (ms.flatMap Message.layout).flatMap Field.bytes := by
  induction ms with
  | nil => rfl
  | cons m ms ih =>
    rw [List.forall_mem_cons] at h
    simp only [List.flatMap_cons, List.flatMap_append, Message.encode_eq h.1, ih h.2]

theorem spells_encode {ms : List Message} (h : ∀ m ∈ ms, m.encodeFault? = none) :
    Spells (ms.flatMap Message.layout) (ms.flatMap Message.encode) := by
  rw [flatMap_encode h]
  apply spells_written
  intro f hf
  obtain ⟨m, hm, hfm⟩ := List.mem_flatMap.mp hf
  exact firstFault?_eq_none_iff.mp (h m hm) f hfm

/-- A step that succeeds on the bytes of a calm reader succeeds on the reader. -/
theorem Reader.Streamed.ok_of_held {α : Type} {a : Action α} (ha : Streamed a) {r : Reader}
    (hr : r.Calm) {x : α} {rest : List UInt8} (h : a (held r.stream) = .ok x (held rest)) :
    ∃ r', a r = .ok x r' ∧ r'.stream = rest ∧ r'.Calm := by
  obtain ⟨hview, hcalm⟩ := ha.calm hr
  rw [h] at hview
  cases hr' : a r with
  | ok y r' =>
    rw [hr'] at hview hcalm
    have hy : y = x := Except.ok.inj (congrArg Prod.fst hview)
    have hstream : r'.stream = (held rest).stream := congrArg Prod.snd hview
    rw [stream_held] at hstream
    exact ⟨r', by rw [hy], hstream, hcalm⟩
  | error fault r' =>
    rw [hr'] at hview
    cases congrArg Prod.fst hview

/-- On held bytes that begin with written messages, reading gives the messages. -/
theorem repeated_message_held {ms : List Message} (h : ∀ m ∈ ms, m.encodeFault? = none)
    (hsized : ∀ m ∈ ms, m.Sized) (suffix : List UInt8) :
    repeated (message .standard) ms.length (held (ms.flatMap Message.encode ++ suffix)) =
      .ok ms (held suffix) := by
  have hreads := reads_repeated (streamed_message .standard)
    (reads_message (ms.flatMap Message.encode ++ suffix).length) ms.length
  exact (hreads _ ms suffix (Nat.le_refl _)).mpr
    ⟨ms.flatMap Message.encode, rfl, rfl, hsized, spells_encode h⟩

/-- Messages that are written one after the other and delivered are read back by the reader of a source
that hands the bytes out in any pieces. What follows them is left, and the end of the stream is seen
exactly if nothing follows. -/
theorem read_written (ms : List Message) (sink : Sink) (w w' : Writer) (sent suffix : List UInt8)
    (source : Source) (hsized : ∀ m ∈ ms, m.Sized)
    (hwritten : ms.forM Writer.message (Writer.ofSink sink) = .ok () w)
    (hflushed : Writer.flush w = .ok () w') (hsent : w'.sink.accepted = sink.accepted ++ sent)
    (hsource : source.rest = sent ++ suffix) (hcalm : source.Calm) :
    ∃ r, repeated (message .standard) ms.length (ofSource source) = .ok ms r ∧
      r.stream = suffix ∧ (r.atEnd.1 = true ↔ suffix = []) := by
  obtain ⟨hfits, rfl⟩ := Writer.forM_message hwritten
  have haccepted := (Writer.flush_ok hflushed).2
  have hbytes : sent = ms.flatMap Message.encode := by
    rw [hsent] at haccepted
    exact List.append_cancel_left haccepted
  have hheld := repeated_message_held hfits hsized suffix
  rw [← hbytes, ← hsource, ← stream_ofSource source] at hheld
  obtain ⟨r, hr, hstream, hcalm'⟩ :=
    (streamed_repeated (streamed_message .standard) ms.length).ok_of_held (calm_ofSource hcalm) hheld
  refine ⟨r, hr, hstream, ?_⟩
  rw [hcalm'.atEnd_eq, hstream]

/-- An array around a matrix that holds a not-a-number with a payload, then a release; the bytes come in
pieces of one, two and from there on three bytes, with an interruption, and one byte follows. -/
theorem read_written_nested :
    ∃ r, repeated (message .standard) 2 (ofSource
        { rest := [13, 208, 109, 2, 0, 0, 0, 13, 208, 1, 1, 13, 208, 22, 0, 0, 0, 0, 0, 0, 0, 0,
            1, 0, 0, 0, 1, 0, 0, 0, 1, 0, 0, 0, 0, 0, 248, 127, 13, 208, 211, 3, 0, 0, 0, 7]
          step := some 3, pieces := [1, 2], outages := [(5, .failure .interrupted)] }) =
        .ok [.objectArray [.bool true, .matrix ⟨1, 1, none, none, [⟨0x7ff8000000000001⟩], rfl,
          by decide, labelsFit_none 1, labelsFit_none 1⟩], .release 3] r ∧
      r.stream = [7] ∧ (r.atEnd.1 = true ↔ [(7 : UInt8)] = []) := by
  refine read_written [.objectArray [.bool true, .matrix ⟨1, 1, none, none,
      [⟨0x7ff8000000000001⟩], rfl, by decide, labelsFit_none 1, labelsFit_none 1⟩], .release 3]
    {} ⟨{}, _⟩ ⟨{ accepted := _ }, []⟩ _ [7] _ ?_ rfl rfl rfl rfl ⟨by decide, by decide, by decide⟩
  simp [Message.Sized, Message.matrices, Message.matricesOfAll, sizeLimit]

/-! ### Accepted bytes -/

theorem spells_of_read {m : Message} {r r' : Reader} (h : message .standard r = .ok m r') :
    ∃ front, r.stream = front ++ r'.stream ∧ m.Sized ∧ Spells m.layout front := by
  have hheld := (streamed_message .standard).ok h
  exact (reads_message r.stream.length r.stream m r'.stream (Nat.le_refl _)).mp hheld

theorem getElem?_normalized {mask : List Bool} {bytes : List UInt8}
    (h : bytes.length = mask.length) (i : Nat) :
    (normalized mask bytes)[i]? =
      if mask[i]? = some true then bytes[i]?.map flagByte else bytes[i]? := by
  rw [normalized, List.getElem?_zipWith]
  by_cases hi : i < bytes.length
  · have hmask : i < mask.length := by omega
    rw [List.getElem?_eq_getElem hi, List.getElem?_eq_getElem hmask]
    cases mask[i] <;> rfl
  · rw [List.getElem?_eq_none (Nat.le_of_not_lt hi)]
    simp

theorem normalized_eq_self {mask : List Bool} {bytes : List UInt8}
    (h : bytes.length = mask.length)
    (hcanonical : ∀ (i : Nat) (b : UInt8), mask[i]? = some true → bytes[i]? = some b → b = 0 ∨ b = 1) :
    normalized mask bytes = bytes := by
  apply List.ext_getElem?
  intro i
  rw [getElem?_normalized h]
  split
  · rename_i hmarked
    cases hb : bytes[i]? with
    | none => rfl
    | some b => obtain rfl | rfl := hcanonical i b hmarked hb <;> rfl
  · rfl

/-- A message that is read can be written. The bytes written are as many as were consumed and the same
outside of truth values, where a byte but zero and one becomes one; so they are the same altogether if
no such byte was there. Whatever else is read as the same message differs in truth values only. -/
theorem written_of_read {m : Message} {r r' : Reader} (h : message .standard r = .ok m r') :
    ∃ front, r.stream = front ++ r'.stream ∧
      (∀ w : Writer, Writer.message m w = .ok () { w with pending := w.pending ++ m.encode }) ∧
      m.encode.length = front.length ∧
      (∀ i : Nat, m.encode[i]? =
        if (flagMask m.layout)[i]? = some true then front[i]?.map flagByte else front[i]?) ∧
      ((∀ (i : Nat) (b : UInt8), (flagMask m.layout)[i]? = some true → front[i]? = some b → b = 0 ∨ b = 1) →
        m.encode = front) ∧
      ∀ q q' : Reader, message .standard q = .ok m q' →
        ∃ other, q.stream = other ++ q'.stream ∧ other.length = front.length ∧
          ∀ i : Nat, (flagMask m.layout)[i]? ≠ some true → other[i]? = front[i]? := by
  obtain ⟨front, hstream, _, hspells⟩ := spells_of_read h
  obtain ⟨hfits, hlength, hbytes⟩ := hspells.written
  have hfault : m.encodeFault? = none := firstFault?_eq_none_iff.mpr hfits
  rw [← Message.encode_eq hfault] at hlength hbytes
  have hmask : front.length = (flagMask m.layout).length := by
    rw [length_flagMask, ← Message.encode_eq hfault, hlength]
  refine ⟨front, hstream, fun w => Writer.message_of_fits w hfault, hlength.symm, fun i => ?_,
    fun hcanonical => ?_, fun q q' hq => ?_⟩
  · rw [hbytes, getElem?_normalized hmask]
  · rw [hbytes, normalized_eq_self hmask hcanonical]
  · obtain ⟨other, hother, _, hspells'⟩ := spells_of_read hq
    obtain ⟨_, hlength', hbytes'⟩ := hspells'.written
    rw [← Message.encode_eq hfault] at hlength' hbytes'
    refine ⟨other, hother, by rw [hlength', hlength], fun i hi => ?_⟩
    have hsame := getElem?_normalized (hlength'.trans (hlength.symm.trans hmask)) i
    rw [← hbytes', hbytes, getElem?_normalized hmask, if_neg hi, if_neg hi] at hsame
    exact hsame.symm

/-- The byte five is read as a true truth value inside an array. -/
theorem written_of_read_five :
    message .standard (held [13, 208, 109, 1, 0, 0, 0, 13, 208, 1, 5, 9]) =
        .ok (.objectArray [.bool true]) (held [9]) ∧
      ∃ front, (held [13, 208, 109, 1, 0, 0, 0, 13, 208, 1, 5, 9]).stream = front ++ [9] ∧
        (Message.objectArray [.bool true]).encode.length = front.length ∧
        (Message.objectArray [.bool true]).encode[10]? = front[10]?.map flagByte := by
  have hread : message .standard (held [13, 208, 109, 1, 0, 0, 0, 13, 208, 1, 5, 9]) =
      .ok (.objectArray [.bool true]) (held [9]) := rfl
  obtain ⟨front, hstream, _, hlength, hbytes, _, _⟩ := written_of_read hread
  have hmask : (flagMask (Message.objectArray [.bool true]).layout)[10]? = some true := rfl
  refine ⟨hread, front, hstream, hlength, ?_⟩
  rw [hbytes, if_pos hmask]

end ObjectBridge
