import ObjectBridge.Proofs.Steps
import ObjectBridge.Proofs.Wire.Spelling
import ObjectBridge.Wire.Writer

/-!
# What a writer delivers

Written messages pile up behind the pending bytes, and a flush that succeeds makes the sink accept all of
them in order (`flush_ok`). A message that cannot be written leaves the sink alone and its fault is not
fatal; a flush fails with fatal faults only.
-/

namespace ObjectBridge

namespace Sink

/-- Of the bytes to be delivered the sink accepts a front, which is all of them exactly if nothing fails. -/
theorem deliver_spec (accepted : List UInt8) (outages : List (Nat × Outage)) (bytes : List UInt8) :
    ∃ n, (deliver accepted outages bytes).2.1 = accepted ++ bytes.take n ∧
      ((deliver accepted outages bytes).1 = none ↔ bytes.length ≤ n) := by
  induction outages generalizing accepted bytes with
  | nil =>
    refine ⟨bytes.length, ?_, ?_⟩
    · rw [List.take_length]
      unfold deliver
      split
      · rename_i hempty
        rw [List.isEmpty_iff.mp hempty, List.append_nil]
      · rfl
    · unfold deliver
      split <;> simp
  | cons entry later ih =>
    obtain ⟨position, outage⟩ := entry
    unfold deliver
    split
    · rename_i hempty
      exact ⟨0, by rw [List.take_zero, List.append_nil], by simp [List.isEmpty_iff.mp hempty]⟩
    · dsimp only
      split
      · exact ⟨bytes.length, by rw [List.take_length], by simp⟩
      · rename_i hroom
        split
        · obtain ⟨n, haccepted, hall⟩ := ih (accepted ++ bytes.take (position - accepted.length))
            (bytes.drop (position - accepted.length))
          refine ⟨position - accepted.length + n, ?_, ?_⟩
          · rw [haccepted, List.append_assoc, ← List.take_add]
          · rw [hall, List.length_drop]
            omega
        · exact ⟨_, rfl, by simp [hroom]⟩
        · exact ⟨_, rfl, by simp [hroom]⟩

/-- What one write can come to: it accepts a front that is not empty, or nothing. -/
theorem accept_cases (limit : Nat) (accepted : List UInt8) (outages : List (Nat × Outage))
    (bytes : List UInt8) :
    (∃ n outages', 0 < n ∧ accept limit accepted outages bytes =
        (.ok (bytes.drop n), accepted ++ bytes.take n, outages')) ∨
      ∃ kind outages', accept limit accepted outages bytes = (.error kind, accepted, outages') := by
  unfold accept
  cases outages with
  | nil =>
    dsimp only
    split
    · exact .inr ⟨_, _, rfl⟩
    · exact .inl ⟨limit, _, by omega, rfl⟩
  | cons entry later =>
    obtain ⟨position, outage⟩ := entry
    dsimp only
    split
    · cases outage with
      | nothing => exact .inr ⟨_, _, rfl⟩
      | failure kind => exact .inr ⟨_, _, rfl⟩
    · split
      · exact .inr ⟨_, _, rfl⟩
      · exact .inl ⟨_, _, by omega, rfl⟩

/-- Shorter writes accept a front as well. -/
theorem deliverPieces_spec (pieces : List Nat) (accepted : List UInt8) (outages : List (Nat × Outage))
    (bytes : List UInt8) :
    ∃ n, (deliverPieces accepted outages bytes pieces).2.1 = accepted ++ bytes.take n ∧
      ((deliverPieces accepted outages bytes pieces).1 = none ↔ bytes.length ≤ n) := by
  induction pieces generalizing accepted outages bytes with
  | nil => exact deliver_spec accepted outages bytes
  | cons piece pieces ih =>
    unfold deliverPieces
    by_cases hempty : bytes.isEmpty = true
    · rw [if_pos hempty]
      exact ⟨0, by rw [List.take_zero, List.append_nil], by simp [List.isEmpty_iff.mp hempty]⟩
    have hlen : 0 < bytes.length := by
      rw [List.length_pos_iff]
      exact fun hnil => hempty (by rw [hnil]; rfl)
    rw [if_neg hempty]
    rcases accept_cases piece accepted outages bytes with ⟨m, outages', _, h⟩ | ⟨kind, outages', h⟩
    · rw [h]
      obtain ⟨n, haccepted, hall⟩ := ih (accepted ++ bytes.take m) outages' (bytes.drop m)
      refine ⟨m + n, ?_, ?_⟩
      · rw [haccepted, List.append_assoc, ← List.take_add]
      · rw [hall, List.length_drop]
        omega
    · rw [h]
      by_cases hkind : kind = .interrupted
      · subst hkind
        exact ih accepted outages' bytes
      · refine ⟨0, ?_, ?_⟩
        · cases kind <;> first | exact absurd rfl hkind | simp
        · cases kind <;> first | exact absurd rfl hkind | simp [Nat.ne_of_gt hlen]

theorem write_spec (s : Sink) (bytes : List UInt8) :
    ∃ n, (s.write bytes).2.accepted = s.accepted ++ bytes.take n ∧
      ((s.write bytes).1 = none ↔ bytes.length ≤ n) :=
  deliverPieces_spec s.pieces s.accepted s.outages bytes

theorem flush_accepted (s : Sink) : s.flush.2.accepted = s.accepted := by
  unfold flush
  split <;> rfl

end Sink

namespace Writer

theorem message_of_fits {m : Message} (w : Writer) (h : m.encodeFault? = none) :
    message m w = .ok () { w with pending := w.pending ++ m.encode } := by
  have hfault : firstFault? m.layout = none := h
  simp only [message, put, hfault, Message.encode]

/-- Any other is refused with a fault that leaves the stream intact. -/
theorem message_of_fault {m : Message} {fault : Fault} (w : Writer)
    (h : m.encodeFault? = some fault) :
    message m w = .error fault { w with pending := w.pending ++ m.encode } ∧
      fault.isFatal = false := by
  have hfault : firstFault? m.layout = some fault := h
  refine ⟨by simp only [message, put, hfault, Message.encode], ?_⟩
  obtain ⟨f, _, hf⟩ := List.exists_of_findSome?_eq_some hfault
  cases f with
  | raw bs | flags vs => cases hf
  | length what n =>
    by_cases hn : n < 0x80000000
    · simp only [Field.fault?, if_pos hn] at hf
      cases hf
    · simp only [Field.fault?, if_neg hn, Option.some.injEq] at hf
      rw [← hf]
      rfl
  | arity n =>
    by_cases hn : n < 0x10000
    · simp only [Field.fault?, if_pos hn] at hf
      cases hf
    · simp only [Field.fault?, if_neg hn, Option.some.injEq] at hf
      rw [← hf]
      rfl

theorem message_ok_iff {m : Message} {w w' : Writer} :
    message m w = .ok () w' ↔
      m.encodeFault? = none ∧ w' = { w with pending := w.pending ++ m.encode } := by
  cases h : m.encodeFault? with
  | none =>
    rw [message_of_fits w h, EStateM.Result.ok.injEq]
    simp [eq_comm]
  | some fault =>
    rw [(message_of_fault w h).1]
    simp

/-- What a flush can come to: a write fails and has accepted only a part of the pending bytes, or all are
accepted and the sink's own flush fails or succeeds. -/
inductive FlushCase (w : Writer) : EStateM.Result Fault Writer Unit → Prop where
  | cut {n : Nat} {kind : IoKind} {sink : Sink} (hwrite : w.sink.write w.pending = (some kind, sink))
      (hshort : n < w.pending.length) (haccepted : sink.accepted = w.sink.accepted ++ w.pending.take n) :
      FlushCase w (.error (.io { kind }) { w with sink })
  | stuck {kind : IoKind} {sink sink' : Sink} (hwrite : w.sink.write w.pending = (none, sink))
      (hflush : sink.flush = (some kind, sink')) (haccepted : sink'.accepted = w.sink.accepted ++ w.pending) :
      FlushCase w (.error (.io { kind }) { sink := sink', pending := [] })
  | done {sink sink' : Sink} (hwrite : w.sink.write w.pending = (none, sink))
      (hflush : sink.flush = (none, sink')) (haccepted : sink'.accepted = w.sink.accepted ++ w.pending) :
      FlushCase w (.ok () { sink := sink', pending := [] })

theorem flushCase (w : Writer) : FlushCase w (flush w) := by
  obtain ⟨n, haccepted, hall⟩ := w.sink.write_spec w.pending
  unfold flush
  rcases hwrite : w.sink.write w.pending with ⟨failure, sink⟩
  rw [hwrite] at haccepted hall
  cases failure with
  | some kind => exact .cut hwrite (by simpa using hall) haccepted
  | none =>
    have hsame := sink.flush_accepted
    dsimp only at haccepted ⊢
    rw [List.take_of_length_le (hall.mp rfl)] at haccepted
    rcases hflush : sink.flush with ⟨failure, sink'⟩
    rw [hflush] at hsame
    cases failure with
    | some kind => exact .stuck hwrite hflush (hsame.trans haccepted)
    | none => exact .done hwrite hflush (hsame.trans haccepted)

theorem flush_ok {w w' : Writer} (h : flush w = .ok () w') :
    w'.pending = [] ∧ w'.sink.accepted = w.sink.accepted ++ w.pending := by
  have hcase := flushCase w
  rw [h] at hcase
  cases hcase with
  | done _ _ haccepted => exact ⟨rfl, haccepted⟩

theorem flush_fatal {w w' : Writer} {fault : Fault} (h : flush w = .error fault w') :
    fault.isFatal = true := by
  have hcase := flushCase w
  rw [h] at hcase
  cases hcase <;> rfl

/-- Whether a flush succeeds or fails, the sink accepts a front of what is pending. -/
theorem accepted_flush (w : Writer) : w.sink.accepted <+: (after (flush w)).sink.accepted ∧
    (after (flush w)).sink.accepted <+: w.sink.accepted ++ w.pending := by
  generalize hresult : flush w = result
  cases hresult ▸ flushCase w with
  | cut _ _ haccepted =>
    simp only [after, haccepted]
    exact ⟨List.prefix_append .., List.prefix_append_right_inj _ |>.mpr (List.take_prefix ..)⟩
  | stuck _ _ haccepted | done _ _ haccepted =>
    simp only [after, haccepted]
    exact ⟨List.prefix_append .., List.prefix_refl _⟩

/-- Messages written one after the other go behind the pending bytes in that order. -/
theorem forM_message {ms : List Message} {w w' : Writer} (h : ms.forM message w = .ok () w') :
    (∀ m ∈ ms, m.encodeFault? = none) ∧
      w' = { w with pending := w.pending ++ ms.flatMap Message.encode } := by
  induction ms generalizing w with
  | nil =>
    have hw : w = w' := (EStateM.Result.ok.inj h).2
    refine ⟨by simp, ?_⟩
    rw [List.flatMap_nil, List.append_nil, hw]
  | cons m ms ih =>
    change EStateM.bind (message m) (fun _ => ms.forM message) w = _ at h
    cases hm : message m w with
    | error fault mid =>
      simp only [EStateM.bind, hm] at h
      cases h
    | ok _ mid =>
      simp only [EStateM.bind, hm] at h
      obtain ⟨hfits, rfl⟩ := message_ok_iff.mp hm
      obtain ⟨hall, rfl⟩ := ih h
      rw [List.forall_mem_cons, List.flatMap_cons, ← List.append_assoc]
      exact ⟨⟨hfits, hall⟩, rfl⟩

end Writer

end ObjectBridge
