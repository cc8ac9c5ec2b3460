import ObjectBridge.Proofs.Wire.Delivery
import ObjectBridge.Proofs.Wire.Obstacles

/-!
# What a sink makes of bytes

A steady sink accepts bytes up to its first obstacle. How single writes cut the bytes and how often they are
interrupted makes no difference: a delivery comes to what `Sink.pass` says of the obstacles alone
(`write_pass`).
-/

namespace ObjectBridge

/-- How a write fails at an outage. -/
def Outage.failing : Outage → IoKind
  | .nothing => .writeZero
  | .failure kind => kind

namespace Sink

/-- A sink whose pieces are at least a byte long: that a write accepts nothing is an outage. -/
def Steady (s : Sink) : Prop := ∀ n ∈ s.pieces, n ≠ 0

def obstacles (s : Sink) : List (Nat × Outage) := ObjectBridge.obstacles s.accepted.length s.outages

/-- What becomes of bytes in front of obstacles: how their delivery fails, what is accepted, and the
obstacles that are left. -/
def pass (ahead : List (Nat × Outage)) (accepted bytes : List UInt8) :
    Option IoKind × List UInt8 × List (Nat × Outage) :=
  match ahead with
  | [] => (none, accepted ++ bytes, [])
  | (position, outage) :: later =>
    if accepted.length + bytes.length ≤ position then (none, accepted ++ bytes, ahead)
    else (some outage.failing, accepted ++ bytes.take (position - accepted.length), later)

theorem pass_of_le {ahead : List (Nat × Outage)} {accepted bytes : List UInt8}
    (h : ∀ o ∈ ahead, accepted.length + bytes.length ≤ o.1) :
    pass ahead accepted bytes = (none, accepted ++ bytes, ahead) := by
  cases ahead with
  | nil => rfl
  | cons o later => rw [pass, if_pos (h o List.mem_cons_self)]

theorem pass_append {ahead : List (Nat × Outage)} {accepted front : List UInt8} (bytes : List UInt8)
    (h : ∀ o ∈ ahead, accepted.length + front.length ≤ o.1) :
    pass ahead (accepted ++ front) bytes = pass ahead accepted (front ++ bytes) := by
  cases ahead with
  | nil => simp only [pass, List.append_assoc]
  | cons o later =>
    have hpos := h o List.mem_cons_self
    have hroom : o.1 - accepted.length = front.length + (o.1 - (accepted ++ front).length) := by
      rw [List.length_append]
      omega
    simp only [pass, hroom, List.length_append, List.take_length_add_append, List.append_assoc, Nat.add_assoc]

/-- A delivery with no limits to single writes. -/
theorem deliver_pass (accepted : List UInt8) (outages : List (Nat × Outage)) (bytes : List UInt8) :
    ((deliver accepted outages bytes).1, (deliver accepted outages bytes).2.1,
        ObjectBridge.obstacles (deliver accepted outages bytes).2.1.length
          (deliver accepted outages bytes).2.2) =
      pass (ObjectBridge.obstacles accepted.length outages) accepted bytes := by
  induction outages generalizing accepted bytes with
  | nil =>
    unfold deliver
    split
    · rename_i hempty
      simp [List.isEmpty_iff.mp hempty, pass, ObjectBridge.obstacles]
    · rfl
  | cons entry later ih =>
    obtain ⟨position, outage⟩ := entry
    unfold deliver
    split
    · rename_i hempty
      have hnil := List.isEmpty_iff.mp hempty
      rw [pass_of_le fun o ho => by rw [hnil]; exact le_of_mem_obstacles ho, hnil, List.append_nil]
    · rename_i hsome
      have hlen : 0 < bytes.length := List.length_pos_iff.mpr (mt List.isEmpty_iff.mpr hsome)
      dsimp only
      split
      · -- everything goes in front of the outage
        have hnext : ∀ o ∈ ((position, outage) :: later).head?,
            accepted.length + bytes.length ≤ o.1 := fun o ho => by
          cases ho
          dsimp only
          omega
        have hmoved := obstacles_passed (Nat.le_add_right accepted.length bytes.length) hnext
        rw [List.length_append, ← hmoved]
        exact (pass_of_le fun o ho => le_of_mem_obstacles ho).symm
      · -- the outage is reached
        rename_i hroom
        have hhere : (accepted ++ bytes.take (position - accepted.length)).length =
            max accepted.length position := by
          rw [List.length_append, List.length_take]
          omega
        have hcut : max accepted.length position - accepted.length = position - accepted.length := by omega
        have hover : ¬ accepted.length + bytes.length ≤ max accepted.length position := by omega
        cases outage with
        | nothing => simp only [ObjectBridge.obstacles, pass, hhere, hcut, if_neg hover,
            reduceCtorEq, if_false, Outage.failing]
        | failure kind =>
          by_cases hkind : kind = .interrupted
          · -- the delivery goes on behind the interruption, which is no obstacle
            subst hkind
            have hfront : ∀ o ∈ ObjectBridge.obstacles (max accepted.length position) later,
                accepted.length + (bytes.take (position - accepted.length)).length ≤ o.1 := fun o ho => by
              rw [← List.length_append, hhere]
              exact le_of_mem_obstacles ho
            have hih := ih (accepted ++ bytes.take (position - accepted.length))
              (bytes.drop (position - accepted.length))
            rw [hhere, pass_append _ hfront, List.take_append_drop] at hih
            simpa only [ObjectBridge.obstacles, if_true] using hih
          · have hfails : ObjectBridge.obstacles accepted.length ((position, .failure kind) :: later) =
                (max accepted.length position, .failure kind) ::
                  ObjectBridge.obstacles (max accepted.length position) later := by
              simp only [ObjectBridge.obstacles, Outage.failure.injEq, hkind, if_false]
            rw [hfails]
            cases kind <;> first
              | exact absurd rfl hkind
              | simp only [pass, hhere, hcut, if_neg hover, Outage.failing]

/-- One write of a piece that is not empty: it accepts a front of the bytes in front of the obstacles, it is
interrupted, or it meets the first obstacle. -/
theorem accept_pass {limit : Nat} (hlimit : limit ≠ 0) (accepted : List UInt8) (outages : List (Nat × Outage))
    (bytes : List UInt8) :
    (∃ n, accept limit accepted outages bytes = (.ok (bytes.drop n), accepted ++ bytes.take n, outages) ∧
        ObjectBridge.obstacles (accepted ++ bytes.take n).length outages =
          ObjectBridge.obstacles accepted.length outages) ∨
      (∃ later, accept limit accepted outages bytes = (.error .interrupted, accepted, later) ∧
        ObjectBridge.obstacles accepted.length later = ObjectBridge.obstacles accepted.length outages) ∨
      ∃ outage later, accept limit accepted outages bytes = (.error outage.failing, accepted, later) ∧
        outage.failing ≠ .interrupted ∧ ObjectBridge.obstacles accepted.length outages =
          (accepted.length, outage) :: ObjectBridge.obstacles accepted.length later := by
  cases outages with
  | nil => exact .inl ⟨limit, by simp only [accept, hlimit, if_false], rfl⟩
  | cons entry later =>
    obtain ⟨position, outage⟩ := entry
    by_cases hreached : position ≤ accepted.length
    · have hmax : max accepted.length position = accepted.length := Nat.max_eq_left hreached
      cases outage with
      | nothing =>
        refine .inr (.inr ⟨.nothing, later, by simp only [accept, hreached, if_true, Outage.failing],
          by simp [Outage.failing], ?_⟩)
        simp [ObjectBridge.obstacles, hmax]
      | failure kind =>
        by_cases hkind : kind = .interrupted
        · subst hkind
          refine .inr (.inl ⟨later, by simp only [accept, hreached, if_true], ?_⟩)
          simp [ObjectBridge.obstacles, hmax]
        · refine .inr (.inr ⟨.failure kind, later, by simp only [accept, hreached, if_true, Outage.failing],
            hkind, ?_⟩)
          simp [ObjectBridge.obstacles, hmax, hkind]
    · have hn : ¬ min limit (position - accepted.length) = 0 := by omega
      refine .inl ⟨min limit (position - accepted.length), by simp only [accept, hreached, hn, if_false], ?_⟩
      rw [List.length_append]
      refine obstacles_passed (Nat.le_add_right ..) fun o ho => ?_
      cases ho
      have hlen : (bytes.take (min limit (position - accepted.length))).length ≤ _ := List.length_take_le ..
      dsimp only
      omega

theorem deliverPieces_pass {pieces : List Nat} (hpieces : ∀ n ∈ pieces, n ≠ 0) (accepted : List UInt8)
    (outages : List (Nat × Outage)) (bytes : List UInt8) :
    ((deliverPieces accepted outages bytes pieces).1, (deliverPieces accepted outages bytes pieces).2.1,
        ObjectBridge.obstacles (deliverPieces accepted outages bytes pieces).2.1.length
          (deliverPieces accepted outages bytes pieces).2.2.1) =
      pass (ObjectBridge.obstacles accepted.length outages) accepted bytes ∧
    ∀ n ∈ (deliverPieces accepted outages bytes pieces).2.2.2, n ≠ 0 := by
  induction pieces generalizing accepted outages bytes with
  | nil => exact ⟨deliver_pass accepted outages bytes, fun n hn => absurd hn List.not_mem_nil⟩
  | cons piece pieces ih =>
    obtain ⟨hpiece, hpieces'⟩ := List.forall_mem_cons.mp hpieces
    unfold deliverPieces
    by_cases hempty : bytes.isEmpty = true
    · have hnil := List.isEmpty_iff.mp hempty
      rw [if_pos hempty, pass_of_le fun o ho => by rw [hnil]; exact le_of_mem_obstacles ho, hnil,
        List.append_nil]
      exact ⟨rfl, hpieces⟩
    have hlen : 0 < bytes.length := List.length_pos_iff.mpr (mt List.isEmpty_iff.mpr hempty)
    rw [if_neg hempty]
    rcases accept_pass hpiece accepted outages bytes with
      ⟨n, h, hahead⟩ | ⟨later, h, hahead⟩ | ⟨outage, later, h, hkind, hahead⟩
    · have hfront : ∀ o ∈ ObjectBridge.obstacles accepted.length outages,
          accepted.length + (bytes.take n).length ≤ o.1 := fun o ho => by
        rw [← List.length_append]
        rw [← hahead] at ho
        exact le_of_mem_obstacles ho
      have hih := ih hpieces' (accepted ++ bytes.take n) outages (bytes.drop n)
      rw [hahead, pass_append _ hfront, List.take_append_drop] at hih
      simp only [h]
      exact hih
    · have hih := ih hpieces' accepted later bytes
      rw [hahead] at hih
      simp only [h]
      exact hih
    · have hover : ¬ accepted.length + bytes.length ≤ accepted.length := by omega
      simp only [h, hahead, pass, if_neg hover, Nat.sub_self, List.take_zero, List.append_nil]
      exact ⟨trivial, hpieces'⟩

/-- What a steady sink makes of bytes is decided by its obstacles. -/
theorem Steady.write_pass {s : Sink} (hs : s.Steady) (bytes : List UInt8) :
    ((s.write bytes).1, (s.write bytes).2.accepted, (s.write bytes).2.obstacles) =
      pass s.obstacles s.accepted bytes ∧
    (s.write bytes).2.Steady ∧ (s.write bytes).2.flushes = s.flushes :=
  ⟨(deliverPieces_pass hs s.accepted s.outages bytes).1,
    (deliverPieces_pass hs s.accepted s.outages bytes).2, rfl⟩

/-! ### Sinks of one kind -/

/-- Two sinks that have accepted the same bytes and have the same obstacles before them. Their writes may be
cut and interrupted in different ways. -/
structure Alike (s t : Sink) : Prop where
  accepted : s.accepted = t.accepted
  obstacles : s.obstacles = t.obstacles
  flushes : s.flushes = t.flushes
  steady : s.Steady
  steady' : t.Steady

/-- The sink with the same obstacles that never cuts or interrupts a write. -/
def plain (s : Sink) : Sink := { s with pieces := [], outages := s.obstacles }

theorem Steady.alike_plain {s : Sink} (hs : s.Steady) : Alike s s.plain where
  accepted := rfl
  obstacles := (obstacles_of_le (Nat.le_refl _) _).symm
  flushes := rfl
  steady := hs
  steady' := fun _ hn => absurd hn List.not_mem_nil

theorem Alike.write {s t : Sink} (h : Alike s t) (bytes : List UInt8) :
    (s.write bytes).1 = (t.write bytes).1 ∧ Alike (s.write bytes).2 (t.write bytes).2 := by
  obtain ⟨hpass, hsteady, hflushes⟩ := h.steady.write_pass bytes
  obtain ⟨hpass', hsteady', hflushes'⟩ := h.steady'.write_pass bytes
  rw [h.obstacles, h.accepted, ← hpass', Prod.mk.injEq, Prod.mk.injEq] at hpass
  obtain ⟨hfailure, haccepted, hobstacles⟩ := hpass
  exact ⟨hfailure, haccepted, hobstacles, by rw [hflushes, hflushes', h.flushes], hsteady, hsteady'⟩

theorem Alike.flush {s t : Sink} (h : Alike s t) :
    s.flush.1 = t.flush.1 ∧ Alike s.flush.2 t.flush.2 := by
  unfold Sink.flush
  rw [← h.flushes]
  cases hflushes : s.flushes with
  | nil => exact ⟨rfl, h⟩
  | cons outcome later => exact ⟨rfl, h.accepted, h.obstacles, rfl, h.steady, h.steady'⟩

end Sink

end ObjectBridge
