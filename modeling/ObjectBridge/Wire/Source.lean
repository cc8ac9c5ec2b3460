import ObjectBridge.Fault

/-!
# Byte sources

A source hands out its bytes in pieces. How large a piece is, and when a read fails instead, is laid
down by the source: `pieces` cap the reads to come one by one and `step` all those after them, and
`outages` are failures that happen once each, in order, at their positions. Main statement: `read_budget`,
a read that neither fails for good nor ends the stream uses up bytes or an outage, so that a loop of reads
comes to an end.
-/

namespace ObjectBridge

/-- What happens to a read or write that meets an outage. -/
inductive Outage where
  /-- No byte passes. -/
  | nothing
  /-- The operation fails. -/
  | failure (kind : IoKind)
deriving DecidableEq, Repr

/-- Bytes that arrive from the other side. -/
structure Source where
  /-- The bytes not yet handed out. -/
  rest : List UInt8
  /-- The most bytes that one read hands out, if there is such a limit. -/
  step : Option Nat := none
  /-- Limits of the next reads, one for each; they stand in place of `step`. -/
  pieces : List Nat := []
  /-- Failures to come, each with the number of bytes that have to be handed out before it. -/
  outages : List (Nat × Outage) := []
  /-- How many bytes have been handed out. -/
  taken : Nat := 0
  /-- The sizes that were asked for, the latest first. -/
  asked : List Nat := []

namespace Source

/-- Hands out at most `limit` bytes. -/
def handOut (s : Source) (limit : Nat) : List UInt8 × Source :=
  let piece := s.rest.take limit
  (piece, { s with rest := s.rest.drop limit, taken := s.taken + piece.length })

/-- The most bytes that the next read of `amount` bytes can hand out. -/
def cap (s : Source) (amount : Nat) : Nat :=
  match s.pieces, s.step with
  | piece :: _, _ => min piece amount
  | [], some step => min step amount
  | [], none => amount

/-- One read of at most `amount` bytes. A piece never reaches over the position of the next outage;
no bytes at all mean that the stream ended. -/
def read (s : Source) (amount : Nat) : Except IoKind (List UInt8) × Source :=
  let asking := { s with asked := amount :: s.asked, pieces := s.pieces.tail }
  match s.outages with
  | [] => let (piece, next) := asking.handOut (s.cap amount); (.ok piece, next)
  | (position, outage) :: later =>
    if position ≤ s.taken then
      let next := { asking with outages := later }
      match outage with
      | .nothing => (.ok [], next)
      | .failure kind => (.error kind, next)
    else
      let (piece, next) := asking.handOut (min (s.cap amount) (position - s.taken))
      (.ok piece, next)

/-- What reads can still use up. -/
def budget (s : Source) : Nat := s.rest.length + s.outages.length

theorem handOut_budget (s : Source) (limit : Nat) (h : (s.handOut limit).1 ≠ []) :
    (s.handOut limit).2.budget < s.budget := by
  have hpos : 0 < (s.rest.take limit).length := List.length_pos_iff.mpr h
  rw [List.length_take] at hpos
  simp only [handOut, budget, List.length_drop]
  omega

theorem read_budget (s : Source) (amount : Nat) (h : (s.read amount).1 ≠ .ok []) :
    (s.read amount).2.budget < s.budget := by
  revert h
  simp only [read]
  split
  · intro h
    exact handOut_budget { s with asked := amount :: s.asked, pieces := s.pieces.tail } _
      (by simpa using h)
  · rename_i position outage later hout
    split
    · split
      · intro h
        exact absurd rfl h
      · intro _
        simp only [budget, hout, List.length_cons]
        omega
    · intro h
      exact handOut_budget { s with asked := amount :: s.asked, pieces := s.pieces.tail } _
        (by simpa using h)

end Source

end ObjectBridge
