import ObjectBridge.Proofs.Wire.Supply

/-!
# Obstacles

Whoever reads or writes passes over an interruption. What is left of the outages of a source or sink are its
obstacles, each at the position where it comes up. Main statement: `Steady.gather`, how far a series of
receives gets is decided by the bytes that are left and the first obstacle, and by nothing else: not by the
sizes of the pieces, nor by interruptions.
-/

namespace ObjectBridge

/-- The outages without the interruptions, each at the position where it comes up when so many bytes have
passed already. An outage waits for those in front of it, interruptions too. -/
def obstacles (passed : Nat) : List (Nat × Outage) → List (Nat × Outage)
  | [] => []
  | (position, outage) :: later =>
    if outage = .failure .interrupted then obstacles (max passed position) later
    else (max passed position, outage) :: obstacles (max passed position) later

/-- Bytes that pass in front of the next outage do not move the obstacles. -/
theorem obstacles_passed {passed passed' : Nat} {outages : List (Nat × Outage)} (hle : passed ≤ passed')
    (hnext : ∀ o ∈ outages.head?, passed' ≤ o.1) : obstacles passed' outages = obstacles passed outages := by
  cases outages with
  | nil => rfl
  | cons o later =>
    have hpos : passed' ≤ o.1 := hnext o rfl
    rw [obstacles, obstacles, Nat.max_eq_right hpos, Nat.max_eq_right (Nat.le_trans hle hpos)]

theorem le_of_mem_obstacles {passed : Nat} {outages : List (Nat × Outage)} {o : Nat × Outage}
    (h : o ∈ obstacles passed outages) : passed ≤ o.1 := by
  induction outages generalizing passed with
  | nil => cases h
  | cons entry later ih =>
    rw [obstacles] at h
    split at h
    · exact Nat.le_trans (Nat.le_max_left ..) (ih h)
    · cases h with
      | head => exact Nat.le_max_left ..
      | tail _ h => exact Nat.le_trans (Nat.le_max_left ..) (ih h)

theorem lt_of_mem_obstacles {passed : Nat} {outages : List (Nat × Outage)} {o : Nat × Outage}
    (hnext : ∀ o ∈ outages.head?, passed < o.1) (h : o ∈ obstacles passed outages) : passed < o.1 := by
  rw [← obstacles_passed (Nat.le_succ passed) hnext] at h
  exact le_of_mem_obstacles h

/-- Obstacles are obstacles of themselves, as long as none of them has been reached. -/
theorem obstacles_of_le {passed passed' : Nat} (hle : passed ≤ passed') (outages : List (Nat × Outage)) :
    obstacles passed (obstacles passed' outages) = obstacles passed' outages := by
  induction outages generalizing passed passed' with
  | nil => rfl
  | cons entry later ih =>
    obtain ⟨position, outage⟩ := entry
    by_cases hkind : outage = .failure .interrupted
    · rw [obstacles, if_pos hkind]
      exact ih (Nat.le_trans hle (Nat.le_max_left ..))
    · -- the position already is where the obstacle comes up
      have hmax : max passed (max passed' position) = max passed' position := by omega
      rw [obstacles, if_neg hkind, obstacles, if_neg hkind, hmax, ih (Nat.le_refl _)]

theorem obstacles_tail {passed passed' : Nat} (hle : passed ≤ passed') (outages : List (Nat × Outage)) :
    obstacles passed (obstacles passed' outages).tail = (obstacles passed' outages).tail := by
  induction outages generalizing passed' with
  | nil => rfl
  | cons entry later ih =>
    obtain ⟨position, outage⟩ := entry
    have hle' : passed ≤ max passed' position := Nat.le_trans hle (Nat.le_max_left ..)
    by_cases hkind : outage = .failure .interrupted
    · rw [obstacles, if_pos hkind]
      exact ih hle'
    · rw [obstacles, if_neg hkind]
      exact obstacles_of_le hle' later

/-- How a series of receives ends at an outage. -/
def Outage.receipt : Outage → Receipt
  | .nothing => .ended
  | .failure kind => .failed kind

namespace Source

def obstacles (s : Source) : List (Nat × Outage) := ObjectBridge.obstacles s.taken s.outages

/-- The source without its first obstacle. -/
def spared (s : Source) : Source := { s with outages := s.obstacles.tail }

theorem obstacles_spared (s : Source) : s.spared.obstacles = s.obstacles.tail :=
  obstacles_tail (Nat.le_refl _) s.outages

variable {s s' : Source}

theorem handOut_obstacles (s : Source) (amount : Nat) {limit : Nat}
    (hnext : ∀ o ∈ s.outages.head?, s.taken + limit ≤ o.1) :
    ((s.asking amount).handOut limit).2.obstacles = s.obstacles := by
  refine obstacles_passed (Nat.le_add_right ..) fun o ho => ?_
  have hlen : (s.rest.take limit).length ≤ limit := List.length_take_le ..
  have hpos := hnext o ho
  show s.taken + (s.rest.take limit).length ≤ o.1
  omega

/-- What a read of a steady source can come to: a piece in front of the obstacles, empty only if no byte is left,
an interruption, or the first obstacle, which is used up. -/
inductive ReadCase (s s' : Source) : Except IoKind (List UInt8) → Prop
  | piece {piece : List UInt8} (hempty : piece = [] → s.rest = []) (hrest : s.rest = piece ++ s'.rest)
      (htaken : s'.taken = s.taken + piece.length) (hkept : s'.obstacles = s.obstacles)
      (hbefore : ∀ o ∈ s.obstacles, s.taken < o.1) : ReadCase s s' (.ok piece)
  | interrupted (hrest : s'.rest = s.rest) (htaken : s'.taken = s.taken)
      (hkept : s'.obstacles = s.obstacles) : ReadCase s s' (.error .interrupted)
  | nothing (hrest : s'.rest = s.rest) (htaken : s'.taken = s.taken)
      (hmet : s.obstacles = (s.taken, .nothing) :: s'.obstacles) : ReadCase s s' (.ok [])
  | failed {kind : IoKind} (hrest : s'.rest = s.rest) (htaken : s'.taken = s.taken)
      (hkind : kind ≠ .interrupted) (hmet : s.obstacles = (s.taken, .failure kind) :: s'.obstacles) :
      ReadCase s s' (.error kind)

theorem Steady.readCase (hs : s.Steady) {amount : Nat} (hpos : 0 < amount)
    {answer : Except IoKind (List UInt8)} (h : s.read amount = (answer, s')) : ReadCase s s' answer := by
  have hcap := hs.cap_pos hpos
  -- a piece of at most `limit` bytes, in front of the next outage
  have hpiece (limit : Nat) (hlimit : 0 < limit) (hnext : ∀ o ∈ s.outages.head?, s.taken + limit ≤ o.1)
      (hread : s.read amount = (.ok (s.rest.take limit), ((s.asking amount).handOut limit).2)) :
      ReadCase s s' answer := by
    rw [hread] at h
    cases h
    refine .piece (fun hempty => ?_) (List.take_append_drop ..).symm rfl (handOut_obstacles s amount hnext)
      fun o ho => ?_
    · simpa [Nat.ne_of_gt hlimit] using hempty
    · exact lt_of_mem_obstacles (fun o ho => Nat.lt_of_lt_of_le (Nat.lt_add_of_pos_right hlimit) (hnext o ho)) ho
  cases hout : s.outages with
  | nil => exact hpiece _ hcap (by simp [hout]) (by simp only [Source.read, hout, handOut, Source.asking])
  | cons entry later =>
    obtain ⟨position, outage⟩ := entry
    by_cases hreached : position ≤ s.taken
    · have hmax : max s.taken position = s.taken := Nat.max_eq_left hreached
      cases outage with
      | nothing =>
        simp only [Source.read, hout, hreached, if_true] at h
        cases h
        exact .nothing rfl rfl (by simp [obstacles, ObjectBridge.obstacles, hout, hmax])
      | failure kind =>
        simp only [Source.read, hout, hreached, if_true] at h
        cases h
        by_cases hkind : kind = .interrupted
        · subst hkind
          exact .interrupted rfl rfl (by simp [obstacles, ObjectBridge.obstacles, hout, hmax])
        · exact .failed rfl rfl hkind (by simp [obstacles, ObjectBridge.obstacles, hout, hmax, hkind])
    · have hnext : ∀ o ∈ s.outages.head?, s.taken + min (s.cap amount) (position - s.taken) ≤ o.1 :=
        fun o ho => by
          rw [hout] at ho
          cases ho
          dsimp only
          omega
      exact hpiece _ (by omega) hnext
        (by simp only [Source.read, hout, hreached, if_false, handOut, Source.asking])

/-! ### A series of receives -/

/-- How many bytes a source hands out before it stops, and how it stops. -/
def stop (s : Source) : Nat × Receipt :=
  match s.obstacles with
  | [] => (s.rest.length, .ended)
  | (position, outage) :: _ =>
    if s.taken + s.rest.length < position then (s.rest.length, .ended)
    else (position - s.taken, outage.receipt)

theorem stop_congr (hrest : s'.rest = s.rest) (htaken : s'.taken = s.taken)
    (hobstacles : s'.obstacles = s.obstacles) : s'.stop = s.stop := by
  simp only [stop, hrest, htaken, hobstacles]

/-- A piece in front of the obstacles brings the stop nearer by its length. -/
theorem stop_piece {piece : List UInt8} (hrest : s.rest = piece ++ s'.rest)
    (htaken : s'.taken = s.taken + piece.length) (hobstacles : s'.obstacles = s.obstacles) :
    s.stop = (piece.length + s'.stop.1, s'.stop.2) := by
  have hlen : s.rest.length = piece.length + s'.rest.length := by rw [hrest, List.length_append]
  unfold stop
  rw [hobstacles]
  cases h : s.obstacles with
  | nil => simp only [hlen]
  | cons o later =>
    have hle : s'.taken ≤ o.1 := by
      have hmem : o ∈ s'.obstacles := by
        rw [hobstacles, h]
        exact List.mem_cons_self ..
      exact le_of_mem_obstacles hmem
    dsimp only
    by_cases hshort : s.taken + s.rest.length < o.1
    · rw [if_pos hshort, if_pos (by omega), hlen]
    · rw [if_neg hshort, if_neg (by omega)]
      have hdist : o.1 - s.taken = piece.length + (o.1 - s'.taken) := by omega
      rw [hdist]

theorem stop_of_met {outage : Outage} {later : List (Nat × Outage)}
    (h : s.obstacles = (s.taken, outage) :: later) : s.stop = (0, outage.receipt) := by
  simp only [stop, h, Nat.sub_self, Nat.not_lt.mpr (Nat.le_add_right s.taken _), if_false]

theorem stop_of_empty (hrest : s.rest = []) (hbefore : ∀ o ∈ s.obstacles, s.taken < o.1) :
    s.stop = (0, .ended) := by
  unfold stop
  cases h : s.obstacles with
  | nil => simp only [hrest, List.length_nil]
  | cons o later =>
    have hlt := hbefore o (by rw [h]; exact List.mem_cons_self ..)
    simp only [hrest, List.length_nil, Nat.add_zero, hlt, if_true]

theorem stop_ne_enough (s : Source) : s.stop.2 ≠ .enough := by
  unfold stop
  split
  · simp
  · split
    · simp
    · cases ‹Outage› <;> simp [Outage.receipt]

/-- A series of receives on a steady source gets all bytes up to the stop. If more were missing, it ends
there and in that way. -/
theorem Steady.gather (hs : s.Steady) (missing : Nat) (arrived : List UInt8) :
    (s.gather missing arrived).2.2.Steady ∧
      (missing ≤ s.stop.1 → (s.gather missing arrived).1 = .enough) ∧
      (s.stop.1 < missing → (s.gather missing arrived).1 = s.stop.2 ∧
        (s.gather missing arrived).2.2.rest.length + s.stop.1 = s.rest.length ∧
        (s.gather missing arrived).2.2.taken = s.taken + s.stop.1 ∧
        ∀ kind, s.stop.2 = .failed kind → s.obstacles =
          (s.taken + s.stop.1, .failure kind) :: (s.gather missing arrived).2.2.obstacles) := by
  -- each read brings the stop nearer, leaves it where it is, or is at the stop
  fun_induction Source.gather s missing arrived with
  | case1 s arrived => exact ⟨hs, fun _ => rfl, fun hlt => absurd hlt (Nat.not_lt_zero _)⟩
  | case2 s missing arrived hne next hread =>
    have hhere : s.stop = (0, .ended) ∧ next.rest.length = s.rest.length ∧ next.taken = s.taken := by
      cases hs.readCase (chunk_pos missing) hread with
      | piece hempty hrest htaken _ hbefore =>
        exact ⟨stop_of_empty (hempty rfl) hbefore, congrArg List.length hrest.symm, htaken⟩
      | nothing hrest htaken hmet => exact ⟨stop_of_met hmet, congrArg List.length hrest, htaken⟩
    obtain ⟨hstop, hrest, htaken⟩ := hhere
    rw [hstop]
    exact ⟨hs.read_steady hread, fun hle => absurd (Nat.le_zero.mp hle) hne, fun _ =>
      ⟨rfl, hrest, htaken, by simp⟩⟩
  | case3 s missing arrived hne b bs next hread hbudget ih =>
    cases hs.readCase (chunk_pos missing) hread with
    | piece _ hrest htaken hkept _ =>
      have hstop := stop_piece hrest htaken hkept
      obtain ⟨hsteady, henough, hstopped⟩ := ih (hs.read_steady hread)
      rw [hstop, List.length_cons]
      refine ⟨hsteady, fun hle => henough (by omega), fun hlt => ?_⟩
      obtain ⟨hreceipt, hrest', htaken', hmet⟩ := hstopped (by omega)
      rw [List.length_cons] at htaken
      refine ⟨hreceipt, ?_, by omega, fun kind hkind => ?_⟩
      · rw [hrest, List.length_append, List.length_cons]
        omega
      · rw [← hkept, hmet kind hkind, htaken, Nat.add_assoc]
  | case4 s missing arrived hne next hread hbudget ih =>
    cases hs.readCase (chunk_pos missing) hread with
    | interrupted hrest htaken hkept =>
      rw [← stop_congr hrest htaken hkept, ← hrest, ← htaken, ← hkept]
      exact ih (hs.read_steady hread)
    | failed _ _ hkind _ => exact absurd rfl hkind
  | case5 s missing arrived hne kind next hkind hread =>
    cases hs.readCase (chunk_pos missing) hread with
    | interrupted => exact absurd rfl hkind
    | failed hrest htaken _ hmet =>
      rw [stop_of_met hmet]
      exact ⟨hs.read_steady hread, fun hle => absurd (Nat.le_zero.mp hle) hne, fun _ =>
        ⟨rfl, congrArg List.length hrest, htaken, fun k hk => by cases hk; exact hmet⟩⟩

variable {source : Source} {missing : Nat} {fresh : List UInt8} {receipt : Receipt}

/-- A series that gets enough stays in front of the stop. -/
theorem Steady.gather_enough (hs : s.Steady) (h : s.gather missing [] = (.enough, fresh.reverse, source)) :
    missing ≤ s.stop.1 := by
  obtain ⟨_, _, hstopped⟩ := hs.gather missing []
  rw [h] at hstopped
  refine Nat.not_lt.mp fun hlt => ?_
  exact absurd (hstopped hlt).1.symm s.stop_ne_enough

/-- Any other ends at the stop. -/
theorem Steady.gather_stopped (hs : s.Steady) (h : s.gather missing [] = (receipt, fresh.reverse, source))
    (hne : receipt ≠ .enough) :
    source.Steady ∧ s.stop = (fresh.length, receipt) ∧ fresh.length < missing ∧
      source.taken = s.taken + fresh.length ∧
      ∀ kind, receipt = .failed kind → s.obstacles = (source.taken, .failure kind) :: source.obstacles := by
  obtain ⟨hsteady, henough, hstopped⟩ := hs.gather missing []
  obtain ⟨hrest, _⟩ := front_of_gather h
  rw [h] at hsteady henough hstopped
  have hlt : s.stop.1 < missing := Nat.not_le.mp fun hle => hne (henough hle)
  obtain ⟨hreceipt, hleft, htaken, hmet⟩ := hstopped hlt
  dsimp only at hreceipt hleft htaken hmet
  have hfresh : fresh.length = s.stop.1 := by
    rw [hrest, List.length_append] at hleft
    omega
  rw [← hreceipt, ← htaken] at hmet
  exact ⟨hsteady, Prod.ext hfresh.symm hreceipt.symm, hfresh ▸ hlt, by rw [htaken, hfresh], hmet⟩

end Source

end ObjectBridge
