import ObjectBridge.Wire.Reader

/-!
# What a source supplies

A read moves a front of the source's bytes into the caller's hands or leaves them all where they are.
`read_cases` says everything that a read can do; from it follow what a series of receives does with
the bytes (`gather_spec`) and, for a source that is calm, that such a series ends only when enough
bytes have arrived or none are left (`Calm.gather`).
-/

namespace ObjectBridge.Source

/-- A source that hands out all its bytes, in pieces of any sizes; the only failures are
interruptions. -/
structure Calm (s : Source) : Prop where
  step_ne_zero : s.step ≠ some 0
  pieces_ne_zero : ∀ n ∈ s.pieces, n ≠ 0
  interrupted : ∀ o ∈ s.outages, o.2 = .failure .interrupted

/-! ### One read -/

/-- The source as a read finds it: the size is noted and a piece used up. -/
def asking (s : Source) (amount : Nat) : Source :=
  { s with asked := amount :: s.asked, pieces := s.pieces.tail }

/-- A read hands out a front of the bytes, which does not reach over the next outage, or it meets
the outage and hands out nothing. -/
theorem read_cases (s : Source) (amount : Nat) :
    (∃ n, (n = s.cap amount ∨ ∃ position, s.taken < position ∧
          n = min (s.cap amount) (position - s.taken)) ∧
        s.read amount = (.ok (s.rest.take n), ((s.asking amount).handOut n).2)) ∨
      ∃ position outage later, s.outages = (position, outage) :: later ∧
        s.read amount =
          (match outage with
            | .nothing => .ok []
            | .failure kind => .error kind, { s.asking amount with outages := later }) := by
  cases hout : s.outages with
  | nil => exact .inl ⟨s.cap amount, .inl rfl, by simp only [read, hout, handOut, asking]⟩
  | cons entry later =>
    obtain ⟨position, outage⟩ := entry
    by_cases hpos : position ≤ s.taken
    · refine .inr ⟨position, outage, later, rfl, ?_⟩
      cases outage <;> simp only [read, hout, hpos, if_true, asking]
    · refine .inl ⟨min (s.cap amount) (position - s.taken), .inr ⟨position, by omega, rfl⟩, ?_⟩
      simp only [read, hout, hpos, if_false, handOut, asking]

theorem read_ok {s s' : Source} {amount : Nat} {piece : List UInt8}
    (h : s.read amount = (.ok piece, s')) : s.rest = piece ++ s'.rest := by
  rcases read_cases s amount with ⟨n, _, hread⟩ | ⟨position, outage, later, _, hread⟩
  · rw [hread] at h
    cases h
    exact (List.take_append_drop n s.rest).symm
  · rw [hread] at h
    cases outage <;> cases h
    rfl

theorem read_error {s s' : Source} {amount : Nat} {kind : IoKind}
    (h : s.read amount = (.error kind, s')) : s'.rest = s.rest := by
  rcases read_cases s amount with ⟨n, _, hread⟩ | ⟨position, outage, later, _, hread⟩
  · rw [hread] at h
    cases h
  · rw [hread] at h
    cases outage <;> cases h
    rfl

theorem read_asked {s s' : Source} {amount : Nat} {answer : Except IoKind (List UInt8)}
    (h : s.read amount = (answer, s')) : s'.asked = amount :: s.asked := by
  rcases read_cases s amount with ⟨n, _, hread⟩ | ⟨position, outage, later, _, hread⟩
  · rw [hread] at h
    cases h
    rfl
  · rw [hread] at h
    cases h
    rfl

theorem cap_le (s : Source) (amount : Nat) : s.cap amount ≤ amount := by
  unfold cap
  split <;> omega

/-- A read hands out no more than it is asked for. -/
theorem read_length {s s' : Source} {amount : Nat} {piece : List UInt8}
    (h : s.read amount = (.ok piece, s')) : piece.length ≤ amount := by
  have hcap := s.cap_le amount
  rcases read_cases s amount with ⟨n, hn, hread⟩ | ⟨position, outage, later, _, hread⟩
  · rw [hread] at h
    cases h
    rw [List.length_take]
    rcases hn with hn | ⟨position, _, hn⟩ <;> omega
  · rw [hread] at h
    cases outage <;> cases h
    exact Nat.zero_le _

/-! ### Steady and calm sources -/

/-- A source whose pieces are at least a byte long: that a read hands out nothing is an outage, or the
end. -/
structure Steady (s : Source) : Prop where
  step_ne_zero : s.step ≠ some 0
  pieces_ne_zero : ∀ n ∈ s.pieces, n ≠ 0

namespace Steady

variable {s : Source}

theorem cap_pos (hs : s.Steady) {amount : Nat} (hpos : 0 < amount) : 0 < s.cap amount := by
  have hstep := hs.step_ne_zero
  have hpieces := hs.pieces_ne_zero
  unfold cap
  split
  · rename_i piece later heq
    have hpiece := hpieces piece (by rw [heq]; exact List.mem_cons_self ..)
    omega
  · rename_i step _ heq
    have hne : step ≠ 0 := by
      intro h0
      exact hstep (by rw [heq, h0])
    omega
  · exact hpos

theorem asking (hs : s.Steady) (amount : Nat) : (s.asking amount).Steady :=
  ⟨hs.step_ne_zero, fun n hn => hs.pieces_ne_zero n (List.mem_of_mem_tail hn)⟩

theorem read_steady (hs : s.Steady) {s' : Source} {amount : Nat} {answer : Except IoKind (List UInt8)}
    (h : s.read amount = (answer, s')) : s'.Steady := by
  have hask := hs.asking amount
  rcases read_cases s amount with ⟨n, _, hread⟩ | ⟨position, outage, later, _, hread⟩
  · rw [hread] at h
    cases h
    exact ⟨hask.step_ne_zero, hask.pieces_ne_zero⟩
  · rw [hread] at h
    cases h
    exact ⟨hask.step_ne_zero, hask.pieces_ne_zero⟩

end Steady

/-- A steady source that hands out nothing only when no byte is left. It may fail at any time. -/
structure Honest (s : Source) : Prop where
  steady : s.Steady
  outages_ne_nothing : ∀ o ∈ s.outages, o.2 ≠ .nothing

/-- A read leaves the source honest. -/
theorem Honest.read {s s' : Source} (hs : s.Honest) {amount : Nat} (hpos : 0 < amount)
    {answer : Except IoKind (List UInt8)} (h : s.read amount = (answer, s')) :
    s'.Honest ∧ (answer = .ok [] → s.rest = []) := by
  have hcap := hs.steady.cap_pos hpos
  have hnext := hs.steady.read_steady h
  rcases read_cases s amount with ⟨n, hn, hread⟩ | ⟨position, outage, later, hout, hread⟩
  · rw [hread] at h
    cases h
    refine ⟨⟨hnext, hs.outages_ne_nothing⟩, fun hempty => ?_⟩
    have hnpos : n ≠ 0 := by
      rcases hn with hn | ⟨position, hlt, hn⟩ <;> omega
    simpa [hnpos] using hempty
  · have hmem : ∀ o ∈ later, o ∈ s.outages := fun o ho => by
      rw [hout]
      exact List.mem_cons_of_mem _ ho
    rw [hread] at h
    cases outage with
    | nothing => exact absurd rfl (hs.outages_ne_nothing (position, .nothing) (by simp [hout]))
    | failure kind =>
      cases h
      exact ⟨⟨hnext, fun o ho => hs.outages_ne_nothing o (hmem o ho)⟩, by simp⟩

namespace Calm

variable {s s' : Source}

theorem honest (hs : s.Calm) : s.Honest where
  steady := ⟨hs.step_ne_zero, hs.pieces_ne_zero⟩
  outages_ne_nothing := fun o ho => by simp [hs.interrupted o ho]

/-- A read of a calm source hands out bytes unless none are left or it is interrupted, and leaves the
source calm. -/
theorem read (hs : s.Calm) {amount : Nat} (hpos : 0 < amount) {result : Except IoKind (List UInt8)}
    (h : s.read amount = (result, s')) :
    s'.Calm ∧ (result = .ok [] → s.rest = []) ∧ ∀ kind, result = .error kind → kind = .interrupted := by
  obtain ⟨⟨hsteady, _⟩, hend⟩ := hs.honest.read hpos h
  rcases read_cases s amount with ⟨n, _, hread⟩ | ⟨position, outage, later, hout, hread⟩
  · rw [hread] at h
    cases h
    exact ⟨⟨hsteady.step_ne_zero, hsteady.pieces_ne_zero, hs.interrupted⟩, hend, by simp⟩
  · have hhead : outage = .failure .interrupted :=
      hs.interrupted (position, outage) (by rw [hout]; exact List.mem_cons_self ..)
    subst hhead
    rw [hread] at h
    cases h
    refine ⟨⟨hsteady.step_ne_zero, hsteady.pieces_ne_zero, fun o ho => ?_⟩, by simp, by simp⟩
    exact hs.interrupted o (by rw [hout]; exact List.mem_cons_of_mem _ ho)

end Calm

/-! ### A series of receives -/

theorem chunk_pos (missing : Nat) : 0 < chunk missing := by
  unfold chunk leastChunk
  omega

/-- What a series of receives does with the bytes: those that arrived are a front of the rest, and
they are as many as were missing exactly if the series says so. -/
theorem gather_spec (s : Source) (missing : Nat) (arrived : List UInt8) :
    ∃ fresh, (s.gather missing arrived).2.1 = fresh.reverse ++ arrived ∧
      s.rest = fresh ++ (s.gather missing arrived).2.2.rest ∧
      match (s.gather missing arrived).1 with
      | .enough => missing ≤ fresh.length
      | .ended | .failed _ => fresh.length < missing := by
  fun_induction gather s missing arrived with
  | case1 s arrived => exact ⟨[], rfl, rfl, Nat.le_refl 0⟩
  | case2 s missing arrived hne next hread =>
    exact ⟨[], rfl, read_ok hread, Nat.pos_of_ne_zero hne⟩
  | case3 s missing arrived hne b bs next hread hbudget ih =>
    obtain ⟨fresh, harrived, hrest, hcount⟩ := ih
    refine ⟨b :: bs ++ fresh, ?_, ?_, ?_⟩
    · simp only [harrived, List.reverse_append, List.append_assoc]
    · rw [read_ok hread, hrest, List.append_assoc]
    · revert hcount
      cases (next.gather (missing - (bs.length + 1)) ((b :: bs).reverse ++ arrived)).1 <;>
        simp only [List.length_append, List.length_cons] <;> omega
  | case4 s missing arrived hne next hread hbudget ih =>
    obtain ⟨fresh, harrived, hrest, hcount⟩ := ih
    exact ⟨fresh, harrived, by rw [← read_error hread, hrest], hcount⟩
  | case5 s missing arrived hne kind next hkind hread =>
    exact ⟨[], rfl, (read_error hread).symm, Nat.pos_of_ne_zero hne⟩

/-- Bytes that have arrived are a front of what the source had, and if the series says so they are enough. -/
theorem front_of_gather {s source : Source} {missing : Nat} {receipt : Receipt} {fresh : List UInt8}
    (h : s.gather missing [] = (receipt, fresh.reverse, source)) :
    s.rest = fresh ++ source.rest ∧ (receipt = .enough ↔ missing ≤ fresh.length) := by
  obtain ⟨fresh', harrived, hrest, hcount⟩ := gather_spec s missing []
  rw [h] at harrived hrest hcount
  dsimp only at harrived hrest hcount
  rw [List.append_nil] at harrived
  cases List.reverse_inj.mp harrived
  refine ⟨hrest, ?_⟩
  cases receipt <;> simpa using hcount

/-- A calm source stays calm; it never fails, and it ends only when no byte is left. -/
theorem Calm.gather {s : Source} (hs : s.Calm) (missing : Nat) (arrived : List UInt8) :
    (s.gather missing arrived).2.2.Calm ∧
      match (s.gather missing arrived).1 with
      | .enough => True
      | .ended => (s.gather missing arrived).2.2.rest = []
      | .failed _ => False := by
  fun_induction Source.gather s missing arrived with
  | case1 s arrived => exact ⟨hs, trivial⟩
  | case2 s missing arrived hne next hread =>
    obtain ⟨hnext, hend, _⟩ := hs.read (chunk_pos missing) hread
    have hrest := read_ok hread
    rw [hend rfl] at hrest
    exact ⟨hnext, (List.append_eq_nil_iff.mp hrest.symm).2⟩
  | case3 s missing arrived hne b bs next hread hbudget ih =>
    exact ih (hs.read (chunk_pos missing) hread).1
  | case4 s missing arrived hne next hread hbudget ih =>
    exact ih (hs.read (chunk_pos missing) hread).1
  | case5 s missing arrived hne kind next hkind hread =>
    obtain ⟨_, _, hfail⟩ := hs.read (chunk_pos missing) hread
    exact absurd (hfail kind rfl) hkind

end ObjectBridge.Source
