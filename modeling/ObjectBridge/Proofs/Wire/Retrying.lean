import ObjectBridge.Proofs.Wire.Obstacles
import ObjectBridge.Proofs.Wire.Stream

/-!
# Taking bytes again

What a reader on a steady source gives when bytes are taken is decided by its stream and its reach: how many
bytes it can have in its buffer before something stops it, and what that is (`view_take_congr`). A receive
that fails uses up the first obstacle and leaves the reach as if that had never been there
(`reach_of_failed`), so that taking the bytes again gives what it would have given without the failure.
-/

namespace ObjectBridge

/-- What a reader says when so many bytes cannot be had. -/
def Receipt.fault (needed available : Nat) : Receipt → Fault
  | .failed kind => .io { kind }
  | .enough | .ended => .endOfStream needed available

namespace Reader

variable {α β : Type} {r r' : Reader}

/-- How many bytes a reader can have in its buffer before it is stopped, and by what. -/
def reach (r : Reader) : Nat × Receipt :=
  if r.ended then (r.buffer.length, .ended)
  else (r.buffer.length + r.source.stop.1, r.source.stop.2)

theorem reach_of_open (h : r.ended = false) :
    r.reach = (r.buffer.length + r.source.stop.1, r.source.stop.2) := by
  simp only [reach, h, Bool.false_eq_true, if_false]

theorem length_le_reach (r : Reader) : r.buffer.length ≤ r.reach.1 := by
  unfold reach
  split
  · exact Nat.le_refl _
  · exact Nat.le_add_right ..

/-- On a steady source bytes can be made sure of exactly if they are within reach. -/
theorem verdict_ensure (hs : r.source.Steady) (needed : Nat) :
    verdict (ensure needed r) =
      if needed ≤ r.reach.1 then .ok () else .error (r.reach.2.fault needed r.reach.1) := by
  generalize hresult : ensure needed r = result
  cases hresult ▸ ensureCase needed r with
  | there hle => rw [if_pos (Nat.le_trans hle r.length_le_reach), verdict]
  | past hshort hended =>
    have hreach : r.reach = (r.buffer.length, .ended) := by simp only [reach, hended, if_true]
    rw [hreach, if_neg (Nat.not_le.mpr hshort), verdict, Receipt.fault]
  | enough hshort hopen h =>
    have hle := hs.gather_enough h
    rw [reach_of_open hopen, if_pos (by dsimp only; omega), verdict]
  | ended hshort hopen h =>
    obtain ⟨_, hstop, hlt, _⟩ := hs.gather_stopped h (by simp)
    rw [reach_of_open hopen, hstop, if_neg (by dsimp only; omega), List.length_append, verdict, Receipt.fault]
  | failed hshort hopen h =>
    obtain ⟨_, hstop, hlt, _⟩ := hs.gather_stopped h (by simp)
    rw [reach_of_open hopen, hstop, if_neg (by dsimp only; omega), verdict, Receipt.fault]

/-- A failure is the first obstacle. It is used up, and the reader reaches as far as if it had never been. -/
theorem reach_of_failed (hs : r.source.Steady) {needed : Nat} {cause : IoError}
    (h : ensure needed r = .error (.io cause) r') :
    r'.source.Steady ∧ r.source.obstacles = (r'.source.taken, .failure cause.kind) :: r'.source.obstacles ∧
      { r with source := r.source.spared }.reach = r'.reach := by
  have hcase := ensureCase needed r
  rw [h] at hcase
  cases hcase with
  | @failed fresh source kind hshort hopen hgather =>
    obtain ⟨hsteady, _, _, htaken, hmet⟩ := hs.gather_stopped hgather (by simp)
    obtain ⟨hrest, _⟩ := Source.front_of_gather hgather
    have hfirst := hmet kind rfl
    refine ⟨hsteady, hfirst, ?_⟩
    have hleft : source.obstacles = r.source.spared.obstacles := by
      rw [Source.obstacles_spared, hfirst, List.tail_cons]
    have hrest' : r.source.spared.rest = fresh ++ source.rest := hrest
    have hstop := Source.stop_piece hrest' htaken hleft
    simp only [reach, hopen, Bool.false_eq_true, if_false, hstop, List.length_append, Nat.add_assoc]

/-! ### Views -/

/-- Taking bytes comes to the same for readers on steady sources that have one stream and one reach. -/
theorem view_take_congr (hs : r.source.Steady) (hs' : r'.source.Steady) (hstream : r.stream = r'.stream)
    (hreach : r.reach = r'.reach) (n : Nat) : view (take n r) = view (take n r') := by
  have hsame : verdict (ensure n r) = verdict (ensure n r') := by
    rw [verdict_ensure hs, verdict_ensure hs', hreach]
  -- what was made sure of is the front of the stream, wherever the bytes were before
  have htake (q : Reader) : view (take n q) =
      match verdict (ensure n q) with
      | .ok _ => (.ok (q.stream.take n), q.stream.drop n)
      | .error fault => (.error fault, q.stream) := by
    rcases ensure_cases n q with ⟨q', hok, hkept, _, hle, _⟩ | ⟨fault, q', herror, _, hkept, _⟩
    · have hfront : q.stream.take n = q'.buffer.take n := by
        rw [← hkept, stream, List.take_append_of_le_length hle]
      have hleft : q.stream.drop n = q'.buffer.drop n ++ q'.source.rest := by
        rw [← hkept, stream, List.drop_append_of_le_length hle]
      rw [hok, take, bind_of_ok _ hok, front_of_le hle, verdict, hfront, hleft]
      rfl
    · rw [herror, take, bind_of_error _ herror, verdict, view, hkept]
  rw [htake, htake, hsame, hstream]

/-- What follows a step without taking bytes sees of the reader only what the step gives. -/
theorem view_last (a : Action α) (make : α → β) (r : Reader) :
    view ((a >>= fun x => pure (make x)) r) = ((view (a r)).1.map make, (view (a r)).2) := by
  cases h : a r with
  | ok x q =>
    rw [bind_of_ok _ h]
    rfl
  | error fault q =>
    rw [bind_of_error _ h]
    rfl

/-! ### Blocks -/

theorem ensure_of_take_error {n : Nat} {fault : Fault} (h : take n r = .error fault r') :
    ensure n r = .error fault r' := by
  rcases bind_error.mp h with herror | ⟨_, mid, hok, hfront⟩
  · exact herror
  · rcases ensure_cases n r with ⟨q, hsure, _, _, hle, _⟩ | ⟨_, q, herror, _⟩
    · rw [hsure] at hok
      cases hok
      rw [front_of_le hle] at hfront
      cases hfront
    · rw [herror] at hok
      cases hok

/-- The step takes so many bytes at once and looks at them only when they are there, or it refuses to take so
many. -/
inductive Block (n : Nat) : Action α → Prop
  | taken (make : List UInt8 → α) : Block n (take n >>= fun bytes => pure (make bytes))
  | refused (flaw : Malformation) : Block n (throw (.malformed flaw))

namespace Block

variable {n : Nat} {a : Action α}

theorem last (h : Block n a) (make : α → β) : Block n (a >>= fun x => pure (make x)) := by
  cases h with
  | taken make' =>
    rw [bind_assoc]
    exact .taken fun bytes => make (make' bytes)
  | refused flaw => exact .refused flaw

/-- Where it fails, nothing is consumed; what has arrived is in the buffer. -/
theorem keeps (h : Block n a) {fault : Fault} (herror : a r = .error fault r') :
    ∃ fresh, r'.buffer = r.buffer ++ fresh ∧ r.source.rest = fresh ++ r'.source.rest := by
  cases h with
  | taken make =>
    rcases bind_error.mp herror with htake | ⟨_, _, _, hpure⟩
    · have hcase := ensureCase n r
      rw [ensure_of_take_error htake] at hcase
      cases hcase with
      | past => exact ⟨[], (List.append_nil _).symm, rfl⟩
      | ended _ _ hgather | failed _ _ hgather =>
        exact ⟨_, rfl, (Source.front_of_gather hgather).1⟩
    · cases hpure
  | refused flaw =>
    cases herror
    exact ⟨[], (List.append_nil _).symm, rfl⟩

/-- After a failure of the source the step gives what it would have given if that had never been. -/
theorem retry (h : Block n a) (hs : r.source.Steady) {cause : IoError}
    (herror : a r = .error (.io cause) r') :
    r.source.obstacles = (r'.source.taken, .failure cause.kind) :: r'.source.obstacles ∧
      view (a r') = view (a { r with source := r.source.spared }) := by
  cases h with
  | taken make =>
    rcases bind_error.mp herror with htake | ⟨_, _, _, hpure⟩
    · obtain ⟨hsteady, hfirst, hreach⟩ := reach_of_failed hs (ensure_of_take_error htake)
      refine ⟨hfirst, ?_⟩
      have hspared : r.source.spared.Steady := ⟨hs.step_ne_zero, hs.pieces_ne_zero⟩
      have hstream : r'.stream = Reader.stream { r with source := r.source.spared } := by
        rcases take_cases n r with ⟨q, hok, _⟩ | ⟨_, q, hfailed, _, hkept, _⟩
        · rw [hok] at htake
          cases htake
        · rw [hfailed] at htake
          cases htake
          exact hkept
      have hview : view (take n r') = view (take n { r with source := r.source.spared }) :=
        view_take_congr hsteady hspared hstream hreach.symm n
      rw [view_last, view_last, hview]
    · cases hpure
  | refused flaw => cases herror

end Block

end Reader

end ObjectBridge
