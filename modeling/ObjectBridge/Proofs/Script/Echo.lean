import ObjectBridge.Proofs.Client.Echo
import ObjectBridge.Proofs.Script.Lockstep

/-!
# Echoed values

After any run of a script, a value whose proxies are live proxies of a session with the standard registry has
a message there, and if the other side sends this message, the session makes the normal value of it, with the
very same proxies. This one is echoed as it is (`run_echo`).
-/

namespace ObjectBridge.Script

open Client

/-- A value is echoed as its normal value, at any time and whatever is asked, and its normal value is echoed
as itself from then on. -/
theorem run_echo {st : State} (h : st.Fresh) (lines : List Line) {s : Nat}
    (hregistry : (run st lines).client.registry s = .standard) {v : Value}
    (hv : (run st lines).client.AllLive s v) :
    v.normal.normal = v.normal ∧ ∃ m, Echoes s (run st lines).client v v.normal m ∧
      Echoes s ((run st lines).client.hold v.normal) v.normal v.normal m ∧
      ∀ question mid, question.awaitsReply = true →
        exchange s question (run st lines).client = .ok m mid →
        Echoes s (mid.hold v.normal) v.normal v.normal m := by
  obtain ⟨hmoves, hsound⟩ : Moves (fun _ => True) st.client (run st lines).client ∧ _ :=
    run_moves h.sound fun _ _ _ _ _ => trivial
  have hlisting := Runs.listing hmoves h.sound.client (listing_fresh h.cells (h.sessions s))
  obtain ⟨m, hm⟩ := Registry.exists_convert fun p hp => (hv p hp).2.2
  have hnormal : Registry.standard.convert (run st lines).client.isReleased v.normal = .ok m := by
    rw [Registry.convert_normal, hm]
  -- Whatever comes after without releasing anything, the normal value has the same message.
  have hagain {c : Client} (hruns : Runs (fun _ _ => True) (run st lines).client c)
      (hcells : c.cells = (run st lines).client.cells) :
      Echoes s (c.hold v.normal) v.normal v.normal m := by
    have hreleased : (c.hold v.normal).isReleased = (run st lines).client.isReleased := by
      funext p
      rw [isReleased_hold, isReleased, hcells, isReleased]
    have hlater : Runs (fun _ _ => True) (run st lines).client (c.hold v.normal) :=
      hruns.trans (runs_hold v.normal)
    have hecho := echoes_of_convert (hlater.listing hsound.client hlisting)
      ((hlater.registry_eq s).trans hregistry) ((hv.normal.of_cells hcells).hold v.normal)
      (hreleased ▸ hnormal)
    rwa [Value.normal_normal] at hecho
  refine ⟨v.normal_normal, m, echoes_of_convert hlisting hregistry hv hm, hagain .refl rfl,
    fun question mid hquestion hexchange => ?_⟩
  exact hagain ((runs_exchange hquestion hexchange).mono fun _ _ _ => trivial) (exchange_cells hexchange)

/-- The server sends an object with its class. -/
def namedState : State := .ofChannel { rest := [13, 208, 9, 7, 0, 0, 0, 1, 1, 0, 0, 0, 80] } {}

/-- It is kept in a slot. -/
def namedLines : List Line := [⟨.session 0 (.getIndexed 1 2), some "kept"⟩]

/-- A list of the object, an array of doubles, an integer and a matrix of one column. -/
def namedValue : Value :=
  .list [.object ⟨0, 0, 7, some "P"⟩, .float64Array [⟨1⟩], .int 0x100000000,
    .matrix ⟨1, 1, some ["r"], some ["c"], [⟨2⟩], rfl, by decide, labelsFit_some (by decide) rfl,
      labelsFit_some (by decide) rfl⟩]

/-- It comes back with vectors for the array and the matrix, whose column has lost its label. -/
theorem run_echo_named : ∃ m,
    Echoes 0 (run namedState namedLines).client namedValue
      (.list [.object ⟨0, 0, 7, some "P"⟩, .vector (.ofValues [⟨1⟩]), .int 0x100000000,
        .vector ⟨some ["r"], [⟨2⟩], labelsFit_some (by decide) rfl⟩]) m := by
  have hfresh : namedState.Fresh := State.fresh_ofChannel _ _
  have hmoves : Moves (fun _ => True) namedState.client (run namedState namedLines).client :=
    (run_moves hfresh.sound fun _ _ _ _ _ => trivial).1
  have hregistry : (run namedState namedLines).client.registry 0 = .standard := hmoves.registry_eq 0
  have hcell : ((run namedState namedLines).client.cells[0]?).map (fun cell => (cell.proxy, cell.released)) =
      some (⟨0, 0, 7, some "P"⟩, false) := by
    decide +kernel
  obtain ⟨cell, hget, heq⟩ := Option.map_eq_some_iff.mp hcell
  obtain ⟨hproxy, hreleased⟩ := Prod.mk.inj heq
  have hlive : (run namedState namedLines).client.AllLive 0 namedValue := by
    intro p hp
    rw [show namedValue.proxies = [⟨0, 0, 7, some "P"⟩] from rfl, List.mem_singleton] at hp
    subst hp
    exact ⟨⟨cell, hget, hproxy⟩, rfl, isReleased_eq_false.mpr ⟨cell, hget, hreleased⟩⟩
  obtain ⟨_, m, hecho, _⟩ := run_echo hfresh namedLines hregistry hlive
  exact ⟨m, hecho⟩

end ObjectBridge.Script
