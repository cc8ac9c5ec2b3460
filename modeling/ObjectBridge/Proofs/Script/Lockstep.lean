import ObjectBridge.Proofs.Script.Moves

/-!
# Scripts in lockstep

However a client uses its sessions, each one that is still up is in lockstep with its server
(`run_lockstep`): the bytes delivered are the requests sent, one after the other, and each request that
awaits a reply has got the next message of the input.
-/

namespace ObjectBridge.Script

/-- A state at the start: all sessions are fresh, and no proxy was ever made. -/
structure State.Fresh (st : State) : Prop where
  sessions : ∀ (s : Nat) (session : Session), st.client.sessions[s]? = some session →
    session.Fresh
  cells : st.client.cells = #[]
  slots : st.slots = []

theorem State.Fresh.sound {st : State} (h : st.Fresh) : st.Sound := by
  have hcell (key : Nat) (cell : Cell) : st.client.cells[key]? ≠ some cell := by
    rw [h.cells]
    simp
  refine ⟨⟨?_, ?_, ?_⟩, ?_, ?_, ?_⟩
  · intro key cell hkey
    exact absurd hkey (hcell key cell)
  · intro key cell hkey
    exact absurd hkey (hcell key cell)
  · intro key cell hkey
    exact absurd hkey (hcell key cell)
  · rw [h.slots]
    exact fun _ hentry => by cases hentry
  · rw [h.slots]
    exact .nil
  · rw [h.cells, State.values, h.slots]
    exact .empty

theorem lockstep_of_moves {st : State} (h : st.Fresh) {raw : Nat → Prop} {c : Client}
    (hmoves : Client.Moves raw st.client c) {s : Nat} {session : Session}
    (hs : c.sessions[s]? = some session) (hup : session.isUp = true) :
    ∃ start, st.client.sessions[s]? = some start ∧ session.registry = start.registry ∧
      session.Lockstep start.channel.reader.source.rest start.channel.writer.sink.accepted := by
  obtain ⟨start, hstart, hsteps⟩ := hmoves.sessions hs
  have hfresh := h.sessions s start hstart
  exact ⟨start, hstart, Session.registry_of_steps hsteps,
    Session.keepsStep_of_steps hsteps (fun _ => hfresh.lockstep) hup⟩

/-- A session that is up after a run is in step: what the sink has accepted are the requests sent, in
order, and each that awaits a reply has got the message of the input whose number is its own. The next
exchange gets the next message. -/
theorem run_lockstep {st : State} (h : st.Fresh) (lines : List Line) {s : Nat} {session : Session}
    (hs : (run st lines).client.sessions[s]? = some session) (hup : session.isUp = true) :
    ∃ start, st.client.sessions[s]? = some start ∧ session.registry = start.registry ∧
      session.Lockstep start.channel.reader.source.rest start.channel.writer.sink.accepted ∧
      ∀ m reply session', m.awaitsReply = true → Session.exchange m session = .ok reply session' →
        session'.Lockstep start.channel.reader.source.rest start.channel.writer.sink.accepted ∧
          session'.channel.sent = m :: session.channel.sent ∧
          session'.answers = (m, reply) :: session.answers := by
  have hmoves : Client.Moves (fun _ => True) st.client (run st lines).client :=
    (run_moves h.sound fun _ _ _ _ _ => trivial).1
  obtain ⟨start, hstart, hregistry, hlock⟩ := lockstep_of_moves h hmoves hs hup
  refine ⟨start, hstart, hregistry, hlock, ?_⟩
  intro m reply session' hm hexchange
  obtain ⟨_, mid, channel, hsend, hreceive, rfl⟩ := Session.exchange_ok hexchange
  have hsent := (Channel.receive_ok hreceive).2.2.trans (Channel.send_ok hsend).2.2.2.2
  exact ⟨hlock.exchange hm hsend hreceive, hsent, rfl⟩

def State.ofRegistry (registry : Registry) (source : Source) (sink : Sink) : State where
  client := { sessions := #[{ config := {}, registry, channel := .between source sink }] }

def State.ofChannel : Source → Sink → State := ofRegistry .standard

theorem State.fresh_ofRegistry (registry : Registry) (source : Source) (sink : Sink) :
    (State.ofRegistry registry source sink).Fresh := by
  refine ⟨fun s session hs => ?_, rfl, rfl⟩
  cases s with
  | zero =>
    cases hs
    exact ⟨⟨_, _, rfl⟩, rfl, rfl, rfl⟩
  | succ s => cases hs

theorem State.fresh_ofChannel : ∀ source sink, (State.ofChannel source sink).Fresh := fresh_ofRegistry .standard

/-- The server sends a truth value, a failure and one byte more. Reads come in small pieces, and a read and
a write are interrupted. -/
def interruptedState : State := .ofChannel
  { rest := [13, 208, 1, 1, 13, 208, 23, 0, 0, 0, 0, 9], pieces := [1, 3],
    outages := [(2, .failure .interrupted)] }
  { outages := [(5, .failure .interrupted)] }

/-- Two requests are answered, one of them with a failure; the one between them has no reply. -/
theorem run_lockstep_interrupted :
    ∃ session, (run interruptedState
        [⟨.session 0 (.getIndexed 1 2), some "flag"⟩, ⟨.session 0 (.protect 5), none⟩,
          ⟨.session 0 (.getIndexed 1 3), none⟩]).client.sessions[0]? = some session ∧
      session.isUp = true ∧ session.Lockstep [13, 208, 1, 1, 13, 208, 23, 0, 0, 0, 0, 9] [] := by
  have hrun : ((run interruptedState
      [⟨.session 0 (.getIndexed 1 2), some "flag"⟩, ⟨.session 0 (.protect 5), none⟩,
        ⟨.session 0 (.getIndexed 1 3), none⟩]).client.sessions[0]?).map Session.isUp = some true := by
    decide +kernel
  obtain ⟨session, hs, hup⟩ := Option.map_eq_some_iff.mp hrun
  obtain ⟨start, hstart, _, hlock, _⟩ := run_lockstep (State.fresh_ofChannel _ _) _ hs hup
  cases hstart
  exact ⟨session, hs, hup, hlock⟩

end ObjectBridge.Script
