import ObjectBridge.Proofs.Client.Reach
import ObjectBridge.Proofs.Client.Terms
import ObjectBridge.Proofs.Script.Lockstep

/-!
# Unreachable proxies

A client holds the values in its slots. A proxy that is out of their reach lets go of its object, and its
release is sent, once, as long as its session is up (`run_releasesUnreachable`). The exception are proxies
that are kept on themselves, directly or over others, and those that they lead to: their holders never
come down to none.
-/

namespace ObjectBridge

namespace Client

/-- A proxy of a session was given up: exactly one release stands in its term, after it was made and before
any later proxy of the object was, and the session does not count it any more. -/
structure GivenUp (s : Nat) (session : Session) (c : Client) (key : Nat) (cell : Cell) : Prop where
  once : ∃! n, cell.since ≤ n ∧ session.requests[n]? = some (.release cell.proxy.id) ∧
    ∀ (key' : Nat) (cell' : Cell), c.cells[key']? = some cell' → cell'.isOf s cell.proxy.id = true →
      key < key' → n < cell'.since
  dead : cell.isLive = false
  uncounted : (cell.proxy.id, key) ∉ session.table

end Client

namespace Script

/-- In a session that is up, and on which no raw release was sent, every proxy that is out of reach of the
values in the slots was given up, unless it is on a cycle. The session counts the proxies that are live. -/
theorem run_releasesUnreachable {st : State} (h : st.Fresh) (lines : List Line) {s : Nat}
    (hraw : ∀ line ∈ lines, ∀ id, line.step ≠ .session s (.release id)) {session : Session}
    (hs : (run st lines).client.sessions[s]? = some session) (hup : session.isUp = true) :
    (∀ (key : Nat) (cell : Cell), (run st lines).client.cells[key]? = some cell →
        cell.proxy.session = s → ¬ InReach (run st lines).client.cells (run st lines).values key →
        ¬ OnCycle (run st lines).client.cells key →
        Client.GivenUp s session (run st lines).client key cell) ∧
      (run st lines).client.liveObjects s =
        (run st lines).client.cells.countP fun cell => cell.proxy.session == s && cell.isLive := by
  have hallowed : ∀ line ∈ lines, line.step.Allowed fun t => t ≠ s := by
    intro line hline t id hstep heq
    subst heq
    exact hraw line hline id hstep
  obtain ⟨hmoves, hsound⟩ := run_moves h.sound hallowed
  have hstart : st.client.Accounted s := Client.accounted_fresh h.cells (h.sessions s)
  have haccounted := hmoves.accounted (fun hne => hne rfl) h.sound.client hstart
  obtain ⟨start, hfirst, _⟩ := hmoves.sessions hs
  have hfree (d : Session.Deed) (m : Message) (hfits : d.Fits) (hd : s ≠ s ∨ d.isRelease = false)
      (hm : d.request? = some m) : ¬ ∃ id, m = .release id := by
    rintro ⟨id, rfl⟩
    have hrelease := Session.Deed.isRelease_of_request hfits hm
    rw [hd.resolve_left fun hne => hne rfl] at hrelease
    cases hrelease
  have hplaced : (run st lines).client.Placed (fun m => ∃ id, m = .release id)
      start.channel.writer.sink.accepted s := by
    refine hmoves.placed hfree (fun id => ⟨id, rfl⟩) h.sound.client hstart
      (Client.placed_fresh h.cells fun found hfound => ?_)
    rw [hfirst, Option.some.injEq] at hfound
    subst hfound
    exact ⟨h.sessions s start hfirst, rfl⟩
  refine ⟨fun key cell hcell hcs hreach hcycle => ?_, haccounted.listing.liveObjects_eq hs⟩
  -- Out of reach and on no cycle, the proxy has no holders, so it has let go of its object.
  have hnone := hsound.balanced.dropped hsound.client.fit hcell hreach hcycle
  have hreleased := ((hsound.client.fit key cell hcell).gone hnone).1
  have hdead : cell.isLive = false := by
    rw [haccounted.listing.isLive_eq hcell, hreleased]
    rfl
  refine ⟨hplaced.exactly_once (fun id => ⟨id, rfl⟩) hs hup hcell hcs hreleased, hdead, fun hentry => ?_⟩
  obtain ⟨found, hfound, _, hlive⟩ := (haccounted.listing.entries_iff hs _ key).mp hentry
  rw [hcell, Option.some.injEq] at hfound
  subst hfound
  rw [hdead] at hlive
  cases hlive

/-- The other side sends nothing, and takes whatever it is sent. -/
def silentState : State := .ofChannel { rest := [] } {}

/-- A proxy is kept on another one, and both are dropped. -/
def keptLines : List Line :=
  [⟨.session 0 (.objectFor 7 none), some "outer"⟩, ⟨.session 0 (.objectFor 8 none), some "inner"⟩,
    ⟨.proxy "outer" (.set "part" (.slot "inner")), none⟩, ⟨.drop "inner", none⟩, ⟨.drop "outer", none⟩]

/-- The proxy that was kept is given up along with the one that it was kept on. -/
theorem run_releasesUnreachable_kept :
    ∃ session cell, (run silentState keptLines).client.sessions[0]? = some session ∧
      (run silentState keptLines).client.cells[1]? = some cell ∧ cell.proxy = ⟨1, 0, 8, none⟩ ∧
      Client.GivenUp 0 session (run silentState keptLines).client 1 cell ∧
      (run silentState keptLines).client.liveObjects 0 = 0 := by
  have hvalues : (run silentState keptLines).values = [] := by decide +kernel
  have hlocals : ((run silentState keptLines).client.cells.all fun cell => cell.locals.isEmpty) = true := by
    decide +kernel
  have hlive : ((run silentState keptLines).client.cells.countP fun cell =>
      cell.proxy.session == 0 && cell.isLive) = 0 := by
    decide +kernel
  have hup : ((run silentState keptLines).client.sessions[0]?).map Session.isUp = some true := by decide +kernel
  have hcell : ((run silentState keptLines).client.cells[1]?).map Cell.proxy = some ⟨1, 0, 8, none⟩ := by
    decide +kernel
  obtain ⟨session, hs, hup⟩ := Option.map_eq_some_iff.mp hup
  obtain ⟨cell, hfound, hproxy⟩ := Option.map_eq_some_iff.mp hcell
  have hraw : ∀ line ∈ keptLines, ∀ id, line.step ≠ .session 0 (.release id) := by simp [keptLines]
  obtain ⟨hgiven, hcount⟩ :=
    run_releasesUnreachable (State.fresh_ofChannel _ _) keptLines hraw hs hup
  have hreach : ¬ InReach (run silentState keptLines).client.cells (run silentState keptLines).values 1 := by
    rintro ⟨v, hv, _⟩
    rw [hvalues] at hv
    cases hv
  have hkept (keeper key : Nat) : ¬ KeptBy (run silentState keptLines).client.cells keeper key := by
    rintro ⟨found, hkeeper, v, hv, _⟩
    rw [Array.all_eq_true_iff_forall_mem] at hlocals
    have hempty := hlocals found (Array.mem_of_getElem? hkeeper)
    rw [Cell.kept, List.isEmpty_iff.mp hempty] at hv
    cases hv
  have hcycle : ¬ OnCycle (run silentState keptLines).client.cells 1 := by
    rintro ⟨first, hfirst, _⟩
    obtain ⟨keeper, _, hlast⟩ := Relation.TransGen.tail'_iff.mp hfirst
    exact hkept keeper first hlast
  exact ⟨session, cell, hs, hfound, hproxy, hgiven 1 cell hfound (by rw [hproxy]) hreach hcycle,
    hcount.trans hlive⟩

/-- A proxy is kept on itself, and dropped. -/
def selfKeptLines : List Line :=
  [⟨.session 0 (.objectFor 7 none), some "self"⟩,
    ⟨.proxy "self" (.set "me" (.slot "self")), none⟩, ⟨.drop "self", none⟩]

/-- A proxy that is kept on itself is out of reach of all values that are held, but nothing was sent for it,
and its session, which is up and got no raw release, still counts it. -/
theorem run_selfKept :
    silentState.Fresh ∧ (∀ line ∈ selfKeptLines, ∀ id, line.step ≠ .session 0 (.release id)) ∧
      ∃ session cell, (run silentState selfKeptLines).client.sessions[0]? = some session ∧
        session.isUp = true ∧ (run silentState selfKeptLines).client.cells[0]? = some cell ∧
        cell.proxy = ⟨0, 0, 7, none⟩ ∧
        ¬ InReach (run silentState selfKeptLines).client.cells (run silentState selfKeptLines).values 0 ∧
        session.requests = [] ∧ (run silentState selfKeptLines).client.liveObjects 0 = 1 := by
  have hvalues : (run silentState selfKeptLines).values = [] := by decide +kernel
  have hsession : ((run silentState selfKeptLines).client.sessions[0]?).map (fun session =>
      (session.isUp, session.requests.isEmpty)) = some (true, true) := by
    decide +kernel
  have hcell : ((run silentState selfKeptLines).client.cells[0]?).map Cell.proxy = some ⟨0, 0, 7, none⟩ := by
    decide +kernel
  have hcount : (run silentState selfKeptLines).client.liveObjects 0 = 1 := by decide +kernel
  obtain ⟨session, hs, heq⟩ := Option.map_eq_some_iff.mp hsession
  obtain ⟨cell, hfound, hproxy⟩ := Option.map_eq_some_iff.mp hcell
  rw [Prod.mk.injEq, List.isEmpty_iff] at heq
  refine ⟨State.fresh_ofChannel _ _, by simp [selfKeptLines], session, cell, hs, heq.1, hfound, hproxy, ?_,
    heq.2, hcount⟩
  rintro ⟨v, hv, _⟩
  rw [hvalues] at hv
  cases hv

end Script

end ObjectBridge
