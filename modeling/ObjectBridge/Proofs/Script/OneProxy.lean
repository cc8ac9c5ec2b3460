import ObjectBridge.Proofs.Client.ProxyTable
import ObjectBridge.Proofs.Client.Replies
import ObjectBridge.Proofs.Script.Lockstep

/-!
# One proxy for each object

A script that never sends a release past the proxies of a session leaves, at any time, at most one live
proxy for each object of the session; the table of the session and the releases that it has sent follow
from the proxies (`run_oneProxy`).
-/

namespace ObjectBridge

namespace Client

def liveOf (c : Client) (s : Nat) (id : Int32) : Nat :=
  c.cells.countP fun cell => cell.isOf s id && cell.isLive

def madeOf (c : Client) (s : Nat) (id : Int32) : Nat := c.cells.countP (Cell.isOf s id)

/-- What holds of the proxies of a session at any time. -/
structure OneProxy (s : Nat) (session : Session) (c : Client) : Prop where
  unique : ∀ (id : Int32) (key key' : Nat) (cell cell' : Cell), c.cells[key]? = some cell →
    c.cells[key']? = some cell' → cell.isOf s id = true → cell'.isOf s id = true →
    cell.isLive = true → cell'.isLive = true → key = key'
  /-- Who asks for the proxy of an object gets the live one. -/
  found : ∀ (id : Int32) (key : Nat) (cell : Cell) (className : Option String),
    c.cells[key]? = some cell → cell.isOf s id = true → cell.isLive = true →
    (c.objectFor s id className).1 = cell.proxy
  /-- A reply that names objects gives the proxies that stand for them from then on: the live ones,
  where there are such. -/
  named : ∀ (m reply : Message) (mid c' : Client) (v : Value), exchange s m c = .ok reply mid →
    resolve s m.tag reply mid = .ok v c' →
    List.Forall₂ (fun ref p => c'.standing? s ref.id = some p ∧
      ∀ (key : Nat) (cell : Cell), c.cells[key]? = some cell → cell.isOf s ref.id = true →
        cell.isLive = true → p = cell.proxy) reply.refs v.proxies
  entries : ∀ (id : Int32) (key : Nat), (id, key) ∈ session.table ↔
    ∃ cell, c.cells[key]? = some cell ∧ cell.isOf s id = true ∧ cell.isLive = true
  counted : c.liveObjects s = c.cells.countP fun cell => cell.proxy.session == s && cell.isLive
  /-- As long as the session is up, one release was sent for every proxy made, but for the live one. -/
  released : session.isUp = true → ∀ id, session.releases id + c.liveOf s id = c.madeOf s id
  live_le_one : ∀ id, c.liveOf s id ≤ 1
  /-- There is never more than one release for each proxy that has let go. -/
  bounded : ∀ id, session.releases id ≤ letGone c.cells s id

variable {s : Nat} {c : Client} {session : Session}

/-- All that the cells and the table are in line with, told in terms of live proxies. -/
theorem Accounted.oneProxy (ha : c.Accounted s) (hs : c.sessions[s]? = some session) :
    OneProxy s session c := by
  have he := ha.entered session hs
  have hlive (id : Int32) : c.liveOf s id =
      c.cells.countP fun cell => cell.isOf s id && !cell.released :=
    ha.listing.countP_isLive (Cell.isOf s id)
  refine ⟨?_, ?_, ?_, ha.listing.entries_iff hs, ?_, ?_, ?_, he.bounded⟩
  · intro id key key' cell cell' hcell hcell' hof hof' hlive hlive'
    exact ha.listing.unique hs hcell hcell' hof hof' hlive hlive'
  · intro id key cell className hcell hof hlive
    rw [objectFor_of_some className (ha.listing.standing_of_live hs hcell hof hlive)]
  · intro m reply mid c' v hexchange hresolve
    obtain ⟨hkeeps, hmid⟩ := keeps_exchange hexchange
    obtain ⟨hkeeps', hnamed⟩ := resolve_standing m.tag reply hmid hresolve
    refine hnamed.imp fun ref p hp => ⟨hp, fun key cell hcell hof hlive => ?_⟩
    have hkept := (hkeeps.trans hkeeps').standing ref.id _ (ha.listing.standing_of_live hs hcell hof hlive)
    rw [hp, Option.some.injEq] at hkept
    exact hkept
  · exact ha.listing.liveObjects_eq hs
  · intro hup id
    rw [he.exact hup id, hlive, madeOf, countP_split (Cell.isOf s id) Cell.released]
    rfl
  · intro id
    rw [liveOf, ← Array.countP_toList]
    apply countP_le_one
    intro i j a b hi hj ha' hb
    rw [Array.getElem?_toList] at hi hj
    rw [Bool.and_eq_true] at ha' hb
    exact ha.listing.unique hs hi hj ha'.1 hb.1 ha'.2 hb.2

/-- How the proxies of a session and its releases may stand some time later. -/
structure Onward (s : Nat) (session : Session) (c : Client) (session' : Session) (c' : Client) :
    Prop where
  /-- A proxy that has let go of its object never takes it back. -/
  gone : ∀ (key : Nat) (cell : Cell), c.cells[key]? = some cell → cell.released = true →
    ∃ cell', c'.cells[key]? = some cell' ∧ cell'.proxy = cell.proxy ∧ cell'.released = true
  /-- No more releases are sent than proxies let go meanwhile, so one that has let go sends none. -/
  once : ∀ id, session'.releases id + letGone c.cells s id ≤
    session.releases id + letGone c'.cells s id

/-- Between two states of a session, the releases it sends are those of the proxies that let go. -/
theorem onward_of_runs {free : Nat → Session.Deed → Prop} {c' : Client} {session' : Session}
    (h : Runs free c c') (hfree : ∀ d, free s d → d.isRelease = false) (hs : c.sessions[s]? = some session)
    (hs' : c'.sessions[s]? = some session') : Onward s session c session' c' := by
  refine ⟨fun key cell hcell hreleased => h.gone hcell hreleased, ?_⟩
  obtain ⟨found, hfound, htally⟩ := Runs.tallied h hfree session' hs'
  rw [hs, Option.some.injEq] at hfound
  subst hfound
  exact htally.bounded

end Client

namespace Script

/-- After any run that sends no raw release on a session, its objects have one proxy each and its releases
are accounted for. So it stays, and once the session is not up any more it sends nothing again. -/
theorem run_oneProxy {st : State} (h : st.Fresh) (lines : List Line) {s : Nat}
    (hraw : ∀ line ∈ lines, ∀ id, line.step ≠ .session s (.release id)) {session : Session}
    (hs : (run st lines).client.sessions[s]? = some session) :
    Client.OneProxy s session (run st lines).client ∧
      ∀ (later : List Line) (session' : Session),
        (run (run st lines) later).client.sessions[s]? = some session' →
          ((∀ line ∈ later, ∀ id, line.step ≠ .session s (.release id)) →
            Client.Onward s session (run st lines).client session' (run (run st lines) later).client) ∧
          (session.isUp = false → session'.channel = session.channel) := by
  have hallowed (ls : List Line) (hls : ∀ line ∈ ls, ∀ id, line.step ≠ .session s (.release id)) :
      ∀ line ∈ ls, line.step.Allowed fun t => t ≠ s := by
    intro line hline t id hstep heq
    subst heq
    exact hls line hline id hstep
  obtain ⟨hmoves, hsound⟩ := run_moves h.sound (hallowed lines hraw)
  have hstart := Client.accounted_fresh h.cells (h.sessions s)
  have hend := hmoves.accounted (fun hne => hne rfl) h.sound.client hstart
  refine ⟨hend.oneProxy hs, fun later session' hs' => ⟨fun hlater => ?_, fun hdown => ?_⟩⟩
  · have hon := (run_moves hsound (hallowed later hlater)).1
    exact Client.onward_of_runs hon (fun _ hfree => hfree.resolve_left fun hne => hne rfl) hs hs'
  · have hon : Client.Moves (fun _ => True) (run st lines).client (run (run st lines) later).client :=
      (run_moves hsound fun _ _ _ _ _ => trivial).1
    obtain ⟨found, hfound, hsteps⟩ := hon.sessions hs'
    rw [hs, Option.some.injEq] at hfound
    subst hfound
    exact (Session.channel_of_down hsteps hdown).1

/-- The server sends the same object twice in one array. -/
def repeatedState : State := .ofChannel
  { rest := [13, 208, 109, 2, 0, 0, 0, 13, 208, 9, 7, 0, 0, 0, 0, 13, 208, 9, 7, 0, 0, 0, 0] } {}

/-- The proxy of the repeated object is released, and a later one is dropped. -/
def repeatedLines : List Line :=
  [⟨.session 0 (.getIndexed 1 2), some "both"⟩, ⟨.pick "both" 0, some "first"⟩,
    ⟨.proxy "first" (.release true), none⟩, ⟨.session 0 (.objectFor 7 none), some "second"⟩,
    ⟨.drop "second", none⟩]

/-- Two proxies were made for the object, one after the other, and each has sent one release. -/
theorem run_oneProxy_repeated :
    ∃ session, (run repeatedState repeatedLines).client.sessions[0]? = some session ∧
      Client.OneProxy 0 session (run repeatedState repeatedLines).client ∧ session.isUp = true ∧
      session.releases 7 = 2 := by
  have hrun : ((run repeatedState repeatedLines).client.sessions[0]?).map
      (fun session => (session.isUp, session.releases 7)) = some (true, 2) := by
    decide +kernel
  obtain ⟨session, hs, heq⟩ := Option.map_eq_some_iff.mp hrun
  have hraw : ∀ line ∈ repeatedLines, ∀ id, line.step ≠ .session 0 (.release id) := by
    simp [repeatedLines]
  obtain ⟨hone, _⟩ := run_oneProxy (State.fresh_ofChannel _ _) repeatedLines hraw hs
  exact ⟨session, hs, hone, congrArg Prod.fst heq, congrArg Prod.snd heq⟩

end Script

end ObjectBridge
