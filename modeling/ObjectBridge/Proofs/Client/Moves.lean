import ObjectBridge.Client.Holding
import ObjectBridge.Proofs.Client.Lockstep
import ObjectBridge.Proofs.Message.Parts

/-!
# Moves of a client

`Client.Step` is all that ever happens to the sessions and cells of a client: a session does something on
its channel, a session or a cell changes without that, a proxy is made, or a proxy lets go of its object.
Every operation is a series of such steps (`Runs`). In all of them the cells of known proxies stay theirs
and in order, and the values kept on proxies are known.

What a session does on its channel (`Session.Deed`) has to be allowed: it is `free`, or it is a request in
which no object is named but by a live proxy (`Backed`). `Moves raw` are the series of steps in which only
the sessions that `raw` names send raw releases, past all proxies.
-/

namespace ObjectBridge

/-! ### Replaced entries -/

section Replaced

variable {α : Type} {xs : Array α} {i : Nat} {old : α}

theorem getElem?_replaced (h : xs[i]? = some old) (new : α) (j : Nat) :
    (xs.setIfInBounds i new)[j]? = if i = j then some new else xs[j]? := by
  obtain ⟨hi, _⟩ := Array.getElem?_eq_some_iff.mp h
  rw [Array.getElem?_setIfInBounds, if_pos hi]

theorem getElem?_replaced_cases {new found : α} {j : Nat} (h : xs[i]? = some old)
    (hfound : (xs.setIfInBounds i new)[j]? = some found) :
    (i = j ∧ found = new) ∨ xs[j]? = some found := by
  rw [getElem?_replaced h] at hfound
  split at hfound
  · rename_i hij
    cases hfound
    exact .inl ⟨hij, rfl⟩
  · exact .inr hfound

theorem modify_of_some (h : xs[i]? = some old) (f : α → α) :
    xs.modify i f = xs.setIfInBounds i (f old) := by
  apply Array.ext_getElem?
  intro j
  rw [getElem?_replaced h, Array.getElem?_modify]
  split
  · rename_i hij
    rw [← hij, h]
    rfl
  · rfl

theorem modify_of_none (h : xs[i]? = none) (f : α → α) : xs.modify i f = xs := by
  apply Array.ext_getElem?
  intro j
  rw [Array.getElem?_modify]
  split
  · rename_i hij
    rw [← hij, h]
    rfl
  · rfl

theorem modify_modify (xs : Array α) (i : Nat) (f g : α → α) :
    (xs.modify i f).modify i g = xs.modify i fun a => g (f a) := by
  apply Array.ext_getElem?
  intro j
  simp only [Array.getElem?_modify]
  split
  · rw [Option.map_map, Function.comp_def]
  · rfl

end Replaced

namespace Session

def isReleaseOf (id : Int32) : Message → Bool
  | .release other => other == id
  | _ => false

def releases (s : Session) (id : Int32) : Nat := s.channel.sent.countP (isReleaseOf id)

variable {s : Session} {m : Message}

theorem isReleaseOf_iff {id : Int32} : isReleaseOf id m = true ↔ m = .release id := by
  cases m <;> simp [isReleaseOf]

theorem isReleaseOf_of_awaitsReply (h : m.awaitsReply = true) (id : Int32) :
    isReleaseOf id m = false := by
  cases m <;> first | rfl | cases h

theorem countP_cons_of_not_release {id : Int32} (h : isReleaseOf id m = false) (ms : List Message) :
    (m :: ms).countP (isReleaseOf id) = ms.countP (isReleaseOf id) := by
  rw [List.countP_cons, h]
  rfl

theorem exchange_frame (s : Session) (hm : m.awaitsReply = true) :
    (after (exchange m s)).table = s.table ∧
      ∀ id, (after (exchange m s)).releases id = s.releases id := by
  by_cases hup : s.standing = .up
  · obtain ⟨mid, channel, reply, hsend, hreceive, heq⟩ | ⟨channel, cause, hsent, heq⟩ | ⟨_, heq⟩ :=
      exchange_cases m hup
    · obtain ⟨_, _, _, _, hmid⟩ := Channel.send_ok hsend
      obtain ⟨_, _, hsent⟩ := Channel.receive_ok hreceive
      rw [heq]
      refine ⟨rfl, fun id => ?_⟩
      rw [releases, releases, hsent, hmid,
        countP_cons_of_not_release (isReleaseOf_of_awaitsReply hm id)]
    · rw [heq]
      refine ⟨rfl, fun id => ?_⟩
      obtain hsent | hsent := hsent
      · rw [releases, releases, hsent]
      · rw [releases, releases, hsent,
          countP_cons_of_not_release (isReleaseOf_of_awaitsReply hm id)]
    · rw [heq]
      exact ⟨rfl, fun _ => rfl⟩
  · rw [exchange_of_down m hup]
    exact ⟨rfl, fun _ => rfl⟩

theorem post_frame (s : Session) (m : Message) :
    (after (post m s)).table = s.table ∧
      ∀ id, isReleaseOf id m = false → (after (post m s)).releases id = s.releases id := by
  by_cases hup : s.standing = .up
  · obtain ⟨channel, hsend, heq⟩ | ⟨channel, cause, hsent, heq⟩ | ⟨_, heq⟩ := post_cases m hup
    · obtain ⟨_, _, _, _, hsent⟩ := Channel.send_ok hsend
      rw [heq]
      refine ⟨rfl, fun id hm => ?_⟩
      rw [releases, releases, hsent, countP_cons_of_not_release hm]
    · rw [heq]
      refine ⟨rfl, fun id _ => ?_⟩
      rw [releases, releases, hsent]
    · rw [heq]
      exact ⟨rfl, fun _ _ => rfl⟩
  · rw [post_of_down m hup]
    exact ⟨rfl, fun _ _ => rfl⟩

theorem close_frame (s : Session) : s.close.table = s.table ∧ s.close.channel.sent = s.channel.sent := by
  by_cases hup : s.standing = .up
  · rw [close_of_up hup]
    exact ⟨rfl, rfl⟩
  · rw [close_of_down hup]
    exact ⟨rfl, rfl⟩

/-! ### What a session does on its channel -/

/-- A request with a reply, one without, or the end. -/
inductive Deed where
  | exchange (m : Message)
  | post (m : Message)
  | close

namespace Deed

def run : Deed → Session → Session
  | exchange m, s => after (Session.exchange m s)
  | post m, s => after (Session.post m s)
  | close, s => s.close

def request? : Deed → Option Message
  | exchange m | post m => some m
  | close => none

def isClose : Deed → Bool
  | close => true
  | _ => false

def isRelease : Deed → Bool
  | post (.release _) => true
  | _ => false

/-- Replies are awaited by those requests that get one. -/
def Fits : Deed → Prop
  | exchange m => m.awaitsReply = true
  | post m => m.awaitsReply = false
  | close => True

variable {d : Deed}

theorem step (h : d.Fits) (s : Session) : s.Step (d.run s) := by
  cases d with
  | exchange m => exact .exchange s m h
  | post m => exact .post s m h
  | close => exact .close s

theorem isUp_of_run (h : d.Fits) {s : Session} (hup : (d.run s).isUp = true) : s.isUp = true := by
  by_contra hdown
  rw [isUp_iff] at hdown hup
  rw [((step h s).of_down hdown).2] at hup
  exact hdown hup

theorem table_run (h : d.Fits) (s : Session) : (d.run s).table = s.table := by
  cases d with
  | exchange m => exact (s.exchange_frame h).1
  | post m => exact (s.post_frame m).1
  | close => exact s.close_frame.1

theorem releases_run (h : d.Fits) (hd : d.isRelease = false) (s : Session) (id : Int32) :
    (d.run s).releases id = s.releases id := by
  cases d with
  | exchange m => exact (s.exchange_frame h).2 id
  | post m =>
    apply (s.post_frame m).2 id
    cases m with
    | release => cases hd
    | _ => rfl
  | close => rw [releases, run, s.close_frame.2, releases]

end Deed

/-- A session that changes, but neither its channel nor anything that bears on it. -/
structure Tended (s s' : Session) : Prop where
  channel : s'.channel = s.channel
  standing : s'.standing = s.standing
  answers : s'.answers = s.answers
  registry : s'.registry = s.registry
  table : s'.table = s.table

theorem Tended.step {s s' : Session} (h : Tended s s') : s.Step s' :=
  .tend s s' h.channel h.standing h.answers h.registry

end Session

/-- A cell in order: nobody holds a proxy only if it has let go of its object and of all that was kept on
it, and no name is kept twice. -/
structure Cell.Fit (cell : Cell) : Prop where
  gone : cell.holders = 0 → cell.released = true ∧ cell.locals = []
  names : (cell.locals.map Prod.fst).Nodup

theorem Cell.fit_finished (cell : Cell) : cell.finished.Fit := ⟨fun _ => ⟨rfl, rfl⟩, .nil⟩

namespace Client

/-! ### Known proxies -/

/-- Whether a proxy was made by the client: the cell under its key is its own. -/
def Knows (c : Client) (p : Proxy) : Prop := ∃ cell, c.cells[p.key]? = some cell ∧ cell.proxy = p

def KnowsAll (c : Client) (v : Value) : Prop := ∀ p ∈ v.proxies, c.Knows p

/-- Cells are in order and lie under the keys of their proxies, and all that is kept on proxies is
known. -/
structure Sound (c : Client) : Prop where
  keys : ∀ (key : Nat) (cell : Cell), c.cells[key]? = some cell → cell.proxy.key = key
  locals : ∀ (key : Nat) (cell : Cell), c.cells[key]? = some cell →
    ∀ entry ∈ cell.locals, c.KnowsAll entry.2
  fit : ∀ (key : Nat) (cell : Cell), c.cells[key]? = some cell → cell.Fit

theorem knowsAll_of_proxies {c : Client} {v : Value} (h : v.proxies = []) : c.KnowsAll v := by
  intro p hp
  rw [h] at hp
  cases hp

theorem knowsAll_object {c : Client} {p : Proxy} : c.KnowsAll (.object p) ↔ c.Knows p := by
  simp [KnowsAll, Value.proxies]

theorem proxiesOfAll_eq (vs : List Value) : Value.proxiesOfAll vs = vs.flatMap Value.proxies := by
  induction vs with
  | nil => rfl
  | cons v vs ih => rw [Value.proxiesOfAll, ih, List.flatMap_cons]

theorem knowsAll_list {c : Client} {vs : List Value} :
    c.KnowsAll (.list vs) ↔ ∀ v ∈ vs, c.KnowsAll v := by
  simp only [KnowsAll, Value.proxies, proxiesOfAll_eq, List.mem_flatMap, forall_exists_index, and_imp]
  exact ⟨fun h v hv p hp => h p v hv hp, fun h p v hv hp => h v hv p hp⟩

theorem isReleased_eq_false {c : Client} {p : Proxy} :
    c.isReleased p = false ↔ ∃ cell, c.cells[p.key]? = some cell ∧ cell.released = false := by
  unfold isReleased
  cases c.cells[p.key]? with
  | none => simp
  | some cell => simp

/-! ### Steps -/

/-- An object of a session that is named by a live proxy. -/
def BackedBy (c : Client) (s : Nat) (id : Int32) : Prop :=
  ∃ p, c.Knows p ∧ p.session = s ∧ p.id = id ∧ c.isReleased p = false

/-- A request that lets go of nothing, in which live proxies name all objects. -/
def Backed (c : Client) (s : Nat) (d : Session.Deed) : Prop :=
  d.isRelease = false ∧ ∃ m, d.request? = some m ∧ ∀ id ∈ m.handles, c.BackedBy s id

/-- How a cell may change while its proxy keeps its object: it stays in order, and what is newly kept on
the proxy is known. -/
structure Adjusts (c : Client) (old new : Cell) : Prop where
  proxy : new.proxy = old.proxy
  since : new.since = old.since
  released : new.released = old.released
  fit : old.Fit → new.Fit
  locals : ∀ entry ∈ new.locals, entry ∈ old.locals ∨ c.KnowsAll entry.2

/-- How a cell changes when its proxy lets go of its object. -/
structure LetsGo (old new : Cell) : Prop where
  proxy : new.proxy = old.proxy
  since : new.since = old.since
  before : old.released = false
  after : new.released = true
  fit : old.Fit → new.Fit
  locals : ∀ entry ∈ new.locals, entry ∈ old.locals

/-- The sessions after a proxy has let go of its object. -/
def told (sessions : Array Session) (p : Proxy) : Array Session :=
  sessions.modify p.session fun session => after (Session.post (.release p.id) (session.forget p))

/-- All that happens to a client. -/
inductive Step (free : Nat → Session.Deed → Prop) (c : Client) : Client → Prop where
  | ask (s : Nat) (session : Session) (d : Session.Deed) (hs : c.sessions[s]? = some session)
      (hfits : d.Fits) (hallowed : free s d ∨ c.Backed s d) :
      Step free c { c with sessions := c.sessions.setIfInBounds s (d.run session) }
  | tend (s : Nat) (session session' : Session) (hs : c.sessions[s]? = some session)
      (htended : session.Tended session') :
      Step free c { c with sessions := c.sessions.setIfInBounds s session' }
  | make (s : Nat) (id : Int32) (className : Option String) (h : c.standing? s id = none) :
      Step free c (c.objectFor s id className).2
  | adjust (key : Nat) (old new : Cell) (h : c.cells[key]? = some old) (hnew : c.Adjusts old new) :
      Step free c { c with cells := c.cells.setIfInBounds key new }
  | letGo (key : Nat) (old new : Cell) (h : c.cells[key]? = some old) (hnew : LetsGo old new) :
      Step free c { sessions := told c.sessions old.proxy, cells := c.cells.setIfInBounds key new }

/-- Series of steps. -/
abbrev Runs (free : Nat → Session.Deed → Prop) : Client → Client → Prop :=
  Relation.ReflTransGen (Step free)

/-- Series of steps in which only some sessions send raw releases. -/
abbrev Moves (raw : Nat → Prop) : Client → Client → Prop :=
  Runs fun s d => raw s ∨ d.isRelease = false

variable {free : Nat → Session.Deed → Prop} {c c' : Client}

theorem objectFor_of_none {s : Nat} {id : Int32} (className : Option String)
    (h : c.standing? s id = none) :
    c.objectFor s id className = (⟨c.cells.size, s, id, className⟩,
      { c.modifySession s (·.enter id c.cells.size) with
        cells := c.cells.push { proxy := ⟨c.cells.size, s, id, className⟩, since := c.sentBy s } }) := by
  simp only [objectFor, h]

theorem objectFor_of_some {s : Nat} {id : Int32} {p : Proxy} (className : Option String)
    (h : c.standing? s id = some p) : c.objectFor s id className = (p, c.holdProxy p) := by
  simp only [objectFor, h]

/-- The cell of a proxy stays its own, and what it has let go it does not take back. -/
theorem Step.cell (h : Step free c c') {key : Nat} {cell : Cell} (hcell : c.cells[key]? = some cell) :
    ∃ cell', c'.cells[key]? = some cell' ∧ cell'.proxy = cell.proxy ∧ cell'.since = cell.since ∧
      (cell.released = true → cell'.released = true) := by
  cases h with
  | ask | tend => exact ⟨cell, hcell, rfl, rfl, id⟩
  | make s id className h =>
    obtain ⟨hlt, _⟩ := Array.getElem?_eq_some_iff.mp hcell
    refine ⟨cell, ?_, rfl, rfl, fun hreleased => hreleased⟩
    rw [objectFor_of_none className h, Array.getElem?_push, if_neg (Nat.ne_of_lt hlt)]
    exact hcell
  | adjust other old new h hnew =>
    dsimp only
    rw [getElem?_replaced h]
    split
    · rename_i hkey
      subst hkey
      rw [h, Option.some.injEq] at hcell
      subst hcell
      exact ⟨new, rfl, hnew.proxy, hnew.since, fun hreleased => by rw [hnew.released, hreleased]⟩
    · exact ⟨cell, hcell, rfl, rfl, id⟩
  | letGo other old new h hnew =>
    dsimp only
    rw [getElem?_replaced h]
    split
    · rename_i hkey
      subst hkey
      rw [h, Option.some.injEq] at hcell
      subst hcell
      exact ⟨new, rfl, hnew.proxy, hnew.since, fun _ => hnew.after⟩
    · exact ⟨cell, hcell, rfl, rfl, id⟩

theorem Step.knows (h : Step free c c') {p : Proxy} (hp : c.Knows p) : c'.Knows p := by
  obtain ⟨cell, hcell, hproxy⟩ := hp
  obtain ⟨cell', hcell', hproxy', _⟩ := h.cell hcell
  exact ⟨cell', hcell', hproxy'.trans hproxy⟩

theorem Step.knowsAll (h : Step free c c') {v : Value} (hv : c.KnowsAll v) : c'.KnowsAll v :=
  fun p hp => h.knows (hv p hp)

/-- A cell after a step: a new one without anything kept, or an old one with something known kept. -/
theorem Step.cell_origin (h : Step free c c') {key : Nat} {cell : Cell}
    (hcell : c'.cells[key]? = some cell) :
    (cell.proxy.key = key ∧ cell.locals = [] ∧ cell.holders ≠ 0) ∨
      ∃ old, c.cells[key]? = some old ∧ cell.proxy = old.proxy ∧ (old.Fit → cell.Fit) ∧
        ∀ entry ∈ cell.locals, entry ∈ old.locals ∨ c.KnowsAll entry.2 := by
  cases h with
  | ask | tend => exact .inr ⟨cell, hcell, rfl, id, fun _ h => .inl h⟩
  | make s id className h =>
    rw [objectFor_of_none className h, Array.getElem?_push] at hcell
    split at hcell
    · rename_i hkey
      rw [Option.some.injEq] at hcell
      rw [← hcell, hkey]
      exact .inl ⟨rfl, rfl, Nat.one_ne_zero⟩
    · exact .inr ⟨cell, hcell, rfl, fun hfit => hfit, fun _ h => .inl h⟩
  | adjust other old new h hnew =>
    obtain ⟨rfl, rfl⟩ | hsame := getElem?_replaced_cases h hcell
    · exact .inr ⟨old, h, hnew.proxy, hnew.fit, hnew.locals⟩
    · exact .inr ⟨cell, hsame, rfl, id, fun _ h => .inl h⟩
  | letGo other old new h hnew =>
    obtain ⟨rfl, rfl⟩ | hsame := getElem?_replaced_cases h hcell
    · exact .inr ⟨old, h, hnew.proxy, hnew.fit, fun entry hentry => .inl (hnew.locals entry hentry)⟩
    · exact .inr ⟨cell, hsame, rfl, id, fun _ h => .inl h⟩

theorem Step.sound (h : Step free c c') (hc : c.Sound) : c'.Sound := by
  refine ⟨?_, ?_, ?_⟩
  · intro key cell hcell
    obtain ⟨hkey, _⟩ | ⟨old, hold, hproxy, _⟩ := h.cell_origin hcell
    · exact hkey
    · rw [hproxy]
      exact hc.keys key old hold
  · intro key cell hcell entry hentry
    obtain ⟨_, hlocals, _⟩ | ⟨old, hold, _, _, hlocals⟩ := h.cell_origin hcell
    · rw [hlocals] at hentry
      cases hentry
    · obtain hkept | hknown := hlocals entry hentry
      · exact h.knowsAll (hc.locals key old hold entry hkept)
      · exact h.knowsAll hknown
  · intro key cell hcell
    obtain ⟨_, hlocals, hheld⟩ | ⟨old, hold, _, hfit, _⟩ := h.cell_origin hcell
    · refine ⟨fun hzero => absurd hzero hheld, ?_⟩
      rw [hlocals]
      exact .nil
    · exact hfit (hc.fit key old hold)

theorem Runs.knows (h : Runs free c c') {p : Proxy} (hp : c.Knows p) : c'.Knows p := by
  induction h with
  | refl => exact hp
  | tail _ hstep ih => exact hstep.knows ih

theorem Runs.knowsAll (h : Runs free c c') {v : Value} (hv : c.KnowsAll v) : c'.KnowsAll v :=
  fun p hp => h.knows (hv p hp)

theorem Runs.sound (h : Runs free c c') (hc : c.Sound) : c'.Sound := by
  induction h with
  | refl => exact hc
  | tail _ hstep ih => exact hstep.sound ih

theorem Runs.cell (h : Runs free c c') {key : Nat} {cell : Cell} (hcell : c.cells[key]? = some cell) :
    ∃ cell', c'.cells[key]? = some cell' ∧ cell'.proxy = cell.proxy ∧ cell'.since = cell.since ∧
      (cell.released = true → cell'.released = true) := by
  induction h with
  | refl => exact ⟨cell, hcell, rfl, rfl, id⟩
  | tail _ hstep ih =>
    obtain ⟨mid, hmid, hproxy, hsince, hgone⟩ := ih
    obtain ⟨cell', hcell', hproxy', hsince', hgone'⟩ := hstep.cell hmid
    exact ⟨cell', hcell', hproxy'.trans hproxy, hsince'.trans hsince, fun h => hgone' (hgone h)⟩

theorem Runs.gone (h : Runs free c c') {key : Nat} {cell : Cell}
    (hcell : c.cells[key]? = some cell) (hreleased : cell.released = true) :
    ∃ cell', c'.cells[key]? = some cell' ∧ cell'.proxy = cell.proxy ∧ cell'.released = true := by
  obtain ⟨cell', hcell', hproxy, _, hgone⟩ := h.cell hcell
  exact ⟨cell', hcell', hproxy, hgone hreleased⟩

theorem Step.mono {free' : Nat → Session.Deed → Prop} (h : Step free c c')
    (hfree : ∀ s d, free s d → free' s d) : Step free' c c' := by
  cases h with
  | ask s session d hs hfits hallowed => exact .ask s session d hs hfits (hallowed.imp_left (hfree s d))
  | tend s session session' hs htended => exact .tend s session session' hs htended
  | make s id className h => exact .make s id className h
  | adjust key old new h hnew => exact .adjust key old new h hnew
  | letGo key old new h hnew => exact .letGo key old new h hnew

theorem Runs.mono {free' : Nat → Session.Deed → Prop} (h : Runs free c c')
    (hfree : ∀ s d, free s d → free' s d) : Runs free' c c' := by
  induction h with
  | refl => exact .refl
  | tail _ hstep ih => exact .tail ih (hstep.mono hfree)

/-! ### The sessions of a client -/

theorem steps_of_modify {sessions : Array Session} {i s : Nat} {f : Session → Session}
    {session' : Session} (hf : ∀ session, Relation.ReflTransGen Session.Step session (f session))
    (h : (sessions.modify i f)[s]? = some session') :
    ∃ session, sessions[s]? = some session ∧
      Relation.ReflTransGen Session.Step session session' := by
  rw [Array.getElem?_modify] at h
  split at h
  · obtain ⟨session, hs, rfl⟩ := Option.map_eq_some_iff.mp h
    exact ⟨session, hs, hf session⟩
  · exact ⟨session', h, .refl⟩

theorem steps_of_replaced {sessions : Array Session} {i s : Nat} {old new session' : Session}
    (hold : sessions[i]? = some old) (hstep : old.Step new)
    (h : (sessions.setIfInBounds i new)[s]? = some session') :
    ∃ session, sessions[s]? = some session ∧
      Relation.ReflTransGen Session.Step session session' := by
  obtain ⟨rfl, rfl⟩ | hsame := getElem?_replaced_cases hold h
  · exact ⟨old, hold, .single hstep⟩
  · exact ⟨session', hsame, .refl⟩

theorem Step.sessions (h : Step free c c') {s : Nat} {session' : Session}
    (hs : c'.sessions[s]? = some session') :
    ∃ session, c.sessions[s]? = some session ∧
      Relation.ReflTransGen Session.Step session session' := by
  cases h with
  | ask t session d ht hfits => exact steps_of_replaced ht (d.step hfits session) hs
  | tend t session session'' ht htended => exact steps_of_replaced ht htended.step hs
  | make t id className h =>
    rw [objectFor_of_none className h] at hs
    have henter (session : Session) : session.Step (session.enter id c.cells.size) :=
      .tend _ _ rfl rfl rfl rfl
    exact steps_of_modify (fun session => .single (henter session)) hs
  | adjust => exact ⟨session', hs, .refl⟩
  | letGo key old new h hnew =>
    refine steps_of_modify (fun session => ?_) hs
    have hforget : session.Step (session.forget old.proxy) := .tend _ _ rfl rfl rfl rfl
    exact .tail (.single hforget) (.post _ _ rfl)

theorem Step.size_sessions (h : Step free c c') : c'.sessions.size = c.sessions.size := by
  cases h with
  | ask | tend => exact Array.size_setIfInBounds
  | make s id className h =>
    rw [objectFor_of_none className h]
    exact Array.size_modify
  | adjust => rfl
  | letGo => exact Array.size_modify

theorem Runs.sessions (h : Runs free c c') {s : Nat} {session' : Session}
    (hs : c'.sessions[s]? = some session') :
    ∃ session, c.sessions[s]? = some session ∧
      Relation.ReflTransGen Session.Step session session' := by
  induction h generalizing session' with
  | refl => exact ⟨session', hs, .refl⟩
  | tail _ hstep ih =>
    obtain ⟨mid, hmid, hlast⟩ := hstep.sessions hs
    obtain ⟨session, hfirst, hsteps⟩ := ih hmid
    exact ⟨session, hfirst, hsteps.trans hlast⟩

end Client

end ObjectBridge
