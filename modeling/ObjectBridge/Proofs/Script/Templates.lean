import ObjectBridge.Proofs.Script.Changes

/-!
# The templates of a session

A session asks for the template of a class until the server sends one, and never again. From then on every
way to the class gives what that first reply said, whether the session is still up or not
(`run_templateCache`).
-/

namespace ObjectBridge

/-- The server has answered a request for the template of a class with these members. -/
def Session.Brought (session : Session) (className : String) (members : Members) : Prop :=
  (.templateReq className, .templateReply members) ∈ session.answers

namespace Client

variable {c c' : Client} {s : Nat} {session : Session} {p : Proxy} {className : String}

theorem Consistent.cachedTemplate?_iff (hc : c.Consistent) (hs : c.sessions[s]? = some session)
    {template : Template} : c.cachedTemplate? s className = some template ↔
      ∃ members, session.Brought className members ∧ template = .ofMembers className members := by
  rw [cachedTemplate?_of_some hs]
  exact (hc.informed s session hs).known className template

theorem Consistent.missing (hc : c.Consistent) (hs : c.sessions[s]? = some session)
    (h : ∀ members, ¬ session.Brought className members) : c.cachedTemplate? s className = none := by
  rw [Option.eq_none_iff_forall_ne_some]
  intro template hcached
  obtain ⟨members, hbrought, _⟩ := (hc.cachedTemplate?_iff hs).mp hcached
  exact h members hbrought

/-! ### Fetches that fail -/

/-- The templates of all sessions, and all proxies, are as before. -/
structure Forgets (c c' : Client) : Prop where
  cells : c'.cells = c.cells
  templates : ∀ t : Nat, c'.sessions[t]?.map Session.templates = c.sessions[t]?.map Session.templates

theorem forgets_refl (c : Client) : Forgets c c := ⟨rfl, fun _ => rfl⟩

theorem forgets_classFor {fault : Fault} (h : classFor s className c = .error fault c') : Forgets c c' := by
  obtain ⟨_, _, rfl⟩ | ⟨session, session', hs, hfetch, rfl⟩ := classFor_error h
  · exact forgets_refl _
  · refine ⟨rfl, fun t => ?_⟩
    rw [getElem?_replaced hs]
    split
    · rename_i hst
      rw [← hst, hs, Option.map_some, Option.map_some, Session.templates_of_failed_fetch hfetch]
    · rfl

theorem forgets_classOf {fault : Fault} (h : classOf p c = .error fault c') : Forgets c c' := by
  have hcases := classOf_cases p c
  rw [h] at hcases
  cases hcases with
  | nameless => exact forgets_refl c
  | failed className _ _ _ hfor => exact forgets_classFor hfor

/-! ### Asking again -/

/-- A request for the template of a class was sent by a session, and nothing else. -/
def AsksFor (s : Nat) (session : Session) (className : String) (c : Client) : Prop :=
  ∃ session', c.sessions[s]? = some session' ∧
    session'.channel.sent = .templateReq className :: session.channel.sent

theorem asksFor_classFor (hs : c.sessions[s]? = some session) (hcached : c.cachedTemplate? s className = none)
    (hup : session.standing = .up) {channel : Channel}
    (hsend : Channel.send (.templateReq className) session.channel = .ok () channel) :
    AsksFor s session className (after (classFor s className c)) := by
  have hafter : (after (classFor s className c)).sessions =
      c.sessions.modify s fun session => after (Session.fetch className session) := by
    have hfetch := after_onSession s (Session.fetch className) c
    rw [classFor_of_missing hcached]
    cases h : onSession s (Session.fetch className) c with
    | ok template mid =>
      rw [h] at hfetch
      rw [bind_of_ok _ h]
      exact congrArg Client.sessions hfetch
    | error fault mid =>
      rw [h] at hfetch
      rw [bind_of_error _ h]
      exact congrArg Client.sessions hfetch
  refine ⟨after (Session.fetch className session), ?_, ?_⟩
  · rw [hafter, Array.getElem?_modify, if_pos rfl, hs]
    rfl
  · rw [Session.channel_fetch, Session.sent_of_send hup hsend]

theorem Consistent.asksFor_classOf (hc : c.Consistent) (hp : c.Knows p) (hclass : p.className = some className)
    (h : AsksFor s session className (after (classFor p.session className c))) :
    AsksFor s session className (after (classOf p c)) := by
  rw [hc.classOf_eq hp hclass]
  cases hfor : classFor p.session className c with
  | ok found mid =>
    rw [hfor] at h
    rw [bind_of_ok _ hfor]
    exact h
  | error fault mid =>
    rw [hfor] at h
    rw [bind_of_error _ hfor]
    exact h

end Client

namespace Script

open Client

/-- What a session has of its classes after some lines. -/
structure TemplateCache (st : State) (lines : List Line) (s : Nat) (session : Session) : Prop where
  /-- The classes that are listed are those whose template was sent, in order. -/
  sorted : session.cachedClasses.Pairwise (· < ·)
  names : ∀ className, className ∈ session.cachedClasses ↔ ∃ members, session.Brought className members
  /-- The first reply that brings a template settles its class: it is asked for neither in the rest of these
  lines nor in later ones. -/
  settled : ∀ className members, session.Brought className members → session.Settled className members
  silent : ∀ className members, session.Brought className members → ∀ later session',
    (run (run st lines) later).client.sessions[s]? = some session' →
    session'.Brought className members ∧
      ∃ more, session'.channel.sent = more ++ session.channel.sent ∧ .templateReq className ∉ more
  /-- From then on all ways to the class give what it said, and send nothing. -/
  classFor : ∀ className members, session.Brought className members → ∀ later,
    Client.classFor s className (run (run st lines) later).client =
      .ok ⟨s, .ofMembers className members⟩ (run (run st lines) later).client
  template : ∀ className members, session.Brought className members → ∀ later session',
    (run (run st lines) later).session? s = some session' →
    (run (run st lines) later).perform (.session s (.template className)) =
      (.text (some (Template.ofMembers className members).toJson.compact), run (run st lines) later)
  classOf : ∀ className members, session.Brought className members → ∀ later p,
    (run (run st lines) later).client.Knows p → p.session = s → p.className = some className →
    ∃ c, Client.classOf p (run (run st lines) later).client = .ok ⟨s, .ofMembers className members⟩ c ∧
      c.sessions = (run (run st lines) later).client.sessions
  /-- A proxy is bound to the template of its own class. -/
  bound : ∀ (key : Nat) (cell : Cell) (template : Template), (run st lines).client.cells[key]? = some cell →
    cell.proxy.session = s → cell.bound = some template →
    ∃ className members, cell.proxy.className = some className ∧ session.Brought className members ∧
      template = .ofMembers className members ∧ session.templates.lookup className = some template
  /-- A fetch that fails leaves no trace among the templates and proxies. -/
  failed : ∀ className fault c, Client.classFor s className (run st lines).client = .error fault c →
    Forgets (run st lines).client c
  failedOf : ∀ p fault c, (run st lines).client.Knows p →
    Client.classOf p (run st lines).client = .error fault c → Forgets (run st lines).client c
  /-- So as long as no template of a class was sent, it is asked for again when the channel takes the request. -/
  again : ∀ className channel, (∀ members, ¬ session.Brought className members) → session.standing = .up →
    Channel.send (.templateReq className) session.channel = .ok () channel →
    AsksFor s session className (after (Client.classFor s className (run st lines).client)) ∧
      ∀ p, (run st lines).client.Knows p → p.session = s → p.className = some className →
        AsksFor s session className (after (Client.classOf p (run st lines).client))

theorem mem_cachedClasses {session : Session} {className : String} :
    className ∈ session.cachedClasses ↔ ∃ template, session.templates.lookup className = some template := by
  rw [Session.cachedClasses, mem_sortedNames, ← Option.isSome_iff_exists, List.lookup_isSome_iff, List.mem_map]
  simp only [beq_iff_eq]
  exact exists_congr fun entry => and_congr_right fun _ => eq_comm

theorem run_templateCache {st : State} (h : st.Blank) (lines : List Line) {s : Nat} {session : Session}
    (hs : (run st lines).client.sessions[s]? = some session) : TemplateCache st lines s session := by
  have hc := h.consistent lines
  have hinformed := hc.informed s session hs
  have hsound := h.fresh.sound_run lines
  have hon (later : List Line) : Changes (fun _ => True) (run st lines).client _ :=
    State.changes_run hsound later
  have hcached {className : String} {members : Members} (hbrought : session.Brought className members)
      (later : List Line) : (run (run st lines) later).client.cachedTemplate? s className =
        some (.ofMembers className members) :=
    (hon later).cachedTemplate? ((hc.cachedTemplate?_iff hs).mpr ⟨members, hbrought, rfl⟩)
  refine
    { sorted := pairwise_sortedNames _
      names := fun className => ?_
      settled := hinformed.settled
      silent := fun className members hbrought later session' hs' => ?_
      classFor := fun className members hbrought later => classFor_of_cached (hcached hbrought later)
      template := fun className members hbrought later session' hs' => ?_
      classOf := fun className members hbrought later p hp hsession hclass => ?_
      bound := fun key cell template hcell hsession hbound => ?_
      failed := fun className fault c => forgets_classFor
      failedOf := fun p fault c _ => forgets_classOf
      again := fun className channel hnone hup hsend => ?_ }
  · rw [mem_cachedClasses]
    constructor
    · rintro ⟨template, hlookup⟩
      obtain ⟨members, hbrought, _⟩ := (hinformed.known className template).mp hlookup
      exact ⟨members, hbrought⟩
    · rintro ⟨members, hbrought⟩
      exact ⟨_, (hinformed.known className _).mpr ⟨members, hbrought, rfl⟩⟩
  · obtain ⟨found, hfound, honward⟩ := (hon later).onward hs
    rw [hs', Option.some.injEq] at hfound
    subst hfound
    obtain ⟨more, hmore, hnew⟩ := honward.sent
    have hknown := (hinformed.known className _).mpr ⟨members, hbrought, rfl⟩
    exact ⟨honward.answers.subset hbrought, more, hmore, hnew className _ hknown⟩
  · have hclass := classFor_of_cached (hcached hbrought later)
    simp only [State.perform, hs', State.needs, State.performOnSession, State.act, hclass]
  · subst hsession
    have hlater : (run (run st lines) later).client.Consistent := (hon later).consistent hc
    exact ⟨_, hlater.classOf_of_cached hp hclass (hcached hbrought later), rfl⟩
  · subst hsession
    obtain ⟨className, hclass, hknown⟩ := (hc.faithful key cell hcell).bound template hbound
    obtain ⟨members, hbrought, htemplate⟩ := (hc.cachedTemplate?_iff hs).mp hknown
    rw [cachedTemplate?_of_some hs] at hknown
    exact ⟨className, members, hclass, hbrought, htemplate, hknown⟩
  · have hasks := asksFor_classFor hs (hc.missing hs hnone) hup hsend
    refine ⟨hasks, fun p hp hsession hclass => ?_⟩
    subst hsession
    exact hc.asksFor_classOf hp hclass hasks

/-- The server sends an object of a class, refuses to tell the template of the class, and then tells it. -/
def refusingState : State := .ofChannel
  { rest := [13, 208, 9, 7, 0, 0, 0, 1, 1, 0, 0, 0, 80, 13, 208, 23, 2, 0, 0, 0, 110, 111,
      13, 208, 213, 1, 0, 0, 0, 1, 0, 0, 0, 120, 1, 0, 0, 0, 1, 0, 0, 0, 102, 0, 0, 0, 0] } {}

/-- The class is asked for by the object, and then by name. -/
def refusedLines : List Line :=
  [⟨.session 0 (.create "P" []), some "p"⟩, ⟨.proxy "p" .classOf, none⟩,
    ⟨.session 0 (.classFor "P"), none⟩]

/-- The template is had at the second request, and still when the session has been closed. -/
theorem run_templateCache_refused : ∃ session members,
    (run refusingState refusedLines).client.sessions[0]? = some session ∧
      TemplateCache refusingState refusedLines 0 session ∧ session.cachedClasses = ["P"] ∧
      session.requests.length = 3 ∧ session.Brought "P" members ∧
      classFor 0 "P" (run (run refusingState refusedLines) [⟨.session 0 .close, none⟩]).client =
        .ok ⟨0, .ofMembers "P" members⟩
          (run (run refusingState refusedLines) [⟨.session 0 .close, none⟩]).client := by
  have hrun : ((run refusingState refusedLines).client.sessions[0]?).map
      (fun session => (session.cachedClasses, session.requests.length)) = some (["P"], 3) := by
    decide +kernel
  obtain ⟨session, hs, hvalues⟩ := Option.map_eq_some_iff.mp hrun
  obtain ⟨hclasses, hlength⟩ := Prod.mk.inj hvalues
  have hcache : TemplateCache refusingState refusedLines 0 session :=
    run_templateCache (State.blank_ofChannel _ _) refusedLines hs
  obtain ⟨members, hbrought⟩ := (hcache.names "P").mp (by rw [hclasses]; exact List.mem_singleton_self _)
  exact ⟨session, members, hs, hcache, hclasses, hlength, hbrought, hcache.classFor "P" members hbrought _⟩

end Script

end ObjectBridge
