import ObjectBridge.Proofs.Client.Caches

/-!
# What is asked

`Asks s requests c c'` says that session `s` has sent certain requests on the way from `c` to `c'`, and that
nothing else was sent. An operation that succeeds asks for what it needs and no more: a class that its
session does not have yet, and a property each time that it is read.
-/

namespace ObjectBridge

theorem Session.sent_of_fetch {className : String} {template : Template} {s s' : Session}
    (h : Session.fetch className s = .ok template s') :
    s'.channel.sent = .templateReq className :: s.channel.sent := by
  have hchannel := channel_fetch className s
  rw [h] at hchannel
  unfold Session.fetch at h
  cases hreply : exchange (.templateReq className) s with
  | error fault mid =>
    rw [hreply] at h
    cases h
  | ok reply mid =>
    rw [hreply] at hchannel
    exact (congrArg Channel.sent hchannel).trans (sent_of_exchange hreply).2.1

namespace Client

variable {c c' c'' : Client} {s t : Nat} {p : Proxy} {m : Message} {name : String}
  {requests requests' : List Message}

/-- The requests that a session has sent, the latest first. -/
def sent (c : Client) (s : Nat) : List Message :=
  match c.sessions[s]? with
  | some session => session.channel.sent
  | none => []

def Asks (s : Nat) (requests : List Message) (c c' : Client) : Prop :=
  ∀ t, c'.sent t = (if t = s then requests else []) ++ c.sent t

theorem sent_of_some {session : Session} (h : c.sessions[s]? = some session) :
    c.sent s = session.channel.sent := by
  simp only [sent, h]

/-- The request for the template of the class of a proxy, if its session does not have it yet. -/
def fetches (c : Client) (p : Proxy) : List Message :=
  match p.className with
  | none => []
  | some className =>
    match c.cachedTemplate? p.session className with
    | none => [.templateReq className]
    | some _ => []

/-- The requests that a name on a proxy needs, by what the name stands for. -/
def needed (c : Client) (p : Proxy) (name : String) : Attribute → List Message
  | .property _ => .getProperty p.id name :: c.fetches p
  | .method _ => c.fetches p
  | _ => []

theorem asks_nothing (h : ∀ t, c'.sent t = c.sent t) : Asks s [] c c' := by
  intro t
  rw [h t, ite_self, List.nil_append]

theorem asks_of_sessions (h : c'.sessions = c.sessions) : Asks s [] c c' :=
  asks_nothing fun t => by rw [sent, sent, h]

theorem sessions_hold (v : Value) (c : Client) : (c.hold v).sessions = c.sessions := by
  rw [hold]
  induction v.proxies generalizing c with
  | nil => rfl
  | cons p ps ih => exact ih (c.holdProxy p)

theorem asks_refl (c : Client) : Asks s [] c c := asks_of_sessions rfl

theorem Asks.trans (h : Asks s requests c c') (h' : Asks s requests' c' c'') :
    Asks s (requests' ++ requests) c c'' := by
  intro t
  rw [h' t, h t]
  split
  · exact (List.append_assoc ..).symm
  · rfl

theorem sent_modifySession {f : Session → Session} (hf : ∀ session, (f session).channel = session.channel) :
    (c.modifySession s f).sent t = c.sent t := by
  unfold sent modifySession
  dsimp only
  rw [Array.getElem?_modify]
  by_cases hst : s = t
  · rw [if_pos hst]
    cases c.sessions[t]? with
    | none => rfl
    | some session => exact congrArg Channel.sent (hf session)
  · rw [if_neg hst]

theorem asks_onSession {session session' : Session} (hs : c.sessions[s]? = some session)
    (hsent : session'.channel.sent = requests ++ session.channel.sent) :
    Asks s requests c { c with sessions := c.sessions.setIfInBounds s session' } := by
  intro t
  unfold sent
  dsimp only
  rw [getElem?_replaced hs]
  by_cases hst : s = t
  · subst hst
    rw [if_pos rfl, if_pos rfl, hs]
    exact hsent
  · rw [if_neg hst, if_neg (Ne.symm hst), List.nil_append]

theorem asks_exchange {reply : Message} (h : exchange s m c = .ok reply c') : Asks s [m] c c' := by
  obtain ⟨session, session', hs, hexchange, rfl⟩ := onSession_ok h
  exact asks_onSession hs (Session.sent_of_exchange hexchange).2.1

/-! ### Replies -/

theorem asks_objectFor (id : Int32) (className : Option String) :
    Asks s [] c (c.objectFor t id className).2 := by
  cases h : c.standing? t id with
  | some p =>
    rw [objectFor_of_some className h]
    exact asks_of_sessions rfl
  | none =>
    rw [objectFor_of_none className h]
    exact asks_nothing fun i => sent_modifySession fun _ => rfl

mutual

theorem asks_resolve (t : Tag) (m : Message) {v : Value} {c c' : Client} (h : resolve s t m c = .ok v c') :
    Asks s [] c c' := by
  cases m with
  | object ref =>
    unfold resolve at h
    cases h
    exact asks_objectFor ref.id ref.className
  | objectArray items =>
    unfold resolve at h
    obtain ⟨vs, mid, hall, hpure⟩ := bind_ok.mp h
    obtain ⟨_, rfl⟩ := pure_ok.mp hpure
    exact asks_resolveAll t items [] hall
  | null | bool | byte | int32 | int64 | float64 | string | vector | matrix | boolArray | byteArray |
    int32Array | int64Array | float64Array | stringArray =>
    unfold resolve at h
    cases h
    exact asks_refl c
  | exception | create | callStaticMethod | callMethod | getProperty | getIndexedProperty | getIndexed |
    setProperty | getStaticProperty | setStaticProperty | protect | release | templateReq | templateReply =>
    unfold resolve at h
    cases h

theorem asks_resolveAll (t : Tag) (ms : List Message) (done : List Value) {vs : List Value} {c c' : Client}
    (h : resolveAll s t ms done c = .ok vs c') : Asks s [] c c' := by
  cases ms with
  | nil =>
    unfold resolveAll at h
    obtain ⟨_, rfl⟩ := pure_ok.mp h
    exact asks_refl c
  | cons m ms =>
    unfold resolveAll at h
    cases hfirst : resolve s t m c with
    | error fault mid =>
      simp only [hfirst] at h
      cases h
    | ok v mid =>
      simp only [hfirst] at h
      exact (asks_resolve t m hfirst).trans (asks_resolveAll t ms (v :: done) h)

end

theorem asks_request {v : Value} (h : request s m c = .ok v c') : Asks s [m] c c' := by
  obtain ⟨reply, mid, hexchange, hresolve⟩ := bind_ok.mp h
  exact (asks_exchange hexchange).trans (asks_resolve m.tag reply hresolve)

/-! ### Classes and names -/

theorem asks_classFor {className : String} {h : ClassHandle} (hclass : p.className = some className)
    (hfor : classFor p.session className c = .ok h c') : Asks p.session (c.fetches p) c c' := by
  unfold fetches
  rw [hclass]
  dsimp only
  cases hcached : c.cachedTemplate? p.session className with
  | some template =>
    rw [classFor_of_cached hcached] at hfor
    cases hfor
    exact asks_refl c
  | none =>
    rw [classFor_of_missing hcached] at hfor
    obtain ⟨template, mid, hfetch, hpure⟩ := bind_ok.mp hfor
    obtain ⟨_, rfl⟩ := pure_ok.mp hpure
    obtain ⟨session, session', hs, hlearned, rfl⟩ := onSession_ok hfetch
    exact asks_onSession hs (Session.sent_of_fetch hlearned)

theorem Consistent.asks_classOf (hc : c.Consistent) (hp : c.Knows p) {h : ClassHandle}
    (hclass : classOf p c = .ok h c') : Asks p.session (c.fetches p) c c' := by
  cases hname : p.className with
  | none =>
    rw [hc.classOf_nameless hp hname] at hclass
    cases hclass
  | some className =>
    rw [hc.classOf_eq hp hname] at hclass
    obtain ⟨found, mid, hfor, hbind⟩ := bind_ok.mp hclass
    cases hbind
    exact (asks_classFor hname hfor).trans (asks_of_sessions rfl)

theorem Consistent.fetches_of_cached (hc : c.Consistent) (hp : c.Knows p) (h : name ∈ c.callables p) :
    c.fetches p = [] := by
  obtain ⟨className, template, hclass, hcached, _⟩ := hc.template_of_callable hp h
  unfold fetches
  rw [hclass]
  dsimp only
  rw [hcached]

/-- A name that stands for something was resolved with the requests that it needs. -/
theorem Consistent.asks_resolveName (hc : c.Consistent) (hp : c.Knows p) {a : Attribute}
    (h : resolveName p name c = .ok a c') : Asks p.session (c.needed p name a) c c' := by
  have hcases := resolveName_cases p name c
  rw [h] at hcases
  cases hcases with
  | reserved _ _ hreserved =>
    obtain ⟨hvalue, hmethod⟩ := value?_of_reserved hreserved
    have hnone : c.needed p name a = [] := by
      cases a with
      | property v => cases hvalue
      | method m => exact absurd rfl (hmethod m)
      | _ => rfl
    rw [hnone]
    exact asks_refl c
  | kept v => exact asks_of_sessions (sessions_hold v c)
  | callable _ _ _ hcallable =>
    rw [needed, hc.fetches_of_cached hp hcallable]
    exact asks_refl c
  | member _ _ _ _ _ hmember =>
    obtain ⟨found, mid, hclass, hrest⟩ := bind_ok.mp hmember
    have hasks := hc.asks_classOf hp hclass
    split at hrest
    · cases hrest
      exact hasks.trans (asks_of_sessions rfl)
    split at hrest
    · obtain ⟨v, _, hget, hpure⟩ := bind_ok.mp hrest
      obtain ⟨rfl, rfl⟩ := pure_ok.mp hpure
      exact hasks.trans (asks_request hget)
    · cases hrest

end Client

end ObjectBridge
