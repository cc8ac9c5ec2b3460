import ObjectBridge.Proofs.Client.Dropping
import ObjectBridge.Proofs.Client.OnWire

/-!
# Calling static methods

A call converts its arguments, sends one request and makes a value of the reply. When the reply is no value, the
proxies made of its first items are given up, and these may let go of their objects: besides its own request a
call sends releases only (`Client.asked_request`). A request that its session can send is sent, whatever comes of it
(`Client.sent_request`). What is sent is on the wire, whatever a client does (`Client.Changes.onWire`).
-/

namespace ObjectBridge

theorem Session.sent_exchange (m : Message) (s : Session) :
    (after (exchange m s)).channel.sent = m :: s.channel.sent ∨
      (after (exchange m s)).channel.sent = s.channel.sent := by
  by_cases hup : s.standing = .up
  · obtain ⟨mid, channel, reply, hsend, hreceive, heq⟩ | ⟨channel, cause, hsent, heq⟩ | ⟨_, heq⟩ :=
      exchange_cases m hup <;> rw [heq]
    · exact .inl ((Channel.receive_ok hreceive).2.2.trans (Channel.send_ok hsend).2.2.2.2)
    · exact hsent.symm
    · exact .inr rfl
  · rw [exchange_of_down m hup]
    exact .inr rfl

namespace Client

variable {α β : Type} {c c' c'' : Client} {s : Nat} {m : Message} {requests : List Message}

/-- Besides some requests, the latest first, session `s` has sent releases only, and these after them. -/
def Asked (s : Nat) (requests : List Message) (c c' : Client) : Prop :=
  ∃ ps, c'.sent s = releasing ps ++ requests ++ c.sent s

theorem Asks.asked (h : Asks s requests c c') : Asked s requests c c' :=
  ⟨[], by rw [h s, if_pos rfl]; rfl⟩

theorem asked_refl (c : Client) : Asked s [] c c := (asks_refl c).asked

theorem Asked.trans (h : Asked s requests c c') (h' : Asked s [] c' c'') : Asked s requests c c'' := by
  obtain ⟨ps, hsent⟩ := h
  obtain ⟨qs, hsent'⟩ := h'
  refine ⟨ps ++ qs, ?_⟩
  rw [hsent', hsent, List.append_nil, releasing, releasing, releasing, List.map_append, List.reverse_append]
  simp only [List.append_assoc]

theorem asked_bind {a : Action α} {f : α → Action β} (ha : Asked s requests c (after (a c)))
    (hf : ∀ x mid, Asked s [] mid (after (f x mid))) : Asked s requests c (after ((a >>= f) c)) := by
  cases h : a c with
  | ok x mid =>
    rw [h] at ha
    rw [bind_of_ok f h]
    exact ha.trans (hf x mid)
  | error fault mid =>
    rw [h] at ha
    rw [bind_of_error f h]
    exact ha

theorem asked_discardAll (vs : List Value) (c : Client) : Asked s [] c (c.discardAll vs) := by
  obtain ⟨ps, _, _, hsent⟩ := sent_foldl_told (reclaim vs c.cells []).2 c.sessions (reclaim vs c.cells []).1 s
  exact ⟨ps, by rw [discardAll_eq, hsent, List.append_nil]; rfl⟩

mutual

theorem asked_resolve (t : Tag) (m : Message) {c : Client} : Asked s [] c (after (resolve s t m c)) := by
  cases m with
  | object ref => exact (asks_objectFor ref.id ref.className).asked
  | objectArray items =>
    unfold resolve
    exact asked_bind (asked_resolveAll t items []) fun _ mid => asked_refl mid
  | _ =>
    unfold resolve
    exact asked_refl c

theorem asked_resolveAll (t : Tag) (ms : List Message) (done : List Value) {c : Client} :
    Asked s [] c (after (resolveAll s t ms done c)) := by
  cases ms with
  | nil =>
    unfold resolveAll
    exact asked_refl c
  | cons m ms =>
    have hfirst : Asked s [] c (after (resolve s t m c)) := asked_resolve t m
    unfold resolveAll
    cases h : resolve s t m c with
    | ok v mid =>
      rw [h] at hfirst
      exact hfirst.trans (asked_resolveAll t ms (v :: done))
    | error fault mid =>
      rw [h] at hfirst
      exact hfirst.trans (asked_discardAll _ mid)

end

theorem asks_after_exchange {session : Session} (hs : c.sessions[s]? = some session)
    (hsent : (after (Session.exchange m session)).channel.sent = requests ++ session.channel.sent) :
    Asks s requests c (after (exchange s m c)) := by
  rw [exchange, after_onSession, modifySession, modify_of_some hs]
  exact asks_onSession hs hsent

theorem asked_of_exchange (h : Asks s requests c (after (exchange s m c))) :
    Asked s requests c (after (request s m c)) :=
  asked_bind h.asked fun reply _ => asked_resolve m.tag reply

/-- A request sends itself once or not at all. -/
theorem asked_request (m : Message) (c : Client) :
    Asked s [m] c (after (request s m c)) ∨ Asked s [] c (after (request s m c)) := by
  cases hs : c.sessions[s]? with
  | none =>
    have hclosed : exchange s m c = .error .closed c := onSession_of_none hs _
    refine .inr (asked_of_exchange ?_)
    rw [hclosed]
    exact asks_refl c
  | some session =>
    exact (session.sent_exchange m).imp (fun h => asked_of_exchange (asks_after_exchange hs h))
      fun h => asked_of_exchange (asks_after_exchange hs h)

/-- A request that can be sent is sent, whatever comes of it. -/
theorem sent_request {session : Session} {channel : Channel} (hs : c.sessions[s]? = some session)
    (hup : session.standing = .up) (hsend : Channel.send m session.channel = .ok () channel) :
    Asked s [m] c (after (request s m c)) :=
  asked_of_exchange (asks_after_exchange hs (Session.sent_of_send hup hsend))

variable {className name : String} {args : List Value} {ms : List Message}

theorem callStatic_of_ok (h : (c.registry s).convertAll c.isReleased args = .ok ms) :
    callStatic s className name args c = request s (.callStaticMethod className name ms) c := by
  have hargs : convertAll s args c = .ok ms c := by simp only [convertAll, outcome, h]
  exact bind_of_ok _ hargs

theorem callStatic_of_error {fault : Fault} (h : (c.registry s).convertAll c.isReleased args = .error fault) :
    callStatic s className name args c = .error fault c := by
  have hargs : convertAll s args c = .error fault c := by simp only [convertAll, outcome, h]
  exact bind_of_error _ hargs

end Client

/-! ### On the wire -/

namespace Session

variable {delivered : List UInt8} {cut : Option Message} {s s' : Session}

theorem standing_fetch (className : String) (s : Session) :
    (after (Session.fetch className s)).standing = (after (exchange (.templateReq className) s)).standing := by
  unfold Session.fetch
  cases exchange (.templateReq className) s with
  | error fault s' => rfl
  | ok reply s' => cases reply <;> rfl

theorem Change.onWire (h : s.Change s') (hwire : s.OnWire delivered cut) : ∃ cut', s'.OnWire delivered cut' := by
  cases h with
  | ask d hfits hother =>
    obtain ⟨cut', hwire', _⟩ := d.record hwire
    exact ⟨cut', hwire'⟩
  | fetch className hnew =>
    obtain ⟨cut', hwire', _⟩ := (Deed.exchange (.templateReq className)).record hwire
    exact ⟨cut', hwire'.congr (channel_fetch className s) (standing_fetch className s)⟩
  | tend s' hchannel hstanding => exact ⟨cut, hwire.congr hchannel hstanding⟩

end Session

theorem Client.Changes.onWire {may : Mark → Prop} {c c' : Client} {s : Nat} {session : Session}
    {delivered : List UInt8} {cut : Option Message} (h : Changes may c c') (hs : c.sessions[s]? = some session)
    (hwire : session.OnWire delivered cut) :
    ∃ session' cut', c'.sessions[s]? = some session' ∧ session'.OnWire delivered cut' := by
  induction h with
  | refl => exact ⟨session, cut, hs, hwire⟩
  | tail _ hstep ih =>
    obtain ⟨session', cut', hs', hwire'⟩ := ih
    cases hstep with
    | session t old new ht hchange =>
      rw [getElem?_replaced ht]
      split
      · rename_i hts
        rw [hts, hs', Option.some.injEq] at ht
        obtain ⟨cut'', hnew⟩ := hchange.onWire (ht ▸ hwire')
        exact ⟨new, cut'', rfl, hnew⟩
      · exact ⟨session', cut', hs', hwire'⟩
    | make | edit => exact ⟨session', cut', hs', hwire'⟩

end ObjectBridge
