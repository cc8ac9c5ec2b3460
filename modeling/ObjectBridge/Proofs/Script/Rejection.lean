import ObjectBridge.Proofs.Client.Rejection
import ObjectBridge.Proofs.Script.Lockstep

/-!
# Rejected replies

After any run of a script, a request whose reply is rejected leaves the proxies of the client as they were
and sends one release for each object that was looked up in the reply and had no proxy (`run_rejected`). The
objects behind the first part of the reply that is no value are neither held nor released
(`run_rejected_lost`).
-/

namespace ObjectBridge.Script

open Client

/-! ### Arrays of objects and failures -/

/-- A message that is a reference or a failure. -/
def referenceOrFailure : ObjectRef ⊕ String → Message
  | .inl ref => .object ref
  | .inr text => .exception text

def referenceOrFailure? : Message → Option (ObjectRef ⊕ String)
  | .object ref => some (.inl ref)
  | .exception text => some (.inr text)
  | _ => none

theorem eq_of_referenceOrFailure? {m : Message} {item : ObjectRef ⊕ String}
    (h : referenceOrFailure? m = some item) : m = referenceOrFailure item := by
  cases m with
  | object ref =>
    cases h
    rfl
  | exception text =>
    cases h
    rfl
  | _ => cases h

theorem eq_of_map_referenceOrFailure? {ms : List Message} {items : List (ObjectRef ⊕ String)}
    (h : ms.map referenceOrFailure? = items.map some) : ms = items.map referenceOrFailure := by
  induction items generalizing ms with
  | nil => exact List.map_eq_nil_iff.mp h
  | cons item items ih =>
    obtain ⟨m, rest, rfl, hm, hrest⟩ := List.map_eq_cons_iff.mp h
    rw [List.map_cons, eq_of_referenceOrFailure? hm, ih hrest]

/-- What the items of an array are, if the message is one. Equality of messages is not decided, but equality of
this is. -/
def itemsOf? : Message → Option (List (Option (ObjectRef ⊕ String)))
  | .objectArray items => some (items.map referenceOrFailure?)
  | _ => none

theorem verdict_of_itemsOf? {ε σ : Type} {r : EStateM.Result ε σ Message} (items : List (ObjectRef ⊕ String))
    (h : (verdict r).toOption.bind itemsOf? = some (items.map some)) :
    verdict r = .ok (.objectArray (items.map referenceOrFailure)) := by
  cases r with
  | error fault s => cases h
  | ok m s =>
    cases m with
    | objectArray ms =>
      rw [verdict, eq_of_map_referenceOrFailure? (Option.some.inj h)]
    | _ => cases h

/-! ### Rejected replies of a run -/

/-- A request whose reply is no value fails, and so does a request for a template whose reply is none. Of
the objects in the reply just those are held or released that had a proxy before or were looked up: those up
to the first part that is no value, and none in what came for a template. -/
theorem run_rejected {st : State} (h : st.Fresh) (lines : List Line) {s : Nat} {m reply : Message}
    {mid : Client} (hm : m.awaitsReply = true)
    (hexchange : exchange s m (run st lines).client = .ok reply mid) :
    (reply.isValue = false → ∃ fault c', request s m (run st lines).client = .error fault c' ∧
      Rejected s (run st lines).client c' reply reply.reached) ∧
    ∀ className, m = .templateReq className → (∀ members, reply ≠ .templateReply members) →
      ∃ fault, fetchTemplate s className (run st lines).client = .error fault mid ∧
        Rejected s (run st lines).client mid reply [] := by
  obtain ⟨hmoves, hsound⟩ : Moves (fun _ => True) st.client (run st lines).client ∧ _ :=
    run_moves h.sound fun _ _ _ _ _ => trivial
  have hlisting := Runs.listing hmoves h.sound.client (listing_fresh h.cells (h.sessions s))
  refine ⟨request_rejected hsound.client hlisting hm hexchange, fun className hclass hreply => ?_⟩
  subst hclass
  exact fetchTemplate_rejected hlisting hexchange hreply

/-- The server sends an object, and then an array of this object and two more with a failure between them. -/
def spoiltState : State := .ofChannel
  { rest := [13, 208, 9, 7, 0, 0, 0, 0, 13, 208, 109, 4, 0, 0, 0, 13, 208, 9, 7, 0, 0, 0, 0,
      13, 208, 9, 8, 0, 0, 0, 0, 13, 208, 23, 0, 0, 0, 0, 13, 208, 9, 9, 0, 0, 0, 0] } {}

def spoiltReply : Message :=
  .objectArray [.object ⟨7, none⟩, .object ⟨8, none⟩, .exception "", .object ⟨9, none⟩]

/-- The first object is kept in a slot. -/
def spoiltLines : List Line := [⟨.session 0 (.getIndexed 1 2), some "kept"⟩]

/-- Of the objects in the array the first has its proxy, the second is released, and the last is not. -/
theorem run_rejected_spoilt : ∃ fault c' session',
    request 0 (.getIndexed 1 3) (run spoiltState spoiltLines).client = .error fault c' ∧
      Rejected 0 (run spoiltState spoiltLines).client c' spoiltReply [⟨7, none⟩, ⟨8, none⟩] ∧
      c'.sessions[0]? = some session' ∧ session'.isUp = true ∧ session'.releases 7 = 0 ∧
      session'.releases 8 = 1 ∧ session'.releases 9 = 0 := by
  have hreply : verdict (exchange 0 (.getIndexed 1 3) (run spoiltState spoiltLines).client) =
      .ok spoiltReply :=
    verdict_of_itemsOf? [.inl ⟨7, none⟩, .inl ⟨8, none⟩, .inr "", .inl ⟨9, none⟩] (by decide +kernel)
  have hsent : ((after (request 0 (.getIndexed 1 3) (run spoiltState spoiltLines).client)).sessions[0]?).map
      (fun session => (session.isUp, session.releases 7, session.releases 8, session.releases 9)) =
        some (true, 0, 1, 0) := by
    decide +kernel
  cases hexchange : exchange 0 (.getIndexed 1 3) (run spoiltState spoiltLines).client with
  | error fault mid =>
    rw [hexchange] at hreply
    cases hreply
  | ok reply mid =>
    rw [hexchange] at hreply
    cases hreply
    have hfresh : spoiltState.Fresh := State.fresh_ofChannel _ _
    obtain ⟨fault, c', hrequest, hrejected⟩ := (run_rejected hfresh spoiltLines rfl hexchange).1 rfl
    rw [hrequest] at hsent
    obtain ⟨session', hs', hvalues⟩ := Option.map_eq_some_iff.mp hsent
    simp only [Prod.mk.injEq] at hvalues
    obtain ⟨hup, hseven, height, hnine⟩ := hvalues
    exact ⟨fault, c', session', hrequest, hrejected, hs', hup, hseven, height, hnine⟩

/-- The server sends an array of a failure and an object. -/
def lostState : State := .ofChannel
  { rest := [13, 208, 109, 2, 0, 0, 0, 13, 208, 23, 4, 0, 0, 0, 98, 111, 111, 109,
      13, 208, 9, 7, 0, 0, 0, 0] } {}

def lostReply : Message := .objectArray [.exception "boom", .object ⟨7, none⟩]

/-- The object behind the failure is lost: no proxy holds it, and it is not released. -/
theorem run_rejected_lost : ∃ fault c' session session',
    verdict (exchange 0 (.getIndexed 1 2) (run lostState []).client) = .ok lostReply ∧
      lostReply.Carries 7 ∧
      request 0 (.getIndexed 1 2) (run lostState []).client = .error fault c' ∧
      (run lostState []).client.sessions[0]? = some session ∧ c'.sessions[0]? = some session' ∧
      session'.isUp = true ∧ ¬ HeldOrReleased 0 session (run lostState []).client session' c' 7 := by
  have hreply : verdict (exchange 0 (.getIndexed 1 2) (run lostState []).client) = .ok lostReply :=
    verdict_of_itemsOf? [.inr "boom", .inl ⟨7, none⟩] (by decide +kernel)
  have hfails : fault? (verdict (request 0 (.getIndexed 1 2) (run lostState []).client)) =
      some (.remote "boom") := by
    decide +kernel
  have hsent : ((after (request 0 (.getIndexed 1 2) (run lostState []).client)).sessions[0]?).map
      (fun session => (session.isUp, session.releases 7)) = some (true, 0) := by
    decide +kernel
  cases hrequest : request 0 (.getIndexed 1 2) (run lostState []).client with
  | ok v c' =>
    rw [hrequest] at hfails
    cases hfails
  | error fault c' =>
    rw [hrequest] at hsent
    obtain ⟨session', hs', hvalues⟩ := Option.map_eq_some_iff.mp hsent
    obtain ⟨hup, hnone⟩ := Prod.mk.inj hvalues
    have hcarries : lostReply.Carries 7 :=
      ⟨⟨7, none⟩, by simp [lostReply, Message.parts, Message.partsOfAll], rfl⟩
    refine ⟨fault, c', _, session', hreply, hcarries, rfl, rfl, hs', hup, ?_⟩
    rintro (⟨key, cell, hcell, _⟩ | hone)
    · cases hcell
    · rw [hnone] at hone
      cases hone

end ObjectBridge.Script
