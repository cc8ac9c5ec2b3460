import ObjectBridge.Proofs.Client.Listing
import ObjectBridge.Proofs.Client.Objects
import ObjectBridge.Proofs.Client.Replies
import ObjectBridge.Proofs.Message.Truncation
import ObjectBridge.Proofs.Registry.Normal

/-!
# Values that come back

A session that gets the message of a value as a reply gets the normal value (`resolve_convert`): what the
rules of the standard registry make of a value, replies make a value of again, and every reference in it
stands for the very proxy that it was made of, as long as this proxy has its object. The writer and the
reader in between do not change the message. So the value is echoed (`echoes_of_convert`).
-/

namespace ObjectBridge

/-- A wide integer that fits is the same after being narrowed and widened again. -/
theorem toInt64_toInt32 {v : Int64} (h : -0x80000000 ≤ v.toInt ∧ v.toInt < 0x80000000) :
    v.toInt32.toInt64 = v := by
  rw [← Int64.toInt_inj, Int32.toInt_toInt64, toInt_toInt32 h]

namespace Client

variable {s : Nat} {c : Client}

/-- All proxies in a value are proxies of a session that have their objects. -/
def AllLive (c : Client) (s : Nat) (v : Value) : Prop :=
  ∀ p ∈ v.proxies, c.Knows p ∧ p.session = s ∧ c.isReleased p = false

theorem AllLive.normal {v : Value} (h : c.AllLive s v) : c.AllLive s v.normal := by
  intro p hp
  rw [Value.proxies_normal] at hp
  exact h p hp

theorem AllLive.standing {v : Value} (h : c.AllLive s v) (hl : c.Listing s)
    (hs : c.sessions[s]?.isSome = true) : ∀ p ∈ v.proxies, c.standing? s p.id = some p := by
  obtain ⟨session, hsession⟩ := Option.isSome_iff_exists.mp hs
  intro p hp
  obtain ⟨⟨cell, hcell, rfl⟩, hps, hreleased⟩ := h p hp
  have hlive : cell.isLive = true := by
    obtain ⟨found, hfound, hnot⟩ := isReleased_eq_false.mp hreleased
    rw [hcell, Option.some.injEq] at hfound
    subst hfound
    rw [hl.isLive_eq hcell, hnot]
    rfl
  exact hl.standing_of_live hsession hcell (Cell.isOf_iff.mpr ⟨hps, rfl⟩) hlive

/-! ### Messages as replies -/

theorem resolve_ofInt (t : Tag) (v : Int64) : resolve s t (.ofInt v) c = .ok (.int v) c := by
  unfold Message.ofInt
  split
  · rename_i h
    unfold resolve
    rw [toInt64_toInt32 h]
    rfl
  · unfold resolve
    rfl

theorem hold_normal (c : Client) (v : Value) : c.hold v.normal = c.hold v := by
  rw [hold, hold, Value.proxies_normal]

mutual

/-- The message of a value resolves to the normal value, if the proxies in it stand for their objects. -/
theorem resolve_convert {released : Proxy → Bool} (t : Tag) {v : Value} {m : Message} {c : Client}
    (hm : Registry.standard.convert released v = .ok m) (hs : c.sessions[s]?.isSome = true)
    (hv : ∀ p ∈ v.proxies, c.standing? s p.id = some p) :
    resolve s t m c = .ok v.normal (c.hold v) := by
  cases v with
  | object p =>
    obtain ⟨_, rfl⟩ := Registry.convert_object_ok.mp hm
    have hfound := objectFor_of_some p.className (hv p (List.mem_singleton_self p))
    show EStateM.Result.ok (Value.object (c.objectFor s p.id p.className).1)
      (c.objectFor s p.id p.className).2 = _
    rw [hfound]
    rfl
  | list items =>
    obtain ⟨ms, hms, rfl⟩ := Registry.convert_list_ok.mp hm
    unfold resolve
    rw [bind_of_ok _ (resolveAll_convert t [] hms hs hv)]
    rfl
  | int v =>
    rw [Registry.convert_int] at hm
    cases hm
    exact resolve_ofInt t v
  | matrix t =>
    by_cases h : t.cols = 1
    · rw [Registry.convert_of_column h] at hm
      cases hm
      unfold resolve
      rw [Value.normal_of_column h]
      rfl
    · rw [Registry.convert_of_not_column h] at hm
      cases hm
      unfold resolve
      rw [Value.normal_of_not_column h]
      rfl
  | null | bool | byte | float | string | boolArray | byteArray | int32Array | int64Array
  | float64Array | stringArray | vector =>
    unfold Registry.convert at hm
    cases hm
    unfold resolve
    rfl

theorem resolveAll_convert {released : Proxy → Bool} (t : Tag) {vs : List Value} {ms : List Message}
    {c : Client} (done : List Value) (hms : Registry.standard.convertAll released vs = .ok ms)
    (hs : c.sessions[s]?.isSome = true) (hvs : ∀ p ∈ Value.proxiesOfAll vs, c.standing? s p.id = some p) :
    resolveAll s t ms done c =
      .ok (done.reverse ++ Value.normalOfAll vs) ((Value.proxiesOfAll vs).foldl holdProxy c) := by
  cases vs with
  | nil =>
    cases hms
    unfold resolveAll Value.normalOfAll
    rw [List.append_nil]
    rfl
  | cons v vs =>
    obtain ⟨m, ms, hm, hrest, rfl⟩ := Registry.convertAll_cons_ok.mp hms
    rw [Value.proxiesOfAll, List.forall_mem_append] at hvs
    have hfirst : resolve s t m c = .ok v.normal (c.hold v) := resolve_convert t hm hs hvs.1
    obtain ⟨hkeeps, _⟩ := resolve_standing t m hs hfirst
    unfold resolveAll
    rw [hfirst]
    dsimp only
    rw [resolveAll_convert t (v.normal :: done) hrest (hkeeps.session hs)
      fun p hp => hkeeps.standing p.id p (hvs.2 p hp)]
    rw [List.reverse_cons, List.append_assoc, List.singleton_append, Value.normalOfAll,
      Value.proxiesOfAll, List.foldl_append, hold]

end

/-! ### The whole way -/

/-- A session makes a message of a value, this message resolves to another value `w`, and so does a request
of a session that is up if the other side sends just this message. Who gets `w` holds the proxies in it. -/
structure Echoes (s : Nat) (c : Client) (v w : Value) (m : Message) : Prop where
  converted : convert s v c = .ok m c
  resolved : ∀ t, resolve s t m c = .ok w (c.hold w)
  answered : m.encodeFault? = none → m.Sized → ∀ (session : Session) (question : Message)
    (sent : Channel) (suffix : List UInt8), c.sessions[s]? = some session → session.isUp = true →
    Channel.send question session.channel = .ok () sent → session.channel.reader.Calm →
    session.channel.reader.stream = m.encode ++ suffix →
    ∃ mid, exchange s question c = .ok m mid ∧ request s question c = .ok w (mid.hold w)

theorem receive_sent {session : Session} {question m : Message} {sent : Channel} {suffix : List UInt8}
    (hregistry : session.registry = .standard) (hfits : m.encodeFault? = none) (hsized : m.Sized)
    (hup : session.isUp = true) (hsend : Channel.send question session.channel = .ok () sent)
    (hcalm : session.channel.reader.Calm) (hstream : session.channel.reader.stream = m.encode ++ suffix) :
    ∃ session', Session.exchange question session = .ok m session' := by
  have hreader := (Channel.send_ok hsend).2.2.2.1
  have hheld := Reader.message_held hfits hsized suffix
  rw [← hstream] at hheld
  obtain ⟨reader, hread, _⟩ := (Reader.streamed_message .standard).ok_of_held hcalm hheld
  have hsent : Reader.message session.registry.catalogue sent.reader = .ok m reader := by
    rw [hregistry, hreader]
    exact hread
  have hreceive : Channel.receive session.registry.catalogue sent = .ok m { sent with reader } := by
    simp only [Channel.receive, Channel.reading, hsent]
  have hboth : (do Channel.send question; Channel.receive session.registry.catalogue : Channel.Action Message)
      session.channel = .ok m { sent with reader } := by
    rw [bind_of_ok _ hsend]
    exact hreceive
  refine ⟨{ session with
    channel := { sent with reader }, answers := (question, m) :: session.answers }, ?_⟩
  simp only [Session.exchange, Session.transact, Session.isUp_iff.mp hup, hboth]

theorem AllLive.of_cells {c' : Client} {v : Value} (h : c.AllLive s v) (hcells : c'.cells = c.cells) :
    c'.AllLive s v := by
  intro p hp
  obtain ⟨hknows, hps, hreleased⟩ := h p hp
  refine ⟨?_, hps, ?_⟩
  · rwa [Knows, hcells]
  · rwa [isReleased, hcells]

theorem AllLive.hold {v : Value} (h : c.AllLive s v) (w : Value) : (c.hold w).AllLive s v := by
  intro p hp
  obtain ⟨hknows, hps, hreleased⟩ := h p hp
  have hruns : Runs (fun _ _ => False) c (c.hold w) := runs_hold w
  exact ⟨hruns.knows hknows, hps, by rw [isReleased_hold, hreleased]⟩

/-- With the standard registry a value whose proxies are live is echoed as its normal value. -/
theorem echoes_of_convert (hl : c.Listing s) (hregistry : c.registry s = .standard) {v : Value} {m : Message}
    (hv : c.AllLive s v) (hm : Registry.standard.convert c.isReleased v = .ok m) :
    Echoes s c v v.normal m := by
  obtain ⟨session, hs, hstandard⟩ : ∃ session, c.sessions[s]? = some session ∧
      session.registry = .standard := by
    unfold registry at hregistry
    split at hregistry
    · rename_i session hs
      exact ⟨session, hs, hregistry⟩
    · -- Without the session there would be no rules at all.
      cases congrArg Registry.rules hregistry
  have hisSome : c.sessions[s]?.isSome = true := by rw [hs]; rfl
  refine ⟨?_, fun t => ?_,
    fun hfits hsized found question sent suffix hfound hup hsend hcalm hstream => ?_⟩
  · simp only [convert, outcome, hregistry, hm]
  · rw [hold_normal]
    exact resolve_convert t hm hisSome (hv.standing hl hisSome)
  · rw [hs, Option.some.injEq] at hfound
    subst hfound
    obtain ⟨session', hexchange⟩ := receive_sent hstandard hfits hsized hup hsend hcalm hstream
    have hmid : exchange s question c =
        .ok m { c with sessions := c.sessions.setIfInBounds s session' } := by
      simp only [exchange, onSession, hs, hexchange]
    obtain ⟨hkeeps, hisSome'⟩ := keeps_exchange hmid
    refine ⟨_, hmid, ?_⟩
    rw [hold_normal]
    unfold request
    rw [bind_of_ok _ hmid]
    exact resolve_convert question.tag hm hisSome' fun p hp =>
      hkeeps.standing p.id p (hv.standing hl hisSome p hp)

end Client

end ObjectBridge
