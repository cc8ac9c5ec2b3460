import ObjectBridge.Client.State
import ObjectBridge.Proofs.Message.Streaming
import ObjectBridge.Proofs.Wire.Delivery
import Mathlib.Logic.Relation

/-!
# Sessions in lockstep

`Session.Step` is all that ever happens to a session. While a session is up it is in lockstep with the
other side (`Session.Lockstep`): nothing is pending, what the sink has accepted are the messages sent, and
the reader has consumed one message for each request that awaits a reply. A message that cannot be written
leaves no byte behind, and all other failures of the channel are fatal and end the session; so every step
preserves this (`Session.Step.lockstep`).
-/

namespace ObjectBridge

/-- Whether a request is answered by the other side. -/
def Message.awaitsReply : Message → Bool
  | protect _ | release _ => false
  | _ => true

/-! ### One message each way -/

namespace Channel

theorem close_of_pending {c : Channel} (h : c.writer.pending = []) : c.close = c := by
  have hwriter : c.writer.discard = c.writer := by
    rw [Writer.discard, ← h]
  rw [close, hwriter]

/-- What is sent in full was pending or is the message, and the sink has accepted it. -/
theorem send_ok {m : Message} {c c' : Channel} (h : send m c = .ok () c') :
    m.encodeFault? = none ∧ c'.writer.pending = [] ∧
      c'.writer.sink.accepted = c.writer.sink.accepted ++ (c.writer.pending ++ m.encode) ∧
      c'.reader = c.reader ∧ c'.sent = m :: c.sent := by
  unfold send writing at h
  cases hm : Writer.message m c.writer with
  | error fault w =>
    simp only [hm] at h
    cases h
  | ok _ w =>
    obtain ⟨hfits, rfl⟩ := Writer.message_ok_iff.mp hm
    simp only [hm] at h
    cases hf : Writer.flush { c.writer with pending := c.writer.pending ++ m.encode } with
    | error fault w =>
      simp only [hf] at h
      cases h
    | ok _ w =>
      obtain ⟨hpending, haccepted⟩ := Writer.flush_ok hf
      simp only [hf] at h
      cases h
      exact ⟨hfits, hpending, haccepted, rfl, rfl⟩

/-- A failure to send that is not fatal has dropped what was pending and left the rest alone. -/
theorem send_error {m : Message} {fault : Fault} {c c' : Channel} (h : send m c = .error fault c') :
    c'.sent = c.sent ∧ (fault.isFatal = false → m.encodeFault? = some fault ∧ c' = c.close) := by
  unfold send writing at h
  cases hm : m.encodeFault? with
  | some reason =>
    obtain ⟨hmessage, hlocal⟩ := Writer.message_of_fault c.writer hm
    simp only [hmessage] at h
    cases h
    exact ⟨rfl, fun _ => ⟨rfl, rfl⟩⟩
  | none =>
    simp only [Writer.message_of_fits c.writer hm] at h
    cases hf : Writer.flush { c.writer with pending := c.writer.pending ++ m.encode } with
    | error reason w =>
      have hfatal := Writer.flush_fatal hf
      simp only [hf] at h
      cases h
      refine ⟨rfl, fun hlocal => ?_⟩
      rw [hfatal] at hlocal
      cases hlocal
    | ok _ w =>
      simp only [hf] at h
      cases h

theorem receive_ok {catalogue : Catalogue} {m : Message} {c c' : Channel}
    (h : receive catalogue c = .ok m c') :
    Reader.message catalogue c.reader = .ok m c'.reader ∧ c'.writer = c.writer ∧
      c'.sent = c.sent := by
  unfold receive reading at h
  cases hm : Reader.message catalogue c.reader with
  | error fault r =>
    simp only [hm] at h
    cases h
  | ok m r =>
    simp only [hm] at h
    cases h
    exact ⟨rfl, rfl, rfl⟩

theorem receive_error {catalogue : Catalogue} {fault : Fault} {c c' : Channel}
    (h : receive catalogue c = .error fault c') : fault.isFatal = true ∧ c'.sent = c.sent := by
  unfold receive reading at h
  cases hm : Reader.message catalogue c.reader with
  | error fault r =>
    have hfatal := (Reader.streamed_message catalogue).fatal hm
    simp only [hm] at h
    cases h
    exact ⟨hfatal, rfl⟩
  | ok m r =>
    simp only [hm] at h
    cases h

end Channel

namespace Session

/-! ### Steps of a session -/

variable {α : Type}

theorem isUp_iff {s : Session} : s.isUp = true ↔ s.standing = .up := by
  rw [isUp, decide_eq_true_iff]

theorem transact_ok {step : Channel.Action α} {s s' : Session} {a : α}
    (h : transact step s = .ok a s') :
    s.standing = .up ∧ ∃ channel, step s.channel = .ok a channel ∧ s' = { s with channel } := by
  unfold transact at h
  cases hstanding : s.standing with
  | broken cause =>
    simp only [hstanding] at h
    cases h
  | closed =>
    simp only [hstanding] at h
    cases h
  | up =>
    simp only [hstanding] at h
    cases hstep : step s.channel with
    | ok x channel =>
      simp only [hstep] at h
      cases h
      exact ⟨rfl, channel, rfl, rfl⟩
    | error fault channel =>
      simp only [hstep] at h
      split at h <;> cases h

theorem transact_of_down (step : Channel.Action α) {s : Session} (h : s.standing ≠ .up) :
    ∃ fault, transact step s = .error fault s := by
  unfold transact
  cases hstanding : s.standing with
  | up => exact absurd hstanding h
  | closed => exact ⟨.closed, rfl⟩
  | broken cause => exact ⟨.broken cause, rfl⟩

/-- When the channel fails, a fatal fault breaks the session and any other leaves it up. -/
theorem transact_error {step : Channel.Action α} {s s' : Session} {fault : Fault}
    (hup : s.standing = .up) (h : transact step s = .error fault s') :
    ∃ channel, step s.channel = .error fault channel ∧
      ((fault.isFatal = true ∧
          s' = { s with channel := channel.close, standing := .broken fault.message }) ∨
        fault.isFatal = false ∧ s' = { s with channel }) := by
  unfold transact at h
  simp only [hup] at h
  cases hstep : step s.channel with
  | ok x channel =>
    simp only [hstep] at h
    cases h
  | error reason channel =>
    simp only [hstep] at h
    split at h
    · rename_i hfatal
      cases h
      exact ⟨channel, rfl, .inl ⟨hfatal, rfl⟩⟩
    · rename_i hlocal
      cases h
      exact ⟨channel, rfl, .inr ⟨by simpa using hlocal, by rw [hup]⟩⟩

theorem post_of_down (m : Message) {s : Session} (h : s.standing ≠ .up) : after (post m s) = s := by
  obtain ⟨fault, hfault⟩ := transact_of_down (Channel.send m) h
  rw [post, hfault, after]

theorem exchange_of_down (m : Message) {s : Session} (h : s.standing ≠ .up) :
    after (exchange m s) = s := by
  obtain ⟨fault, hfault⟩ :=
    transact_of_down (do Channel.send m; Channel.receive s.registry.catalogue) h
  unfold exchange
  rw [hfault]
  rfl

theorem close_of_down {s : Session} (h : s.standing ≠ .up) : s.close = s := by
  unfold close
  cases hstanding : s.standing with
  | up => exact absurd hstanding h
  | closed | broken cause => rfl

theorem close_of_up {s : Session} (h : s.standing = .up) :
    s.close = { s with channel := s.channel.close, standing := .closed } := by
  simp only [close, h]

/-- What a request without a reply does on a session that is up: it is sent, or the session breaks, or
the request cannot be written and nothing happens but that pending bytes are dropped. -/
theorem post_cases (m : Message) {s : Session} (hup : s.standing = .up) :
    (∃ channel, Channel.send m s.channel = .ok () channel ∧
        after (post m s) = { s with channel }) ∨
      (∃ channel cause, channel.sent = s.channel.sent ∧
        after (post m s) = { s with channel, standing := .broken cause }) ∨
      (m.encodeFault? ≠ none ∧ after (post m s) = { s with channel := s.channel.close }) := by
  cases hpost : post m s with
  | ok _ s' =>
    obtain ⟨_, channel, hsend, rfl⟩ := transact_ok hpost
    exact .inl ⟨channel, hsend, rfl⟩
  | error fault s' =>
    obtain ⟨channel, hsend, ⟨_, rfl⟩ | ⟨hlocal, rfl⟩⟩ := transact_error hup hpost
    · obtain ⟨hsent, _⟩ := Channel.send_error hsend
      exact .inr (.inl ⟨channel.close, fault.message, hsent, rfl⟩)
    · obtain ⟨_, hfault⟩ := Channel.send_error hsend
      obtain ⟨hencode, rfl⟩ := hfault hlocal
      exact .inr (.inr ⟨by simp [hencode], rfl⟩)

theorem exchange_ok {m reply : Message} {s s' : Session} (h : exchange m s = .ok reply s') :
    s.standing = .up ∧ ∃ mid channel, Channel.send m s.channel = .ok () mid ∧
      Channel.receive s.registry.catalogue mid = .ok reply channel ∧
      s' = { s with channel, answers := (m, reply) :: s.answers } := by
  unfold exchange at h
  cases ht : transact (do Channel.send m; Channel.receive s.registry.catalogue) s with
  | error fault mid =>
    simp only [ht] at h
    cases h
  | ok reply mid =>
    simp only [ht] at h
    cases h
    obtain ⟨hup, channel, hchannel, rfl⟩ := transact_ok ht
    obtain ⟨_, mid, hsend, hreceive⟩ := bind_ok.mp hchannel
    exact ⟨hup, mid, channel, hsend, hreceive, rfl⟩

/-- What a request with a reply does on a session that is up: if it is sent, the session has the reply
or breaks; else it is as for a request without a reply. -/
theorem exchange_cases (m : Message) {s : Session} (hup : s.standing = .up) :
    (∃ mid channel reply, Channel.send m s.channel = .ok () mid ∧
        Channel.receive s.registry.catalogue mid = .ok reply channel ∧
        after (exchange m s) = { s with channel, answers := (m, reply) :: s.answers }) ∨
      (∃ channel cause, (channel.sent = s.channel.sent ∨ channel.sent = m :: s.channel.sent) ∧
        after (exchange m s) = { s with channel, standing := .broken cause }) ∨
      (m.encodeFault? ≠ none ∧ after (exchange m s) = { s with channel := s.channel.close }) := by
  cases hexchange : exchange m s with
  | ok reply s' =>
    obtain ⟨_, mid, channel, hsend, hreceive, rfl⟩ := exchange_ok hexchange
    exact .inl ⟨mid, channel, reply, hsend, hreceive, rfl⟩
  | error fault s' =>
    have htransact : transact (do Channel.send m; Channel.receive s.registry.catalogue) s =
        .error fault s' := by
      unfold exchange at hexchange
      split at hexchange
      · cases hexchange
      · rename_i ht
        cases hexchange
        exact ht
    obtain ⟨channel, hstep, hrest⟩ := transact_error hup htransact
    obtain hsend | ⟨_, mid, hsend, hreceive⟩ := bind_error.mp hstep
    · obtain ⟨hsent, hfault⟩ := Channel.send_error hsend
      obtain ⟨_, rfl⟩ | ⟨hlocal, rfl⟩ := hrest
      · exact .inr (.inl ⟨channel.close, fault.message, .inl hsent, rfl⟩)
      · obtain ⟨hencode, rfl⟩ := hfault hlocal
        exact .inr (.inr ⟨by simp [hencode], rfl⟩)
    · obtain ⟨hfatal, hsent⟩ := Channel.receive_error hreceive
      have hmid := (Channel.send_ok hsend).2.2.2.2
      obtain ⟨_, rfl⟩ | ⟨hlocal, _⟩ := hrest
      · exact .inr (.inl ⟨channel.close, fault.message, .inr (hsent.trans hmid), rfl⟩)
      · rw [hfatal] at hlocal
        cases hlocal

/-- All that happens to a session: requests with a reply and without, its end, and changes that do not
touch the channel. -/
inductive Step : Session → Session → Prop where
  | exchange (s : Session) (m : Message) (h : m.awaitsReply = true) : Step s (after (exchange m s))
  | post (s : Session) (m : Message) (h : m.awaitsReply = false) : Step s (after (post m s))
  | close (s : Session) : Step s s.close
  | tend (s s' : Session) (hchannel : s'.channel = s.channel) (hstanding : s'.standing = s.standing)
      (hanswers : s'.answers = s.answers) (hregistry : s'.registry = s.registry) : Step s s'

/-- A session that is not up never sends again, and is never up again. -/
theorem Step.of_down {s s' : Session} (hstep : Step s s') (h : s.standing ≠ .up) :
    s'.channel = s.channel ∧ s'.standing = s.standing := by
  cases hstep with
  | exchange m => rw [exchange_of_down m h]; exact ⟨rfl, rfl⟩
  | post m => rw [post_of_down m h]; exact ⟨rfl, rfl⟩
  | close => rw [close_of_down h]; exact ⟨rfl, rfl⟩
  | tend s' hchannel hstanding => exact ⟨hchannel, hstanding⟩

theorem channel_of_down {s s' : Session} (hsteps : Relation.ReflTransGen Step s s')
    (h : s.isUp = false) : s'.channel = s.channel ∧ s'.isUp = false := by
  induction hsteps with
  | refl => exact ⟨rfl, h⟩
  | tail _ hstep ih =>
    obtain ⟨hchannel, hdown⟩ := ih
    obtain ⟨hchannel', hstanding⟩ := hstep.of_down fun hup => by
      rw [isUp_iff.mpr hup] at hdown
      cases hdown
    rw [isUp, hstanding]
    exact ⟨hchannel'.trans hchannel, hdown⟩

theorem Step.registry_eq {s s' : Session} (hstep : Step s s') : s'.registry = s.registry := by
  cases hstep with
  | exchange m =>
    by_cases hup : s.standing = .up
    · obtain ⟨_, _, _, _, _, heq⟩ | ⟨_, _, _, heq⟩ | ⟨_, heq⟩ := exchange_cases m hup <;> rw [heq]
    · rw [exchange_of_down m hup]
  | post m =>
    by_cases hup : s.standing = .up
    · obtain ⟨_, _, heq⟩ | ⟨_, _, _, heq⟩ | ⟨_, heq⟩ := post_cases m hup <;> rw [heq]
    · rw [post_of_down m hup]
  | close =>
    by_cases hup : s.standing = .up
    · rw [close_of_up hup]
    · rw [close_of_down hup]
  | tend s' _ _ _ hregistry => exact hregistry

/-! ### Lockstep -/

/-- A session and the other side are in step. `input` are the bytes that the other side sends,
`delivered` those that the sink had accepted at the start. -/
structure Lockstep (input delivered : List UInt8) (s : Session) : Prop where
  pending : s.channel.writer.pending = []
  written : ∀ m ∈ s.channel.sent, m.encodeFault? = none
  accepted : s.channel.writer.sink.accepted =
    delivered ++ s.channel.sent.reverse.flatMap Message.encode
  /-- The requests that await a reply have been answered in the order in which they were sent. -/
  answered : s.answers.map Prod.fst = s.channel.sent.filter Message.awaitsReply
  /-- The replies are the messages at the front of the input, and the rest of it is still to be read. -/
  consumed : Reader.repeated (Reader.message s.registry.catalogue) s.answers.length
      (Reader.held input) =
    .ok (s.answers.reverse.map Prod.snd) (Reader.held s.channel.reader.stream)

def KeepsStep (input delivered : List UInt8) (s : Session) : Prop :=
  s.isUp = true → s.Lockstep input delivered

variable {input delivered : List UInt8} {s s' : Session}

theorem Lockstep.send {m : Message} {channel : Channel} (h : s.Lockstep input delivered)
    (hsend : Channel.send m s.channel = .ok () channel) :
    channel.writer.pending = [] ∧ (∀ m ∈ channel.sent, m.encodeFault? = none) ∧
      channel.writer.sink.accepted = delivered ++ channel.sent.reverse.flatMap Message.encode ∧
      channel.reader = s.channel.reader ∧ channel.sent = m :: s.channel.sent := by
  obtain ⟨hfits, hpending, haccepted, hreader, hsent⟩ := Channel.send_ok hsend
  refine ⟨hpending, ?_, ?_, hreader, hsent⟩
  · rw [hsent, List.forall_mem_cons]
    exact ⟨hfits, h.written⟩
  · rw [haccepted, h.pending, h.accepted, hsent]
    simp only [List.nil_append, List.reverse_cons, List.flatMap_append, List.flatMap_singleton,
      List.append_assoc]

theorem Lockstep.exchange {m reply : Message} {mid channel : Channel}
    (h : s.Lockstep input delivered) (hm : m.awaitsReply = true)
    (hsend : Channel.send m s.channel = .ok () mid)
    (hreceive : Channel.receive s.registry.catalogue mid = .ok reply channel) :
    Lockstep input delivered { s with channel, answers := (m, reply) :: s.answers } := by
  obtain ⟨hpending, hwritten, haccepted, hreader, hsent⟩ := h.send hsend
  obtain ⟨hread, hwriter, hsent'⟩ := Channel.receive_ok hreceive
  rw [hreader] at hread
  refine ⟨?_, ?_, ?_, ?_, ?_⟩
  · rw [hwriter, hpending]
  · rw [hsent']
    exact hwritten
  · rw [hwriter, hsent', haccepted]
  · rw [hsent', hsent, List.filter_cons_of_pos hm, List.map_cons, h.answered]
  · rw [List.length_cons, List.reverse_cons, List.map_append]
    exact Reader.repeated_succ h.consumed ((Reader.streamed_message _).ok hread)

theorem Lockstep.post {m : Message} {channel : Channel} (h : s.Lockstep input delivered)
    (hm : m.awaitsReply = false) (hsend : Channel.send m s.channel = .ok () channel) :
    Lockstep input delivered { s with channel } := by
  obtain ⟨hpending, hwritten, haccepted, hreader, hsent⟩ := h.send hsend
  refine ⟨hpending, hwritten, haccepted, ?_, ?_⟩
  · rw [hsent, List.filter_cons_of_neg (by simp [hm]), h.answered]
  · rw [hreader]
    exact h.consumed

theorem Lockstep.dropped (h : s.Lockstep input delivered) :
    Lockstep input delivered { s with channel := s.channel.close } := by
  rw [Channel.close_of_pending h.pending]
  exact h

theorem Step.keepsStep (hstep : Step s s') (h : s.KeepsStep input delivered) :
    s'.KeepsStep input delivered := by
  by_cases hs : s.standing = .up
  · have hlock := h (isUp_iff.mpr hs)
    intro hup
    -- A step that breaks the session leaves nothing to show, as the session is not up afterwards.
    cases hstep with
    | exchange m hm =>
      obtain ⟨mid, channel, reply, hsend, hreceive, heq⟩ | ⟨channel, cause, _, heq⟩ | ⟨_, heq⟩ :=
        exchange_cases m hs
      · rw [heq]
        exact hlock.exchange hm hsend hreceive
      · rw [heq] at hup
        cases isUp_iff.mp hup
      · rw [heq]
        exact hlock.dropped
    | post m hm =>
      obtain ⟨channel, hsend, heq⟩ | ⟨channel, cause, _, heq⟩ | ⟨_, heq⟩ := post_cases m hs
      · rw [heq]
        exact hlock.post hm hsend
      · rw [heq] at hup
        cases isUp_iff.mp hup
      · rw [heq]
        exact hlock.dropped
    | close =>
      rw [close_of_up hs] at hup
      cases isUp_iff.mp hup
    | tend s' hchannel hstanding hanswers hregistry =>
      obtain ⟨hpending, hwritten, haccepted, hanswered, hconsumed⟩ := hlock
      rw [← hchannel] at hpending hwritten haccepted hanswered hconsumed
      rw [← hanswers] at hanswered hconsumed
      rw [← hregistry] at hconsumed
      exact ⟨hpending, hwritten, haccepted, hanswered, hconsumed⟩
  · intro hup
    rw [isUp_iff, (hstep.of_down hs).2] at hup
    exact absurd hup hs

theorem keepsStep_of_steps (hsteps : Relation.ReflTransGen Step s s')
    (h : s.KeepsStep input delivered) : s'.KeepsStep input delivered := by
  induction hsteps with
  | refl => exact h
  | tail _ hstep ih => exact hstep.keepsStep ih

theorem registry_of_steps (hsteps : Relation.ReflTransGen Step s s') : s'.registry = s.registry := by
  induction hsteps with
  | refl => rfl
  | tail _ hstep ih => exact hstep.registry_eq.trans ih

/-- A session at its start, on a channel on which nothing has happened. -/
structure Fresh (s : Session) : Prop where
  channel : ∃ source sink, s.channel = .between source sink
  standing : s.standing = .up
  table : s.table = []
  answers : s.answers = []

theorem Fresh.lockstep (h : s.Fresh) :
    s.Lockstep s.channel.reader.source.rest s.channel.writer.sink.accepted := by
  obtain ⟨source, sink, hchannel⟩ := h.channel
  refine ⟨?_, ?_, ?_, ?_, ?_⟩
  · rw [hchannel]
    rfl
  · rw [hchannel]
    simp [Channel.between]
  · rw [hchannel]
    simp [Channel.between, Writer.ofSink]
  · rw [hchannel, h.answers]
    rfl
  · rw [hchannel, h.answers]
    rfl

end Session

end ObjectBridge
