import ObjectBridge.Proofs.Client.Moves

/-!
# Requests on the wire

What the sink of a session has accepted are the requests that the session has sent in full, one after the
other, and after them a front of one more at most: the request that was cut off when the channel broke
(`Session.OnWire`). What a session does on its channel adds one request to this record or none
(`Session.Deed.record`).
-/

namespace ObjectBridge

/-! ### One request -/

namespace Channel

variable {α : Type} {m : Message} {c c' : Channel}

/-- A request was sent in full. -/
structure Whole (m : Message) (c c' : Channel) : Prop where
  sent : c'.sent = m :: c.sent
  accepted : c'.writer.sink.accepted = c.writer.sink.accepted ++ m.encode

/-- A front of a request was accepted, and then the channel failed. -/
structure Part (m : Message) (c c' : Channel) : Prop where
  sent : c'.sent = c.sent
  least : c.writer.sink.accepted <+: c'.writer.sink.accepted
  most : c'.writer.sink.accepted <+: c.writer.sink.accepted ++ m.encode

/-- What a step that sends a request makes of the channel. A fault that is not fatal leaves nothing of the
request. -/
def Puts (m : Message) (c : Channel) : EStateM.Result Fault Channel α → Prop
  | .ok _ c' => Whole m c c' ∧ c'.writer.pending = []
  | .error fault c' =>
    fault.isFatal = true ∧ (Whole m c c' ∨ Part m c c') ∨ fault.isFatal = false ∧ c' = c.close

theorem puts_send (m : Message) (hpending : c.writer.pending = []) : Puts m c (send m c) := by
  cases h : send m c with
  | ok _ c' =>
    obtain ⟨_, hpending', haccepted, _, hsent⟩ := send_ok h
    rw [hpending, List.nil_append] at haccepted
    exact ⟨⟨hsent, haccepted⟩, hpending'⟩
  | error fault c' =>
    obtain ⟨hsent, hlocal⟩ := send_error h
    cases hfatal : fault.isFatal with
    | false => exact .inr ⟨hfatal, (hlocal hfatal).2⟩
    | true =>
      refine .inl ⟨hfatal, .inr ?_⟩
      unfold send writing at h
      cases hm : Writer.message m c.writer with
      | error reason w =>
        -- A message that cannot be written does not fail with a fatal fault.
        have hwritten : m.encodeFault? ≠ none := fun hnone => by
          rw [Writer.message_of_fits c.writer hnone] at hm
          cases hm
        obtain ⟨reason', hreason⟩ := Option.ne_none_iff_exists'.mp hwritten
        obtain ⟨hmessage, hnot⟩ := Writer.message_of_fault c.writer hreason
        rw [hmessage] at hm
        simp only [hmessage] at h
        cases h
        rw [hnot] at hfatal
        cases hfatal
      | ok _ w =>
        obtain ⟨_, rfl⟩ := Writer.message_ok_iff.mp hm
        obtain ⟨hleast, hmost⟩ :=
          Writer.accepted_flush { c.writer with pending := c.writer.pending ++ m.encode }
        simp only [hm] at h
        cases hf : Writer.flush { c.writer with pending := c.writer.pending ++ m.encode } with
        | ok _ w =>
          simp only [hf] at h
          cases h
        | error reason w =>
          rw [hf] at hleast hmost
          simp only [hf] at h
          cases h
          rw [hpending, List.nil_append] at hmost
          exact ⟨rfl, hleast, hmost⟩

theorem puts_exchange (m : Message) (catalogue : Catalogue) (hpending : c.writer.pending = []) :
    Puts m c ((do send m; receive catalogue) c) := by
  have hsend := puts_send m hpending
  cases h : send m c with
  | error fault c' =>
    rw [h] at hsend
    rw [bind_of_error _ h]
    exact hsend
  | ok _ mid =>
    rw [h] at hsend
    rw [bind_of_ok _ h]
    obtain ⟨⟨hsent, haccepted⟩, hpending'⟩ := hsend
    cases hreceive : receive catalogue mid with
    | ok reply c' =>
      obtain ⟨_, hwriter, hsent'⟩ := receive_ok hreceive
      exact ⟨⟨hsent'.trans hsent, by rw [hwriter, haccepted]⟩, by rw [hwriter, hpending']⟩
    | error fault c' =>
      -- The request was sent in full, though no reply came of it.
      obtain ⟨hfatal, hsent'⟩ := receive_error hreceive
      have hwriter : c'.writer = mid.writer := by
        unfold receive reading at hreceive
        split at hreceive
        · cases hreceive
        · cases hreceive
          rfl
      exact .inl ⟨hfatal, .inl ⟨hsent'.trans hsent, by rw [hwriter, haccepted]⟩⟩

end Channel

/-! ### The record of a session -/

namespace Session

variable {α : Type} {delivered : List UInt8} {cut cut' : Option Message} {s s' : Session} {m : Message}

/-- The requests sent in full, the earliest first. -/
def requests (s : Session) : List Message := s.channel.sent.reverse

/-- What the sink has accepted, beyond the bytes `delivered` before, are the requests that were sent and a
front of the one that was cut off. -/
structure OnWire (delivered : List UInt8) (cut : Option Message) (s : Session) : Prop where
  whole : s.isUp = true → cut = none ∧ s.channel.writer.pending = []
  least : delivered ++ s.requests.flatMap Message.encode <+: s.channel.writer.sink.accepted
  most : s.channel.writer.sink.accepted <+:
    delivered ++ (s.requests ++ cut.toList).flatMap Message.encode

/-- What is recorded of a request that a session may make: nothing, all of it, or that it was cut off. -/
inductive Records (request : Option Message) (s : Session) (cut : Option Message) (s' : Session) :
    Option Message → Prop where
  | nothing (hsent : s'.requests = s.requests) : Records request s cut s' cut
  | whole (m : Message) (hm : request = some m) (hcut : cut = none)
      (hsent : s'.requests = s.requests ++ [m]) : Records request s cut s' none
  | part (m : Message) (hm : request = some m) (hcut : cut = none) (hsent : s'.requests = s.requests)
      (hdown : s'.isUp = false) : Records request s cut s' (some m)

theorem OnWire.congr (h : s.OnWire delivered cut) (hchannel : s'.channel = s.channel)
    (hstanding : s'.standing = s.standing) : s'.OnWire delivered cut := by
  obtain ⟨hwhole, hleast, hmost⟩ := h
  refine ⟨fun hup => ?_, ?_, ?_⟩
  · rw [isUp, hstanding] at hup
    rw [hchannel]
    exact hwhole hup
  · rw [requests, hchannel]
    exact hleast
  · rw [requests, hchannel]
    exact hmost

theorem onWire_of_accepted (hpending : s.isUp = true → s.channel.writer.pending = [])
    (haccepted : s.channel.writer.sink.accepted = delivered ++ s.requests.flatMap Message.encode) :
    s.OnWire delivered none := by
  refine ⟨fun hup => ⟨rfl, hpending hup⟩, ⟨[], ?_⟩, ⟨[], ?_⟩⟩
  · rw [List.append_nil, haccepted]
  · rw [List.append_nil, haccepted, Option.toList_none, List.append_nil]

theorem OnWire.accepted_of_up (h : s.OnWire delivered cut) (hup : s.isUp = true) :
    s.channel.writer.sink.accepted = delivered ++ s.requests.flatMap Message.encode := by
  have hmost := h.most
  rw [(h.whole hup).1, Option.toList_none, List.append_nil] at hmost
  exact hmost.eq_of_length_le h.least.length_le

/-- A step of the channel that sends a request adds it to the record, or leaves the record as it is. -/
theorem OnWire.transact {step : Channel.Action α} (h : s.OnWire delivered cut)
    (hputs : s.channel.writer.pending = [] → Channel.Puts m s.channel (step s.channel)) :
    ∃ cut', (after (transact step s)).OnWire delivered cut' ∧
      Records (some m) s cut (after (transact step s)) cut' := by
  by_cases hup : s.standing = .up
  · obtain ⟨rfl, hpending⟩ := h.whole (isUp_iff.mpr hup)
    have haccepted := h.accepted_of_up (isUp_iff.mpr hup)
    have hsend := hputs hpending
    have hwhole {channel : Channel} (hm : Channel.Whole m s.channel channel) :
        channel.sent.reverse = s.requests ++ [m] ∧ channel.writer.sink.accepted =
          delivered ++ (s.requests ++ [m]).flatMap Message.encode := by
      rw [hm.sent, hm.accepted, haccepted, List.reverse_cons, List.flatMap_append,
        List.flatMap_singleton, List.append_assoc]
      exact ⟨rfl, rfl⟩
    cases ht : Session.transact step s with
    | ok a s' =>
      obtain ⟨_, channel, hstep, rfl⟩ := transact_ok ht
      rw [hstep] at hsend
      obtain ⟨hsent, haccepted'⟩ := hwhole hsend.1
      rw [← hsent] at haccepted'
      exact ⟨none, onWire_of_accepted (fun _ => hsend.2) haccepted', .whole m rfl rfl hsent⟩
    | error fault s' =>
      obtain ⟨channel, hstep, ⟨hfatal, rfl⟩ | ⟨hlocal, rfl⟩⟩ := transact_error hup ht
      · rw [hstep] at hsend
        obtain ⟨_, hm | hm⟩ | ⟨hnot, _⟩ := hsend
        · obtain ⟨hsent, haccepted'⟩ := hwhole hm
          rw [← hsent] at haccepted'
          refine ⟨none, onWire_of_accepted (fun hup' => ?_) haccepted', .whole m rfl rfl hsent⟩
          cases isUp_iff.mp hup'
        · have hsent : channel.sent.reverse = s.requests := congrArg List.reverse hm.sent
          refine ⟨some m, ⟨fun hup' => ?_, ?_, ?_⟩, .part m rfl rfl hsent rfl⟩
          · cases isUp_iff.mp hup'
          · have hleast := hm.least
            rw [haccepted, ← hsent] at hleast
            exact hleast
          · have hmost := hm.most
            rw [haccepted, ← hsent, List.append_assoc] at hmost
            change channel.writer.sink.accepted <+:
              delivered ++ (channel.sent.reverse ++ [m]).flatMap Message.encode
            rw [List.flatMap_append, List.flatMap_singleton]
            exact hmost
        · rw [hnot] at hfatal
          cases hfatal
      · rw [hstep] at hsend
        obtain ⟨hfatal, _⟩ | ⟨_, rfl⟩ := hsend
        · rw [hlocal] at hfatal
          cases hfatal
        · refine ⟨none, ?_, .nothing rfl⟩
          rw [Channel.close_of_pending hpending]
          exact h
  · obtain ⟨fault, hfault⟩ := transact_of_down step hup
    rw [hfault]
    exact ⟨cut, h, .nothing rfl⟩

theorem channel_exchange (m : Message) (s : Session) :
    (after (exchange m s)).channel =
        (after (transact (do Channel.send m; Channel.receive s.registry.catalogue) s)).channel ∧
      (after (exchange m s)).standing =
        (after (transact (do Channel.send m; Channel.receive s.registry.catalogue) s)).standing := by
  unfold exchange
  split <;> rename_i h <;> rw [h] <;> exact ⟨rfl, rfl⟩

/-- What a session does on its channel adds its request to the record, or nothing. -/
theorem Deed.record (d : Deed) (h : s.OnWire delivered cut) :
    ∃ cut', (d.run s).OnWire delivered cut' ∧ Records d.request? s cut (d.run s) cut' := by
  cases d with
  | exchange m =>
    have hputs : s.channel.writer.pending = [] → Channel.Puts m s.channel
        ((do Channel.send m; Channel.receive s.registry.catalogue) s.channel) :=
      Channel.puts_exchange m _
    obtain ⟨cut', hwire, hrecords⟩ := h.transact hputs
    obtain ⟨hchannel, hstanding⟩ := channel_exchange m s
    refine ⟨cut', hwire.congr hchannel hstanding, ?_⟩
    have hrequests : ((Deed.exchange m).run s).requests = (after (Session.transact
        (do Channel.send m; Channel.receive s.registry.catalogue) s)).requests := by
      rw [requests, Deed.run, hchannel, requests]
    cases hrecords with
    | nothing hsent => exact .nothing (hrequests.trans hsent)
    | whole m' hm hcut hsent => exact .whole m' hm hcut (hrequests.trans hsent)
    | part m' hm hcut hsent hdown =>
      refine .part m' hm hcut (hrequests.trans hsent) ?_
      rw [isUp] at hdown ⊢
      rw [Deed.run, hstanding]
      exact hdown
  | post m => exact h.transact (Channel.puts_send m)
  | close =>
    refine ⟨cut, ?_, .nothing (congrArg List.reverse s.close_frame.2)⟩
    by_cases hup : s.standing = .up
    · rw [Deed.run, close_of_up hup]
      refine ⟨fun hup' => ?_, h.least, h.most⟩
      cases isUp_iff.mp hup'
    · rw [Deed.run, close_of_down hup]
      exact h

theorem Fresh.onWire (h : s.Fresh) : s.OnWire s.channel.writer.sink.accepted none := by
  obtain ⟨source, sink, hchannel⟩ := h.channel
  apply onWire_of_accepted
  · intro _
    rw [hchannel]
    rfl
  · simp [requests, hchannel, Channel.between]

end Session

end ObjectBridge
