import ObjectBridge.Probe.Run
import ObjectBridge.Proofs.Client.Calling
import ObjectBridge.Proofs.Message.Counts
import ObjectBridge.Proofs.Probe.Words
import ObjectBridge.Proofs.Registry.Normal

/-!
# Calls with numbers

The probe calls a static method with the numbers on its command line, each in the narrower of the two widths that
hold it, and sends this one request, behind which only objects of the reply are released. This is so if two dashes
stand in front of the numbers. Without these a negative number is taken for an option: the words are refused, though
the probe can read each of them, and nothing is connected. Main statement: `run_call_numbers`.
-/

namespace ObjectBridge

/-! ### A server that takes requests -/

/-- The sink takes whatever it is given. -/
def Sink.Open (s : Sink) : Prop := ∀ bytes, (s.write bytes).1 = none ∧ (s.write bytes).2.flush.1 = none

theorem Sink.open_empty : Sink.Open {} := by
  intro bytes
  simp only [Sink.write, Sink.deliverPieces, Sink.deliver, Sink.flush]
  split <;> exact ⟨rfl, trivial⟩

theorem Channel.send_of_open {m : Message} {sink : Sink} (hfits : m.Encodable) (source : Source) (h : sink.Open) :
    ∃ channel, Channel.send m (.between source sink) = .ok () channel := by
  have hmessage := Writer.message_of_fits (.ofSink sink) (Message.encodeFault?_eq_none_iff.mpr hfits)
  obtain ⟨hwrite, hflush⟩ := h ([] ++ m.encode)
  obtain ⟨w, hflushed⟩ : ∃ w, Writer.flush { sink, pending := [] ++ m.encode } = .ok () w := by
    simp only [Writer.flush, hwrite, hflush]
    exact ⟨_, rfl⟩
  have hwriter : (between source sink).writer = .ofSink sink := rfl
  unfold send writing
  simp only [hwriter, hmessage]
  simp only [Writer.ofSink, hflushed]
  exact ⟨_, rfl⟩

/-- A call with integers is written if its names and the number of its arguments fit. -/
theorem encodable_callStaticMethod {className method : String} {ns : List Int64}
    (hclass : className.utf8ByteSize ≤ 2147483647) (hmethod : method.utf8ByteSize ≤ 2147483647)
    (hlength : ns.length ≤ 65535) : (Message.callStaticMethod className method (ns.map .ofInt)).Encodable := by
  have hnone (n : Int64) : (Message.ofInt n).counts = [] := by
    unfold Message.ofInt
    split <;> rfl
  have hargs : (ns.map Message.ofInt).flatMap Message.counts = [] := by
    rw [List.flatMap_eq_nil_iff]
    intro m hm
    obtain ⟨n, _, rfl⟩ := List.mem_map.mp hm
    exact hnone n
  rw [Message.Encodable, Message.counts_of_inner (ns.map Message.ofInt) rfl, hargs, List.append_nil,
    Message.ownCounts, List.length_map]
  simpa [Count.ofText, Count.ofLength, Count.ofArguments] using ⟨hclass, hmethod, hlength⟩

namespace Probe

variable {className method word : String} {ns : List Int64} {words : List String}

/-! ### Numbers -/

theorem literal_of_spells {n : Int64} (h : Decimal.SpellsInt word.toList n.toInt) : literal word = .int n := by
  have hread := Decimal.int64?_eq_some.mpr h
  have hnot (name : String) (hname : Decimal.int64? name.toList = none) : word ≠ name := by
    rintro rfl
    rw [hname] at hread
    cases hread
  have hnull := hnot "null" (by decide +kernel)
  have htrue := hnot "true" (by decide +kernel)
  have hfalse := hnot "false" (by decide +kernel)
  have hmark (rest : List Char) : word.toList ≠ 's' :: ':' :: rest := by
    intro hword
    rw [hword, Decimal.spellsInt_of_ne (by simp)] at h
    obtain ⟨_, hspells, _⟩ := h
    rw [Decimal.spellsNat_of_ne (by simp)] at hspells
    exact Decimal.Numeral.ne_sign rfl hspells
  unfold literal
  split
  · rename_i rest hword
    exact absurd hword (hmark rest)
  · rw [if_neg hnull, if_neg htrue, if_neg hfalse, hread]

theorem literals_of_spelled (h : Spelled ns words) : words.map literal = ns.map .int := by
  induction h with
  | nil => rfl
  | cons hspells _ ih => rw [List.map_cons, List.map_cons, literal_of_spells hspells, ih]

theorem convertAll_ints (released : Proxy → Bool) (ns : List Int64) :
    Registry.standard.convertAll released (ns.map .int) = .ok (ns.map .ofInt) := by
  induction ns with
  | nil => rfl
  | cons n ns ih => exact Registry.convertAll_cons_ok.mpr ⟨_, _, Registry.convert_int n, ih, rfl⟩

/-! ### A run -/

/-- The session of a run with these options, or why there is none. -/
def connection (o : Options) (around : Surroundings) : Except Failure Session :=
  match configure o around.lookup with
  | .error f => .error f
  | .ok config =>
    let launched : Except LaunchError Unit := match config.server with
      | some spec => around.launch spec config.serviceUrl
      | none => .ok ()
    (Session.connect config .standard (around.peer config) (around.attempt config) launched).result.mapError
      (⟨connecting config, ·⟩)

variable {o : Options} {command : Command} {around : Surroundings} {session session' : Session}

theorem eq_ok_of_mapError {ε ε' α : Type} {f : ε → ε'} {result : Except ε α} {a : α}
    (h : result.mapError f = .ok a) : result = .ok a := by
  cases result with
  | error fault => cases h
  | ok b =>
    cases h
    rfl

theorem runCommand_of_connection (h : connection o around = .ok session) :
    runCommand o command around = ((converse command session).1, some (converse command session).2) := by
  unfold connection at h
  unfold runCommand
  cases hconfig : configure o around.lookup with
  | error f =>
    rw [hconfig] at h
    cases h
  | ok config =>
    rw [hconfig] at h
    cases hserver : config.server <;>
    · simp only [hserver] at h ⊢
      rw [eq_ok_of_mapError h]

theorem connect_ok {config : Config} {registry : Registry} {peer : Option String}
    {attempt : Nat → Except IoError Channel} {launch : Except LaunchError Unit}
    (h : (Session.connect config registry peer attempt launch).result = .ok session) :
    session.standing = .up ∧ session.registry = registry ∧ session.table = [] ∧ session.answers = [] := by
  unfold Session.connect at h
  dsimp only at h
  cases hdialled : (dial config.retry config.address attempt
      (config.server.map fun _ => launch.mapError Fault.launch)).result with
  | error fault =>
    rw [hdialled] at h
    cases h
  | ok channel =>
    rw [hdialled] at h
    cases h
    exact ⟨rfl, rfl, rfl, rfl⟩

theorem connection_ok (h : connection o around = .ok session) :
    session.standing = .up ∧ session.registry = .standard ∧ session.table = [] ∧ session.answers = [] := by
  unfold connection at h
  split at h
  · cases h
  · exact connect_ok (eq_ok_of_mapError h)

/-- A session is left as its command has left it, or it is closed. -/
theorem converse_session
    (h : (after (perform session.peer command { sessions := #[session] })).sessions[0]? = some session') :
    (converse command session).2 = session' ∨ (converse command session).2 = session'.close := by
  unfold converse
  cases hstep : perform session.peer command { sessions := #[session] } with
  | ok document c =>
    rw [hstep] at h
    exact .inr (congrArg (fun found => (Option.getD found session).close) h)
  | error fault c =>
    rw [hstep] at h
    exact .inl (congrArg (fun found => Option.getD found session) h)

theorem asked_documented {step : Client.Action Value} {c : Client} {requests : List Message}
    (h : Client.Asked 0 requests c (after (step c))) : Client.Asked 0 requests c (after (documented step c)) :=
  Client.asked_bind h fun v _ => Client.asked_bind (Client.asked_discardAll [v] _) fun _ mid => Client.asked_refl mid

theorem changes_documented {may : Mark → Prop} {step : Client.Action Value} {c : Client}
    (h : Client.Changes may c (after (step c))) : Client.Changes may c (after (documented step c)) :=
  Client.changes_bind h fun v _ _ => Client.changes_bind (Client.changes_discard v) fun _ _ _ => .refl

/-- A session that has sent a call, and behind it releases only. -/
def Called (m : Message) (delivered : List UInt8) (session : Session) : Prop :=
  ∃ (ids : List Int32) (cut : Option Message),
    session.requests = m :: ids.map .release ∧ session.OnWire delivered cut

theorem called_close {m : Message} {delivered : List UInt8} (h : Called m delivered session) :
    Called m delivered session.close := by
  obtain ⟨ids, cut, hrequests, hwire⟩ := h
  obtain ⟨cut', hwire', _⟩ := Session.Deed.close.record hwire
  have hsame : session.close.requests = session.requests := congrArg List.reverse session.close_frame.2
  exact ⟨ids, cut', hsame.trans hrequests, hwire'⟩

/-- The call of a command is sent when it can be, and the session is left with it. -/
theorem called_perform {c : Client} {args : List Message} {channel : Channel} (peer : Option String)
    (hs : c.sessions[0]? = some session) (hfresh : session.Fresh)
    (hargs : (c.registry 0).convertAll c.isReleased (words.map literal) = .ok args)
    (hsend : Channel.send (.callStaticMethod className method args) session.channel = .ok () channel) :
    ∃ last, (after (perform peer (.call className method words) c)).sessions[0]? = some last ∧
      Called (.callStaticMethod className method args) session.channel.writer.sink.accepted last := by
  have hchanges : Client.Changes (fun _ => False) c (after (perform peer (.call className method words) c)) :=
    changes_documented (Client.changes_callStatic className method _)
  have hasked : Client.Asked 0 [.callStaticMethod className method args] c
      (after (perform peer (.call className method words) c)) := by
    refine asked_documented ?_
    rw [Client.callStatic_of_ok hargs]
    exact Client.sent_request hs hfresh.standing hsend
  obtain ⟨last, cut, hlast, hwire⟩ := hchanges.onWire hs hfresh.onWire
  obtain ⟨ps, hsent⟩ := hasked
  have hempty : session.channel.sent = [] := by
    obtain ⟨source, sink, hchannel⟩ := hfresh.channel
    rw [hchannel]
    rfl
  rw [Client.sent_of_some hlast, Client.sent_of_some hs, hempty, List.append_nil] at hsent
  refine ⟨last, hlast, ps.map Proxy.id, cut, ?_, hwire⟩
  rw [Session.requests, hsent, Client.releasing, List.reverse_append, List.reverse_reverse, List.map_map]
  rfl

/-- What comes of a call with numbers behind some options, in some surroundings. -/
structure NumbersCalled (given : List String) (o : Options) (className method : String) (ns : List Int64)
    (words : List String) (around : Surroundings) : Prop where
  /-- A number that starts with a dash is refused, and nothing is connected. -/
  refused : (∃ word ∈ words, Dashed word) →
    run (given ++ "call" :: className :: method :: words) around = (.misused, none)
  /-- Without such a number it makes no difference whether two dashes stand in front of them. -/
  direct : (∀ word ∈ words, ¬ Dashed word) →
    run (given ++ "call" :: className :: method :: words) around =
      run (given ++ "call" :: className :: method :: "--" :: words) around
  /-- Behind two dashes, one request is made with all the numbers, and then only objects are released. -/
  sent : ∀ session source sink, connection o around = .ok session → session.channel = .between source sink →
    sink.Open → className.utf8ByteSize ≤ 2147483647 → method.utf8ByteSize ≤ 2147483647 →
    ∃ (session' : Session) (ids : List Int32),
      (run (given ++ "call" :: className :: method :: "--" :: words) around).2 = some session' ∧
      session'.requests = .callStaticMethod className method (ns.map .ofInt) :: ids.map .release ∧
      sink.accepted ++ session'.requests.flatMap Message.encode <+: session'.channel.writer.sink.accepted

/-- A call with numbers sends them all if none of them is negative or two dashes stand in front of them, and is
refused otherwise. -/
theorem run_call_numbers {given : List String} (hgiven : Gives given o) (hclass : ¬ Dashed className)
    (hmethod : ¬ Dashed method) (hwords : Spelled ns words) (hlength : ns.length ≤ 65535) (around : Surroundings) :
    NumbersCalled given o className method ns words around where
  refused hnegative := by rw [run, ofWords_call_negative hgiven hclass hmethod hwords hnegative]
  direct hplain := by
    rw [run, run, ofWords_call_plain hgiven hclass hmethod hplain, ofWords_call_escaped hgiven hclass hmethod]
  sent session source sink hsession hchannel hopen hclassSize hmethodSize := by
    obtain ⟨hup, hregistry, htable, hanswers⟩ := connection_ok hsession
    have hs : (Client.mk #[session] #[]).sessions[0]? = some session := rfl
    have hregistered : (Client.mk #[session] #[]).registry 0 = .standard := hregistry
    have hargs : ((Client.mk #[session] #[]).registry 0).convertAll (Client.mk #[session] #[]).isReleased
        (words.map literal) = .ok (ns.map .ofInt) := by
      rw [hregistered, literals_of_spelled hwords, convertAll_ints]
    obtain ⟨channel, hsend⟩ :=
      Channel.send_of_open (encodable_callStaticMethod hclassSize hmethodSize hlength) source hopen
    rw [← hchannel] at hsend
    obtain ⟨last, hlast, hcalled⟩ :=
      called_perform session.peer hs ⟨⟨source, sink, hchannel⟩, hup, htable, hanswers⟩ hargs hsend
    have hleft : Called (.callStaticMethod className method (ns.map .ofInt)) sink.accepted
        (converse (.call className method words) session).2 := by
      rw [hchannel] at hcalled
      obtain heq | heq := converse_session hlast
      · rw [heq]
        exact hcalled
      · rw [heq]
        exact called_close hcalled
    obtain ⟨ids, cut, hrequests, hwire⟩ := hleft
    refine ⟨_, ids, ?_, hrequests, hwire.least⟩
    rw [run, ofWords_call_escaped hgiven hclass hmethod]
    exact congrArg Prod.snd (runCommand_of_connection hsession)

/-- A server that is there, and sends this reply. -/
def answering (reply : Message) : Surroundings where
  lookup _ := none
  peer _ := none
  attempt _ _ := .ok (.between { rest := reply.encode } {})
  launch _ _ := .ok ()
  layout := Page.inColumns

theorem connection_answering (reply : Message) :
    ∃ session, connection {} (answering reply) = .ok session ∧
      session.channel = .between { rest := reply.encode } {} :=
  ⟨_, rfl, rfl⟩

/-- A positive and a negative number, behind two dashes and without them. -/
theorem run_call_numbers_mixed : ∃ (session : Session) (ids : List Int32),
    (run ["call", "M", "Max", "--", "3", "-12"] (answering (.int32 3))).2 = some session ∧
      session.requests = .callStaticMethod "M" "Max" [.int32 3, .int32 (-12)] :: ids.map .release ∧
      run ["call", "M", "Max", "3", "-12"] (answering (.int32 3)) = (.misused, none) := by
  have hwords : Spelled [3, -12] ["3", "-12"] :=
    .cons (Decimal.int64?_eq_some.mp (by decide +kernel))
      (.cons (Decimal.int64?_eq_some.mp (by decide +kernel)) .nil)
  have hcalled : NumbersCalled [] {} "M" "Max" [3, -12] ["3", "-12"] (answering (.int32 3)) :=
    run_call_numbers gives_nothing (by decide) (by decide) hwords (by decide) _
  obtain ⟨session, hsession, hchannel⟩ := connection_answering (.int32 3)
  obtain ⟨session', ids, hrun, hrequests, _⟩ :=
    hcalled.sent session _ _ hsession hchannel Sink.open_empty (by decide) (by decide)
  exact ⟨session', ids, hrun, hrequests, hcalled.refused (by decide)⟩

/-- A negative number that the probe can read is refused as a word of its command line, with a server at hand. -/
theorem run_call_refused : Decimal.SpellsInt "-12".toList (-12 : Int64).toInt ∧ literal "-12" = .int (-12) ∧
    (∃ session, connection {} (answering (.int32 12)) = .ok session) ∧
    run ["call", "System.Math", "Abs", "-12"] (answering (.int32 12)) = (.misused, none) := by
  have hread : Decimal.int64? "-12".toList = some (-12) := by decide +kernel
  have hspells := Decimal.int64?_eq_some.mp hread
  exact ⟨hspells, literal_of_spells hspells, ⟨_, rfl⟩, rfl⟩

end Probe

end ObjectBridge
