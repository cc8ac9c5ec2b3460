import ObjectBridge.Proofs.Client.Moves

/-!
# Fetched templates

A session learns the template of a class from the reply to a request for it, and asks for no class that it
has the template of. `Session.Change` is all that happens to a session with regard to that, and
`Session.Effect` what it adds to the requests sent, to the answers and to the templates. So the templates of
a session are those that its answers brought, and the request that brought one is the last of its kind
(`Session.Informed`); whatever happens later only adds to all three (`Session.Onward`).
-/

namespace ObjectBridge

theorem Message.tooLong_of_encodeFault {m : Message} {fault : Fault} (h : m.encodeFault? = some fault) :
    ∃ what length, fault = .tooLong what length := by
  obtain ⟨field, _, hfield⟩ := List.exists_of_findSome?_eq_some h
  cases field with
  | raw | flags => cases hfield
  | length what n =>
    rw [Field.fault?] at hfield
    split at hfield
    · cases hfield
    · cases hfield
      exact ⟨what, n, rfl⟩
  | arity n =>
    rw [Field.fault?] at hfield
    split at hfield
    · cases hfield
    · cases hfield
      exact ⟨"argument list", n, rfl⟩

namespace Session

variable {s s' s'' : Session} {m reply : Message} {className : String} {template : Template}

/-- Requests the template of a class, and remembers it. -/
def fetch (className : String) : Action Template := fun s =>
  match exchange (.templateReq className) s with
  | .ok (.templateReply members) s =>
    .ok (.ofMembers className members)
      { s with templates := s.templates ++ [(className, .ofMembers className members)] }
  | .ok (.exception text) s => .error (.remote text) s
  | .ok other s => .error (.unexpectedReply .templateReq other.display) s
  | .error fault s => .error fault s

/-- All that changes a session. Templates are requested by `fetch` only, and only if they are missing. -/
inductive Change (s : Session) : Session → Prop where
  | ask (d : Deed) (hfits : d.Fits) (hother : ∀ className, d ≠ .exchange (.templateReq className)) :
      Change s (d.run s)
  | fetch (className : String) (hnew : s.templates.lookup className = none) :
      Change s (after (Session.fetch className s))
  | tend (s' : Session) (hchannel : s'.channel = s.channel) (hstanding : s'.standing = s.standing)
      (hanswers : s'.answers = s.answers) (htemplates : s'.templates = s.templates) : Change s s'

/-! ### What a change adds -/

/-- A change adds nothing, or a request, or a request with its answer; an answer can bring a template. -/
inductive Effect (s s' : Session) : Prop where
  | nothing (hsent : s'.channel.sent = s.channel.sent) (hanswers : s'.answers = s.answers)
      (htemplates : s'.templates = s.templates) (hup : s'.isUp = true → s.isUp = true)
  | sends (m : Message) (hsent : s'.channel.sent = m :: s.channel.sent) (hanswers : s'.answers = s.answers)
      (htemplates : s'.templates = s.templates) (hup : s.isUp = true)
      (hdown : m.awaitsReply = true → s'.isUp = false)
      (hnew : ∀ className, m = .templateReq className → s.templates.lookup className = none)
  | answers (m reply : Message) (hsent : s'.channel.sent = m :: s.channel.sent)
      (hanswers : s'.answers = (m, reply) :: s.answers) (htemplates : s'.templates = s.templates)
      (hup : s.isUp = true) (hawaits : m.awaitsReply = true)
      (hnew : ∀ className, m = .templateReq className → s.templates.lookup className = none)
      (hother : ∀ className members, (m, reply) ≠ (.templateReq className, .templateReply members))
  | learns (className : String) (members : Members)
      (hsent : s'.channel.sent = .templateReq className :: s.channel.sent)
      (hanswers : s'.answers = (.templateReq className, .templateReply members) :: s.answers)
      (htemplates : s'.templates = s.templates ++ [(className, .ofMembers className members)])
      (hup : s.isUp = true) (hnew : s.templates.lookup className = none)

theorem sent_of_exchange (h : exchange m s = .ok reply s') :
    s.isUp = true ∧ s'.channel.sent = m :: s.channel.sent ∧ s'.answers = (m, reply) :: s.answers ∧
      s'.templates = s.templates := by
  obtain ⟨hup, mid, channel, hsend, hreceive, rfl⟩ := exchange_ok h
  have hmid := (Channel.send_ok hsend).2.2.2.2
  have hsent := (Channel.receive_ok hreceive).2.2
  exact ⟨isUp_iff.mpr hup, hsent.trans hmid, rfl, rfl⟩

theorem transact_of_failed_exchange {fault : Fault} (h : exchange m s = .error fault s') :
    transact (do Channel.send m; Channel.receive s.registry.catalogue) s = .error fault s' := by
  unfold exchange at h
  split at h
  · cases h
  · rename_i ht
    cases h
    exact ht

/-- An exchange fails fatally, on a session that is closed, or for a request that cannot be written. -/
theorem fault_of_exchange {fault : Fault} (h : exchange m s = .error fault s') :
    fault.isFatal = true ∨ fault = .closed ∨ ∃ what length, fault = .tooLong what length := by
  have htransact := transact_of_failed_exchange h
  cases hstanding : s.standing with
  | closed =>
    simp only [transact, hstanding] at htransact
    cases htransact
    exact .inr (.inl rfl)
  | broken cause =>
    simp only [transact, hstanding] at htransact
    cases htransact
    exact .inl rfl
  | up =>
    obtain ⟨channel, hstep, _⟩ := transact_error hstanding htransact
    cases hfatal : fault.isFatal with
    | true => exact .inl rfl
    | false =>
      obtain hsend | ⟨_, mid, _, hreceive⟩ := bind_error.mp hstep
      · exact .inr (.inr (Message.tooLong_of_encodeFault ((Channel.send_error hsend).2 hfatal).1))
      · -- A reply that cannot be read is always fatal.
        rw [(Channel.receive_error hreceive).1] at hfatal
        cases hfatal

theorem effect_of_failed_exchange {fault : Fault} (h : exchange m s = .error fault s')
    (hnew : ∀ className, m = .templateReq className → s.templates.lookup className = none) :
    s.Effect s' := by
  have htransact := transact_of_failed_exchange h
  by_cases hup : s.standing = .up
  · obtain ⟨channel, hstep, hrest⟩ := transact_error hup htransact
    obtain hsend | ⟨_, mid, hsend, hreceive⟩ := bind_error.mp hstep
    · have hsent := (Channel.send_error hsend).1
      obtain ⟨_, rfl⟩ | ⟨_, rfl⟩ := hrest
      · exact .nothing hsent rfl rfl fun _ => isUp_iff.mpr hup
      · exact .nothing hsent rfl rfl fun _ => isUp_iff.mpr hup
    · obtain ⟨hfatal, hsent⟩ := Channel.receive_error hreceive
      have hmid := (Channel.send_ok hsend).2.2.2.2
      obtain ⟨_, rfl⟩ | ⟨hlocal, _⟩ := hrest
      · exact .sends m (hsent.trans hmid) rfl rfl (isUp_iff.mpr hup) (fun _ => rfl) hnew
      · rw [hfatal] at hlocal
        cases hlocal
  · obtain ⟨_, hdown⟩ := transact_of_down (do Channel.send m; Channel.receive s.registry.catalogue) hup
    rw [hdown] at htransact
    cases htransact
    exact .nothing rfl rfl rfl id

theorem effect_exchange (hawaits : m.awaitsReply = true) (hother : ∀ className, m ≠ .templateReq className) :
    s.Effect (after (exchange m s)) := by
  have hnew (className : String) (hm : m = .templateReq className) : s.templates.lookup className = none :=
    absurd hm (hother className)
  cases h : exchange m s with
  | ok reply s' =>
    obtain ⟨hup, hsent, hanswers, htemplates⟩ := sent_of_exchange h
    exact .answers m reply hsent hanswers htemplates hup hawaits hnew fun className _ heq =>
      hother className (Prod.mk.inj heq).1
  | error fault s' => exact effect_of_failed_exchange h hnew

theorem effect_post (h : m.awaitsReply = false) : s.Effect (after (post m s)) := by
  by_cases hup : s.standing = .up
  · obtain ⟨channel, hsend, heq⟩ | ⟨channel, cause, hsent, heq⟩ | ⟨_, heq⟩ := post_cases m hup
    · rw [heq]
      refine .sends m (Channel.send_ok hsend).2.2.2.2 rfl rfl (isUp_iff.mpr hup) (fun hawaits => ?_)
        fun className hm => ?_
      · rw [h] at hawaits
        cases hawaits
      · subst hm
        cases h
    · rw [heq]
      exact .nothing hsent rfl rfl fun _ => isUp_iff.mpr hup
    · rw [heq]
      exact .nothing rfl rfl rfl fun _ => isUp_iff.mpr hup
  · rw [post_of_down m hup]
    exact .nothing rfl rfl rfl id

theorem effect_close : s.Effect s.close := by
  by_cases hup : s.standing = .up
  · rw [close_of_up hup]
    exact .nothing rfl rfl rfl fun _ => isUp_iff.mpr hup
  · rw [close_of_down hup]
    exact .nothing rfl rfl rfl id

theorem effect_fetch (hnew : s.templates.lookup className = none) :
    s.Effect (after (Session.fetch className s)) := by
  have hmissing (other : String) (hm : Message.templateReq className = .templateReq other) :
      s.templates.lookup other = none := by
    cases hm
    exact hnew
  unfold Session.fetch
  cases h : exchange (.templateReq className) s with
  | error fault s' => exact effect_of_failed_exchange h hmissing
  | ok reply s' =>
    obtain ⟨hup, hsent, hanswers, htemplates⟩ := sent_of_exchange h
    have hunlearned (hother : ∀ members, reply ≠ .templateReply members) : s.Effect s' :=
      .answers _ reply hsent hanswers htemplates hup rfl hmissing fun _ members heq =>
        hother members (Prod.mk.inj heq).2
    cases reply with
    | templateReply members =>
      exact .learns className members hsent hanswers
        (congrArg (· ++ [(className, Template.ofMembers className members)]) htemplates) hup hnew
    | _ => exact hunlearned fun _ heq => by cases heq

theorem fault_of_fetch {fault : Fault} (h : Session.fetch className s = .error fault s') (id : Int32) :
    fault ≠ .missingClassName id := by
  rintro rfl
  unfold Session.fetch at h
  cases hreply : exchange (.templateReq className) s with
  | error reason mid =>
    rw [hreply] at h
    cases h
    obtain hfatal | hclosed | ⟨what, length, hlong⟩ := fault_of_exchange hreply
    · cases hfatal
    · cases hclosed
    · cases hlong
  | ok reply mid =>
    rw [hreply] at h
    cases reply <;> cases h

theorem Change.effect (h : s.Change s') : s.Effect s' := by
  cases h with
  | ask d hfits hother =>
    cases d with
    | exchange m => exact effect_exchange hfits fun className hm => hother className (by rw [hm])
    | post m => exact effect_post hfits
    | close => exact effect_close
  | fetch className hnew => exact effect_fetch hnew
  | tend s' hchannel hstanding hanswers htemplates =>
    refine .nothing (by rw [hchannel]) hanswers htemplates fun hup => ?_
    rw [isUp, hstanding] at hup
    exact hup

/-- A request that can be sent is sent, whatever comes of it. -/
theorem sent_of_send {channel : Channel} (hup : s.standing = .up)
    (hsend : Channel.send m s.channel = .ok () channel) :
    (after (exchange m s)).channel.sent = m :: s.channel.sent := by
  cases h : exchange m s with
  | ok reply s' => exact (sent_of_exchange h).2.1
  | error fault s' =>
    obtain ⟨failed, hstep, hrest⟩ := transact_error hup (transact_of_failed_exchange h)
    obtain hunsent | ⟨_, mid, hsent, hreceive⟩ := bind_error.mp hstep
    · rw [hsend] at hunsent
      cases hunsent
    · obtain ⟨hfatal, hreceived⟩ := Channel.receive_error hreceive
      obtain ⟨_, rfl⟩ | ⟨hlocal, _⟩ := hrest
      · exact hreceived.trans (Channel.send_ok hsent).2.2.2.2
      · rw [hfatal] at hlocal
        cases hlocal

theorem channel_fetch (className : String) (s : Session) :
    (after (Session.fetch className s)).channel = (after (exchange (.templateReq className) s)).channel := by
  unfold Session.fetch
  cases exchange (.templateReq className) s with
  | error fault s' => rfl
  | ok reply s' => cases reply <;> rfl

theorem templates_exchange (m : Message) (s : Session) : (after (exchange m s)).templates = s.templates := by
  by_cases hup : s.standing = .up
  · obtain ⟨_, _, _, _, _, heq⟩ | ⟨_, _, _, heq⟩ | ⟨_, heq⟩ := exchange_cases m hup <;> rw [heq]
  · rw [exchange_of_down m hup]

theorem templates_of_failed_fetch {fault : Fault} (h : Session.fetch className s = .error fault s') :
    s'.templates = s.templates := by
  have htemplates := templates_exchange (.templateReq className) s
  unfold Session.fetch at h
  cases hreply : exchange (.templateReq className) s with
  | error reason mid =>
    rw [hreply] at h htemplates
    cases h
    exact htemplates
  | ok reply mid =>
    rw [hreply] at h htemplates
    cases reply <;> cases h <;> exact htemplates

/-! ### What is added later -/

/-- What a session has sent, been answered and learned stays, and nothing is asked for that it knows. -/
structure Onward (s s' : Session) : Prop where
  sent : ∃ more, s'.channel.sent = more ++ s.channel.sent ∧
    ∀ className template, s.templates.lookup className = some template → .templateReq className ∉ more
  answers : s.answers <:+ s'.answers
  templates : s.templates <+: s'.templates

theorem Onward.refl (s : Session) : s.Onward s :=
  ⟨⟨[], rfl, fun _ _ _ h => by cases h⟩, List.suffix_rfl, List.prefix_rfl⟩

theorem lookup_of_front {known known' : List (String × Template)} (h : known <+: known')
    (hlookup : known.lookup className = some template) : known'.lookup className = some template := by
  obtain ⟨more, rfl⟩ := h
  rw [List.lookup_append, hlookup]
  rfl

theorem Onward.trans (h : s.Onward s') (h' : s'.Onward s'') : s.Onward s'' := by
  obtain ⟨more, hmore, hnew⟩ := h.sent
  obtain ⟨more', hmore', hnew'⟩ := h'.sent
  refine ⟨⟨more' ++ more, ?_, fun className template hlookup hmem => ?_⟩, h.answers.trans h'.answers,
    h.templates.trans h'.templates⟩
  · rw [hmore', hmore, List.append_assoc]
  · obtain hmem | hmem := List.mem_append.mp hmem
    · exact hnew' className template (lookup_of_front h.templates hlookup) hmem
    · exact hnew className template hlookup hmem

theorem onward_of_sent (hsent : s'.channel.sent = m :: s.channel.sent)
    (hnew : ∀ className, m = .templateReq className → s.templates.lookup className = none)
    (hanswers : s.answers <:+ s'.answers) (htemplates : s.templates <+: s'.templates) : s.Onward s' := by
  refine ⟨⟨[m], hsent, fun className template hlookup hmem => ?_⟩, hanswers, htemplates⟩
  rw [hnew className (List.mem_singleton.mp hmem).symm] at hlookup
  cases hlookup

theorem Effect.onward (h : s.Effect s') : s.Onward s' := by
  cases h with
  | nothing hsent hanswers htemplates =>
    exact ⟨⟨[], hsent, fun _ _ _ h => by cases h⟩, hanswers ▸ List.suffix_rfl,
      htemplates ▸ List.prefix_rfl⟩
  | sends m hsent hanswers htemplates hup hdown hnew =>
    exact onward_of_sent hsent hnew (hanswers ▸ List.suffix_rfl) (htemplates ▸ List.prefix_rfl)
  | answers m reply hsent hanswers htemplates hup hawaits hnew =>
    exact onward_of_sent hsent hnew (hanswers ▸ List.suffix_cons ..) (htemplates ▸ List.prefix_rfl)
  | learns className members hsent hanswers htemplates hup hnew =>
    refine onward_of_sent hsent (fun other hm => ?_) (hanswers ▸ List.suffix_cons ..)
      (htemplates ▸ List.prefix_append ..)
    cases hm
    exact hnew

/-! ### What a session knows of classes -/

/-- A request for the template of a class that brought it: no earlier one did, and no later one was made. -/
inductive Settled (s : Session) (className : String) (members : Members) : Prop where
  | intro (later earlier : List Message) (newer older : List (Message × Message))
      (hsent : s.channel.sent = later ++ .templateReq className :: earlier)
      (hanswers : s.answers = newer ++ (.templateReq className, .templateReply members) :: older)
      (hearlier : older.map Prod.fst = earlier.filter Message.awaitsReply)
      (hlast : .templateReq className ∉ later)
      (hnewer : ∀ reply, (.templateReq className, reply) ∉ newer)
      (holder : ∀ others, (.templateReq className, .templateReply others) ∉ older)

/-- The templates of a session are those that its answers brought. -/
structure Informed (s : Session) : Prop where
  aligned : s.isUp = true → s.answers.map Prod.fst = s.channel.sent.filter Message.awaitsReply
  known : ∀ className template, s.templates.lookup className = some template ↔
    ∃ members, (.templateReq className, .templateReply members) ∈ s.answers ∧
      template = .ofMembers className members
  settled : ∀ className members, (.templateReq className, .templateReply members) ∈ s.answers →
    s.Settled className members

theorem Informed.unknown (h : s.Informed) (hnone : s.templates.lookup className = none) (members : Members) :
    (.templateReq className, .templateReply members) ∉ s.answers := by
  intro hmem
  rw [(h.known className _).mpr ⟨members, hmem, rfl⟩] at hnone
  cases hnone

theorem Settled.mono {members : Members} (h : s.Settled className members) (requests : List Message)
    (answers : List (Message × Message)) (hsent : s'.channel.sent = requests ++ s.channel.sent)
    (hanswers : s'.answers = answers ++ s.answers) (hrequests : .templateReq className ∉ requests)
    (hfst : ∀ answer ∈ answers, answer.1 ∈ requests) : s'.Settled className members := by
  obtain ⟨later, earlier, newer, older, hsent', hanswers', hearlier, hlast, hnewer, holder⟩ := h
  refine ⟨requests ++ later, earlier, answers ++ newer, older, ?_, ?_, hearlier, ?_, fun reply hmem => ?_,
    holder⟩
  · rw [hsent, hsent', List.append_assoc]
  · rw [hanswers, hanswers', List.append_assoc]
  · rw [List.mem_append, not_or]
    exact ⟨hrequests, hlast⟩
  · obtain hmem | hmem := List.mem_append.mp hmem
    · exact hrequests (hfst _ hmem)
    · exact hnewer reply hmem

/-- A class that was settled before stays so, as no change asks for it again. -/
theorem Informed.settled_mono (hs : s.Informed) {members : Members} (answers : List (Message × Message))
    (hsent : s'.channel.sent = m :: s.channel.sent) (hanswers : s'.answers = answers ++ s.answers)
    (hfst : ∀ answer ∈ answers, answer.1 = m)
    (hnew : ∀ className, m = .templateReq className → s.templates.lookup className = none)
    (hmem : (.templateReq className, .templateReply members) ∈ s.answers) : s'.Settled className members := by
  refine (hs.settled className members hmem).mono [m] answers hsent hanswers (fun hm => ?_)
    fun answer hanswer => List.mem_singleton.mpr (hfst answer hanswer)
  exact hs.unknown (hnew className (List.mem_singleton.mp hm).symm) members hmem

theorem Effect.informed (h : s.Effect s') (hs : s.Informed) : s'.Informed := by
  cases h with
  | nothing hsent hanswers htemplates hup =>
    refine ⟨fun hup' => ?_, fun className template => ?_, fun className members hmem => ?_⟩
    · rw [hanswers, hsent]
      exact hs.aligned (hup hup')
    · rw [hanswers, htemplates]
      exact hs.known className template
    · rw [hanswers] at hmem
      exact (hs.settled className members hmem).mono [] [] hsent hanswers
        (by simp) (by simp)
  | sends m hsent hanswers htemplates hup hdown hnew =>
    refine ⟨fun hup' => ?_, fun className template => ?_, fun className members hmem => ?_⟩
    · have hpost : m.awaitsReply = false := by
        by_contra hawaits
        rw [hdown (by simpa using hawaits)] at hup'
        cases hup'
      rw [hanswers, hsent, List.filter_cons_of_neg (by simp [hpost])]
      exact hs.aligned hup
    · rw [hanswers, htemplates]
      exact hs.known className template
    · rw [hanswers] at hmem
      exact hs.settled_mono [] hsent hanswers (by simp) hnew hmem
  | answers m reply hsent hanswers htemplates hup hawaits hnew hother =>
    have hmem (className : String) (members : Members) :
        (.templateReq className, .templateReply members) ∈ s'.answers ↔
          (.templateReq className, .templateReply members) ∈ s.answers := by
      rw [hanswers, List.mem_cons, or_iff_right (hother className members).symm]
    refine ⟨fun _ => ?_, fun className template => ?_, fun className members hbrought => ?_⟩
    · rw [hanswers, hsent, List.filter_cons_of_pos hawaits, List.map_cons, hs.aligned hup]
    · rw [htemplates, hs.known className template]
      simp only [hmem]
    · rw [hmem] at hbrought
      exact hs.settled_mono [(m, reply)] hsent hanswers (by simp) hnew hbrought
  | learns learned members hsent hanswers htemplates hup hnew =>
    have hunknown := hs.unknown hnew
    have hrequest (className : String) (hm : Message.templateReq learned = .templateReq className) :
        s.templates.lookup className = none := by
      cases hm
      exact hnew
    refine ⟨fun _ => ?_, fun className template => ?_, fun className others hbrought => ?_⟩
    · rw [hanswers, hsent, List.filter_cons_of_pos rfl, List.map_cons, hs.aligned hup]
    · rw [htemplates, hanswers, List.lookup_append, List.lookup_cons, List.lookup_nil]
      by_cases hname : className = learned
      · subst hname
        simp [hnew, hunknown, eq_comm]
      · simp [hname, beq_false_of_ne hname, hs.known className template]
    · rw [hanswers] at hbrought
      obtain heq | hbrought := List.mem_cons.mp hbrought
      · cases heq
        exact ⟨[], s.channel.sent, [], s.answers, hsent, hanswers, hs.aligned hup, by simp, by simp, hunknown⟩
      · exact hs.settled_mono [_] hsent hanswers (by simp) hrequest hbrought

theorem Fresh.informed (h : s.Fresh) (htemplates : s.templates = []) : s.Informed := by
  obtain ⟨source, sink, hchannel⟩ := h.channel
  refine ⟨fun _ => ?_, fun className template => ?_, fun className members hmem => ?_⟩
  · rw [h.answers, hchannel]
    rfl
  · simp [h.answers, htemplates]
  · rw [h.answers] at hmem
    cases hmem

end Session

end ObjectBridge
