import ObjectBridge.Proofs.Client.Calling
import ObjectBridge.Proofs.Template.Names
import ObjectBridge.Proofs.Text.ByteOrder

/-!
# The static methods of a class

The server tells the members of a class in three lists, in any order, with repetitions, and with names that are in
more than one of them. The template of the class has each name of a list once, in the order of the UTF-8 bytes, so
it depends on the three sets of names only, and whether a name can be called on the class depends on nothing else
(`classFor_dispatch`).
-/

namespace ObjectBridge

/-- The names that were told, each once, in the order of their UTF-8 bytes. -/
structure Canonical (told names : List String) : Prop where
  sorted : names.Pairwise fun a b => Utf8.Precedes (Utf8.encode a) (Utf8.encode b)
  nodup : names.Nodup
  mem : ∀ name, name ∈ names ↔ name ∈ told

theorem canonical_sortedNames (told : List String) : Canonical told (sortedNames told) := by
  have hsorted := (pairwise_sortedNames told).imp Utf8.precedes_encode
  refine ⟨hsorted, hsorted.imp fun {a b} hprecedes => ?_, fun _ => mem_sortedNames⟩
  rintro rfl
  exact Utf8.not_precedes_self _ hprecedes

/-- The same names in each of the three lists. -/
structure Members.Alike (members members' : Members) : Prop where
  properties : ∀ name, name ∈ members'.properties ↔ name ∈ members.properties
  methods : ∀ name, name ∈ members'.methods ↔ name ∈ members.methods
  staticMethods : ∀ name, name ∈ members'.staticMethods ↔ name ∈ members.staticMethods

theorem Template.ofMembers_congr (className : String) {members members' : Members} (h : members.Alike members') :
    Template.ofMembers className members' = .ofMembers className members := by
  rw [ofMembers, ofMembers, sortedNames_congr h.properties, sortedNames_congr h.methods,
    sortedNames_congr h.staticMethods]

section Names

variable {s : Nat} {className name : String} {members : Members}

theorem Template.hasStaticMethod_iff :
    (Template.ofMembers className members).hasStaticMethod name = true ↔ name ∈ members.staticMethods := by
  rw [hasStaticMethod, List.contains_iff_mem, ofMembers, mem_sortedNames]

theorem Template.hasMember_iff :
    ((Template.ofMembers className members).hasMethod name ||
        (Template.ofMembers className members).hasProperty name) = true ↔
      name ∈ members.methods ∨ name ∈ members.properties := by
  rw [Bool.or_eq_true, hasMethod, hasProperty, List.contains_iff_mem, List.contains_iff_mem, ofMembers,
    mem_sortedNames, mem_sortedNames]

/-- Why a name that is no static method cannot be called on its class. -/
def Members.refusal (members : Members) (className name : String) : Fault :=
  if name ∈ members.methods ∨ name ∈ members.properties then .notCallable className name
  else .unknownMember className name

theorem staticMethod_ofMembers (s : Nat) (className name : String) (members : Members) :
    ClassHandle.staticMethod ⟨s, .ofMembers className members⟩ name =
      if name ∈ members.staticMethods then .ok ⟨s, className, name⟩
      else .error (members.refusal className name) := by
  rw [Client.staticMethod_eq]
  unfold Template.refusal Members.refusal
  simp only [Template.hasStaticMethod_iff, Template.hasMember_iff]
  rfl

end Names

namespace Client

/-- What a call of a static method does. -/
structure Calls (c : Client) (m : StaticMethod) (args : List Value) : Prop where
  gone : c.isAlive m.session = false → invokeStatic m args c = .error .closed c
  /-- Arguments that cannot be sent are refused, and nothing is sent. -/
  refused : ∀ fault, c.isAlive m.session = true →
    (c.registry m.session).convertAll c.isReleased args = .error fault → invokeStatic m args c = .error fault c
  /-- The request of a call is sent when its session can send it, whatever comes of it. -/
  sent : ∀ ms session channel, c.isAlive m.session = true →
    (c.registry m.session).convertAll c.isReleased args = .ok ms → c.sessions[m.session]? = some session →
    session.standing = .up →
    Channel.send (.callStaticMethod m.className m.name ms) session.channel = .ok () channel →
    Asked m.session [.callStaticMethod m.className m.name ms] c (after (invokeStatic m args c))
  /-- It is sent once, and nothing else is asked. -/
  once : ∀ ms, (c.registry m.session).convertAll c.isReleased args = .ok ms →
    Asked m.session [.callStaticMethod m.className m.name ms] c (after (invokeStatic m args c)) ∨
      Asked m.session [] c (after (invokeStatic m args c))
  /-- A call that gives a value has sent its request, and nothing was sent besides by any session. -/
  given : ∀ v c', invokeStatic m args c = .ok v c' →
    ∃ ms, (c.registry m.session).convertAll c.isReleased args = .ok ms ∧
      Asks m.session [.callStaticMethod m.className m.name ms] c c'

variable {c c' : Client} {s : Nat}

theorem invokeStatic_of_gone {m : StaticMethod} (args : List Value) (h : c.isAlive m.session = false) :
    invokeStatic m args c = .error .closed c := by
  unfold invokeStatic
  rw [get_bind, h]
  rfl

theorem invokeStatic_of_alive {m : StaticMethod} (args : List Value) (h : c.isAlive m.session = true) :
    invokeStatic m args c = callStatic m.session m.className m.name args c := by
  unfold invokeStatic
  rw [get_bind, h]
  rfl

theorem calls (c : Client) (m : StaticMethod) (args : List Value) : Calls c m args where
  gone := invokeStatic_of_gone args
  refused fault halive hargs := by
    rw [invokeStatic_of_alive args halive, callStatic_of_error hargs]
  sent ms session channel halive hargs hs hup hsend := by
    rw [invokeStatic_of_alive args halive, callStatic_of_ok hargs]
    exact sent_request hs hup hsend
  once ms hargs := by
    cases halive : c.isAlive m.session with
    | false =>
      rw [invokeStatic_of_gone args halive]
      exact .inr (asked_refl c)
    | true =>
      rw [invokeStatic_of_alive args halive, callStatic_of_ok hargs]
      exact asked_request _ c
  given v c' hcall := by
    cases halive : c.isAlive m.session with
    | false =>
      rw [invokeStatic_of_gone args halive] at hcall
      cases hcall
    | true =>
      rw [invokeStatic_of_alive args halive] at hcall
      cases hargs : (c.registry m.session).convertAll c.isReleased args with
      | error fault =>
        rw [callStatic_of_error hargs] at hcall
        cases hcall
      | ok ms =>
        rw [callStatic_of_ok hargs] at hcall
        exact ⟨ms, rfl, asks_request hcall⟩

/-- What the class `h` makes of the members that the server told. -/
structure Dispatch (members : Members) (h : ClassHandle) : Prop where
  properties : Canonical members.properties h.template.properties
  methods : Canonical members.methods h.template.methods
  staticMethods : Canonical members.staticMethods h.template.staticMethods
  found : ∀ name m, h.staticMethod name = .ok m ↔
    name ∈ members.staticMethods ∧ m = ⟨h.session, h.template.className, name⟩
  notFound : ∀ name fault, h.staticMethod name = .error fault ↔
    name ∉ members.staticMethods ∧ fault = members.refusal h.template.className name
  /-- The static methods are listed in order, and each is the one that is found by its name. -/
  listed : Canonical members.staticMethods (h.staticMethods.map StaticMethod.name)
  listedFound : ∀ m ∈ h.staticMethods, h.staticMethod m.name = .ok m
  calls : ∀ name m args c, h.staticMethod name = .ok m → Calls c m args

theorem dispatch_ofMembers (s : Nat) (className : String) (members : Members) :
    Dispatch members ⟨s, .ofMembers className members⟩ where
  properties := canonical_sortedNames _
  methods := canonical_sortedNames _
  staticMethods := canonical_sortedNames _
  found name m := by
    rw [staticMethod_ofMembers]
    split
    · rename_i hstatic
      rw [Except.ok.injEq]
      exact ⟨fun h => ⟨hstatic, h.symm⟩, fun h => h.2.symm⟩
    · rename_i hstatic
      exact ⟨fun h => (by cases h), fun h => absurd h.1 hstatic⟩
  notFound name fault := by
    rw [staticMethod_ofMembers]
    split
    · rename_i hstatic
      exact ⟨fun h => (by cases h), fun h => absurd hstatic h.1⟩
    · rename_i hstatic
      rw [Except.error.injEq]
      exact ⟨fun h => ⟨hstatic, h.symm⟩, fun h => h.2.symm⟩
  listed := by
    have hnames : (ClassHandle.staticMethods ⟨s, .ofMembers className members⟩).map StaticMethod.name =
        sortedNames members.staticMethods := by
      rw [ClassHandle.staticMethods, ClassHandle.statics, List.map_map, List.map_map]
      exact List.map_id _
    rw [hnames]
    exact canonical_sortedNames _
  listedFound m hm := by
    obtain ⟨entry, hentry, rfl⟩ := List.mem_map.mp hm
    obtain ⟨name, hname, rfl⟩ := List.mem_map.mp hentry
    rw [staticMethod_ofMembers, if_pos (mem_sortedNames.mp hname)]
    rfl
  calls _ m args c _ := calls c m args

/-- The class that is fetched with a reply has each name of the three lists once and in order, whatever their
order and repetitions, and a name can be called on it if it is among the static methods that were told. -/
theorem classFor_dispatch {className : String} {members : Members}
    (hmissing : c.cachedTemplate? s className = none)
    (hreply : exchange s (.templateReq className) c = .ok (.templateReply members) c') :
    ∃ h c'', classFor s className c = .ok h c'' ∧ h.session = s ∧ h.template.className = className ∧
      Dispatch members h ∧
      ∀ members', members.Alike members' → Template.ofMembers className members' = h.template := by
  have htemplate : fetchTemplate s className c = .ok (.ofMembers className members) c' := bind_of_ok _ hreply
  have hclass : classFor s className c = .ok ⟨s, .ofMembers className members⟩
      (c'.modifySession s fun session =>
        { session with templates := session.templates ++ [(className, .ofMembers className members)] }) := by
    unfold classFor
    rw [get_bind, hmissing]
    exact bind_of_ok _ htemplate
  exact ⟨_, _, hclass, rfl, rfl, dispatch_ofMembers s className members,
    fun members' h => Template.ofMembers_congr className h⟩

/-- The names of a class with repetitions, and with one name that is a property and a static method. -/
def repeatedMembers : Members := ⟨["x"], ["f", "f"], ["b", "a", "b", "x"]⟩

/-- The reply that tells these members. -/
def repeatedReply : List UInt8 := (Message.templateReply repeatedMembers).encode

/-- A client whose server sends this reply. -/
def toldClient : Client where
  sessions := #[{ config := {}, registry := .standard, channel := .between { rest := repeatedReply } {} }]

/-- The members that a message tells, if it tells any. -/
def toldBy : Message → Option Members
  | .templateReply members => some members
  | _ => none

theorem classFor_dispatch_repeated : ∃ h c'',
    classFor 0 "C" toldClient = .ok h c'' ∧ Dispatch repeatedMembers h ∧
    h.staticMethod "x" = .ok ⟨0, "C", "x"⟩ ∧ h.staticMethod "f" = .error (.notCallable "C" "f") ∧
    h.staticMethod "g" = .error (.unknownMember "C" "g") := by
  have hrun : (verdict (exchange 0 (.templateReq "C") toldClient)).toOption.bind toldBy = some repeatedMembers := by
    decide +kernel
  cases hreply : exchange 0 (.templateReq "C") toldClient with
  | error fault c' =>
    rw [hreply] at hrun
    cases hrun
  | ok reply c' =>
    rw [hreply] at hrun
    cases reply with
    | templateReply members =>
      cases hrun
      obtain ⟨h, c'', hclass, hsession, hname, hdispatch, _⟩ := classFor_dispatch rfl hreply
      refine ⟨h, c'', hclass, hdispatch, ?_, ?_, ?_⟩
      · rw [hdispatch.found, hsession, hname]
        exact ⟨by decide, rfl⟩
      · rw [hdispatch.notFound, hname]
        exact ⟨by decide, rfl⟩
      · rw [hdispatch.notFound, hname]
        exact ⟨by decide, rfl⟩
    | _ => cases hrun

end Client

end ObjectBridge
