import ObjectBridge.Proofs.Client.Requests
import Mathlib.Data.List.Forall2

/-!
# The proxies in a reply

A reply names objects (`Message.refs`), at any depth. The value made of it holds, in the same order, the
proxies that stand for these objects from then on; an object that had a proxy keeps it
(`resolve_standing`).
-/

namespace ObjectBridge

namespace Message

mutual

def refs : Message → List ObjectRef
  | object ref => [ref]
  | objectArray items => refsOfAll items
  | _ => []

def refsOfAll : List Message → List ObjectRef
  | [] => []
  | m :: ms => refs m ++ refsOfAll ms

end

end Message

namespace Client

variable {c c' c'' : Client} {s : Nat}

/-- A session that is still there and a proxy that still stands for its object. -/
structure Keeps (s : Nat) (c c' : Client) : Prop where
  session : c.sessions[s]?.isSome = true → c'.sessions[s]?.isSome = true
  standing : ∀ id p, c.standing? s id = some p → c'.standing? s id = some p

theorem Keeps.refl : Keeps s c c := ⟨id, fun _ _ h => h⟩

theorem Keeps.trans (h : Keeps s c c') (h' : Keeps s c' c'') : Keeps s c c'' :=
  ⟨fun hs => h'.session (h.session hs), fun id p hp => h'.standing id p (h.standing id p hp)⟩

theorem lookup_filter_ne {entries : List (Int32 × Nat)} {id other : Int32} (h : other ≠ id) :
    (entries.filter fun entry => entry.1 != id).lookup other = entries.lookup other := by
  induction entries with
  | nil => rfl
  | cons entry entries ih =>
    by_cases hid : entry.1 = id
    · have hother : (other == entry.1) = false := by simpa [hid] using h
      rw [List.filter_cons_of_neg (by simp [hid]), ih, List.lookup_cons, hother]
    · rw [List.filter_cons_of_pos (by simpa using hid), List.lookup_cons, List.lookup_cons, ih]

/-- Finding or making the proxy of an object takes no other object its proxy. -/
theorem keeps_objectFor (id : Int32) (className : Option String) :
    Keeps s c (c.objectFor s id className).2 := by
  cases h : c.standing? s id with
  | some p =>
    rw [objectFor_of_some className h]
    refine ⟨fun hs => hs, fun other q hq => ?_⟩
    obtain ⟨session, key, cell, hs, hkey, hcell, hheld, hlive, hproxy⟩ := standing?_eq_some.mp hq
    apply standing?_eq_some.mpr
    by_cases hp : p.key = key
    · subst hp
      refine ⟨session, p.key, { cell with holders := cell.holders + 1 }, hs, hkey, ?_,
        Nat.succ_ne_zero _, hlive, hproxy⟩
      rw [holdProxy, modifyCell, modify_of_some hcell, getElem?_replaced hcell, if_pos rfl]
    · refine ⟨session, key, cell, hs, hkey, ?_, hheld, hlive, hproxy⟩
      rw [holdProxy, modifyCell, Array.getElem?_modify, if_neg hp, hcell]
  | none =>
    rw [objectFor_of_none className h]
    refine ⟨fun hs => ?_, fun other q hq => ?_⟩
    · obtain ⟨session, hsession⟩ := Option.isSome_iff_exists.mp hs
      rw [modifySession, Array.getElem?_modify, if_pos rfl, hsession]
      rfl
    · have hne : other ≠ id := by
        intro heq
        rw [heq, h] at hq
        cases hq
      obtain ⟨session, key, cell, hs, hkey, hcell, hheld, hlive, hproxy⟩ := standing?_eq_some.mp hq
      obtain ⟨hlt, _⟩ := Array.getElem?_eq_some_iff.mp hcell
      apply standing?_eq_some.mpr
      refine ⟨session.enter id c.cells.size, key, cell, ?_, ?_, ?_, hheld, hlive, hproxy⟩
      · rw [modifySession, Array.getElem?_modify, if_pos rfl, hs]
        rfl
      · rw [Session.enter, List.lookup_cons, beq_false_of_ne hne]
        rw [lookup_filter_ne hne, hkey]
      · rw [Array.getElem?_push, if_neg (Nat.ne_of_lt hlt), hcell]

theorem standing_objectFor (hs : c.sessions[s]?.isSome = true) (id : Int32) (className : Option String) :
    (c.objectFor s id className).2.standing? s id = some (c.objectFor s id className).1 := by
  cases h : c.standing? s id with
  | some p =>
    have hkept := (keeps_objectFor id className).standing id p h
    rw [objectFor_of_some className h] at hkept ⊢
    exact hkept
  | none =>
    obtain ⟨session, hsession⟩ := Option.isSome_iff_exists.mp hs
    rw [objectFor_of_none className h]
    apply standing?_eq_some.mpr
    refine ⟨session.enter id c.cells.size, c.cells.size, _, ?_, ?_, Array.getElem?_push_size,
      Nat.one_ne_zero, rfl, rfl⟩
    · rw [modifySession, Array.getElem?_modify, if_pos rfl, hsession]
      rfl
    · rw [Session.enter, List.lookup_cons, BEq.rfl]

def Named (s : Nat) (c : Client) (refs : List ObjectRef) (ps : List Proxy) : Prop :=
  List.Forall₂ (fun ref p => c.standing? s ref.id = some p) refs ps

theorem Named.keep {refs : List ObjectRef} {ps : List Proxy} (h : Named s c refs ps)
    (hkeeps : Keeps s c c') : Named s c' refs ps :=
  h.imp fun ref p hp => hkeeps.standing ref.id p hp

mutual

/-- The value of a reply holds the proxies that stand for the objects that it names. -/
theorem resolve_standing (t : Tag) (m : Message) {v : Value} {c c' : Client}
    (hs : c.sessions[s]?.isSome = true) (h : resolve s t m c = .ok v c') :
    Keeps s c c' ∧ Named s c' m.refs v.proxies := by
  cases m with
  | object ref =>
    cases h
    exact ⟨keeps_objectFor ref.id ref.className, .cons (standing_objectFor hs ..) .nil⟩
  | objectArray items =>
    unfold resolve at h
    obtain ⟨vs, mid, hitems, hpure⟩ := bind_ok.mp h
    obtain ⟨hv, hc⟩ := pure_ok.mp hpure
    subst hv hc
    obtain ⟨fresh, rfl, hkeeps, hnamed⟩ := resolveAll_standing t items [] hs hitems
    exact ⟨hkeeps, hnamed⟩
  | null | bool | byte | int32 | int64 | float64 | string | vector | matrix | boolArray |
    byteArray | int32Array | int64Array | float64Array | stringArray =>
    cases h
    exact ⟨.refl, .nil⟩
  | exception | create | callStaticMethod | callMethod | getProperty | getIndexedProperty |
    getIndexed | setProperty | getStaticProperty | setStaticProperty | protect | release |
    templateReq | templateReply =>
    unfold resolve at h
    exact absurd h throw_ok

theorem resolveAll_standing (t : Tag) (ms : List Message) (done : List Value) {vs : List Value}
    {c c' : Client} (hs : c.sessions[s]?.isSome = true) (h : resolveAll s t ms done c = .ok vs c') :
    ∃ fresh, vs = done.reverse ++ fresh ∧ Keeps s c c' ∧
      Named s c' (Message.refsOfAll ms) (Value.proxiesOfAll fresh) := by
  cases ms with
  | nil =>
    unfold resolveAll at h
    obtain ⟨hvs, hc⟩ := pure_ok.mp h
    subst hvs hc
    exact ⟨[], (List.append_nil _).symm, .refl, .nil⟩
  | cons m ms =>
    unfold resolveAll at h
    cases hresolve : resolve s t m c with
    | error fault mid =>
      rw [hresolve] at h
      cases h
    | ok v mid =>
      rw [hresolve] at h
      obtain ⟨hkeeps, hnamed⟩ := resolve_standing t m hs hresolve
      obtain ⟨fresh, rfl, hkeeps', hnamed'⟩ := resolveAll_standing t ms (v :: done)
        (hkeeps.session hs) h
      refine ⟨v :: fresh, ?_, hkeeps.trans hkeeps', ?_⟩
      · rw [List.reverse_cons, List.append_assoc, List.singleton_append]
      · exact List.rel_append (hnamed.keep hkeeps') hnamed'

end

theorem exchange_cells {m reply : Message} {mid : Client} (h : exchange s m c = .ok reply mid) :
    mid.cells = c.cells := by
  have hcells := cells_onSession (c := c) s (Session.exchange m)
  unfold exchange at h
  rw [h] at hcells
  exact hcells

theorem runs_exchange {m reply : Message} {mid : Client} (hm : m.awaitsReply = true)
    (h : exchange s m c = .ok reply mid) : Runs (fun _ d => d.isRelease = false) c mid := by
  have hleads : Leads (fun _ d => d.isRelease = false) c [] Anything (exchange s m c) :=
    leads_exchange hm (.inl fun _ _ hd => hd)
  rw [h] at hleads
  exact hleads.1

theorem keeps_exchange {m reply : Message} (h : exchange s m c = .ok reply c') :
    Keeps s c c' ∧ c'.sessions[s]?.isSome = true := by
  obtain ⟨session, session', hs, hstep, rfl⟩ := onSession_ok h
  obtain ⟨_, _, channel, _, _, rfl⟩ := Session.exchange_ok hstep
  have hsession := getElem?_replaced hs
    { session with channel, answers := (m, reply) :: session.answers }
  refine ⟨⟨fun _ => ?_, fun id p hp => ?_⟩, ?_⟩
  · rw [hsession, if_pos rfl]
    rfl
  · obtain ⟨found, key, cell, hfound, hkey, hrest⟩ := standing?_eq_some.mp hp
    rw [hs, Option.some.injEq] at hfound
    subst hfound
    refine standing?_eq_some.mpr
      ⟨{ session with channel, answers := (m, reply) :: session.answers }, key, cell, ?_, hkey, hrest⟩
    rw [hsession, if_pos rfl]
  · rw [hsession, if_pos rfl]
    rfl

end Client

end ObjectBridge
