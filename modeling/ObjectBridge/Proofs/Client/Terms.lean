import ObjectBridge.Proofs.Client.OnWire
import ObjectBridge.Proofs.Client.ProxyTable

/-!
# The terms of proxies

A proxy has its place among the requests of its session: it was made after `Cell.since` of them. From there
on nothing releases its object as long as the proxy is live, as only the proxy itself would and there is
no other live one (`Traced.quiet`). So a request that names an object by a live proxy falls into a term of
the object: a proxy was made for it before, and no release was sent since (`Traced.named`). When a proxy lets
go while the session is up, its own release is sent, before any later proxy of the object is made
(`Settled`).
-/

namespace ObjectBridge

/-- No release of an object among the requests from one number up to another. -/
def Silent (told : List Message) (id : Int32) (start stop : Nat) : Prop :=
  ∀ k, start ≤ k → k < stop → told[k]? ≠ some (.release id)

theorem Silent.append {told : List Message} {id : Int32} {start stop : Nat} (h : Silent told id start stop)
    (hstop : stop ≤ told.length) (more : List Message) : Silent (told ++ more) id start stop := by
  intro k hk hlt
  rw [List.getElem?_append_left (Nat.lt_of_lt_of_le hlt hstop)]
  exact h k hk hlt

/-- When a request has the number `n`, its object was taken up before and not released since. -/
def Covers (s : Nat) (told : List Message) (cells : Array Cell) (id : Int32) (n : Nat) : Prop :=
  ∃ (key : Nat) (cell : Cell), cells[key]? = some cell ∧ cell.isOf s id = true ∧ cell.since ≤ n ∧
    Silent told id cell.since n

/-- The proxies of a session among its requests: `told` are those sent in full, the earliest first, and `cut`
is the one that was cut off, if there is one. The requests that are `watched` fall into terms of all objects
that they name. -/
structure Traced (watched : Message → Prop) (s : Nat) (told : List Message) (cut : Option Message)
    (cells : Array Cell) : Prop where
  since_le : ∀ (key : Nat) (cell : Cell), cells[key]? = some cell → cell.proxy.session = s →
    cell.since ≤ told.length
  ordered : ∀ (key key' : Nat) (cell cell' : Cell), cells[key]? = some cell →
    cells[key']? = some cell' → cell.proxy.session = s → cell'.proxy.session = s → key ≤ key' →
    cell.since ≤ cell'.since
  newest : ∀ (id : Int32) (key key' : Nat) (cell cell' : Cell), cells[key]? = some cell →
    cells[key']? = some cell' → cell.isOf s id = true → cell'.isOf s id = true →
    cell.released = false → key' ≤ key
  quiet : ∀ (id : Int32) (key : Nat) (cell : Cell), cells[key]? = some cell → cell.isOf s id = true →
    cell.released = false → Silent told id cell.since told.length
  named : ∀ (n : Nat) (m : Message), (told ++ cut.toList)[n]? = some m → watched m → ∀ id ∈ m.handles,
    Covers s told cells id n

/-- Every proxy that has let go of its object has sent a release in its own term, before any later proxy was
made for the object. -/
def Settled (s : Nat) (told : List Message) (cells : Array Cell) : Prop :=
  ∀ (key : Nat) (cell : Cell), cells[key]? = some cell → cell.proxy.session = s → cell.released = true →
    ∃ n, cell.since ≤ n ∧ told[n]? = some (.release cell.proxy.id) ∧
      ∀ (key' : Nat) (cell' : Cell), cells[key']? = some cell' → cell'.isOf s cell.proxy.id = true →
        key < key' → n < cell'.since

theorem getElem?_push_cases {α : Type} {xs : Array α} {new found : α} {i : Nat}
    (h : (xs.push new)[i]? = some found) : (i = xs.size ∧ found = new) ∨ xs[i]? = some found := by
  rw [Array.getElem?_push] at h
  split at h
  · rename_i hi
    exact .inl ⟨hi, (Option.some.inj h).symm⟩
  · exact .inr h

theorem getElem?_push_old {α : Type} {xs : Array α} {found : α} {i : Nat} (h : xs[i]? = some found)
    (new : α) : (xs.push new)[i]? = some found := by
  obtain ⟨hlt, _⟩ := Array.getElem?_eq_some_iff.mp h
  rw [Array.getElem?_push, if_neg (Nat.ne_of_lt hlt), h]

theorem getElem?_concat_cases {α : Type} {xs : List α} {new found : α} {i : Nat}
    (h : (xs ++ [new])[i]? = some found) :
    (i = xs.length ∧ found = new) ∨ i < xs.length ∧ xs[i]? = some found := by
  have hi : i < xs.length + 1 := by
    simpa only [List.length_append, List.length_singleton] using (List.getElem?_eq_some_iff.mp h).1
  obtain hlt | heq := Nat.lt_or_eq_of_le (Nat.le_of_lt_succ hi)
  · rw [List.getElem?_append_left hlt] at h
    exact .inr ⟨hlt, h⟩
  · rw [heq, List.getElem?_concat_length, Option.some.injEq] at h
    exact .inl ⟨heq, h.symm⟩

/-! ### A request more -/

namespace Covers

variable {s : Nat} {told : List Message} {cells : Array Cell} {id : Int32} {n : Nat}

theorem append (h : Covers s told cells id n) (hn : n ≤ told.length) (more : List Message) :
    Covers s (told ++ more) cells id n := by
  obtain ⟨key, cell, hcell, hof, hsince, hsilent⟩ := h
  exact ⟨key, cell, hcell, hof, hsince, hsilent.append hn more⟩

theorem push (h : Covers s told cells id n) (new : Cell) : Covers s told (cells.push new) id n := by
  obtain ⟨key, cell, hcell, hrest⟩ := h
  exact ⟨key, cell, getElem?_push_old hcell new, hrest⟩

theorem replace {key : Nat} {old new : Cell} (h : Covers s told cells id n) (hold : cells[key]? = some old)
    (hproxy : new.proxy = old.proxy) (hsince : new.since = old.since) :
    Covers s told (cells.setIfInBounds key new) id n := by
  obtain ⟨place, cell, hcell, hof, hrest⟩ := h
  by_cases hkey : key = place
  · subst hkey
    rw [hold, Option.some.injEq] at hcell
    subst hcell
    refine ⟨key, new, by rw [getElem?_replaced hold, if_pos rfl], ?_, ?_⟩
    · rw [Cell.isOf_congr hproxy, hof]
    · rw [hsince]
      exact hrest
  · exact ⟨place, cell, by rw [getElem?_replaced hold, if_neg hkey, hcell], hof, hrest⟩

end Covers

namespace Traced

variable {watched : Message → Prop} {s : Nat} {told : List Message} {cut : Option Message}
  {cells : Array Cell} {m : Message}

/-- A request that falls into terms of all objects that it names may follow, and so may a release when no
proxy of its object is live any more. -/
theorem whole (h : Traced watched s told none cells)
    (hreleased : ∀ id, m = .release id → ∀ (key : Nat) (cell : Cell), cells[key]? = some cell →
      cell.isOf s id = true → cell.released = true)
    (hnamed : watched m → ∀ id ∈ m.handles, Covers s told cells id told.length) :
    Traced watched s (told ++ [m]) none cells := by
  refine ⟨fun key cell hcell hs => ?_, h.ordered, h.newest, ?_, ?_⟩
  · have hsince := h.since_le key cell hcell hs
    rw [List.length_append]
    omega
  · intro id key cell hcell hof hlive k hstart _ hrelease
    obtain ⟨_, hnew⟩ | ⟨hlt, hold⟩ := getElem?_concat_cases hrelease
    · rw [hreleased id hnew.symm key cell hcell hof] at hlive
      cases hlive
    · exact h.quiet id key cell hcell hof hlive k hstart hlt hold
  · intro n m' hn hm' id hid
    rw [Option.toList_none, List.append_nil] at hn
    obtain ⟨rfl, rfl⟩ | ⟨hlt, hold⟩ := getElem?_concat_cases hn
    · exact (hnamed hm' id hid).append (Nat.le_refl _) [m']
    · rw [← List.append_nil told] at hold
      exact (h.named n m' hold hm' id hid).append (Nat.le_of_lt hlt) [m]

theorem part (h : Traced watched s told none cells)
    (hnamed : watched m → ∀ id ∈ m.handles, Covers s told cells id told.length) :
    Traced watched s told (some m) cells := by
  refine ⟨h.since_le, h.ordered, h.newest, h.quiet, ?_⟩
  intro n m' hn hm' id hid
  rw [Option.toList_some] at hn
  obtain ⟨rfl, rfl⟩ | ⟨_, hold⟩ := getElem?_concat_cases hn
  · exact hnamed hm' id hid
  · rw [← List.append_nil told] at hold
    exact h.named n m' hold hm' id hid

theorem record {session session' : Session} {request : Option Message} {cut' : Option Message}
    (h : Traced watched s session.requests cut cells)
    (hrecords : Session.Records request session cut session' cut')
    (hreleased : ∀ id, request = some (.release id) → ∀ (key : Nat) (cell : Cell),
      cells[key]? = some cell → cell.isOf s id = true → cell.released = true)
    (hnamed : ∀ m, request = some m → watched m → ∀ id ∈ m.handles,
      Covers s session.requests cells id session.requests.length) :
    Traced watched s session'.requests cut' cells := by
  cases hrecords with
  | nothing hsent =>
    rw [hsent]
    exact h
  | whole m hm hcut hsent =>
    subst hcut
    rw [hsent]
    refine h.whole (fun id hid => hreleased id ?_) (hnamed m hm)
    rw [hm, hid]
  | part m hm hcut hsent hdown =>
    subst hcut
    rw [hsent]
    exact h.part (hnamed m hm)

/-! ### A proxy more, or a proxy that changes -/

theorem push {new : Cell} (h : Traced watched s told cut cells)
    (hnew : new.proxy.session = s → new.since = told.length)
    (hlive : ∀ id, new.isOf s id = true → ∀ (key : Nat) (cell : Cell), cells[key]? = some cell →
      cell.isOf s id = true → cell.released = true) :
    Traced watched s told cut (cells.push new) := by
  have hsize {key : Nat} {cell : Cell} (hcell : cells[key]? = some cell) : key < cells.size :=
    (Array.getElem?_eq_some_iff.mp hcell).1
  refine ⟨?_, ?_, ?_, ?_, fun n m hn hm id hid => (h.named n m hn hm id hid).push new⟩
  · intro key cell hcell hs
    obtain ⟨_, rfl⟩ | hold := getElem?_push_cases hcell
    · exact Nat.le_of_eq (hnew hs)
    · exact h.since_le key cell hold hs
  · intro key key' cell cell' hcell hcell' hs hs' hle
    obtain ⟨rfl, rfl⟩ | hold := getElem?_push_cases hcell
    · obtain ⟨_, rfl⟩ | hold' := getElem?_push_cases hcell'
      · exact Nat.le_refl _
      · exact absurd (hsize hold') (Nat.not_lt.mpr hle)
    · obtain ⟨_, rfl⟩ | hold' := getElem?_push_cases hcell'
      · rw [hnew hs']
        exact h.since_le key cell hold hs
      · exact h.ordered key key' cell cell' hold hold' hs hs' hle
  · intro id key key' cell cell' hcell hcell' hof hof' hcellLive
    obtain ⟨rfl, rfl⟩ | hold := getElem?_push_cases hcell
    · obtain ⟨rfl, _⟩ | hold' := getElem?_push_cases hcell'
      · exact Nat.le_refl _
      · exact Nat.le_of_lt (hsize hold')
    · obtain ⟨_, rfl⟩ | hold' := getElem?_push_cases hcell'
      · rw [hlive id hof' key cell hold hof] at hcellLive
        cases hcellLive
      · exact h.newest id key key' cell cell' hold hold' hof hof' hcellLive
  · intro id key cell hcell hof hcellLive
    obtain ⟨_, rfl⟩ | hold := getElem?_push_cases hcell
    · intro k hstart hk
      rw [hnew (Cell.isOf_iff.mp hof).1] at hstart
      exact absurd hk (Nat.not_lt.mpr hstart)
    · exact h.quiet id key cell hold hof hcellLive

/-- A proxy may change as it likes, but that it never takes its object back. -/
theorem replace {key : Nat} {old new : Cell} (h : Traced watched s told cut cells)
    (hold : cells[key]? = some old) (hproxy : new.proxy = old.proxy) (hsince : new.since = old.since)
    (hgone : old.released = true → new.released = true) :
    Traced watched s told cut (cells.setIfInBounds key new) := by
  -- Every cell has one before it with the same proxy and time, which was live if the cell still is.
  have hbefore {place : Nat} {cell : Cell} (hcell : (cells.setIfInBounds key new)[place]? = some cell) :
      ∃ cell', cells[place]? = some cell' ∧ cell.proxy = cell'.proxy ∧ cell.since = cell'.since ∧
        (cell.released = false → cell'.released = false) := by
    obtain ⟨rfl, rfl⟩ | hsame := getElem?_replaced_cases hold hcell
    · refine ⟨old, hold, hproxy, hsince, fun hlive => ?_⟩
      rw [← Bool.not_eq_true]
      intro hreleased
      rw [hgone hreleased] at hlive
      cases hlive
    · exact ⟨cell, hsame, rfl, rfl, id⟩
  refine ⟨?_, ?_, ?_, ?_, fun n m hn hm id hid => (h.named n m hn hm id hid).replace hold hproxy hsince⟩
  · intro place cell hcell hs
    obtain ⟨cell', hcell', hp, ht, _⟩ := hbefore hcell
    rw [hp] at hs
    rw [ht]
    exact h.since_le place cell' hcell' hs
  · intro place place' cell cell' hcell hcell' hs hs' hle
    obtain ⟨first, hfirst, hp, ht, _⟩ := hbefore hcell
    obtain ⟨second, hsecond, hp', ht', _⟩ := hbefore hcell'
    rw [hp] at hs
    rw [hp'] at hs'
    rw [ht, ht']
    exact h.ordered place place' first second hfirst hsecond hs hs' hle
  · intro id place place' cell cell' hcell hcell' hof hof' hlive
    obtain ⟨first, hfirst, hp, _, hfirstLive⟩ := hbefore hcell
    obtain ⟨second, hsecond, hp', _, _⟩ := hbefore hcell'
    rw [Cell.isOf_congr hp] at hof
    rw [Cell.isOf_congr hp'] at hof'
    exact h.newest id place place' first second hfirst hsecond hof hof' (hfirstLive hlive)
  · intro id place cell hcell hof hlive
    obtain ⟨cell', hcell', hp, ht, hcellLive⟩ := hbefore hcell
    rw [Cell.isOf_congr hp] at hof
    rw [ht]
    exact h.quiet id place cell' hcell' hof (hcellLive hlive)

/-- Two releases of one object stand in different terms: another proxy was made between them. -/
theorem between (h : Traced watched s told cut cells) (hwatched : ∀ id, watched (.release id)) {id : Int32}
    {n n' : Nat} (hn : told[n]? = some (.release id)) (hn' : told[n']? = some (.release id))
    (hlt : n < n') : ∃ (key : Nat) (cell : Cell), cells[key]? = some cell ∧ cell.isOf s id = true ∧
      n < cell.since ∧ cell.since ≤ n' := by
  have hlength : n' < told.length := (List.getElem?_eq_some_iff.mp hn').1
  have htold : (told ++ cut.toList)[n']? = some (.release id) := by
    rw [List.getElem?_append_left hlength, hn']
  obtain ⟨key, cell, hcell, hof, hsince, hsilent⟩ :=
    h.named n' (.release id) htold (hwatched id) id (List.mem_singleton_self id)
  refine ⟨key, cell, hcell, hof, ?_, hsince⟩
  by_contra hle
  exact hsilent n (Nat.le_of_not_lt hle) hlt hn

end Traced

/-! ### Own releases -/

namespace Settled

variable {s : Nat} {told : List Message} {cells : Array Cell}

theorem append (h : Settled s told cells) (more : List Message) : Settled s (told ++ more) cells := by
  intro key cell hcell hs hreleased
  obtain ⟨n, hsince, hn, hlater⟩ := h key cell hcell hs hreleased
  refine ⟨n, hsince, ?_, hlater⟩
  rw [List.getElem?_append_left (List.getElem?_eq_some_iff.mp hn).1, hn]

theorem push {new : Cell} (h : Settled s told cells) (hlive : new.released = false)
    (hnew : new.proxy.session = s → new.since = told.length) : Settled s told (cells.push new) := by
  intro key cell hcell hs hreleased
  obtain ⟨_, rfl⟩ | hold := getElem?_push_cases hcell
  · rw [hlive] at hreleased
    cases hreleased
  · obtain ⟨n, hsince, hn, hlater⟩ := h key cell hold hs hreleased
    refine ⟨n, hsince, hn, fun key' cell' hcell' hof' hkey => ?_⟩
    obtain ⟨_, rfl⟩ | hold' := getElem?_push_cases hcell'
    · rw [hnew (Cell.isOf_iff.mp hof').1]
      exact (List.getElem?_eq_some_iff.mp hn).1
    · exact hlater key' cell' hold' hof' hkey

/-- A proxy may change, and let go of its object if that has its own release. -/
theorem replace {key : Nat} {old new : Cell} (h : Settled s told cells) (hold : cells[key]? = some old)
    (hproxy : new.proxy = old.proxy) (hsince : new.since = old.since)
    (hgone : old.proxy.session = s → new.released = true → old.released = false →
      ∃ n, old.since ≤ n ∧ told[n]? = some (.release old.proxy.id) ∧
        ∀ (key' : Nat) (cell' : Cell), cells[key']? = some cell' →
          cell'.isOf s old.proxy.id = true → key < key' → n < cell'.since) :
    Settled s told (cells.setIfInBounds key new) := by
  have hbefore {place : Nat} {cell : Cell} (hcell : (cells.setIfInBounds key new)[place]? = some cell) :
      ∃ cell', cells[place]? = some cell' ∧ cell.proxy = cell'.proxy ∧ cell.since = cell'.since := by
    obtain ⟨rfl, rfl⟩ | hsame := getElem?_replaced_cases hold hcell
    · exact ⟨old, hold, hproxy, hsince⟩
    · exact ⟨cell, hsame, rfl, rfl⟩
  intro place cell hcell hs hreleased
  obtain ⟨cell', hcell', hp, ht⟩ := hbefore hcell
  rw [hp] at hs ⊢
  rw [ht]
  have hown : ∃ n, cell'.since ≤ n ∧ told[n]? = some (.release cell'.proxy.id) ∧
      ∀ (key' : Nat) (later : Cell), cells[key']? = some later →
        later.isOf s cell'.proxy.id = true → place < key' → n < later.since := by
    cases hlive : cell'.released with
    | true => exact h place cell' hcell' hs hlive
    | false =>
      obtain ⟨rfl, rfl⟩ | hsame := getElem?_replaced_cases hold hcell
      · rw [hold, Option.some.injEq] at hcell'
        subst hcell'
        exact hgone hs hreleased hlive
      · rw [hcell', Option.some.injEq] at hsame
        rw [hsame, hreleased] at hlive
        cases hlive
  obtain ⟨n, hsince', hn, hlater⟩ := hown
  refine ⟨n, hsince', hn, fun key' later hfound hof hkey => ?_⟩
  obtain ⟨later', hlater', hp', ht'⟩ := hbefore hfound
  rw [Cell.isOf_congr hp'] at hof
  rw [ht']
  exact hlater key' later' hlater' hof hkey

end Settled

/-! ### Steps -/

namespace Session

theorem Deed.isRelease_of_request {d : Deed} {id : Int32} (hfits : d.Fits)
    (h : d.request? = some (.release id)) : d.isRelease = true := by
  cases d with
  | post m =>
    cases h
    rfl
  | exchange m =>
    cases h
    cases hfits
  | close => cases h

theorem requests_release {s : Session} {id : Int32} (h : (after (post (.release id) s)).isUp = true) :
    (after (post (.release id) s)).requests = s.requests ++ [.release id] := by
  by_cases hup : s.standing = .up
  · obtain ⟨channel, hsend, heq⟩ | ⟨channel, cause, _, heq⟩ | ⟨hfault, _⟩ := post_cases (.release id) hup
    · rw [heq, requests, (Channel.send_ok hsend).2.2.2.2, List.reverse_cons]
      rfl
    · rw [heq] at h
      cases isUp_iff.mp h
    · exact absurd rfl hfault
  · rw [post_of_down _ hup] at h
    exact absurd (isUp_iff.mp h) hup

end Session

namespace Client

variable {free : Nat → Session.Deed → Prop} {watched : Message → Prop} {delivered : List UInt8} {s : Nat}
  {c c' : Client}

/-- The proxies of a session have their places among its requests. -/
def Placed (watched : Message → Prop) (delivered : List UInt8) (s : Nat) (c : Client) : Prop :=
  ∀ session, c.sessions[s]? = some session → ∃ cut, session.OnWire delivered cut ∧
    Traced watched s session.requests cut c.cells ∧
    (session.isUp = true → Settled s session.requests c.cells)

theorem isRelease_of_free (hfree : ∀ d m, d.Fits → free s d → d.request? = some m → ¬ watched m)
    (hwatched : ∀ id, watched (.release id)) (d : Session.Deed) (h : free s d) : d.isRelease = false := by
  cases d with
  | post m =>
    cases m with
    | release id => exact absurd (hwatched id) (hfree (.post (.release id)) _ rfl h rfl)
    | _ => rfl
  | exchange | close => rfl

theorem Step.placed (h : Step free c c')
    (hfree : ∀ d m, d.Fits → free s d → d.request? = some m → ¬ watched m)
    (hwatched : ∀ id, watched (.release id))
    (ha : c.Accounted s) (hp : c.Placed watched delivered s) : c'.Placed watched delivered s := by
  intro found hs
  cases h with
  | ask t session d ht hfits hallowed =>
    obtain ⟨rfl, rfl⟩ | hsame := getElem?_replaced_cases ht hs
    · obtain ⟨cut, hwire, htraced, hsettled⟩ := hp session ht
      obtain ⟨cut', hwire', hrecords⟩ := d.record hwire
      refine ⟨cut', hwire', htraced.record hrecords ?_ ?_, fun hup => ?_⟩
      · -- A release is watched, so it would have to be free or backed, and is neither.
        intro id hid
        obtain hfreed | hbacked := hallowed
        · exact absurd (hwatched id) (hfree d _ hfits hfreed hid)
        · have hrelease := Session.Deed.isRelease_of_request hfits hid
          rw [hbacked.1] at hrelease
          cases hrelease
      · intro m hm hwatch id hid
        obtain hfreed | ⟨_, m', hm', hbacked⟩ := hallowed
        · exact absurd hwatch (hfree d m hfits hfreed hm)
        · rw [hm, Option.some.injEq] at hm'
          subst hm'
          obtain ⟨p, ⟨cell, hcell, hproxy⟩, hps, hpid, hlive⟩ := hbacked id hid
          have hof : cell.isOf t id = true := by rw [Cell.isOf_iff, hproxy]; exact ⟨hps, hpid⟩
          have hcellLive : cell.released = false := by simpa only [isReleased, hcell] using hlive
          exact ⟨p.key, cell, hcell, hof, htraced.since_le p.key cell hcell (Cell.isOf_iff.mp hof).1,
            htraced.quiet id p.key cell hcell hof hcellLive⟩
      · have hbefore : session.isUp = true := d.isUp_of_run hfits hup
        cases hrecords with
        | nothing hsent =>
          rw [hsent]
          exact hsettled hbefore
        | whole m hm hcut hsent =>
          rw [hsent]
          exact (hsettled hbefore).append [m]
        | part m hm hcut hsent hdown =>
          rw [hdown] at hup
          cases hup
    · exact hp found hsame
  | tend t session session' ht htended =>
    obtain ⟨rfl, rfl⟩ | hsame := getElem?_replaced_cases ht hs
    · obtain ⟨cut, hwire, htraced, hsettled⟩ := hp session ht
      have hrequests : found.requests = session.requests := by
        rw [Session.requests, htended.channel, Session.requests]
      rw [hrequests, Session.isUp, htended.standing]
      exact ⟨cut, hwire.congr htended.channel htended.standing, htraced, hsettled⟩
    · exact hp found hsame
  | make t id className h =>
    rw [objectFor_of_none className h] at hs ⊢
    dsimp only [modifySession] at hs ⊢
    rw [Array.getElem?_modify] at hs
    split at hs
    · rename_i hst
      obtain ⟨session, hsession, rfl⟩ := Option.map_eq_some_iff.mp hs
      subst hst
      obtain ⟨cut, hwire, htraced, hsettled⟩ := hp session hsession
      have hsince : c.sentBy t = session.requests.length := by
        simp only [sentBy, hsession, Session.requests, List.length_reverse]
      refine ⟨cut, hwire.congr rfl rfl, htraced.push (fun _ => hsince) fun other hof key cell hcell hcellOf => ?_,
        fun hup => (hsettled hup).push rfl fun _ => hsince⟩
      have hid : id = other := (Cell.isOf_iff.mp hof).2
      rw [← hid] at hcellOf
      exact ha.listing.released_of_standing hsession h key cell hcell hcellOf
    · rename_i hst
      obtain ⟨cut, hwire, htraced, hsettled⟩ := hp found hs
      refine ⟨cut, hwire, htraced.push (fun hts => absurd hts hst) fun other hof => ?_,
        fun hup => (hsettled hup).push rfl fun hts => absurd hts hst⟩
      exact absurd (Cell.isOf_iff.mp hof).1 hst
  | adjust key old new h hnew =>
    obtain ⟨cut, hwire, htraced, hsettled⟩ := hp found hs
    refine ⟨cut, hwire, htraced.replace h hnew.proxy hnew.since fun hreleased => ?_, fun hup =>
      (hsettled hup).replace h hnew.proxy hnew.since fun _ hreleased hlive => ?_⟩
    · rw [hnew.released, hreleased]
    · rw [hnew.released, hlive] at hreleased
      cases hreleased
  | letGo key old new h hnew =>
    dsimp only [told] at hs
    rw [Array.getElem?_modify] at hs
    split at hs
    · rename_i hst
      obtain ⟨session, hsession, rfl⟩ := Option.map_eq_some_iff.mp hs
      obtain ⟨cut, hwire, htraced, hsettled⟩ := hp session hsession
      have hforget : (session.forget old.proxy).OnWire delivered cut := hwire.congr rfl rfl
      obtain ⟨cut', hwire', hrecords⟩ := (Session.Deed.post (.release old.proxy.id)).record hforget
      have hcells : Traced watched s (session.forget old.proxy).requests cut
          (c.cells.setIfInBounds key new) :=
        htraced.replace h hnew.proxy hnew.since fun _ => hnew.after
      have hof : old.isOf s old.proxy.id = true := Cell.isOf_iff.mpr ⟨hst, rfl⟩
      have hsince := htraced.since_le key old h hst
      refine ⟨cut', hwire', hcells.record hrecords ?_ ?_, fun hup => ?_⟩
      · intro id hid place cell hcell hcellOf
        cases hid
        obtain ⟨_, rfl⟩ | hsame := getElem?_replaced_cases h hcell
        · exact hnew.after
        · -- Another live proxy of the object would have to be both older and newer.
          by_contra hlive
          rw [Bool.not_eq_true] at hlive
          have hle := htraced.newest _ key place old cell h hsame hof hcellOf hnew.before
          have hge := htraced.newest _ place key cell old hsame h hcellOf hof hlive
          have hkey : key = place := Nat.le_antisymm hge hle
          rw [← hkey, getElem?_replaced h, if_pos rfl, Option.some.injEq] at hcell
          rw [← hcell, hnew.after] at hlive
          cases hlive
      · intro m hm _ id hid
        cases hm
        obtain rfl : id = old.proxy.id := List.mem_singleton.mp hid
        refine Covers.replace ?_ h hnew.proxy hnew.since
        exact ⟨key, old, h, hof, hsince, htraced.quiet _ key old h hof hnew.before⟩
      · have hrequests := Session.requests_release hup
        have hbefore : (session.forget old.proxy).isUp = true :=
          (Session.Deed.post (.release old.proxy.id)).isUp_of_run rfl hup
        rw [hrequests]
        refine ((hsettled hbefore).append [.release old.proxy.id]).replace h hnew.proxy hnew.since
          fun _ _ _ => ⟨session.requests.length, hsince, List.getElem?_concat_length, ?_⟩
        intro key' later hlater hlaterOf hkey
        exact absurd (htraced.newest _ key key' old later h hlater hof hlaterOf hnew.before)
          (Nat.not_le.mpr hkey)
    · rename_i hst
      obtain ⟨cut, hwire, htraced, hsettled⟩ := hp found hs
      exact ⟨cut, hwire, htraced.replace h hnew.proxy hnew.since fun _ => hnew.after, fun hup =>
        (hsettled hup).replace h hnew.proxy hnew.since fun hs => absurd hs hst⟩

theorem Runs.placed (h : Runs free c c')
    (hfree : ∀ d m, d.Fits → free s d → d.request? = some m → ¬ watched m)
    (hwatched : ∀ id, watched (.release id))
    (hc : c.Sound) (ha : c.Accounted s) (hp : c.Placed watched delivered s) :
    c'.Placed watched delivered s := by
  induction h with
  | refl => exact hp
  | tail hruns hstep ih =>
    have haccounted := Runs.accounted hruns (isRelease_of_free hfree hwatched) hc ha
    exact hstep.placed hfree hwatched haccounted ih

/-- Of a proxy that has let go of its object, in a session that is up, exactly one release stands in its
term: not before the proxy was made, and before any later one was. -/
theorem Placed.exactly_once (hp : c.Placed watched delivered s) (hwatched : ∀ id, watched (.release id))
    {session : Session} (hs : c.sessions[s]? = some session) (hup : session.isUp = true) {key : Nat}
    {cell : Cell} (hcell : c.cells[key]? = some cell) (hcs : cell.proxy.session = s)
    (hreleased : cell.released = true) :
    ∃! n, cell.since ≤ n ∧ session.requests[n]? = some (.release cell.proxy.id) ∧
      ∀ (key' : Nat) (cell' : Cell), c.cells[key']? = some cell' → cell'.isOf s cell.proxy.id = true →
        key < key' → n < cell'.since := by
  obtain ⟨cut, _, htraced, hsettled⟩ := hp session hs
  -- Between two of them another proxy would have been made, later than this one and not before the second.
  have hone {n n' : Nat} (hsince : cell.since ≤ n)
      (hn : session.requests[n]? = some (.release cell.proxy.id))
      (hn' : session.requests[n']? = some (.release cell.proxy.id))
      (hlater : ∀ (key' : Nat) (cell' : Cell), c.cells[key']? = some cell' →
        cell'.isOf s cell.proxy.id = true → key < key' → n' < cell'.since) : ¬ n < n' := by
    intro hlt
    obtain ⟨key', cell', hcell', hof, hgt, hle⟩ := htraced.between hwatched hn hn' hlt
    have hkey : key < key' := by
      by_contra hge
      have hbefore := htraced.ordered key' key cell' cell hcell' hcell (Cell.isOf_iff.mp hof).1 hcs
        (Nat.le_of_not_lt hge)
      omega
    have hafter := hlater key' cell' hcell' hof hkey
    omega
  obtain ⟨n, hsince, hn, hlater⟩ := hsettled hup key cell hcell hcs hreleased
  refine ⟨n, ⟨hsince, hn, hlater⟩, fun n' hother => ?_⟩
  obtain ⟨hsince', hn', hlater'⟩ := hother
  exact Nat.le_antisymm (Nat.le_of_not_lt (hone hsince hn hn' hlater'))
    (Nat.le_of_not_lt (hone hsince' hn' hn hlater))

theorem placed_fresh (hcells : c.cells = #[])
    (hsessions : ∀ session, c.sessions[s]? = some session →
      session.Fresh ∧ session.channel.writer.sink.accepted = delivered) :
    c.Placed watched delivered s := by
  intro session hs
  obtain ⟨hfresh, rfl⟩ := hsessions session hs
  have hrequests : session.requests = [] := by
    obtain ⟨source, sink, hchannel⟩ := hfresh.channel
    rw [Session.requests, hchannel]
    rfl
  refine ⟨none, hfresh.onWire, ?_, fun _ => ?_⟩
  · rw [hcells, hrequests]
    refine ⟨?_, ?_, ?_, ?_, ?_⟩
    · intro key cell hcell
      cases hcell
    · intro key key' cell cell' hcell
      cases hcell
    · intro id key key' cell cell' hcell
      cases hcell
    · intro id key cell hcell
      cases hcell
    · intro n m hm
      cases hm
  · rw [hcells]
    intro key cell hcell
    cases hcell

end Client

end ObjectBridge
