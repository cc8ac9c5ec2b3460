import ObjectBridge.Proofs.Client.Listing

/-!
# Proxies and releases

As long as nobody sends releases past the proxies, the releases that a session has sent are a matter of the
cells alone, as its table always is (`Entered`): while the session is up it has sent one release for each
proxy that has let go of its object. Every step preserves this, since the releases sent meanwhile are those
of the proxies that let go meanwhile (`Step.tallied`).
-/

namespace ObjectBridge

namespace Session

/-- Posting a release always sends it, unless the session is not up or breaks. -/
theorem post_release (s : Session) (id : Int32) :
    (∀ other, (after (post (.release id) s)).releases other ≤
        s.releases other + (if id = other then 1 else 0)) ∧
      ((after (post (.release id) s)).isUp = true → s.isUp = true ∧
        ∀ other, (after (post (.release id) s)).releases other =
          s.releases other + (if id = other then 1 else 0)) := by
  by_cases hup : s.standing = .up
  · obtain ⟨channel, hsend, heq⟩ | ⟨channel, cause, hsent, heq⟩ | ⟨hfault, _⟩ :=
      post_cases (.release id) hup
    · have hsent := (Channel.send_ok hsend).2.2.2.2
      have hcount (other : Int32) : ({ s with channel } : Session).releases other =
          s.releases other + (if id = other then 1 else 0) := by
        rw [releases, hsent, List.countP_cons, releases]
        simp only [isReleaseOf, beq_iff_eq]
      rw [heq]
      exact ⟨fun other => Nat.le_of_eq (hcount other), fun _ => ⟨isUp_iff.mpr hup, hcount⟩⟩
    · rw [heq]
      refine ⟨fun other => ?_, fun hup' => ?_⟩
      · rw [releases, hsent]
        exact Nat.le_add_right _ _
      · cases isUp_iff.mp hup'
    · exact absurd rfl hfault
  · rw [post_of_down _ hup]
    refine ⟨fun other => Nat.le_add_right _ _, fun hup' => ?_⟩
    exact absurd (isUp_iff.mp hup') hup

end Session

/-! ### Proxies that have let go -/

def letGone (cells : Array Cell) (s : Nat) (id : Int32) : Nat :=
  cells.countP fun cell => cell.isOf s id && cell.released

section LetGone

variable {s : Nat} {cells : Array Cell} {key : Nat} {old new : Cell}

theorem letGone_push {cell : Cell} (h : cell.released = false) (id : Int32) :
    letGone (cells.push cell) s id = letGone cells s id := by
  apply Array.countP_push_of_neg
  simp [h]

theorem letGone_replaced (hcell : cells[key]? = some old) (hproxy : new.proxy = old.proxy)
    (hreleased : old.proxy.session = s → new.released = old.released) (id : Int32) :
    letGone (cells.setIfInBounds key new) s id = letGone cells s id := by
  apply countP_replaced_same hcell
  rw [Cell.isOf_congr hproxy]
  cases hs : old.isOf s id with
  | false => rfl
  | true => rw [hreleased (Cell.isOf_iff.mp hs).1]

theorem letGone_letGo (hcell : cells[key]? = some old) (hs : old.proxy.session = s)
    (hnew : Client.LetsGo old new) (id : Int32) :
    letGone (cells.setIfInBounds key new) s id =
      letGone cells s id + (if old.proxy.id = id then 1 else 0) := by
  have hcount := countP_replaced hcell new fun cell => cell.isOf s id && cell.released
  rw [Cell.isOf_congr hnew.proxy, hnew.before, hnew.after, Bool.and_false, Bool.and_true] at hcount
  simp only [Cell.isOf, hs, BEq.rfl, Bool.true_and, beq_iff_eq, Bool.false_eq_true, if_false] at hcount
  exact hcount

end LetGone

/-- The table and the releases of a session are in line with the cells. -/
structure Entered (s : Nat) (session : Session) (cells : Array Cell) : Prop where
  nodup : (session.table.map Prod.fst).Nodup
  entries : ∀ (id : Int32) (key : Nat), (id, key) ∈ session.table ↔
    ∃ cell, cells[key]? = some cell ∧ cell.isOf s id = true ∧ cell.released = false
  size : session.table.length = standing cells s
  bounded : ∀ id, session.releases id ≤ letGone cells s id
  exact : session.isUp = true → ∀ id, session.releases id = letGone cells s id

namespace Client

variable {free : Nat → Session.Deed → Prop} {s : Nat} {c c' c'' : Client} {session : Session}

/-! ### What is sent between two states -/

/-- From one state of a session to another, no more releases are sent than its proxies let go of objects,
and as many if it is still up. -/
structure Tally (s : Nat) (session : Session) (cells : Array Cell) (session' : Session)
    (cells' : Array Cell) : Prop where
  bounded : ∀ id, session'.releases id + letGone cells s id ≤ session.releases id + letGone cells' s id
  exact : session'.isUp = true → session.isUp = true ∧
    ∀ id, session'.releases id + letGone cells s id = session.releases id + letGone cells' s id

theorem Tally.of_same {cells cells' : Array Cell} {session' : Session}
    (hreleases : ∀ id, session'.releases id = session.releases id)
    (hgone : ∀ id, letGone cells' s id = letGone cells s id)
    (hup : session'.isUp = true → session.isUp = true) : Tally s session cells session' cells' := by
  have hsame (id : Int32) : session'.releases id + letGone cells s id =
      session.releases id + letGone cells' s id := by
    rw [hreleases, hgone]
  exact ⟨fun id => Nat.le_of_eq (hsame id), fun hup' => ⟨hup hup', hsame⟩⟩

/-- A proxy of the session lets go, and one release is sent if the session stays up. -/
theorem Tally.letGo {cells : Array Cell} {key : Nat} {old new : Cell} (hcell : cells[key]? = some old)
    (hs : old.proxy.session = s) (hnew : LetsGo old new) :
    Tally s session cells (after (Session.post (.release old.proxy.id) (session.forget old.proxy)))
      (cells.setIfInBounds key new) := by
  obtain ⟨hbounded, hexact⟩ := (session.forget old.proxy).post_release old.proxy.id
  refine ⟨fun id => ?_, fun hup => ?_⟩
  · have hid : _ ≤ session.releases id + _ := hbounded id
    rw [letGone_letGo hcell hs hnew]
    omega
  · obtain ⟨hup', hsent⟩ := hexact hup
    refine ⟨hup', fun id => ?_⟩
    have hid : _ = session.releases id + _ := hsent id
    rw [letGone_letGo hcell hs hnew]
    omega

def Tallied (s : Nat) (c c' : Client) : Prop :=
  ∀ session', c'.sessions[s]? = some session' →
    ∃ session, c.sessions[s]? = some session ∧ Tally s session c.cells session' c'.cells

theorem Tallied.refl : Tallied s c c := fun session hs =>
  ⟨session, hs, .of_same (fun _ => rfl) (fun _ => rfl) id⟩

theorem Tallied.trans (h : Tallied s c c') (h' : Tallied s c' c'') : Tallied s c c'' := by
  intro session'' hs''
  obtain ⟨session', hs', htally'⟩ := h' session'' hs''
  obtain ⟨session, hs, htally⟩ := h session' hs'
  refine ⟨session, hs, fun id => ?_, fun hup'' => ?_⟩
  · have hfirst := htally.bounded id
    have hsecond := htally'.bounded id
    omega
  · obtain ⟨hup', hsame'⟩ := htally'.exact hup''
    obtain ⟨hup, hsame⟩ := htally.exact hup'
    refine ⟨hup, fun id => ?_⟩
    have hfirst := hsame id
    have hsecond := hsame' id
    omega

/-- A step that sends no raw release sends a release only for the proxy that lets go in it. -/
theorem Step.tallied (h : Step free c c') (hfree : ∀ d, free s d → d.isRelease = false) :
    Tallied s c c' := by
  intro found hs
  cases h with
  | ask t session d ht hfits hallowed =>
    obtain ⟨rfl, rfl⟩ | hsame := getElem?_replaced_cases ht hs
    · have hrelease : d.isRelease = false := by
        obtain hfreed | hbacked := hallowed
        · exact hfree d hfreed
        · exact hbacked.1
      exact ⟨session, ht, .of_same (d.releases_run hfits hrelease session) (fun _ => rfl)
        (d.isUp_of_run hfits)⟩
    · exact Tallied.refl found hsame
  | tend t session session' ht htended =>
    obtain ⟨rfl, rfl⟩ | hsame := getElem?_replaced_cases ht hs
    · refine ⟨session, ht, .of_same (fun id => ?_) (fun _ => rfl) fun hup => ?_⟩
      · rw [Session.releases, htended.channel, Session.releases]
      · rwa [Session.isUp, htended.standing] at hup
    · exact Tallied.refl found hsame
  | make t id className h =>
    rw [objectFor_of_none className h] at hs ⊢
    dsimp only [modifySession] at hs
    rw [Array.getElem?_modify] at hs
    split at hs
    · obtain ⟨session, hsession, rfl⟩ := Option.map_eq_some_iff.mp hs
      exact ⟨session, hsession, .of_same (fun _ => rfl) (letGone_push rfl) fun hup => hup⟩
    · exact ⟨found, hs, .of_same (fun _ => rfl) (letGone_push rfl) fun hup => hup⟩
  | adjust key old new h hnew =>
    exact ⟨found, hs, .of_same (fun _ => rfl) (letGone_replaced h hnew.proxy fun _ => hnew.released) id⟩
  | letGo key old new h hnew =>
    dsimp only [told] at hs
    rw [Array.getElem?_modify] at hs
    split at hs
    · rename_i hst
      obtain ⟨session, hsession, rfl⟩ := Option.map_eq_some_iff.mp hs
      exact ⟨session, hsession, .letGo h hst hnew⟩
    · rename_i hst
      exact ⟨found, hs, .of_same (fun _ => rfl)
        (letGone_replaced h hnew.proxy fun hs => absurd hs hst) id⟩

theorem Runs.tallied (h : Runs free c c') (hfree : ∀ d, free s d → d.isRelease = false) :
    Tallied s c c' := by
  induction h with
  | refl => exact .refl
  | tail _ hstep ih => exact ih.trans (hstep.tallied hfree)

/-! ### Accounts -/

/-- Nobody holds a proxy only if it is released, and the table of the session is in line with the cells. -/
structure Accounted (s : Nat) (c : Client) : Prop where
  held : ∀ (key : Nat) (cell : Cell), c.cells[key]? = some cell → cell.holders = 0 →
    cell.released = true
  entered : ∀ session, c.sessions[s]? = some session → Entered s session c.cells

theorem Accounted.listing (ha : c.Accounted s) : c.Listing s := by
  refine ⟨ha.held, fun session hs => ?_⟩
  have he := ha.entered session hs
  exact ⟨he.nodup, he.entries, he.size⟩

/-- Accounts that are in line at first stay so, if the releases sent meanwhile are those of the proxies that
let go meanwhile. -/
theorem Accounted.of_tallied (ha : c.Accounted s) (hlisting : c'.Listing s) (h : Tallied s c c') :
    c'.Accounted s := by
  refine ⟨hlisting.held, fun session' hs' => ?_⟩
  obtain ⟨session, hs, htally⟩ := h session' hs'
  have he := ha.entered session hs
  have hl := hlisting.listed session' hs'
  refine ⟨hl.nodup, hl.entries, hl.size, fun id => ?_, fun hup' id => ?_⟩
  · have hbefore := he.bounded id
    have hmeanwhile := htally.bounded id
    omega
  · obtain ⟨hup, hsame⟩ := htally.exact hup'
    have hbefore := he.exact hup id
    have hmeanwhile := hsame id
    omega

theorem Runs.accounted (h : Runs free c c') (hfree : ∀ d, free s d → d.isRelease = false) (hc : c.Sound)
    (ha : c.Accounted s) : c'.Accounted s :=
  ha.of_tallied (Runs.listing h hc ha.listing) (Runs.tallied h hfree)

/-- Moves keep the table of a session in line if it sends no raw releases. -/
theorem Moves.accounted {raw : Nat → Prop} (h : Moves raw c c') (hraw : ¬ raw s) (hc : c.Sound)
    (ha : c.Accounted s) : c'.Accounted s :=
  Runs.accounted h (fun _ hfree => hfree.resolve_left hraw) hc ha

theorem accounted_fresh (hcells : c.cells = #[])
    (hsessions : ∀ session, c.sessions[s]? = some session → session.Fresh) : c.Accounted s := by
  have hlisting := listing_fresh hcells hsessions
  refine ⟨hlisting.held, fun session hs => ?_⟩
  have hl := hlisting.listed session hs
  obtain ⟨source, sink, hchannel⟩ := (hsessions session hs).channel
  have hreleases (id : Int32) : session.releases id = 0 := by
    rw [Session.releases, hchannel]
    rfl
  refine ⟨hl.nodup, hl.entries, hl.size, fun id => ?_, fun _ id => ?_⟩
  · rw [hreleases]
    exact Nat.zero_le _
  · rw [hreleases, hcells]
    rfl

end Client

end ObjectBridge
