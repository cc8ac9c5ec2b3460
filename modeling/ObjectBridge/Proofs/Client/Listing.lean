import ObjectBridge.Proofs.Client.Requests
import Mathlib.Data.List.Nodup

/-!
# The table of proxies

The entries of the table of a session are the proxies that have not let go of their objects, one for each
object (`Listed`). Every step preserves this, whatever is sent meanwhile: also a release that goes past the
proxies, which changes no table. So a proxy that is held and has not let go is the one that stands for its
object (`Listing.standing_of_live`).
-/

namespace ObjectBridge

/-! ### Counting cells -/

section Counting

variable {α : Type} {xs : Array α}

theorem countP_replaced {i : Nat} {old : α} (h : xs[i]? = some old) (new : α) (p : α → Bool) :
    (xs.setIfInBounds i new).countP p + (if p old then 1 else 0) =
      xs.countP p + (if p new then 1 else 0) := by
  obtain ⟨hi, hget⟩ := Array.getElem?_eq_some_iff.mp h
  have hlength : i < xs.toList.length := by simpa using hi
  have hle := List.boole_getElem_le_countP (p := p) hlength
  rw [← Array.countP_toList, ← Array.countP_toList, Array.toList_setIfInBounds,
    List.countP_set hlength]
  rw [Array.getElem_toList, hget] at hle ⊢
  omega

theorem countP_replaced_same {i : Nat} {old new : α} {p : α → Bool} (h : xs[i]? = some old)
    (hp : p new = p old) : (xs.setIfInBounds i new).countP p = xs.countP p := by
  have hcount := countP_replaced h new p
  rw [hp] at hcount
  exact Nat.add_right_cancel hcount

theorem countP_le_one {l : List α} {p : α → Bool} (h : ∀ (i j : Nat) (a b : α), l[i]? = some a →
    l[j]? = some b → p a = true → p b = true → i = j) : l.countP p ≤ 1 := by
  induction l with
  | nil => simp
  | cons a l ih =>
    have hrest : l.countP p ≤ 1 := by
      apply ih
      intro i j b d hi hj hb hd
      exact Nat.succ.inj (h (i + 1) (j + 1) b d hi hj hb hd)
    by_cases ha : p a = true
    · have hnone : l.countP p = 0 := by
        rw [List.countP_eq_zero]
        intro b hb hpb
        obtain ⟨j, hj⟩ := List.mem_iff_getElem?.mp hb
        have hindex := h 0 (j + 1) a b rfl hj ha hpb
        omega
      rw [List.countP_cons_of_pos ha]
      omega
    · rw [List.countP_cons_of_neg ha]
      exact hrest

theorem countP_split (p q : α → Bool) :
    xs.countP p = xs.countP (fun a => p a && q a) + xs.countP fun a => p a && !q a := by
  obtain ⟨l⟩ := xs
  simp only [← Array.countP_toList]
  induction l with
  | nil => rfl
  | cons a l ih =>
    simp only [List.countP_cons, ih]
    cases p a <;> cases q a <;> simp <;> omega

end Counting

namespace Cell

/-- Whether the proxy of a cell stands, or stood, for an object of a session. -/
def isOf (s : Nat) (id : Int32) (cell : Cell) : Bool :=
  cell.proxy.session == s && cell.proxy.id == id

theorem isOf_iff {s : Nat} {id : Int32} {cell : Cell} :
    cell.isOf s id = true ↔ cell.proxy.session = s ∧ cell.proxy.id = id := by
  simp [isOf]

theorem isOf_congr {cell cell' : Cell} (h : cell'.proxy = cell.proxy) (s : Nat) (id : Int32) :
    cell'.isOf s id = cell.isOf s id := by
  rw [isOf, isOf, h]

end Cell

/-- Whether a proxy is held and has not let go of its object. -/
def Cell.isLive (cell : Cell) : Bool := cell.holders != 0 && !cell.released

def standing (cells : Array Cell) (s : Nat) : Nat :=
  cells.countP fun cell => cell.proxy.session == s && !cell.released

/-- The table of a session is in line with the cells. -/
structure Listed (s : Nat) (table : List (Int32 × Nat)) (cells : Array Cell) : Prop where
  nodup : (table.map Prod.fst).Nodup
  entries : ∀ (id : Int32) (key : Nat), (id, key) ∈ table ↔
    ∃ cell, cells[key]? = some cell ∧ cell.isOf s id = true ∧ cell.released = false
  size : table.length = standing cells s

namespace Listed

variable {s : Nat} {session : Session} {cells : Array Cell}

/-- A cell that changes, but neither its proxy nor, in this session, whether it is released. -/
theorem replace {table : List (Int32 × Nat)} {key : Nat} {old new : Cell} (h : Listed s table cells)
    (hcell : cells[key]? = some old) (hproxy : new.proxy = old.proxy)
    (hreleased : old.proxy.session = s → new.released = old.released) :
    Listed s table (cells.setIfInBounds key new) := by
  have hof (id : Int32) : new.isOf s id = old.isOf s id := Cell.isOf_congr hproxy s id
  refine ⟨h.nodup, ?_, ?_⟩
  · intro id k
    rw [h.entries, getElem?_replaced hcell]
    split
    · rename_i hk
      subst hk
      refine ⟨fun hold => ?_, fun hnew => ?_⟩
      · obtain ⟨cell, hget, hs, hlive⟩ := hold
        rw [hcell, Option.some.injEq] at hget
        subst hget
        exact ⟨new, rfl, by rw [hof, hs], by rw [hreleased (Cell.isOf_iff.mp hs).1, hlive]⟩
      · obtain ⟨cell, hget, hs, hlive⟩ := hnew
        rw [Option.some.injEq] at hget
        subst hget
        rw [hof] at hs
        exact ⟨old, hcell, hs, by rw [← hreleased (Cell.isOf_iff.mp hs).1, hlive]⟩
    · rfl
  · rw [h.size]
    refine (countP_replaced_same hcell ?_).symm
    rw [hproxy]
    by_cases hs : old.proxy.session = s
    · rw [hreleased hs]
    · rw [beq_false_of_ne hs, Bool.false_and, Bool.false_and]

theorem pushOther {table : List (Int32 × Nat)} {cell : Cell} (h : Listed s table cells)
    (hs : cell.proxy.session ≠ s) : Listed s table (cells.push cell) := by
  have hof (id : Int32) : ¬ cell.isOf s id = true := fun hid => hs (Cell.isOf_iff.mp hid).1
  refine ⟨h.nodup, ?_, ?_⟩
  · intro id key
    rw [h.entries, Array.getElem?_push]
    split
    · rename_i hkey
      subst hkey
      simp [hof id]
    · rfl
  · rw [h.size]
    refine (Array.countP_push_of_neg ?_).symm
    simp [hs]

theorem make {id : Int32} (className : Option String) (since : Nat) (h : Listed s session.table cells)
    (hnone : ∀ key, (id, key) ∉ session.table) :
    Listed s (session.enter id cells.size).table
      (cells.push { proxy := ⟨cells.size, s, id, className⟩, since }) := by
  have htable : (session.enter id cells.size).table = (id, cells.size) :: session.table := by
    rw [Session.enter, List.filter_eq_self.mpr]
    intro entry hentry
    have hne : entry.1 ≠ id := fun heq => hnone entry.2 (heq ▸ hentry)
    simpa using hne
  refine ⟨?_, ?_, ?_⟩
  · rw [htable, List.map_cons, List.nodup_cons]
    refine ⟨fun hmem => ?_, h.nodup⟩
    obtain ⟨entry, hentry, heq⟩ := List.mem_map.mp hmem
    apply hnone entry.2
    rwa [← show entry.1 = id from heq]
  · intro other key
    rw [htable, List.mem_cons, Array.getElem?_push, Prod.mk.injEq]
    split
    · rename_i hkey
      have hold : (other, key) ∉ session.table := by
        intro hmem
        obtain ⟨cell, hcell, _⟩ := (h.entries other key).mp hmem
        rw [hkey] at hcell
        simp at hcell
      refine ⟨fun hmem => ?_, fun hnew => ?_⟩
      · obtain ⟨rfl, _⟩ | hmem := hmem
        · exact ⟨_, rfl, by simp [Cell.isOf], rfl⟩
        · exact absurd hmem hold
      · obtain ⟨cell, hget, hs, _⟩ := hnew
        cases hget
        exact .inl ⟨(Cell.isOf_iff.mp hs).2.symm, hkey⟩
    · rename_i hkey
      rw [h.entries]
      simp only [hkey, and_false, false_or]
  · rw [htable, List.length_cons, h.size, standing, standing, Array.countP_push_of_pos]
    simp

/-- A proxy of the session lets go: its entry goes. -/
theorem letGo {key : Nat} {old new : Cell} (h : Listed s session.table cells)
    (hcell : cells[key]? = some old) (hkey : old.proxy.key = key) (hs : old.proxy.session = s)
    (hnew : Client.LetsGo old new) :
    Listed s (session.forget old.proxy).table (cells.setIfInBounds key new) := by
  have hentry : (old.proxy.id, key) ∈ session.table :=
    (h.entries old.proxy.id key).mpr ⟨old, hcell, Cell.isOf_iff.mpr ⟨hs, rfl⟩, hnew.before⟩
  -- No entry occurs twice, so that forgetting the proxy takes one entry and no more out of the table.
  have hdistinct : session.table.Nodup := List.Nodup.of_map Prod.fst h.nodup
  have hforget : (session.forget old.proxy).table = session.table.erase (old.proxy.id, key) := by
    rw [List.Nodup.erase_eq_filter hdistinct, Session.forget, hkey]
  refine ⟨?_, ?_, ?_⟩
  · rw [hforget]
    exact h.nodup.sublist (List.erase_sublist.map Prod.fst)
  · intro id k
    rw [hforget, hdistinct.mem_erase_iff, getElem?_replaced hcell, h.entries]
    split
    · rename_i hk
      subst hk
      refine ⟨fun hmem => ?_, fun hlive => ?_⟩
      · obtain ⟨hne, cell, hget, hof, _⟩ := hmem
        rw [hcell, Option.some.injEq] at hget
        subst hget
        exact absurd (by rw [(Cell.isOf_iff.mp hof).2]) hne
      · obtain ⟨cell, hget, _, hlive⟩ := hlive
        rw [Option.some.injEq] at hget
        rw [← hget, hnew.after] at hlive
        cases hlive
    · rename_i hk
      refine ⟨fun hmem => hmem.2, fun hlive => ⟨fun heq => ?_, hlive⟩⟩
      exact hk (congrArg Prod.snd heq).symm
  · have hcount := countP_replaced hcell new fun cell => cell.proxy.session == s && !cell.released
    rw [hnew.before, hnew.after, hnew.proxy, hs] at hcount
    simp only [BEq.rfl, Bool.not_false, Bool.not_true, Bool.and_true, Bool.and_false, if_true,
      Bool.false_eq_true, if_false] at hcount
    rw [hforget, List.length_erase_of_mem hentry, h.size, standing, standing]
    omega

end Listed

namespace Client

variable {free : Nat → Session.Deed → Prop} {s : Nat} {c c' : Client} {session : Session}

/-- Nobody holds a proxy only if it is released, and the table of the session is in line with the cells. -/
structure Listing (s : Nat) (c : Client) : Prop where
  held : ∀ (key : Nat) (cell : Cell), c.cells[key]? = some cell → cell.holders = 0 →
    cell.released = true
  listed : ∀ session, c.sessions[s]? = some session → Listed s session.table c.cells

namespace Listing

/-- An entry of the table is the entry of the proxy that stands for the object. -/
theorem standing_of_entry {id : Int32} {key : Nat} (ha : c.Listing s)
    (hs : c.sessions[s]? = some session) (hentry : (id, key) ∈ session.table) :
    ∃ cell, c.cells[key]? = some cell ∧ c.standing? s id = some cell.proxy := by
  have he := ha.listed session hs
  have hlookup : (session.table.lookup id).isSome = true :=
    List.lookup_isSome_iff.mpr ⟨(id, key), hentry, BEq.rfl⟩
  obtain ⟨found, hfound⟩ := Option.isSome_iff_exists.mp hlookup
  obtain ⟨front, back, htable, _⟩ := List.lookup_eq_some_iff.mp hfound
  have hmem : (id, found) ∈ session.table := by
    rw [htable]
    exact List.mem_append_right _ List.mem_cons_self
  have hkey : (id, found) = (id, key) := List.inj_on_of_nodup_map he.nodup hmem hentry rfl
  obtain ⟨cell, hcell, _, hlive⟩ := (he.entries id key).mp hentry
  refine ⟨cell, hcell, standing?_eq_some.mpr ?_⟩
  refine ⟨session, key, cell, hs, ?_, hcell, fun hzero => ?_, hlive, rfl⟩
  · rw [hfound, Option.some.injEq]
    exact congrArg Prod.snd hkey
  · rw [ha.held key cell hcell hzero] at hlive
    cases hlive

theorem isLive_eq (ha : c.Listing s) {key : Nat} {cell : Cell} (hcell : c.cells[key]? = some cell) :
    cell.isLive = !cell.released := by
  cases hreleased : cell.released with
  | true => simp [Cell.isLive, hreleased]
  | false =>
    have hheld : cell.holders ≠ 0 := fun hzero => by
      rw [ha.held key cell hcell hzero] at hreleased
      cases hreleased
    simp [Cell.isLive, hreleased, hheld]

theorem countP_isLive (ha : c.Listing s) (p : Cell → Bool) :
    (c.cells.countP fun cell => p cell && cell.isLive) =
      c.cells.countP fun cell => p cell && !cell.released := by
  apply Array.countP_congr
  intro cell hmem
  obtain ⟨key, hcell⟩ := Array.mem_iff_getElem?.mp hmem
  rw [ha.isLive_eq hcell]

theorem standing_of_live (ha : c.Listing s) (hs : c.sessions[s]? = some session)
    {id : Int32} {key : Nat} {cell : Cell} (hcell : c.cells[key]? = some cell)
    (hof : cell.isOf s id = true) (hlive : cell.isLive = true) : c.standing? s id = some cell.proxy := by
  rw [ha.isLive_eq hcell, Bool.not_eq_true'] at hlive
  have hentry := ((ha.listed session hs).entries id key).mpr ⟨cell, hcell, hof, hlive⟩
  obtain ⟨found, hfound, hstanding⟩ := ha.standing_of_entry hs hentry
  rw [hcell, Option.some.injEq] at hfound
  rw [hstanding, hfound]

/-- Where no proxy stands for an object, all that were made for it have let go. -/
theorem released_of_standing (ha : c.Listing s) (hs : c.sessions[s]? = some session) {id : Int32}
    (h : c.standing? s id = none) (key : Nat) (cell : Cell) (hcell : c.cells[key]? = some cell)
    (hof : cell.isOf s id = true) : cell.released = true := by
  by_contra hlive
  rw [Bool.not_eq_true] at hlive
  have hentry := ((ha.listed session hs).entries id key).mpr ⟨cell, hcell, hof, hlive⟩
  obtain ⟨_, _, hstanding⟩ := ha.standing_of_entry hs hentry
  rw [h] at hstanding
  cases hstanding

theorem entries_iff (ha : c.Listing s) (hs : c.sessions[s]? = some session) (id : Int32)
    (key : Nat) : (id, key) ∈ session.table ↔
      ∃ cell, c.cells[key]? = some cell ∧ cell.isOf s id = true ∧ cell.isLive = true := by
  rw [(ha.listed session hs).entries]
  refine exists_congr fun cell => and_congr_right fun hcell => ?_
  rw [ha.isLive_eq hcell, Bool.not_eq_true']

theorem unique (ha : c.Listing s) (hs : c.sessions[s]? = some session) {id : Int32}
    {key key' : Nat} {cell cell' : Cell} (hcell : c.cells[key]? = some cell)
    (hcell' : c.cells[key']? = some cell') (hof : cell.isOf s id = true) (hof' : cell'.isOf s id = true)
    (hlive : cell.isLive = true) (hlive' : cell'.isLive = true) : key = key' := by
  have hentry := (ha.entries_iff hs id key).mpr ⟨cell, hcell, hof, hlive⟩
  have hentry' := (ha.entries_iff hs id key').mpr ⟨cell', hcell', hof', hlive'⟩
  have hpair : (id, key) = (id, key') :=
    List.inj_on_of_nodup_map (ha.listed session hs).nodup hentry hentry' rfl
  exact congrArg Prod.snd hpair

theorem liveObjects_eq (ha : c.Listing s) (hs : c.sessions[s]? = some session) :
    c.liveObjects s = c.cells.countP fun cell => cell.proxy.session == s && cell.isLive := by
  have hheld : (session.table.filter fun entry => c.isHeld entry.2) = session.table := by
    rw [List.filter_eq_self]
    intro entry hentry
    obtain ⟨cell, hcell, _, hlive⟩ := (ha.entries_iff hs entry.1 entry.2).mp hentry
    simp only [Cell.isLive, Bool.and_eq_true] at hlive
    simp only [isHeld, hcell, hlive.1]
  simp only [liveObjects, hs, hheld]
  rw [(ha.listed session hs).size, ha.countP_isLive fun cell => cell.proxy.session == s]
  rfl

end Listing

/-- Every step keeps the table of a session in line, whatever the session may send. -/
theorem Step.listing (h : Step free c c') (hc : c.Sound) (ha : c.Listing s) : c'.Listing s := by
  have hheld (key : Nat) (cell : Cell) (hcell : c'.cells[key]? = some cell) (hzero : cell.holders = 0) :
      cell.released = true := (((h.sound hc).fit key cell hcell).gone hzero).1
  refine ⟨hheld, fun found hs => ?_⟩
  cases h with
  | ask t session d ht hfits =>
    obtain ⟨rfl, rfl⟩ | hsame := getElem?_replaced_cases ht hs
    · rw [d.table_run hfits]
      exact ha.listed session ht
    · exact ha.listed found hsame
  | tend t session session' ht htended =>
    obtain ⟨rfl, rfl⟩ | hsame := getElem?_replaced_cases ht hs
    · rw [htended.table]
      exact ha.listed session ht
    · exact ha.listed found hsame
  | make t id className h =>
    rw [objectFor_of_none className h] at hs ⊢
    dsimp only [modifySession] at hs ⊢
    rw [Array.getElem?_modify] at hs
    split at hs
    · rename_i hst
      obtain ⟨session, hsession, rfl⟩ := Option.map_eq_some_iff.mp hs
      subst hst
      refine (ha.listed session hsession).make className (c.sentBy t) fun key hentry => ?_
      obtain ⟨_, _, hstanding⟩ := ha.standing_of_entry hsession hentry
      rw [h] at hstanding
      cases hstanding
    · rename_i hst
      exact (ha.listed found hs).pushOther hst
  | adjust key old new h hnew =>
    exact (ha.listed found hs).replace h hnew.proxy fun _ => hnew.released
  | letGo key old new h hnew =>
    dsimp only [told] at hs
    rw [Array.getElem?_modify] at hs
    split at hs
    · rename_i hst
      obtain ⟨session, hsession, rfl⟩ := Option.map_eq_some_iff.mp hs
      rw [((session.forget old.proxy).post_frame _).1]
      exact (ha.listed session hsession).letGo h (hc.keys key old h) hst hnew
    · rename_i hst
      exact (ha.listed found hs).replace h hnew.proxy fun hs => absurd hs hst

theorem Runs.listing (h : Runs free c c') (hc : c.Sound) (ha : c.Listing s) : c'.Listing s := by
  induction h with
  | refl => exact ha
  | tail hruns hstep ih => exact hstep.listing (Runs.sound hruns hc) ih

theorem listing_fresh (hcells : c.cells = #[])
    (hsessions : ∀ session, c.sessions[s]? = some session → session.Fresh) : c.Listing s := by
  refine ⟨fun key cell hcell => ?_, fun session hs => ?_⟩
  · rw [hcells] at hcell
    cases hcell
  · have hfresh := hsessions session hs
    refine ⟨?_, fun id key => ?_, ?_⟩
    · rw [hfresh.table]
      exact List.nodup_nil
    · rw [hfresh.table, hcells]
      simp
    · rw [hfresh.table, hcells]
      rfl

end Client

end ObjectBridge
