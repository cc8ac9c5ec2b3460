import ObjectBridge.Proofs.Client.ProxyTable
import ObjectBridge.Proofs.Client.Replies

/-!
# Replies that are no values

A reply is turned into a value item by item, from left to right, up to the first part that is no value. Then
the values made so far are given up: the proxies that were there before are left as they were, and those
made for the reply let go of their objects (`Lent`). So one release is sent for each object that was looked
up (`Message.reached`) and had no proxy, and none for the objects behind the part that is no value
(`request_rejected`).
-/

namespace ObjectBridge

namespace Message

mutual

def isValue : Message → Bool
  | exception _ => false
  | objectArray items => areValues items
  | other => !other.tag.isControl

def areValues : List Message → Bool
  | [] => true
  | m :: ms => isValue m && areValues ms

end

mutual

/-- The references that are looked up in a reply, up to the first part that is no value. -/
def reached : Message → List ObjectRef
  | object ref => [ref]
  | objectArray items => reachedOfAll items
  | _ => []

def reachedOfAll : List Message → List ObjectRef
  | [] => []
  | m :: ms => reached m ++ if isValue m then reachedOfAll ms else []

end

def Carries (m : Message) (id : Int32) : Prop := ∃ ref, object ref ∈ m.parts ∧ ref.id = id

mutual

theorem mem_parts_of_reached {m : Message} {ref : ObjectRef} (h : ref ∈ m.reached) :
    object ref ∈ m.parts := by
  cases m with
  | object other =>
    rw [List.mem_singleton.mp h]
    exact List.mem_cons_self
  | objectArray items => exact List.mem_cons_of_mem _ (mem_partsOfAll_of_reached h)
  | _ => cases h

theorem mem_partsOfAll_of_reached {ms : List Message} {ref : ObjectRef} (h : ref ∈ reachedOfAll ms) :
    object ref ∈ partsOfAll ms := by
  cases ms with
  | nil => cases h
  | cons m ms =>
    rw [reachedOfAll, List.mem_append] at h
    obtain h | h := h
    · exact List.mem_append_left _ (mem_parts_of_reached h)
    · split at h
      · exact List.mem_append_right _ (mem_partsOfAll_of_reached h)
      · cases h

end

end Message

/-! ### Cells that are lent out -/

/-- The values in hand are held on top of what `base` has, and cells that are not in `base` are held by them
alone. -/
structure Lent (base cells : Array Cell) (hand : List Value) : Prop where
  count : ∀ key, holdersOf cells key = holdersOf base key + mentions key hand
  old : ∀ (key : Nat) (cell : Cell), base[key]? = some cell →
    ∃ holders, cells[key]? = some { cell with holders }
  /-- Of the old proxies only those are in hand that somebody holds anyway. -/
  idle : ∀ (key : Nat) (cell : Cell), base[key]? = some cell → cell.holders = 0 → mentions key hand = 0
  new : ∀ (key : Nat) (cell : Cell), base.size ≤ key → cells[key]? = some cell →
    cell.locals = [] ∧ (cell.released = true ↔ cell.holders = 0)

theorem holdersOf_of_some {cells : Array Cell} {key : Nat} {cell : Cell} (h : cells[key]? = some cell) :
    holdersOf cells key = cell.holders := by
  rw [holdersOf, h]

theorem holdersOf_of_none {cells : Array Cell} {key : Nat} (h : cells[key]? = none) :
    holdersOf cells key = 0 := by
  rw [holdersOf, h]

namespace Lent

variable {base cells : Array Cell} {hand hand' : List Value}

theorem refl (base : Array Cell) : Lent base base [] := by
  refine ⟨fun _ => rfl, fun key cell hcell => ⟨cell.holders, hcell⟩, fun _ _ _ _ => rfl, ?_⟩
  intro key cell hkey hcell
  rw [Array.getElem?_eq_none hkey] at hcell
  cases hcell

theorem size_le (h : Lent base cells hand) : base.size ≤ cells.size := by
  by_contra hlt
  obtain ⟨_, hcell⟩ := h.old cells.size _ (Array.getElem?_eq_getElem (Nat.lt_of_not_le hlt))
  rw [Array.getElem?_eq_none (Nat.le_refl _)] at hcell
  cases hcell

theorem congr (h : Lent base cells hand) (hsame : ∀ key, mentions key hand = mentions key hand') :
    Lent base cells hand' := by
  refine ⟨fun key => ?_, h.old, fun key cell hcell hzero => ?_, h.new⟩
  · rw [← hsame]
    exact h.count key
  · rw [← hsame]
    exact h.idle key cell hcell hzero

/-- A cell changes as far as the difference is in hand. -/
theorem replace {key : Nat} {cell new : Cell} (h : Lent base cells hand) (hcell : cells[key]? = some cell)
    (hcount : ∀ k, (if key = k then cell.holders else 0) + mentions k hand' =
      (if key = k then new.holders else 0) + mentions k hand)
    (hidle : ∀ (k : Nat) (cell : Cell), base[k]? = some cell → cell.holders = 0 → mentions k hand' = 0)
    (hold : key < base.size → ∃ holders, new = { cell with holders })
    (hnew : base.size ≤ key → new.locals = [] ∧ (new.released = true ↔ new.holders = 0)) :
    Lent base (cells.setIfInBounds key new) hand' := by
  refine ⟨fun k => ?_, fun k old hk => ?_, hidle, fun k found hk hfound => ?_⟩
  · have hbefore := h.count k
    have hchange := hcount k
    rw [holdersOf_replaced hcell]
    split
    · rename_i heq
      subst heq
      rw [if_pos rfl, if_pos rfl] at hchange
      rw [holdersOf_of_some hcell] at hbefore
      omega
    · rename_i hne
      rw [if_neg hne, if_neg hne] at hchange
      omega
  · obtain ⟨holders, hfound⟩ := h.old k old hk
    rw [getElem?_replaced hcell]
    split
    · rename_i heq
      subst heq
      obtain ⟨hlt, _⟩ := Array.getElem?_eq_some_iff.mp hk
      obtain ⟨holders', rfl⟩ := hold hlt
      rw [hcell, Option.some.injEq] at hfound
      exact ⟨holders', by rw [hfound]⟩
    · exact ⟨holders, hfound⟩
  · obtain ⟨rfl, rfl⟩ | hsame := getElem?_replaced_cases hcell hfound
    · exact hnew hk
    · exact h.new k found hk hsame

theorem held {p : Proxy} {rest : List Value} (h : Lent base cells (.object p :: rest)) :
    ∃ cell, cells[p.key]? = some cell ∧
      cell.holders = holdersOf base p.key + (1 + mentions p.key rest) := by
  have hcount := h.count p.key
  rw [mentions_object, if_pos rfl] at hcount
  cases hcell : cells[p.key]? with
  | none =>
    rw [holdersOf_of_none hcell] at hcount
    omega
  | some cell =>
    rw [holdersOf_of_some hcell] at hcount
    exact ⟨cell, rfl, hcount⟩

theorem idle_rest {p : Proxy} {rest : List Value} (h : Lent base cells (.object p :: rest)) (k : Nat)
    (cell : Cell) (hcell : base[k]? = some cell) (hzero : cell.holders = 0) : mentions k rest = 0 := by
  have hnone := h.idle k cell hcell hzero
  rw [mentions_object] at hnone
  omega

theorem push {p : Proxy} {cell : Cell} (h : Lent base cells hand) (hkey : p.key = cells.size)
    (hholders : cell.holders = 1) (hreleased : cell.released = false) (hlocals : cell.locals = []) :
    Lent base (cells.push cell) (.object p :: hand) := by
  have hsize := h.size_le
  -- What is in hand has its cells already, so the new one is in nobody's hand.
  have hlast : mentions cells.size hand = 0 := by
    have hcount := h.count cells.size
    rw [holdersOf_of_none (Array.getElem?_eq_none (Nat.le_refl _))] at hcount
    omega
  refine ⟨fun k => ?_, fun k old hold => ?_, fun k old hold hzero => ?_, fun k found hk hfound => ?_⟩
  · have hcount := h.count k
    rw [mentions_object, hkey]
    by_cases hk : k = cells.size
    · subst hk
      rw [holdersOf_of_none (Array.getElem?_eq_none hsize), holdersOf_of_some Array.getElem?_push_size,
        hholders, if_pos rfl, hlast]
    · have hsame : holdersOf (cells.push cell) k = holdersOf cells k := by
        rw [holdersOf, holdersOf, Array.getElem?_push, if_neg hk]
      rw [hsame, hcount, if_neg (Ne.symm hk), Nat.zero_add]
  · obtain ⟨holders, hfound⟩ := h.old k old hold
    obtain ⟨hlt, _⟩ := Array.getElem?_eq_some_iff.mp hfound
    refine ⟨holders, ?_⟩
    rw [Array.getElem?_push, if_neg (Nat.ne_of_lt hlt), hfound]
  · obtain ⟨hlt, _⟩ := Array.getElem?_eq_some_iff.mp hold
    rw [mentions_object, if_neg (by omega), h.idle k old hold hzero]
  · rw [Array.getElem?_push] at hfound
    split at hfound
    · rw [Option.some.injEq] at hfound
      subst hfound
      rw [hholders, hreleased]
      exact ⟨hlocals, by simp⟩
    · exact h.new k found hk hfound

/-- Giving up what is in hand takes back what was lent. -/
theorem givesUp (base : Array Cell) : Client.GivesUp (Lent base) where
  congr h hsame := h.congr hsame
  held h := by
    obtain ⟨cell, hcell, hholders⟩ := h.held
    exact ⟨cell, hcell, by omega⟩
  last := by
    intro cells p rest cell h hcell hone
    obtain ⟨found, hfound, hholders⟩ := h.held
    rw [hcell, Option.some.injEq] at hfound
    subst hfound
    -- Of the proxies in hand only new ones can have no other holder, and nothing is kept on these.
    have hkey : base.size ≤ p.key := by
      by_contra hlt
      have hbase := Array.getElem?_eq_getElem (Nat.lt_of_not_le hlt)
      have hnone := h.idle p.key _ hbase (by rw [← holdersOf_of_some hbase]; omega)
      rw [mentions_object, if_pos rfl] at hnone
      omega
    rw [Cell.kept, (h.new p.key cell hkey hcell).1, List.map_nil, List.nil_append]
    refine h.replace hcell (fun k => ?_) h.idle_rest (fun hlt => by omega) fun _ =>
      ⟨rfl, by simp [Cell.finished]⟩
    simp only [mentions_object, Cell.finished, hone]
    split <;> omega
  fewer := by
    intro cells p rest cell h hcell hzero hone
    refine h.replace hcell (fun k => ?_) h.idle_rest (fun _ => ⟨_, rfl⟩) fun hkey => ?_
    · simp only [mentions_object]
      split <;> omega
    · obtain ⟨hlocals, hreleased⟩ := h.new p.key cell hkey hcell
      refine ⟨hlocals, hreleased.trans ?_⟩
      dsimp only
      omega

/-- When nothing is in hand any more, the old cells are as before and the new ones have let go. -/
theorem returned (h : Lent base cells []) :
    (∀ (key : Nat) (cell : Cell), base[key]? = some cell → cells[key]? = some cell) ∧
      ∀ (key : Nat) (cell : Cell), base.size ≤ key → cells[key]? = some cell →
        cell.released = true := by
  refine ⟨fun key cell hcell => ?_, fun key cell hkey hcell => ?_⟩
  · obtain ⟨holders, hfound⟩ := h.old key cell hcell
    have hcount := h.count key
    rw [holdersOf_of_some hfound, holdersOf_of_some hcell, mentions_nil] at hcount
    rw [hfound, show holders = cell.holders from hcount]
  · have hcount := h.count key
    rw [holdersOf_of_some hcell, holdersOf_of_none (Array.getElem?_eq_none hkey)] at hcount
    exact (h.new key cell hkey hcell).2.mpr hcount

end Lent

/-! ### Looking up -/

/-- The number of proxies for an object that have not let go of it. -/
def upheld (cells : Array Cell) (s : Nat) (id : Int32) : Nat :=
  cells.countP fun cell => cell.isOf s id && !cell.released

/-- The number of proxies that are made for an object when references are looked up: one, if the object
is among those and has none yet. -/
def newly (base : Array Cell) (s : Nat) (refs : List ObjectRef) (id : Int32) : Nat :=
  if (∃ ref ∈ refs, ref.id = id) ∧ upheld base s id = 0 then 1 else 0

theorem newly_nil (base : Array Cell) (s : Nat) (id : Int32) : newly base s [] id = 0 := by
  simp [newly]

theorem newly_concat (base : Array Cell) (s : Nat) (refs : List ObjectRef) (ref : ObjectRef) (id : Int32) :
    newly base s (refs ++ [ref]) id = newly base s refs id +
      if ref.id = id ∧ upheld base s id + newly base s refs id = 0 then 1 else 0 := by
  unfold newly
  by_cases hnone : upheld base s id = 0
  · by_cases hfound : ∃ other ∈ refs, other.id = id
    · have hfound' : ∃ other ∈ refs ++ [ref], other.id = id := by
        obtain ⟨other, hother, hid⟩ := hfound
        exact ⟨other, List.mem_append_left _ hother, hid⟩
      simp only [hnone, hfound, hfound', and_self, if_true, Nat.zero_add, Nat.one_ne_zero, and_false,
        if_false, Nat.add_zero]
    · have hlast : (∃ other ∈ refs ++ [ref], other.id = id) ↔ ref.id = id := by
        refine ⟨fun h => ?_, fun hid =>
          ⟨ref, List.mem_append_right _ (List.mem_singleton_self ref), hid⟩⟩
        obtain ⟨other, hother, hid⟩ := h
        obtain hother | hother := List.mem_append.mp hother
        · exact absurd ⟨other, hother, hid⟩ hfound
        · rwa [← List.mem_singleton.mp hother]
      simp only [hnone, hfound, hlast, and_true, if_false, Nat.add_zero, Nat.zero_add]
  · simp only [hnone, and_false, if_false, Nat.add_zero]

theorem newly_concat_of_upheld {base : Array Cell} {s : Nat} {refs : List ObjectRef} {ref : ObjectRef}
    (h : upheld base s ref.id + newly base s refs ref.id ≠ 0) (id : Int32) :
    newly base s (refs ++ [ref]) id = newly base s refs id := by
  rw [newly_concat, if_neg, Nat.add_zero]
  rintro ⟨rfl, hzero⟩
  exact h hzero

theorem newly_concat_of_none {base : Array Cell} {s : Nat} {refs : List ObjectRef} {ref : ObjectRef}
    (h : upheld base s ref.id + newly base s refs ref.id = 0) (id : Int32) :
    newly base s (refs ++ [ref]) id = newly base s refs id + if ref.id = id then 1 else 0 := by
  rw [newly_concat]
  by_cases hid : ref.id = id
  · subst hid
    simp only [h, and_self, if_true]
  · simp only [hid, false_and, if_false]

/-- Once all is given up, just the old proxies have objects. -/
theorem Lent.upheld_eq {base cells : Array Cell} (h : Lent base cells []) (s : Nat) (id : Int32) :
    upheld cells s id = upheld base s id := by
  obtain ⟨hold, hnew⟩ := h.returned
  -- The cells of `base` are the front of the cells, and behind them nothing is upheld.
  have hfront : cells.toList.take base.size = base.toList := by
    apply List.ext_getElem?
    intro key
    rw [List.getElem?_take, Array.getElem?_toList, Array.getElem?_toList]
    split
    · rename_i hlt
      rw [Array.getElem?_eq_getElem hlt]
      exact hold key _ (Array.getElem?_eq_getElem hlt)
    · rename_i hge
      exact (Array.getElem?_eq_none (Nat.le_of_not_lt hge)).symm
  have hback : (cells.toList.drop base.size).countP (fun cell => cell.isOf s id && !cell.released) = 0 := by
    rw [List.countP_eq_zero]
    intro cell hmem
    obtain ⟨i, hcell⟩ := List.mem_iff_getElem?.mp hmem
    rw [List.getElem?_drop, Array.getElem?_toList] at hcell
    simp [hnew _ cell (Nat.le_add_right base.size i) hcell]
  rw [upheld, upheld, ← Array.countP_toList, ← Array.countP_toList,
    ← List.take_append_drop base.size cells.toList, List.countP_append, hfront, hback, Nat.add_zero]

namespace Client

variable {s : Nat} {base c : Client} {hand : List Value} {refs : List ObjectRef}

theorem Listing.standing_eq_none (ha : c.Listing s) (hs : c.sessions[s]?.isSome = true) (id : Int32) :
    c.standing? s id = none ↔ upheld c.cells s id = 0 := by
  obtain ⟨session, hsession⟩ := Option.isSome_iff_exists.mp hs
  refine ⟨fun hnone => ?_, fun hzero => ?_⟩
  · rw [upheld, Array.countP_eq_zero]
    intro cell hmem
    obtain ⟨key, hcell⟩ := Array.mem_iff_getElem?.mp hmem
    rw [Bool.and_eq_true, Bool.not_eq_true']
    intro hlive
    rw [ha.released_of_standing hsession hnone key cell hcell hlive.1] at hlive
    cases hlive.2
  · rw [Option.eq_none_iff_forall_ne_some]
    intro p hp
    obtain ⟨found, key, cell, hfound, hlookup, hcell, _, hlive, _⟩ := standing?_eq_some.mp hp
    rw [hsession, Option.some.injEq] at hfound
    subst hfound
    obtain ⟨front, back, htable, _⟩ := List.lookup_eq_some_iff.mp hlookup
    have hentry : (id, key) ∈ session.table := by
      rw [htable]
      exact List.mem_append_right _ List.mem_cons_self
    obtain ⟨other, hother, hof, _⟩ := ((ha.listed session hsession).entries id key).mp hentry
    rw [hcell, Option.some.injEq] at hother
    subst hother
    rw [upheld, Array.countP_eq_zero] at hzero
    exact hzero cell (Array.mem_of_getElem? hcell) (by rw [hof, hlive]; rfl)

def Made (s : Nat) (base cells : Array Cell) (refs : List ObjectRef) : Prop :=
  ∀ id, cells.countP (Cell.isOf s id) = base.countP (Cell.isOf s id) + newly base s refs id

structure Lending (s : Nat) (base c : Client) (hand : List Value) (refs : List ObjectRef) : Prop where
  lent : Lent base.cells c.cells hand
  made : Made s base.cells c.cells refs
  live : ∀ id, upheld c.cells s id = upheld base.cells s id + newly base.cells s refs id

theorem Lending.refl (s : Nat) (c : Client) : Lending s c c [] [] := by
  refine ⟨.refl c.cells, fun id => ?_, fun id => ?_⟩
  · rw [newly_nil, Nat.add_zero]
  · rw [newly_nil, Nat.add_zero]

theorem Lending.congr {hand' : List Value} (h : Lending s base c hand refs)
    (hsame : ∀ key, mentions key hand = mentions key hand') : Lending s base c hand' refs :=
  ⟨h.lent.congr hsame, h.made, h.live⟩

theorem Lending.hold {p : Proxy} {cell : Cell} (h : Lending s base c hand refs)
    (hcell : c.cells[p.key]? = some cell) (hheld : cell.holders ≠ 0) :
    Lending s base (c.holdProxy p) (.object p :: hand) refs := by
  have hcells : (c.holdProxy p).cells =
      c.cells.setIfInBounds p.key { cell with holders := cell.holders + 1 } := by
    rw [holdProxy, modifyCell, modify_of_some hcell]
  refine ⟨?_, fun id => ?_, fun id => ?_⟩
  · rw [hcells]
    refine h.lent.replace hcell (fun k => ?_) (fun k old hold hzero => ?_) (fun _ => ⟨_, rfl⟩)
      fun hkey => ?_
    · rw [mentions_object]
      dsimp only
      split <;> omega
    · have hnone := h.lent.idle k old hold hzero
      have hcount := h.lent.count k
      rw [holdersOf_of_some hold, hzero, hnone] at hcount
      -- Nobody holds `k` by now, but somebody holds `p`.
      have hne : p.key ≠ k := by
        intro heq
        rw [← heq, holdersOf_of_some hcell] at hcount
        exact hheld hcount
      rw [mentions_object, if_neg hne, hnone]
    · obtain ⟨hlocals, hreleased⟩ := h.lent.new p.key cell hkey hcell
      refine ⟨hlocals, hreleased.trans ?_⟩
      dsimp only
      omega
  · rw [hcells]
    refine Eq.trans ?_ (h.made id)
    apply countP_replaced_same hcell
    rfl
  · rw [hcells]
    refine Eq.trans ?_ (h.live id)
    apply countP_replaced_same hcell
    rfl

theorem countP_push_of {cells : Array Cell} {cell : Cell} {p : Cell → Bool} {ref : ObjectRef} {id : Int32}
    (hp : p cell = cell.isOf s id) (hs : cell.proxy.session = s) (hid : cell.proxy.id = ref.id) :
    (cells.push cell).countP p = cells.countP p + if ref.id = id then 1 else 0 := by
  rw [Array.countP_push, hp, Cell.isOf, hs, hid]
  simp only [BEq.rfl, Bool.true_and, beq_iff_eq]

/-- Looking up one more reference makes a proxy only for an object that has none by then. -/
theorem Lending.objectFor (h : Lending s base c hand refs) (hc : c.Sound) (hl : c.Listing s)
    (hs : c.sessions[s]?.isSome = true) (ref : ObjectRef) :
    Lending s base (c.objectFor s ref.id ref.className).2
      (.object (c.objectFor s ref.id ref.className).1 :: hand) (refs ++ [ref]) := by
  have hiff := hl.standing_eq_none hs ref.id
  rw [h.live] at hiff
  cases hstanding : c.standing? s ref.id with
  | some p =>
    have hsome : upheld base.cells s ref.id + newly base.cells s refs ref.id ≠ 0 := by
      intro hzero
      rw [hiff.mpr hzero] at hstanding
      cases hstanding
    obtain ⟨_, key, cell, _, _, hcell, hheld, _, rfl⟩ := standing?_eq_some.mp hstanding
    have hkey := hc.keys key cell hcell
    rw [objectFor_of_some ref.className hstanding]
    obtain ⟨hlent, hmade, hlive⟩ := h.hold (hkey.symm ▸ hcell) hheld
    refine ⟨hlent, fun id => ?_, fun id => ?_⟩
    · rw [newly_concat_of_upheld hsome]
      exact hmade id
    · rw [newly_concat_of_upheld hsome]
      exact hlive id
  | none =>
    have hzero := hiff.mp hstanding
    rw [objectFor_of_none ref.className hstanding]
    refine ⟨h.lent.push rfl rfl rfl rfl, fun id => ?_, fun id => ?_⟩
    · rw [newly_concat_of_none hzero, ← Nat.add_assoc, ← h.made id]
      exact countP_push_of rfl rfl rfl
    · rw [newly_concat_of_none hzero, ← Nat.add_assoc, ← h.live id]
      exact countP_push_of (Bool.and_true _) rfl rfl

/-! ### The value of a reply, or none -/

/-- What is left after looking up references: their proxies in hand beside what was there, or if there is no
value only that. -/
def Looked {α : Type} (s : Nat) (base : Client) (hand : List Value) (refs : List ObjectRef) (valued : Bool)
    (give : α → List Value) : EStateM.Result Fault Client α → Prop
  | .ok x c => Lending s base c (give x ++ hand) refs ∧ valued = true
  | .error _ c => Lent base.cells c.cells hand ∧ Made s base.cells c.cells refs ∧ valued = false

theorem looked_plain {v : Value} {m : Message} (h : Lending s base c hand refs) (hv : v.proxies = [])
    (hm : m.reached = []) (hvalue : m.isValue = true) :
    Looked s base hand (refs ++ m.reached) m.isValue (fun v => [v]) ((pure v : Action Value) c) := by
  rw [hm, List.append_nil]
  refine ⟨h.congr fun key => ?_, hvalue⟩
  rw [List.singleton_append, mentions_plain hv]

theorem looked_throw {m : Message} (h : Lending s base c hand refs) (hm : m.reached = [])
    (hvalue : m.isValue = false) (fault : Fault) :
    Looked s base hand (refs ++ m.reached) m.isValue (fun v => [v]) ((throw fault : Action Value) c) := by
  rw [hm, List.append_nil]
  exact ⟨h.lent, h.made, hvalue⟩

theorem countP_isOf_reclaim (pending : List Value) (cells : Array Cell) (gone : List Proxy) (id : Int32) :
    (reclaim pending cells gone).1.countP (Cell.isOf s id) = cells.countP (Cell.isOf s id) := by
  fun_induction reclaim pending cells gone with
  | case1 => rfl
  | case2 | case3 | case4 | case7 => assumption
  | case5 cells gone p rest cell hcell _ _ ih | case6 cells gone p rest cell hcell _ _ ih =>
    refine Eq.trans ih ?_
    apply countP_replaced_same hcell
    rfl

theorem Made.discardAll (h : Made s base.cells c.cells refs) (vs : List Value) :
    Made s base.cells (c.discardAll vs).cells refs := by
  intro id
  rw [discardAll_eq, countP_isOf_reclaim]
  exact h id

mutual

/-- A reply has a value or not as `Message.isValue` says, and its references are looked up as far as
`Message.reached` says. -/
theorem looked_resolve (t : Tag) (m : Message) {c : Client} {hand : List Value} {refs : List ObjectRef}
    (hc : c.Sound) (hl : c.Listing s) (hs : c.sessions[s]?.isSome = true)
    (h : Lending s base c hand refs) :
    Looked s base hand (refs ++ m.reached) m.isValue (fun v => [v]) (resolve s t m c) := by
  cases m with
  | object ref => exact ⟨h.objectFor hc hl hs ref, rfl⟩
  | objectArray items =>
    have hitems := looked_resolveAll t items [] hc hl hs h
    unfold resolve
    cases hall : resolveAll s t items [] c with
    | ok vs c' =>
      rw [hall] at hitems
      obtain ⟨hlending, hvalue⟩ := hitems
      rw [bind_of_ok _ hall]
      refine ⟨hlending.congr fun key => ?_, hvalue⟩
      rw [List.singleton_append, mentions_list, mentions_append, id]
    | error fault c' =>
      rw [hall] at hitems
      rw [bind_of_error _ hall]
      exact hitems
  | null | bool | byte | int32 | int64 | float64 | string | vector | matrix | boolArray |
    byteArray | int32Array | int64Array | float64Array | stringArray =>
    unfold resolve
    exact looked_plain h rfl rfl rfl
  | exception | create | callStaticMethod | callMethod | getProperty | getIndexedProperty |
    getIndexed | setProperty | getStaticProperty | setStaticProperty | protect | release |
    templateReq | templateReply =>
    unfold resolve
    exact looked_throw h rfl rfl _

theorem looked_resolveAll (t : Tag) (ms : List Message) (done : List Value) {c : Client}
    {hand : List Value} {refs : List ObjectRef} (hc : c.Sound) (hl : c.Listing s)
    (hs : c.sessions[s]?.isSome = true) (h : Lending s base c (done ++ hand) refs) :
    Looked s base hand (refs ++ Message.reachedOfAll ms) (Message.areValues ms) id
      (resolveAll s t ms done c) := by
  cases ms with
  | nil =>
    unfold resolveAll
    rw [Message.reachedOfAll, List.append_nil]
    refine ⟨h.congr fun key => ?_, rfl⟩
    rw [id, mentions_append, mentions_append, mentions_reverse]
  | cons m ms =>
    have hfirst := looked_resolve t m hc hl hs h
    have hruns : Runs (fun _ _ => False) c (after (resolve s t m c)) := (leads_resolve s t m hc).runs
    unfold resolveAll
    rw [Message.reachedOfAll, Message.areValues]
    cases hresolve : resolve s t m c with
    | ok v c' =>
      rw [hresolve] at hfirst hruns
      obtain ⟨hlending, hvalue⟩ := hfirst
      obtain ⟨hkeeps, _⟩ := resolve_standing t m hs hresolve
      have hrest := looked_resolveAll t ms (v :: done) (Runs.sound hruns hc) (Runs.listing hruns hc hl)
        (hkeeps.session hs) hlending
      rw [hvalue, if_pos rfl, Bool.true_and, ← List.append_assoc]
      exact hrest
    | error fault c' =>
      rw [hresolve] at hfirst
      obtain ⟨hlent, hmade, hvalue⟩ := hfirst
      -- The values made so far are given up, which leaves what was in hand before the array.
      rw [hvalue, if_neg Bool.false_ne_true, List.append_nil, Bool.false_and]
      refine ⟨?_, hmade.discardAll done.reverse, rfl⟩
      rw [discardAll_eq]
      refine (Lent.givesUp base.cells).reclaim _ _ _ (hlent.congr fun key => ?_)
      rw [mentions_append, mentions_append, mentions_reverse]

end

/-! ### The account of a rejected reply -/

def HasProxy (c : Client) (s : Nat) (id : Int32) : Prop :=
  ∃ (key : Nat) (cell : Cell), c.cells[key]? = some cell ∧ cell.isOf s id = true ∧ cell.isLive = true

/-- After a call an object is held by a proxy that was live before it and is unchanged, or one release was
sent for it during the call. -/
def HeldOrReleased (s : Nat) (session : Session) (c : Client) (session' : Session) (c' : Client)
    (id : Int32) : Prop :=
  (∃ (key : Nat) (cell : Cell), c.cells[key]? = some cell ∧ cell.isOf s id = true ∧
    cell.isLive = true ∧ c'.cells[key]? = some cell) ∨
    session'.releases id = session.releases id + 1

/-- What a call leaves whose reply is rejected when the references `refs` in it have been looked up. -/
structure Rejected (s : Nat) (c c' : Client) (reply : Message) (refs : List ObjectRef) : Prop where
  proxies : ∀ (key : Nat) (cell : Cell), c.cells[key]? = some cell → c'.cells[key]? = some cell
  carried : ∀ ref ∈ refs, reply.Carries ref.id
  /-- The objects looked up that had no proxy get one release each. -/
  released : ∀ session session', c.sessions[s]? = some session → c'.sessions[s]? = some session' →
    session'.isUp = true → ∀ ref ∈ refs, ¬ c.HasProxy s ref.id →
      session'.releases ref.id = session.releases ref.id + 1
  /-- No other object gets one. -/
  silent : ∀ session session', c.sessions[s]? = some session → c'.sessions[s]? = some session' →
    session'.isUp = true → ∀ id, c.HasProxy s id ∨ (∀ ref ∈ refs, ref.id ≠ id) →
      session'.releases id = session.releases id
  /-- So of the objects in the reply just those are held or released that had a proxy or were looked up. -/
  heldOrReleased : ∀ session session', c.sessions[s]? = some session → c'.sessions[s]? = some session' →
    session'.isUp = true → ∀ id, reply.Carries id →
      (HeldOrReleased s session c session' c' id ↔ c.HasProxy s id ∨ ∃ ref ∈ refs, ref.id = id)

theorem Listing.hasProxy_iff (hl : c.Listing s) (id : Int32) :
    c.HasProxy s id ↔ upheld c.cells s id ≠ 0 := by
  rw [upheld, Ne, Array.countP_eq_zero, not_forall]
  refine ⟨fun h => ?_, fun h => ?_⟩
  · obtain ⟨key, cell, hcell, hof, hlive⟩ := h
    rw [hl.isLive_eq hcell] at hlive
    exact ⟨cell, by simp [Array.mem_of_getElem? hcell, hof, hlive]⟩
  · obtain ⟨cell, hcell⟩ := h
    simp only [Classical.not_imp, not_not, Bool.and_eq_true] at hcell
    obtain ⟨hmem, hof, hlive⟩ := hcell
    obtain ⟨key, hkey⟩ := Array.mem_iff_getElem?.mp hmem
    exact ⟨key, cell, hkey, hof, by rw [hl.isLive_eq hkey, hlive]⟩

theorem rejected_of_releases {c' : Client} {reply : Message} (hl : c.Listing s)
    (hproxies : ∀ (key : Nat) (cell : Cell), c.cells[key]? = some cell → c'.cells[key]? = some cell)
    (hcarried : ∀ ref ∈ refs, reply.Carries ref.id)
    (hsent : ∀ session session', c.sessions[s]? = some session → c'.sessions[s]? = some session' →
      session'.isUp = true →
      ∀ id, session'.releases id = session.releases id + newly c.cells s refs id) :
    Rejected s c c' reply refs := by
  have hlooked {id : Int32} (hid : ∃ ref ∈ refs, ref.id = id) (hnone : ¬ c.HasProxy s id) :
      newly c.cells s refs id = 1 := by
    rw [hl.hasProxy_iff, not_not] at hnone
    rw [newly, if_pos ⟨hid, hnone⟩]
  have hother {id : Int32} (hid : c.HasProxy s id ∨ ∀ ref ∈ refs, ref.id ≠ id) :
      newly c.cells s refs id = 0 := by
    rw [newly, if_neg]
    rintro ⟨⟨ref, href, heq⟩, hzero⟩
    obtain hproxy | hnot := hid
    · exact (hl.hasProxy_iff id).mp hproxy hzero
    · exact hnot ref href heq
  refine ⟨hproxies, hcarried, fun session session' hs hs' hup ref href hnone => ?_,
    fun session session' hs hs' hup id hid => ?_,
    fun session session' hs hs' hup id _ => ⟨fun h => ?_, fun h => ?_⟩⟩
  · rw [hsent session session' hs hs' hup, hlooked ⟨ref, href, rfl⟩ hnone]
  · rw [hsent session session' hs hs' hup, hother hid]
    rfl
  · obtain ⟨key, cell, hcell, hof, hlive, _⟩ | hone := h
    · exact .inl ⟨key, cell, hcell, hof, hlive⟩
    · by_contra hnot
      rw [not_or] at hnot
      have hzero := hother (.inr fun ref href heq => hnot.2 ⟨ref, href, heq⟩)
      rw [hsent session session' hs hs' hup, hzero] at hone
      omega
  · by_cases hproxy : c.HasProxy s id
    · obtain ⟨key, cell, hcell, hof, hlive⟩ := hproxy
      exact .inl ⟨key, cell, hcell, hof, hlive, hproxies key cell hcell⟩
    · right
      rw [hsent session session' hs hs' hup, hlooked (h.resolve_left hproxy) hproxy]

/-- A request whose reply has no value fails; the references in the reply have been looked up as far as
`Message.reached` says. -/
theorem request_rejected (hc : c.Sound) (hl : c.Listing s) {m reply : Message} {mid : Client}
    (hm : m.awaitsReply = true) (hexchange : exchange s m c = .ok reply mid)
    (hreply : reply.isValue = false) :
    ∃ fault c', request s m c = .error fault c' ∧ Rejected s c c' reply reply.reached := by
  have hcells := exchange_cells hexchange
  have hruns := runs_exchange hm hexchange
  have hlooked := looked_resolve m.tag reply (hruns.sound hc) (hruns.listing hc hl)
    (keeps_exchange hexchange).2 (.refl s mid)
  have hrequest : request s m c = resolve s m.tag reply mid := bind_of_ok _ hexchange
  cases hresolve : resolve s m.tag reply mid with
  | ok v c' =>
    rw [hresolve] at hlooked
    rw [hlooked.2] at hreply
    cases hreply
  | error fault c' =>
    rw [hresolve] at hlooked hrequest
    obtain ⟨hlent, hmade, _⟩ := hlooked
    rw [hcells] at hlent
    refine ⟨fault, c', hrequest, rejected_of_releases hl hlent.returned.1
      (fun ref href => ⟨ref, Message.mem_parts_of_reached href, rfl⟩) ?_⟩
    intro session session' hs hs' hup id
    have hall : Runs (fun _ d => d.isRelease = false) c c' := by
      have hlast : Runs (fun _ d => d.isRelease = false) mid (after (resolve s m.tag reply mid)) :=
        (leads_resolve s m.tag reply (hruns.sound hc)).runs
      rw [hresolve] at hlast
      exact hruns.trans hlast
    obtain ⟨found, hfound, htally⟩ := Runs.tallied hall (fun _ hd => hd) session' hs'
    rw [hs, Option.some.injEq] at hfound
    subst hfound
    -- All proxies made for the reply have let go, so the releases sent are as many as were made.
    have hmade := hmade id
    have hupheld := hlent.upheld_eq s id
    rw [hcells, List.nil_append, countP_split (Cell.isOf s id) Cell.released,
      countP_split (Cell.isOf s id) Cell.released] at hmade
    have hsent := (htally.exact hup).2 id
    unfold letGone at hsent
    unfold upheld at hupheld
    omega

/-- A reply to a request for a template that is none is rejected as a whole: nothing in it is looked up. -/
theorem fetchTemplate_rejected (hl : c.Listing s) {className : String} {reply : Message} {mid : Client}
    (hexchange : exchange s (.templateReq className) c = .ok reply mid)
    (hreply : ∀ members, reply ≠ .templateReply members) :
    ∃ fault, fetchTemplate s className c = .error fault mid ∧ Rejected s c mid reply [] := by
  have hcells := exchange_cells hexchange
  have hfetch : ∃ fault, fetchTemplate s className c = .error fault mid := by
    unfold fetchTemplate
    rw [bind_of_ok _ hexchange]
    cases reply with
    | templateReply members => exact absurd rfl (hreply members)
    | exception text => exact ⟨_, rfl⟩
    | _ => exact ⟨_, rfl⟩
  obtain ⟨fault, hfetch⟩ := hfetch
  refine ⟨fault, hfetch, rejected_of_releases hl (fun key cell hcell => ?_)
    (fun ref href => by cases href) ?_⟩
  · rw [hcells]
    exact hcell
  · intro session session' hs hs' hup id
    obtain ⟨found, hfound, htally⟩ :=
      Runs.tallied (runs_exchange rfl hexchange) (fun _ hd => hd) session' hs'
    rw [hs, Option.some.injEq] at hfound
    subst hfound
    have hsent := (htally.exact hup).2 id
    rw [hcells] at hsent
    rw [newly_nil, Nat.add_zero]
    exact Nat.add_right_cancel hsent

end Client

end ObjectBridge
