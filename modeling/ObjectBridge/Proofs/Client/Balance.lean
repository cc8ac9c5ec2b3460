import ObjectBridge.Proofs.Client.Moves

/-!
# Who holds a proxy

The count of the holders of a proxy has to agree with the places where the proxy occurs: in the values
that somebody has in hand, and in the values that are kept on proxies (`Balanced`). An operation takes some
values in hand and leaves others (`Passes`), whatever else is held; operations that follow one another pass
on what they have in hand, and giving up values leaves nothing in hand (`balanced_reclaim`).
-/

namespace ObjectBridge

/-! ### Occurrences -/

/-- How often a proxy occurs in values. -/
def mentions (key : Nat) (vs : List Value) : Nat :=
  (vs.flatMap Value.proxies).countP fun p => p.key == key

section Mentions

variable {key : Nat} {v : Value} {vs ws : List Value}

@[simp] theorem mentions_nil : mentions key [] = 0 := rfl

@[simp] theorem mentions_append : mentions key (vs ++ ws) = mentions key vs + mentions key ws := by
  simp only [mentions, List.flatMap_append, List.countP_append]

theorem mentions_cons :
    mentions key (v :: vs) = (v.proxies.countP fun p => p.key == key) + mentions key vs := by
  simp only [mentions, List.flatMap_cons, List.countP_append]

theorem mentions_list : mentions key (.list ws :: vs) = mentions key ws + mentions key vs := by
  rw [mentions_cons, Value.proxies, Client.proxiesOfAll_eq]
  rfl

theorem mentions_object (p : Proxy) :
    mentions key (.object p :: vs) = (if p.key = key then 1 else 0) + mentions key vs := by
  rw [mentions_cons, Value.proxies, List.countP_singleton]
  simp only [beq_iff_eq]

theorem mentions_objects (ps : List Proxy) :
    mentions key (ps.map .object) = ps.countP fun p => p.key == key := by
  induction ps with
  | nil => rfl
  | cons p ps ih => simp only [List.map_cons, mentions_object, ih, List.countP_cons, beq_iff_eq, Nat.add_comm]

theorem mentions_plain (h : v.proxies = []) : mentions key (v :: vs) = mentions key vs := by
  rw [mentions_cons, h, List.countP_nil, Nat.zero_add]

theorem mentions_reverse : mentions key vs.reverse = mentions key vs := by
  induction vs with
  | nil => rfl
  | cons v vs ih =>
    rw [List.reverse_cons, mentions_append, ih, mentions_cons, mentions_cons, mentions_nil,
      Nat.add_zero, Nat.add_comm]

theorem mentions_pos_iff : 0 < mentions key vs ↔ ∃ v ∈ vs, ∃ p ∈ v.proxies, p.key = key := by
  simp only [mentions, List.countP_pos_iff, List.mem_flatMap, beq_iff_eq]
  refine ⟨fun h => ?_, fun h => ?_⟩
  · obtain ⟨p, ⟨v, hv, hp⟩, hkey⟩ := h
    exact ⟨v, hv, p, hp, hkey⟩
  · obtain ⟨v, hv, p, hp, hkey⟩ := h
    exact ⟨p, ⟨v, hv, hp⟩, hkey⟩

/-- Of entries whose names differ, a name takes the values of its entry and leaves all others. -/
theorem mentions_lookup {α : Type} (key : Nat) (values : α → List Value) {entries : List (String × α)}
    (h : (entries.map Prod.fst).Nodup) (name : String) :
    mentions key (entries.flatMap fun entry => values entry.2) =
      mentions key ((entries.filter fun entry => entry.1 != name).flatMap fun entry => values entry.2) +
        mentions key ((entries.lookup name).toList.flatMap values) := by
  induction entries with
  | nil => rfl
  | cons entry entries ih =>
    rw [List.map_cons, List.nodup_cons] at h
    by_cases hname : entry.1 = name
    · have hothers : (entries.filter fun entry => entry.1 != name) = entries := by
        rw [List.filter_eq_self]
        intro other hother
        have hne : other.1 ≠ name := fun heq => h.1 (List.mem_map.mpr ⟨other, hother, heq.trans hname.symm⟩)
        simpa using hne
      rw [List.filter_cons_of_neg (by simpa using hname), hothers, List.lookup_cons,
        beq_iff_eq.mpr hname.symm, List.flatMap_cons, mentions_append]
      simp only [Option.toList_some, List.flatMap_singleton]
      omega
    · have hbeq : (name == entry.1) = false := beq_false_of_ne (Ne.symm hname)
      rw [List.filter_cons_of_pos (by simpa using hname), List.lookup_cons, hbeq, List.flatMap_cons,
        List.flatMap_cons, mentions_append, mentions_append, ih h.2]
      dsimp only
      omega

theorem mentions_lookup_value {entries : List (String × Value)} (h : (entries.map Prod.fst).Nodup)
    (name : String) :
    mentions key (entries.map (·.2)) =
      mentions key ((entries.filter fun entry => entry.1 != name).map (·.2)) +
        mentions key (entries.lookup name).toList := by
  have hlookup := mentions_lookup key (fun v => [v]) h name
  rw [← List.map_eq_flatMap, ← List.map_eq_flatMap, List.flatMap_singleton'] at hlookup
  exact hlookup

end Mentions

/-- The values that are kept on proxies. -/
def keptOn (cells : Array Cell) : List Value := cells.toList.flatMap Cell.kept

def holdersOf (cells : Array Cell) (key : Nat) : Nat :=
  match cells[key]? with
  | some cell => cell.holders
  | none => 0

theorem mentions_keptOn_replaced {cells : Array Cell} {i : Nat} {old : Cell} (h : cells[i]? = some old)
    (new : Cell) (key : Nat) :
    mentions key (keptOn (cells.setIfInBounds i new)) + mentions key old.kept =
      mentions key (keptOn cells) + mentions key new.kept := by
  obtain ⟨cells⟩ := cells
  simp only [keptOn, List.setIfInBounds_toArray]
  simp only [List.getElem?_toArray] at h
  induction cells generalizing i with
  | nil => cases h
  | cons cell cells ih =>
    cases i with
    | zero =>
      cases h
      simp only [List.set_cons_zero, List.flatMap_cons, mentions_append]
      omega
    | succ i =>
      have hrest := ih h
      simp only [List.set_cons_succ, List.flatMap_cons, mentions_append] at hrest ⊢
      omega

theorem holdersOf_replaced {cells : Array Cell} {i : Nat} {old : Cell} (h : cells[i]? = some old)
    (new : Cell) (key : Nat) :
    holdersOf (cells.setIfInBounds i new) key = if i = key then new.holders else holdersOf cells key := by
  unfold holdersOf
  rw [getElem?_replaced h]
  by_cases hkey : i = key
  · rw [if_pos hkey, if_pos hkey]
  · rw [if_neg hkey, if_neg hkey]

/-! ### Balance -/

/-- Every proxy is counted as often as it occurs in the values in hand and in those kept on proxies. -/
def Balanced (cells : Array Cell) (hand : List Value) : Prop :=
  ∀ key, holdersOf cells key = mentions key hand + mentions key (keptOn cells)

namespace Balanced

variable {cells : Array Cell} {hand hand' : List Value}

theorem congr (h : Balanced cells hand) (hsame : ∀ key, mentions key hand = mentions key hand') :
    Balanced cells hand' := by
  intro key
  rw [← hsame key]
  exact h key

/-- A cell may change as far as the difference passes through the values in hand. -/
theorem replace {i : Nat} {old new : Cell} (h : Balanced cells hand) (hcell : cells[i]? = some old)
    (hnew : ∀ key, (if i = key then old.holders else 0) + mentions key hand' + mentions key new.kept =
      (if i = key then new.holders else 0) + mentions key hand + mentions key old.kept) :
    Balanced (cells.setIfInBounds i new) hand' := by
  intro key
  have hkept := mentions_keptOn_replaced hcell new key
  have hbefore := h key
  have hchange := hnew key
  rw [holdersOf_replaced hcell]
  split
  · rename_i hkey
    subst hkey
    have hholders : holdersOf cells i = old.holders := by rw [holdersOf, hcell]
    simp only [if_true] at hchange
    omega
  · rename_i hkey
    simp only [hkey, if_false] at hchange
    omega

theorem held {p : Proxy} {rest : List Value} (h : Balanced cells (.object p :: rest)) :
    ∃ cell, cells[p.key]? = some cell ∧ cell.holders ≠ 0 := by
  have hcount := h p.key
  rw [mentions_object, if_pos rfl, holdersOf] at hcount
  cases hcell : cells[p.key]? with
  | none =>
    rw [hcell] at hcount
    dsimp only at hcount
    omega
  | some cell =>
    rw [hcell] at hcount
    dsimp only at hcount
    exact ⟨cell, rfl, by omega⟩

theorem push {p : Proxy} {cell : Cell} (h : Balanced cells hand) (hkey : p.key = cells.size)
    (hholders : cell.holders = 1) (hlocals : cell.locals = []) :
    Balanced (cells.push cell) (.object p :: hand) := by
  intro key
  have hkept : keptOn (cells.push cell) = keptOn cells := by
    simp only [keptOn, Array.toList_push, List.flatMap_append, List.flatMap_singleton, Cell.kept,
      hlocals, List.map_nil, List.append_nil]
  have hbefore := h key
  rw [mentions_object, hkept, hkey]
  unfold holdersOf at hbefore ⊢
  rw [Array.getElem?_push]
  by_cases hsize : key = cells.size
  · have hnone : cells[key]? = none := by simp [hsize]
    rw [hnone] at hbefore
    rw [if_pos hsize, if_pos hsize.symm]
    dsimp only at hbefore ⊢
    omega
  · rw [if_neg hsize, if_neg (Ne.symm hsize), hbefore]
    omega

theorem empty : Balanced #[] [] := fun _ => rfl

end Balanced

namespace Client

/-- What may be said of cells and the values in hand so that it stays true while values are given up: it
depends on the proxies in hand alone, each of which has a holder, and the last holder of a proxy leaves the
values that were kept on it, any other one leaves nothing. -/
structure GivesUp (holds : Array Cell → List Value → Prop) : Prop where
  congr : ∀ {cells : Array Cell} {hand hand' : List Value}, holds cells hand →
    (∀ key, mentions key hand = mentions key hand') → holds cells hand'
  held : ∀ {cells : Array Cell} {p : Proxy} {rest : List Value}, holds cells (.object p :: rest) →
    ∃ cell, cells[p.key]? = some cell ∧ cell.holders ≠ 0
  last : ∀ {cells : Array Cell} {p : Proxy} {rest : List Value} {cell : Cell},
    holds cells (.object p :: rest) → cells[p.key]? = some cell → cell.holders = 1 →
    holds (cells.setIfInBounds p.key cell.finished) (cell.kept ++ rest)
  fewer : ∀ {cells : Array Cell} {p : Proxy} {rest : List Value} {cell : Cell},
    holds cells (.object p :: rest) → cells[p.key]? = some cell → cell.holders ≠ 0 → cell.holders ≠ 1 →
    holds (cells.setIfInBounds p.key { cell with holders := cell.holders - 1 }) rest

theorem GivesUp.reclaim {holds : Array Cell → List Value → Prop} (hholds : GivesUp holds)
    (pending : List Value) (cells : Array Cell) (gone : List Proxy) {hand : List Value}
    (h : holds cells (pending ++ hand)) : holds (reclaim pending cells gone).1 hand := by
  -- The values still to be given up count as in hand until their turn comes.
  fun_induction Client.reclaim pending cells gone with
  | case1 cells gone => exact h
  | case2 cells gone items rest ih =>
    refine ih (hholds.congr h fun key => ?_)
    simp only [List.cons_append, mentions_list, mentions_append, Nat.add_assoc]
  | case3 cells gone p rest hnone ih =>
    obtain ⟨cell, hcell, _⟩ := hholds.held h
    rw [hnone] at hcell
    cases hcell
  | case4 cells gone p rest cell hcell hzero ih =>
    obtain ⟨found, hfound, hheld⟩ := hholds.held h
    rw [hcell, Option.some.injEq] at hfound
    subst hfound
    exact absurd hzero hheld
  | case5 cells gone p rest cell hcell hzero hone ih =>
    refine ih ?_
    rw [List.append_assoc]
    exact hholds.last h hcell hone
  | case6 cells gone p rest cell hcell hzero hone ih =>
    exact ih (hholds.fewer h hcell hzero hone)
  | case7 cells gone v rest hlist hobject ih =>
    refine ih (hholds.congr h fun key => ?_)
    have hplain : v.proxies = [] := by
      cases v with
      | list items => exact absurd rfl (hlist items)
      | object p => exact absurd rfl (hobject p)
      | _ => rfl
    rw [List.cons_append, mentions_plain hplain]

theorem givesUp_balanced : GivesUp Balanced where
  congr h hsame := h.congr hsame
  held h := h.held
  last := by
    intro cells p rest cell h hcell hone
    refine h.replace hcell fun key => ?_
    simp only [mentions_append, mentions_object, Cell.finished, Cell.kept, List.map_nil, mentions_nil, hone]
    split <;> omega
  fewer := by
    intro cells p rest cell h hcell hzero hone
    refine h.replace hcell fun key => ?_
    simp only [mentions_object, Cell.kept]
    split <;> omega

/-- Giving up values takes back what was counted for them, down to the values that were kept on proxies
which nobody holds any more. -/
theorem balanced_reclaim (pending : List Value) (cells : Array Cell) (gone : List Proxy)
    {hand : List Value} (h : Balanced cells (pending ++ hand)) :
    Balanced (reclaim pending cells gone).1 hand :=
  givesUp_balanced.reclaim pending cells gone h

/-! ### Passing on -/

/-- Whatever else is held, who has the values `hand` in hand before has `hand'` afterwards. -/
def Passes (c : Client) (hand : List Value) (c' : Client) (hand' : List Value) : Prop :=
  ∀ others, Balanced c.cells (hand ++ others) → Balanced c'.cells (hand' ++ others)

namespace Passes

variable {c c' c'' : Client} {hand hand' hand'' : List Value}

theorem refl : Passes c hand c hand := fun _ h => h

theorem trans (h : Passes c hand c' hand') (h' : Passes c' hand' c'' hand'') :
    Passes c hand c'' hand'' := fun others hb => h' others (h others hb)

theorem congr (h : Passes c hand c' hand') (hsame : ∀ key, mentions key hand' = mentions key hand'') :
    Passes c hand c' hand'' := by
  intro others hb
  refine (h others hb).congr fun key => ?_
  rw [mentions_append, mentions_append, hsame key]

theorem beside (h : Passes c hand c' hand') (more : List Value) :
    Passes c (hand ++ more) c' (hand' ++ more) := by
  intro others hb
  rw [List.append_assoc] at hb ⊢
  exact h _ hb

theorem of_cells (h : c'.cells = c.cells) : Passes c hand c' hand := by
  intro others hb
  rw [h]
  exact hb

/-- A cell whose holders and kept values stay the same is of no account. -/
theorem of_modify (p : Proxy) {f : Cell → Cell}
    (h : ∀ cell, (f cell).holders = cell.holders ∧ (f cell).locals = cell.locals) :
    Passes c hand (c.modifyCell p f) hand := by
  cases hcell : c.cells[p.key]? with
  | none =>
    rw [modifyCell, modify_of_none hcell]
    exact refl
  | some cell =>
    rw [modifyCell, modify_of_some hcell]
    intro others hb
    obtain ⟨hholders, hlocals⟩ := h cell
    refine hb.replace hcell fun key => ?_
    rw [hholders, Cell.kept, Cell.kept, hlocals]

theorem holdProxy {p : Proxy} (hp : c.Knows p) : Passes c [] (c.holdProxy p) [.object p] := by
  obtain ⟨cell, hcell, _⟩ := hp
  rw [Client.holdProxy, modifyCell, modify_of_some hcell]
  intro others hb
  refine hb.replace hcell fun key => ?_
  rw [List.singleton_append, mentions_object, List.nil_append]
  simp only [Cell.kept]
  split <;> omega

end Passes

end Client

end ObjectBridge
