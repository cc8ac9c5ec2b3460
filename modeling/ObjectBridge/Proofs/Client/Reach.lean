import ObjectBridge.Proofs.Client.Balance
import Mathlib.Data.Fintype.EquivFin
import Mathlib.Order.WellFounded

/-!
# Proxies in reach

A proxy is in reach of some values if it occurs in them, or in a value that is kept on a proxy in reach.
As holders are counted, a proxy that is out of reach is given up, unless a cycle of proxies that are kept
on each other leads to it (`Balanced.dropped`).
-/

namespace ObjectBridge

variable {cells : Array Cell} {hand : List Value} {key : Nat}

/-- A proxy occurs in a value that is kept on another. -/
def KeptBy (cells : Array Cell) (keeper key : Nat) : Prop :=
  ∃ cell, cells[keeper]? = some cell ∧ ∃ v ∈ cell.kept, ∃ p ∈ v.proxies, p.key = key

/-- A proxy is in reach of values. -/
def InReach (cells : Array Cell) (hand : List Value) (key : Nat) : Prop :=
  ∃ v ∈ hand, ∃ p ∈ v.proxies, Relation.ReflTransGen (KeptBy cells) p.key key

/-- A proxy is kept on itself, directly or over others, or such a proxy leads to it. -/
def OnCycle (cells : Array Cell) (key : Nat) : Prop :=
  ∃ first, Relation.TransGen (KeptBy cells) first first ∧ Relation.ReflTransGen (KeptBy cells) first key

theorem mem_keptOn {v : Value} : v ∈ keptOn cells ↔
    ∃ (keeper : Nat) (cell : Cell), cells[keeper]? = some cell ∧ v ∈ cell.kept := by
  rw [keptOn, List.mem_flatMap]
  refine ⟨fun h => ?_, fun h => ?_⟩
  · obtain ⟨cell, hcell, hv⟩ := h
    obtain ⟨keeper, hkeeper⟩ := Array.mem_iff_getElem?.mp (Array.mem_toList_iff.mp hcell)
    exact ⟨keeper, cell, hkeeper, hv⟩
  · obtain ⟨keeper, cell, hcell, hv⟩ := h
    exact ⟨cell, Array.mem_toList_iff.mpr (Array.mem_of_getElem? hcell), hv⟩

theorem Balanced.held_cases (h : Balanced cells hand) {cell : Cell} (hcell : cells[key]? = some cell)
    (hheld : cell.holders ≠ 0) : InReach cells hand key ∨ ∃ keeper, KeptBy cells keeper key := by
  have hcount := h key
  rw [holdersOf, hcell] at hcount
  dsimp only at hcount
  by_cases hhand : 0 < mentions key hand
  · obtain ⟨v, hv, p, hp, rfl⟩ := mentions_pos_iff.mp hhand
    exact .inl ⟨v, hv, p, hp, .refl⟩
  · have hkept : 0 < mentions key (keptOn cells) := by omega
    obtain ⟨v, hv, p, hp, hkey⟩ := mentions_pos_iff.mp hkept
    obtain ⟨keeper, found, hfound, hv⟩ := mem_keptOn.mp hv
    exact .inr ⟨keeper, found, hfound, v, hv, p, hp, hkey⟩

/-- Where no cycle leads to a proxy, some first proxy does on which nothing is kept. -/
theorem exists_first (hcell : key < cells.size) (hcycle : ¬ OnCycle cells key) :
    ∃ first, Relation.ReflTransGen (KeptBy cells) first key ∧ ∀ keeper, ¬ KeptBy cells keeper first := by
  -- The proxies that lead to this one are finitely many and never lead back to themselves.
  let Leading := { k : Fin cells.size // Relation.ReflTransGen (KeptBy cells) k key }
  let before (a b : Leading) : Prop := Relation.TransGen (KeptBy cells) a.val b.val
  have hfinite : Finite Leading := Subtype.finite
  have htrans : IsTrans Leading before := ⟨fun _ _ _ hab hbc => hab.trans hbc⟩
  have hirrefl : Std.Irrefl before := ⟨fun a ha => hcycle ⟨a.val, ha, a.property⟩⟩
  have hwf : WellFounded before := Finite.wellFounded_of_trans_of_irrefl before
  obtain ⟨first, _, hfirst⟩ := hwf.has_min Set.univ ⟨⟨⟨key, hcell⟩, .refl⟩, trivial⟩
  refine ⟨first.val, first.property, fun keeper hkeeper => ?_⟩
  obtain ⟨cell, hfound, _⟩ := id hkeeper
  have hsize : keeper < cells.size := (Array.getElem?_eq_some_iff.mp hfound).1
  exact hfirst ⟨⟨keeper, hsize⟩, .head hkeeper first.property⟩ trivial (.single hkeeper)

/-- A proxy on which something is kept is held, and whatever leads to a held proxy is. -/
theorem held_of_reach (hfit : ∀ (k : Nat) (cell : Cell), cells[k]? = some cell → cell.Fit) {first : Nat}
    (hreach : Relation.ReflTransGen (KeptBy cells) first key) {cell : Cell} (hcell : cells[key]? = some cell)
    (hheld : cell.holders ≠ 0) : ∃ found, cells[first]? = some found ∧ found.holders ≠ 0 := by
  obtain rfl | ⟨_, ⟨found, hfound, v, hv, _⟩, _⟩ := hreach.cases_head
  · exact ⟨cell, hcell, hheld⟩
  · refine ⟨found, hfound, fun hzero => ?_⟩
    rw [Cell.kept, ((hfit first found hfound).gone hzero).2] at hv
    cases hv

/-- A proxy that is out of reach, and not on a cycle, is held by nobody. -/
theorem Balanced.dropped (h : Balanced cells hand)
    (hfit : ∀ (k : Nat) (cell : Cell), cells[k]? = some cell → cell.Fit) {cell : Cell}
    (hcell : cells[key]? = some cell) (hreach : ¬ InReach cells hand key) (hcycle : ¬ OnCycle cells key) :
    cell.holders = 0 := by
  by_contra hheld
  obtain ⟨first, hleads, hnone⟩ := exists_first (Array.getElem?_eq_some_iff.mp hcell).1 hcycle
  obtain ⟨found, hfound, hfoundHeld⟩ := held_of_reach hfit hleads hcell hheld
  obtain ⟨v, hv, p, hp, hfirst⟩ | ⟨keeper, hkeeper⟩ := h.held_cases hfound hfoundHeld
  · exact hreach ⟨v, hv, p, hp, hfirst.trans hleads⟩
  · exact hnone keeper hkeeper

end ObjectBridge
