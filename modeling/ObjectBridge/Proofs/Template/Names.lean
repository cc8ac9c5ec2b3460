import ObjectBridge.Template
import Mathlib.Data.List.Induction
import Mathlib.Data.List.Sort
import Mathlib.Data.String.Basic

/-!
# Sorted names

A list of names that is put together by `insertName` is strictly increasing, so it names nothing twice, and
it has just the names that were put in.
-/

namespace ObjectBridge

variable {name other : String} {names : List String}

theorem mem_insertName : other ∈ insertName name names ↔ other = name ∨ other ∈ names := by
  induction names with
  | nil => simp [insertName]
  | cons first rest ih =>
    simp only [insertName]
    split
    · exact List.mem_cons
    split
    · rename_i heq
      rw [heq]
      simp
    · rw [List.mem_cons, ih, List.mem_cons]
      exact or_left_comm

theorem pairwise_insertName (h : names.Pairwise (· < ·)) : (insertName name names).Pairwise (· < ·) := by
  induction names with
  | nil => simp [insertName]
  | cons first rest ih =>
    obtain ⟨hfirst, hrest⟩ := List.pairwise_cons.mp h
    simp only [insertName]
    split
    · rename_i hlt
      refine List.pairwise_cons.mpr ⟨fun later hlater => ?_, h⟩
      obtain rfl | hlater := List.mem_cons.mp hlater
      · exact hlt
      · exact hlt.trans (hfirst later hlater)
    split
    · exact h
    · rename_i hge hne
      refine List.pairwise_cons.mpr ⟨fun later hlater => ?_, ih hrest⟩
      obtain rfl | hlater := mem_insertName.mp hlater
      · exact lt_of_le_of_ne (not_lt.mp hge) (Ne.symm hne)
      · exact hfirst later hlater

theorem sortedNames_concat (names : List String) (name : String) :
    sortedNames (names ++ [name]) = insertName name (sortedNames names) := by
  rw [sortedNames, List.foldl_append]
  rfl

theorem mem_sortedNames : name ∈ sortedNames names ↔ name ∈ names := by
  induction names using List.reverseRecOn with
  | nil => rfl
  | append_singleton names last ih =>
    rw [sortedNames_concat, mem_insertName, ih, List.mem_append, List.mem_singleton]
    exact or_comm

theorem pairwise_sortedNames (names : List String) : (sortedNames names).Pairwise (· < ·) := by
  induction names using List.reverseRecOn with
  | nil => exact .nil
  | append_singleton names last ih =>
    rw [sortedNames_concat]
    exact pairwise_insertName ih

theorem sortedNames_congr {names' : List String} (h : ∀ name, name ∈ names ↔ name ∈ names') :
    sortedNames names = sortedNames names' := by
  refine (pairwise_sortedNames names).eq_of_mem_iff (pairwise_sortedNames names') fun name => ?_
  rw [mem_sortedNames, mem_sortedNames, h name]

end ObjectBridge
