/-!
# Blank characters

The characters with the Unicode property White_Space, and a text without those at its ends.
-/

namespace ObjectBridge.Text

def isBlank (c : Char) : Bool :=
  let code := c.toNat
  (0x09 ≤ code && code ≤ 0x0d) || code == 0x20 || code == 0x85 || code == 0xa0 || code == 0x1680
    || (0x2000 ≤ code && code ≤ 0x200a) || code == 0x2028 || code == 0x2029 || code == 0x202f
    || code == 0x205f || code == 0x3000

/-- The characters without the white space at both ends. -/
def trimBlank (cs : List Char) : List Char :=
  ((cs.dropWhile isBlank).reverse.dropWhile isBlank).reverse

/-- Only white space is cut off. -/
theorem exists_trimBlank (cs : List Char) :
    ∃ front back, cs = front ++ trimBlank cs ++ back ∧ (∀ c ∈ front, isBlank c = true) ∧
      ∀ c ∈ back, isBlank c = true := by
  refine ⟨cs.takeWhile isBlank, ((cs.dropWhile isBlank).reverse.takeWhile isBlank).reverse, ?_, ?_, ?_⟩
  · rw [trimBlank, List.append_assoc, ← List.reverse_append, List.takeWhile_append_dropWhile,
      List.reverse_reverse, List.takeWhile_append_dropWhile]
  · exact List.all_eq_true.mp List.all_takeWhile
  · intro c hc
    exact List.all_eq_true.mp List.all_takeWhile c (List.mem_reverse.mp hc)

theorem dropWhile_isBlank_append {front rest : List Char} (hfront : ∀ c ∈ front, isBlank c = true)
    (hrest : ∀ c ∈ rest.head?, isBlank c = false) : (front ++ rest).dropWhile isBlank = rest := by
  rw [List.dropWhile_append_of_pos hfront]
  cases rest with
  | nil => rfl
  | cons c rest =>
    have hc := hrest c rfl
    rw [List.dropWhile_cons_of_neg (by simp [hc])]

/-- All of the white space around a text is cut off. -/
theorem trimBlank_append {front core back : List Char} (hfront : ∀ c ∈ front, isBlank c = true)
    (hback : ∀ c ∈ back, isBlank c = true) (hne : core ≠ [])
    (hcore : ∀ c ∈ core, isBlank c = false) : trimBlank (front ++ core ++ back) = core := by
  have hhead : ∀ c ∈ (core ++ back).head?, isBlank c = false := fun c hc => by
    obtain ⟨d, ds, rfl⟩ := List.exists_cons_of_ne_nil hne
    cases hc
    exact hcore c (List.mem_cons_self ..)
  have hlast : ∀ c ∈ core.reverse.head?, isBlank c = false := fun c hc =>
    hcore c (List.mem_reverse.mp (List.mem_of_mem_head? hc))
  rw [trimBlank, List.append_assoc, dropWhile_isBlank_append hfront hhead, List.reverse_append,
    dropWhile_isBlank_append (by simpa using hback) hlast, List.reverse_reverse]

end ObjectBridge.Text
