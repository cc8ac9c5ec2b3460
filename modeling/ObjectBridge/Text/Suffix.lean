/-!
# What stands behind the last separator

The last name in a dotted class name and the last component of a path: one function, with the separator as its
argument.
-/

namespace ObjectBridge.Text

/-- The text behind the last separator, or all of it where there is none. -/
def behindLast (separator : Char) (s : String) : String :=
  String.ofList (s.toList.reverse.takeWhile (· != separator)).reverse

section

variable {separator : Char} {s t : String}

theorem takeWhile_ne_append {back : List Char} (h : separator ∉ back) (rest : List Char) :
    (back ++ rest).takeWhile (· != separator) = back ++ rest.takeWhile (· != separator) := by
  refine List.takeWhile_append_of_pos fun c hc => bne_iff_ne.mpr ?_
  rintro rfl
  exact h hc

theorem behindLast_of_not_mem (h : separator ∉ s.toList) : behindLast separator s = s := by
  have hall := takeWhile_ne_append (fun hmem => h (List.mem_reverse.mp hmem)) []
  rw [List.append_nil, List.takeWhile_nil, List.append_nil] at hall
  rw [behindLast, hall, List.reverse_reverse, String.ofList_toList]

theorem behindLast_append (front : String) (h : separator ∉ t.toList) :
    behindLast separator (front ++ (String.singleton separator ++ t)) = t := by
  have hcut : (front ++ (String.singleton separator ++ t)).toList.reverse =
      t.toList.reverse ++ separator :: front.toList.reverse := by
    simp [String.toList_append, String.toList_singleton]
  rw [behindLast, hcut, takeWhile_ne_append (fun hmem => h (List.mem_reverse.mp hmem)),
    List.takeWhile_cons_of_neg (by simp), List.append_nil, List.reverse_reverse, String.ofList_toList]

/-- The text behind the last separator is the one end without a separator that has one in front of it or is the
whole text. -/
theorem behindLast_eq_iff : behindLast separator s = t ↔
    separator ∉ t.toList ∧ (s = t ∨ ∃ front, s = front ++ (String.singleton separator ++ t)) := by
  constructor
  · rintro rfl
    by_cases hmem : separator ∈ s.toList
    · obtain ⟨back, front, hrev, hback⟩ := List.eq_append_cons_of_mem (List.mem_reverse.mpr hmem)
      have hs : s = String.ofList front.reverse ++
          (String.singleton separator ++ String.ofList back.reverse) := by
        apply String.toList_inj.mp
        rw [← List.reverse_reverse s.toList, hrev]
        simp [String.toList_append, String.toList_singleton]
      have hend : separator ∉ (String.ofList back.reverse).toList := by
        rw [String.toList_ofList, List.mem_reverse]
        exact hback
      have hbehind := behindLast_append (String.ofList front.reverse) hend
      rw [← hs] at hbehind
      rw [hbehind]
      exact ⟨hend, .inr ⟨_, hs⟩⟩
    · rw [behindLast_of_not_mem hmem]
      exact ⟨hmem, .inl rfl⟩
  · rintro ⟨hend, rfl | ⟨front, rfl⟩⟩
    · exact behindLast_of_not_mem hend
    · exact behindLast_append front hend

/-- What stands in front of a separator does not matter. -/
theorem behindLast_prepend (front s : String) :
    behindLast separator (front ++ (String.singleton separator ++ s)) = behindLast separator s := by
  obtain ⟨hend, hwhole | ⟨middle, hs⟩⟩ := behindLast_eq_iff.mp (rfl : behindLast separator s = _)
  · rw [← hwhole] at hend
    rw [behindLast_append front hend, behindLast_of_not_mem hend]
  · refine behindLast_eq_iff.mpr ⟨hend, .inr ⟨front ++ (String.singleton separator ++ middle), ?_⟩⟩
    rw [String.append_assoc, String.append_assoc, ← hs]

example : behindLast '.' "System.Collections.Hashtable" = "Hashtable" := by decide

end

end ObjectBridge.Text
