import Mathlib.Data.List.Induction
import ObjectBridge.Decimal.Reading
import ObjectBridge.Text.Blank

/-!
# Numerals

Which texts are read as which numbers, said without reading them: a numeral is a row of decimal digits, each of
which counts ten times what the next one counts. The readers accept exactly the texts that hold a numeral of a
number within the limit: `natural?_eq_some` with an optional plus sign, `int64?_eq_some` with an optional sign, and
`natural?_trimBlank` with white space around it.
-/

namespace ObjectBridge

namespace Decimal

/-- The digits write the number. -/
inductive Numeral : List Char → Nat → Prop
  | digit {c : Char} (hdigit : c.isDigit = true) : Numeral [c] (c.toNat - '0'.toNat)
  | append {cs : List Char} {n : Nat} {c : Char} (h : Numeral cs n) (hdigit : c.isDigit = true) :
      Numeral (cs ++ [c]) (10 * n + (c.toNat - '0'.toNat))

namespace Numeral

variable {cs : List Char} {n : Nat}

theorem ne_nil (h : Numeral cs n) : cs ≠ [] := by
  cases h <;> simp

theorem isDigit_of_mem (h : Numeral cs n) : ∀ c ∈ cs, c.isDigit = true := by
  induction h with
  | digit hdigit => simpa using hdigit
  | append _ hdigit ih =>
    intro c hc
    rcases List.mem_append.mp hc with hc | hc
    · exact ih c hc
    · rwa [List.mem_singleton.mp hc]

end Numeral

theorem digits?_iff {cs : List Char} {n : Nat} :
    digits? cs = some n ↔
      cs ≠ [] ∧ (∀ c ∈ cs, c.isDigit = true) ∧
        cs.foldl (fun n c => 10 * n + (c.toNat - '0'.toNat)) 0 = n := by
  rw [digits?, ← List.all_eq_true]
  cases cs with
  | nil => simp
  | cons c cs => cases hall : (c :: cs).all Char.isDigit <;> simp

theorem digits?_eq_some {cs : List Char} {n : Nat} : digits? cs = some n ↔ Numeral cs n := by
  rw [digits?_iff]
  constructor
  · intro h
    obtain ⟨hne, hdigits, rfl⟩ := h
    induction cs using List.reverseRecOn with
    | nil => exact absurd rfl hne
    | append_singleton cs c ih =>
      have hdigit : c.isDigit = true := hdigits c (by simp)
      rw [List.foldl_append]
      cases cs with
      | nil => simpa using Numeral.digit hdigit
      | cons d ds =>
        exact .append (ih (by simp) fun c hc => hdigits c (List.mem_append_left _ hc)) hdigit
  · intro h
    refine ⟨h.ne_nil, h.isDigit_of_mem, ?_⟩
    induction h with
    | digit => simp
    | append _ _ ih => rw [List.foldl_append, ih]; rfl

theorem not_isBlank_of_isDigit {c : Char} (h : c.isDigit = true) : Text.isBlank c = false := by
  have hrange : 48 ≤ c.toNat ∧ c.toNat ≤ 57 := by
    simpa [Char.isDigit, UInt32.le_iff_toNat_le] using h
  simp only [Text.isBlank, Bool.or_eq_false_iff, Bool.and_eq_false_iff, beq_eq_false_iff_ne,
    decide_eq_false_iff_not]
  omega

/-! ### Signs -/

/-- A natural number with an optional plus sign. -/
def SpellsNat (cs : List Char) (n : Nat) : Prop :=
  ∃ digits, (cs = digits ∨ cs = '+' :: digits) ∧ Numeral digits n

/-- An integer with an optional sign. -/
def SpellsInt (cs : List Char) (z : Int) : Prop :=
  (∃ n, SpellsNat cs n ∧ z = n) ∨ ∃ digits n, cs = '-' :: digits ∧ Numeral digits n ∧ z = -(n : Int)

theorem Numeral.ne_sign {sign : Char} (hsign : sign.isDigit = false) {cs : List Char} {n : Nat} :
    ¬ Numeral (sign :: cs) n := fun h => by
  have hdigit := h.isDigit_of_mem sign (List.mem_cons_self ..)
  rw [hsign] at hdigit
  cases hdigit

theorem spellsNat_plus {cs : List Char} {n : Nat} : SpellsNat ('+' :: cs) n ↔ Numeral cs n := by
  constructor
  · intro h
    obtain ⟨digits, rfl | hcs, h⟩ := h
    · exact absurd h (Numeral.ne_sign rfl)
    · cases hcs
      exact h
  · intro h
    exact ⟨cs, .inr rfl, h⟩

theorem spellsNat_of_ne {cs : List Char} {n : Nat} (h : ∀ rest, cs ≠ '+' :: rest) :
    SpellsNat cs n ↔ Numeral cs n := by
  constructor
  · intro hspells
    obtain ⟨digits, rfl | hcs, hdigits⟩ := hspells
    · exact hdigits
    · exact absurd hcs (h digits)
  · intro hdigits
    exact ⟨cs, .inl rfl, hdigits⟩

theorem natural?_eq_some {limit n : Nat} {cs : List Char} :
    natural? limit cs = some n ↔ SpellsNat cs n ∧ n ≤ limit := by
  unfold natural?
  split <;> rw [Option.filter_eq_some_iff, digits?_eq_some, decide_eq_true_eq]
  · rw [spellsNat_plus]
  · rename_i hplus
    rw [spellsNat_of_ne fun rest hcs => hplus rest hcs]

theorem SpellsNat.unique {cs : List Char} {n m : Nat} (h : SpellsNat cs n) (h' : SpellsNat cs m) : n = m :=
  Option.some.inj ((natural?_eq_some.mpr ⟨h, Nat.le_max_left n m⟩).symm.trans
    (natural?_eq_some.mpr ⟨h', Nat.le_max_right n m⟩))

theorem spellsInt_minus {cs : List Char} {z : Int} :
    SpellsInt ('-' :: cs) z ↔ ∃ n, Numeral cs n ∧ z = -(n : Int) := by
  constructor
  · intro h
    obtain ⟨n, hspells, hz⟩ | ⟨digits, n, hcs, hdigits, hz⟩ := h
    · rw [spellsNat_of_ne (by simp)] at hspells
      exact absurd hspells (Numeral.ne_sign rfl)
    · cases hcs
      exact ⟨n, hdigits, hz⟩
  · intro h
    obtain ⟨n, hdigits, hz⟩ := h
    exact .inr ⟨cs, n, rfl, hdigits, hz⟩

theorem spellsInt_of_ne {cs : List Char} {z : Int} (h : ∀ rest, cs ≠ '-' :: rest) :
    SpellsInt cs z ↔ ∃ n, SpellsNat cs n ∧ z = n := by
  constructor
  · intro hspells
    obtain hspells | ⟨digits, n, hcs, _⟩ := hspells
    · exact hspells
    · exact absurd hcs (h digits)
  · exact .inl

/-- An integer is read if it fits in 64 bits. -/
theorem some_ofInt_iff {v : Int} {z : Int64} :
    (if -0x8000000000000000 ≤ v ∧ v < 0x8000000000000000 then some (Int64.ofInt v) else none) = some z ↔
      z.toInt = v := by
  have hle := z.le_toInt
  have hlt := z.toInt_lt
  constructor
  · intro h
    split at h
    · cases h
      exact Int64.toInt_ofInt_of_le (by omega) (by omega)
    · cases h
  · intro h
    rw [if_pos (by omega), ← h, Int64.ofInt_toInt]

theorem int64?_eq_some {cs : List Char} {z : Int64} : int64? cs = some z ↔ SpellsInt cs z.toInt := by
  unfold int64?
  split
  rename_i negative body heq
  have hspells : SpellsInt cs z.toInt ↔
      ∃ n, digits? body = some n ∧ z.toInt = if negative then -(n : Int) else n := by
    simp only [digits?_eq_some]
    split at heq <;> cases heq
    · simp only [spellsInt_minus, if_true]
    · rw [spellsInt_of_ne (by simp)]
      simp only [spellsNat_plus, Bool.false_eq_true, if_false]
    · rename_i hminus hplus
      rw [spellsInt_of_ne fun rest hcs => hminus rest hcs]
      simp only [spellsNat_of_ne fun rest hcs => hplus rest hcs, Bool.false_eq_true, if_false]
  rw [hspells]
  cases digits? body with
  | none => simp only [reduceCtorEq, false_and, exists_false]
  | some n =>
    refine some_ofInt_iff.trans ⟨fun h => ⟨n, rfl, h⟩, fun h => ?_⟩
    obtain ⟨_, hn, h⟩ := h
    cases hn
    exact h

/-! ### White space -/

/-- A natural number with an optional plus sign, and with white space around it. -/
def SpellsPadded (cs : List Char) (n : Nat) : Prop :=
  ∃ front core back, cs = front ++ core ++ back ∧ (∀ c ∈ front, Text.isBlank c = true) ∧
    (∀ c ∈ back, Text.isBlank c = true) ∧ SpellsNat core n

theorem SpellsNat.ne_nil {cs : List Char} {n : Nat} (h : SpellsNat cs n) : cs ≠ [] := by
  obtain ⟨digits, rfl | rfl, hdigits⟩ := h
  · exact hdigits.ne_nil
  · simp

theorem SpellsNat.not_isBlank {cs : List Char} {n : Nat} (h : SpellsNat cs n) :
    ∀ c ∈ cs, Text.isBlank c = false := by
  obtain ⟨digits, hcs, hdigits⟩ := h
  have hfree : ∀ c ∈ digits, Text.isBlank c = false := fun c hc =>
    not_isBlank_of_isDigit (hdigits.isDigit_of_mem c hc)
  rcases hcs with rfl | rfl
  · exact hfree
  · exact List.forall_mem_cons.mpr ⟨by decide, hfree⟩

theorem spellsNat_trimBlank {cs : List Char} {n : Nat} :
    SpellsNat (Text.trimBlank cs) n ↔ SpellsPadded cs n := by
  constructor
  · intro h
    obtain ⟨front, back, hcs, hfront, hback⟩ := Text.exists_trimBlank cs
    exact ⟨front, _, back, hcs, hfront, hback, h⟩
  · intro h
    obtain ⟨front, core, back, rfl, hfront, hback, hcore⟩ := h
    rwa [Text.trimBlank_append hfront hback hcore.ne_nil hcore.not_isBlank]

theorem SpellsPadded.unique {cs : List Char} {n m : Nat} (h : SpellsPadded cs n)
    (h' : SpellsPadded cs m) : n = m :=
  (spellsNat_trimBlank.mpr h).unique (spellsNat_trimBlank.mpr h')

theorem natural?_trimBlank {limit n : Nat} {cs : List Char} :
    natural? limit (Text.trimBlank cs) = some n ↔ SpellsPadded cs n ∧ n ≤ limit := by
  rw [natural?_eq_some, spellsNat_trimBlank]

end Decimal
end ObjectBridge
