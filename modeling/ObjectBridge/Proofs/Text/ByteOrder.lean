import Mathlib.Data.String.Basic
import ObjectBridge.Text.Utf8

/-!
# The order of texts is that of their bytes

Texts are ordered by their characters, and these by their code points. The UTF-8 bytes of a text are in the same
order: the encodings of two characters differ at a byte that both have, and there that of the lesser character is
less (`differs_encodeChar`). Main statement: `precedes_encode`.
-/

namespace ObjectBridge.Utf8

/-- One byte string comes before another: it has the lesser byte where they first differ, or is a front of it. -/
def Precedes : List UInt8 → List UInt8 → Prop := List.Lex fun a b => a.toNat < b.toNat

/-- One byte string has the lesser byte where they first differ. -/
inductive Differs : List UInt8 → List UInt8 → Prop
  | here {a b : UInt8} (as bs : List UInt8) (h : a.toNat < b.toNat) : Differs (a :: as) (b :: bs)
  | later (a : UInt8) {as bs : List UInt8} (h : Differs as bs) : Differs (a :: as) (a :: bs)

variable {a b : UInt8} {as bs : List UInt8}

theorem differs_cons : Differs (a :: as) (b :: bs) ↔ a.toNat < b.toNat ∨ a.toNat = b.toNat ∧ Differs as bs := by
  constructor
  · intro h
    cases h with
    | here _ _ h => exact .inl h
    | later _ h => exact .inr ⟨rfl, h⟩
  · rintro (h | ⟨heq, h⟩)
    · exact .here as bs h
    · cases UInt8.toNat_inj.mp heq
      exact .later a h

theorem not_differs_nil : ¬ Differs [] bs := by
  intro h
  cases h

theorem Differs.precedes (h : Differs as bs) (xs ys : List UInt8) : Precedes (as ++ xs) (bs ++ ys) := by
  induction h with
  | here as bs h => exact .rel h
  | later a _ ih => exact .cons ih

theorem encode_eq (s : String) : encode s = s.toList.flatMap String.utf8EncodeChar := by
  rw [encode, ← String.utf8Encode_toList, List.utf8Encode, List.data_toByteArray, List.toList_toArray]

theorem toNat_lt (c : Char) : c.toNat < 0x110000 := by
  have hvalid := c.valid
  simp only [UInt32.isValidChar, Nat.isValidChar] at hvalid
  show c.val.toNat < _
  omega

/-- A digit with the marks of its byte is that byte. -/
theorem toNat_marked {base mark : Nat} (hbase : 0 < base) (h : base + mark ≤ 256) (v : Nat) :
    (UInt8.ofNat (v % base + mark)).toNat = v % base + mark := by
  have hdigit := Nat.mod_lt v hbase
  exact UInt8.toNat_ofNat_of_lt' (by show _ < 256; omega)

theorem toNat_plain {v : Nat} (h : v ≤ 127) : (UInt8.ofNat v).toNat = v :=
  UInt8.toNat_ofNat_of_lt' (by show _ < 256; omega)

/-- The lesser of two numbers has the lesser digit to the base of 64 where they first differ. -/
theorem lt_digits {v w : Nat} (h : v < w) : v / 64 < w / 64 ∨ v / 64 = w / 64 ∧ v % 64 < w % 64 := by
  omega

theorem lt_four_digits {v w : Nat} (h : v < w) :
    v / 262144 < w / 262144 ∨ v / 262144 = w / 262144 ∧
      (v / 4096 % 64 < w / 4096 % 64 ∨ v / 4096 % 64 = w / 4096 % 64 ∧
        (v / 64 % 64 < w / 64 % 64 ∨ v / 64 % 64 = w / 64 % 64 ∧ v % 64 < w % 64)) := by
  have quotients (n : Nat) : n / 4096 = n / 64 / 64 ∧ n / 262144 = n / 64 / 64 / 64 := by omega
  simp only [quotients]
  obtain h | ⟨heq₁, h⟩ := lt_digits h
  · obtain h | ⟨heq₂, h⟩ := lt_digits h
    · obtain h | ⟨heq₃, h⟩ := lt_digits h
      · exact .inl h
      · exact .inr ⟨heq₃, .inl h⟩
    · exact .inr ⟨by rw [heq₂], .inr ⟨by rw [heq₂], .inl h⟩⟩
  · exact .inr ⟨by rw [heq₁], .inr ⟨by rw [heq₁], .inr ⟨by rw [heq₁], h⟩⟩⟩

/-- The encodings of two characters are in the order of their code points. -/
theorem differs_encodeChar {c d : Char} (h : c.toNat < d.toNat) :
    Differs (String.utf8EncodeChar c) (String.utf8EncodeChar d) := by
  have hlimit := toNat_lt d
  have hc : c.val.toNat = c.toNat := rfl
  have hd : d.val.toNat = d.toNat := rfl
  -- By the lengths of both: a longer encoding begins with a greater byte, and of two encodings of one length the
  -- bytes are the digits of the code points to the base of 64.
  simp only [String.utf8EncodeChar, hc, hd]
  generalize c.toNat = v at h
  generalize d.toNat = w at h hlimit
  repeat' split
  all_goals simp (disch := omega) only [differs_cons, not_differs_nil, toNat_marked, toNat_plain, and_false, or_false]
  any_goals omega
  -- Both of four bytes: what is left above the last three digits is the first.
  have hv : v / 262144 % 8 = v / 262144 := by omega
  have hw : w / 262144 % 8 = w / 262144 := by omega
  simpa only [hv, hw, Nat.add_lt_add_iff_right, Nat.add_right_cancel_iff] using lt_four_digits h

theorem not_precedes_self (bytes : List UInt8) : ¬ Precedes bytes bytes := by
  induction bytes with
  | nil =>
    intro h
    cases h
  | cons b bytes ih =>
    intro h
    cases h with
    | rel hlt => exact Nat.lt_irrefl _ hlt
    | cons h => exact ih h

/-- Texts are in the order of their bytes. -/
theorem precedes_encode {s t : String} (h : s < t) : Precedes (encode s) (encode t) := by
  rw [encode_eq, encode_eq]
  rw [String.lt_iff_toList_lt] at h
  generalize s.toList = cs at h
  generalize t.toList = ds at h
  induction h with
  | @nil d ds =>
    obtain ⟨b, bs, hd⟩ := List.exists_cons_of_ne_nil (String.utf8EncodeChar_ne_nil (c := d))
    rw [List.flatMap_nil, List.flatMap_cons, hd, List.cons_append]
    exact .nil
  | rel h =>
    rw [List.flatMap_cons, List.flatMap_cons]
    exact (differs_encodeChar h).precedes _ _
  | cons _ ih =>
    rw [List.flatMap_cons, List.flatMap_cons]
    exact ih.append_left _ _

end ObjectBridge.Utf8
