import ObjectBridge.Message.Layout
import Mathlib.Data.List.TakeWhile

/-!
# How bytes spell fields

`Spells fields bytes` says that a byte string carries these fields: the bytes are those that are written,
except that any byte but zero may stand for a true truth value. `flagMask` marks the bytes of truth values.
Main statement: `Spells.written`, spelled bytes are written bytes wherever the mask is off.
-/

namespace ObjectBridge

/-- Bytes that carry a field which fits. -/
def Field.Spells : Field → List UInt8 → Prop
  | .flags vs, bytes => bytes.map (· != 0) = vs
  | f, bytes => f.fits = true ∧ bytes = f.bytes

def Spells : List Field → List UInt8 → Prop
  | [], bytes => bytes = []
  | f :: fs, bytes => ∃ front back, bytes = front ++ back ∧ f.Spells front ∧ Spells fs back

theorem spells_singleton {f : Field} {bytes : List UInt8} : Spells [f] bytes ↔ f.Spells bytes := by
  constructor
  · intro hparts
    obtain ⟨front, back, rfl, hf, rfl⟩ := hparts
    rwa [List.append_nil]
  · intro hf
    exact ⟨bytes, [], (List.append_nil bytes).symm, hf, rfl⟩

theorem spells_append {fs gs : List Field} {bytes : List UInt8} :
    Spells (fs ++ gs) bytes ↔
      ∃ front back, bytes = front ++ back ∧ Spells fs front ∧ Spells gs back := by
  induction fs generalizing bytes with
  | nil =>
    constructor
    · intro h
      exact ⟨[], bytes, rfl, rfl, h⟩
    · intro hparts
      obtain ⟨front, back, rfl, rfl, h⟩ := hparts
      exact h
  | cons f fs ih =>
    constructor
    · intro hparts
      obtain ⟨front, tail, rfl, hf, htail⟩ := hparts
      obtain ⟨middle, back, rfl, hfs, hgs⟩ := ih.mp htail
      exact ⟨front ++ middle, back, by rw [List.append_assoc], ⟨front, middle, rfl, hf, hfs⟩, hgs⟩
    · intro hparts
      obtain ⟨lead, back, rfl, ⟨front, middle, rfl, hf, hfs⟩, hgs⟩ := hparts
      exact ⟨front, middle ++ back, by rw [List.append_assoc], hf, ih.mpr ⟨middle, back, rfl, hfs, hgs⟩⟩

theorem spells_cons {f : Field} {fs : List Field} {bytes : List UInt8} :
    Spells (f :: fs) bytes ↔
      ∃ front back, bytes = front ++ back ∧ Spells [f] front ∧ Spells fs back := by
  rw [← List.singleton_append, spells_append]

/-! ### Single fields -/

theorem spells_raw {bs bytes : List UInt8} : Spells [.raw bs] bytes ↔ bytes = bs := by
  rw [spells_singleton]
  simp only [Field.Spells, Field.fits, Field.fault?, Field.bytes, Option.isNone_none, true_and]

theorem spells_flags {vs : List Bool} {bytes : List UInt8} :
    Spells [.flags vs] bytes ↔ bytes.map (· != 0) = vs := spells_singleton

theorem spells_length {what : String} {n : Nat} {bytes : List UInt8} :
    Spells [.length what n] bytes ↔ n < 0x80000000 ∧ bytes = littleEndian 4 n := by
  rw [spells_singleton]
  by_cases h : n < 0x80000000 <;>
    simp [Field.Spells, Field.fits, Field.fault?, Field.bytes, h]

theorem spells_arity {n : Nat} {bytes : List UInt8} :
    Spells [.arity n] bytes ↔ n < 0x10000 ∧ bytes = littleEndian 2 n := by
  rw [spells_singleton]
  by_cases h : n < 0x10000 <;> simp [Field.Spells, Field.fits, Field.fault?, Field.bytes, h]

/-! ### Spelled and written bytes -/

/-- Marks the bytes of a field that stand for truth values. -/
def Field.flagMask : Field → List Bool
  | .flags vs => vs.map fun _ => true
  | f => f.bytes.map fun _ => false

/-- Marks the bytes of written fields that stand for truth values. -/
def flagMask (fields : List Field) : List Bool := fields.flatMap Field.flagMask

/-- The byte that is written for a truth value. -/
def flagByte (b : UInt8) : UInt8 := if b != 0 then 1 else 0

/-- The bytes that are written in place of spelled ones: those under the mask become zero or one. -/
def normalized (mask : List Bool) (bytes : List UInt8) : List UInt8 :=
  List.zipWith (fun marked b => if marked then flagByte b else b) mask bytes

@[simp] theorem flagMask_cons (f : Field) (fs : List Field) :
    flagMask (f :: fs) = f.flagMask ++ flagMask fs := List.flatMap_cons

theorem length_flagMask (fields : List Field) :
    (flagMask fields).length = (fields.flatMap Field.bytes).length := by
  induction fields with
  | nil => rfl
  | cons f fs ih =>
    have hf : f.flagMask.length = f.bytes.length := by
      cases f <;> simp only [Field.flagMask, Field.bytes, List.length_map]
    simp only [flagMask_cons, List.flatMap_cons, List.length_append, hf, ih]

theorem normalized_unmarked (bytes : List UInt8) :
    normalized (bytes.map fun _ => false) bytes = bytes := by
  induction bytes with
  | nil => rfl
  | cons b bs ih =>
    simp only [normalized] at ih
    simp only [normalized, List.map_cons, List.zipWith_cons_cons, ih, Bool.false_eq_true, if_false]

theorem Field.Spells.bytes_eq {f : Field} {bytes : List UInt8} (h : f.Spells bytes) :
    f.fits = true ∧ bytes.length = f.bytes.length ∧ f.bytes = normalized f.flagMask bytes := by
  cases f with
  | flags vs =>
    have hvs : bytes.map (· != 0) = vs := h
    subst hvs
    refine ⟨rfl, by simp only [Field.bytes, List.length_map], ?_⟩
    simp only [Field.bytes, Field.flagMask, normalized, List.map_map, List.zipWith_map_left,
      List.zipWith_self, if_true, flagByte, Function.comp_def]
  | raw bs | length what n | arity n =>
    obtain ⟨hfits, rfl⟩ := h
    exact ⟨hfits, rfl, (normalized_unmarked _).symm⟩

/-- Spelled bytes are as many as the written ones and differ from them in truth values only. -/
theorem Spells.written {fields : List Field} {bytes : List UInt8} (h : Spells fields bytes) :
    (∀ f ∈ fields, f.fits = true) ∧ bytes.length = (fields.flatMap Field.bytes).length ∧
      fields.flatMap Field.bytes = normalized (flagMask fields) bytes := by
  induction fields generalizing bytes with
  | nil =>
    cases h
    exact ⟨by simp, rfl, rfl⟩
  | cons f fs ih =>
    obtain ⟨front, back, rfl, hf, hfs⟩ := h
    obtain ⟨hfits, hlen, heq⟩ := hf.bytes_eq
    obtain ⟨hfits', hlen', heq'⟩ := ih hfs
    have hmask : f.flagMask.length = front.length := by
      cases f <;> simp only [Field.flagMask, Field.bytes, List.length_map] at hlen ⊢ <;>
        exact hlen.symm
    refine ⟨?_, ?_, ?_⟩
    · rw [List.forall_mem_cons]
      exact ⟨hfits, hfits'⟩
    · simp only [List.flatMap_cons, List.length_append, hlen, hlen']
    · rw [List.flatMap_cons, heq, heq', flagMask_cons]
      exact (List.zipWith_append hmask).symm

theorem spells_written {fields : List Field} (h : ∀ f ∈ fields, f.fits = true) :
    Spells fields (fields.flatMap Field.bytes) := by
  induction fields with
  | nil => rfl
  | cons f fs ih =>
    rw [List.forall_mem_cons] at h
    refine ⟨f.bytes, fs.flatMap Field.bytes, List.flatMap_cons, ?_, ih h.2⟩
    cases f with
    | flags vs =>
      show (vs.map fun v => if v = true then (1 : UInt8) else 0).map (· != 0) = vs
      rw [List.map_map]
      exact List.map_id'' (fun v => by cases v <;> rfl) vs
    | raw bs | length what n | arity n => exact ⟨h.1, rfl⟩

/-! ### Whether fields can be written -/

theorem firstFault?_eq_none_iff {fields : List Field} :
    firstFault? fields = none ↔ ∀ f ∈ fields, f.fits = true := by
  simp only [firstFault?, List.findSome?_eq_none_iff, Field.fits, Option.isNone_iff_eq_none]

theorem writable_of_fits {fields : List Field} (h : ∀ f ∈ fields, f.fits = true) :
    writable fields = fields.flatMap Field.bytes := by
  rw [writable, List.takeWhile_eq_self_iff.mpr h]

end ObjectBridge
