import ObjectBridge.Proofs.Message.Filling
import ObjectBridge.Proofs.Message.Spelling
import ObjectBridge.Proofs.Registry.Normal

/-!
# Messages under a given tag

A message can be asked for by its tag, with a value to hold, or be made of a value by the rules. Main
statement: `create_of_convert`. The two agree: under the tag of its message every value has that message,
but for a matrix of one column. And a message under a given tag has that tag and the integers of the value,
where integers were asked for.
-/

namespace ObjectBridge

/-! ### Integers -/

namespace Message

mutual

/-- The integers that a message carries as such, from left to right. -/
def integers : Message → List Int
  | byte v => [v.toNat]
  | int32 v => [v.toInt]
  | int64 v => [v.toInt]
  | byteArray vs => vs.map fun v => (v.toNat : Int)
  | int32Array vs => vs.map Int32.toInt
  | int64Array vs => vs.map Int64.toInt
  | objectArray items => integersOfAll items
  | _ => []

def integersOfAll : List Message → List Int
  | [] => []
  | m :: ms => integers m ++ integersOfAll ms

end

end Message

namespace Value

mutual

/-- The integers in a value, from left to right. -/
def integers : Value → List Int
  | byte v => [v.toNat]
  | int v => [v.toInt]
  | byteArray vs => vs.map fun v => (v.toNat : Int)
  | int32Array vs => vs.map Int32.toInt
  | int64Array vs => vs.map Int64.toInt
  | list items => integersOfAll items
  | _ => []

def integersOfAll : List Value → List Int
  | [] => []
  | v :: vs => integers v ++ integersOfAll vs

end

def isColumn : Value → Bool
  | matrix m => m.cols = 1
  | _ => false

end Value

theorem integers_ofInt (v : Int64) : (Message.ofInt v).integers = [v.toInt] := by
  unfold Message.ofInt
  split
  · rename_i hfits
    rw [Message.integers, toInt_toInt32 hfits]
  · rfl

namespace Registry

variable {r : Registry} {released : Proxy → Bool}

mutual

theorem integers_convert {v : Value} {m : Message} (h : standard.convert released v = .ok m) :
    m.integers = v.integers := by
  cases v with
  | int v =>
    rw [convert_int] at h
    cases h
    exact integers_ofInt v
  | object p =>
    obtain ⟨_, rfl⟩ := convert_object_ok.mp h
    rfl
  | list items =>
    obtain ⟨ms, hms, rfl⟩ := convert_list_ok.mp h
    exact integers_convertAll hms
  | matrix t =>
    by_cases hcols : t.cols = 1
    · rw [convert_of_column hcols] at h
      cases h
      rfl
    · rw [convert_of_not_column hcols] at h
      cases h
      rfl
  | _ =>
    unfold convert at h
    cases h
    rfl

theorem integers_convertAll {vs : List Value} {ms : List Message}
    (h : standard.convertAll released vs = .ok ms) :
    Message.integersOfAll ms = Value.integersOfAll vs := by
  cases vs with
  | nil =>
    cases h
    rfl
  | cons v vs =>
    obtain ⟨m, rest, hv, hvs, rfl⟩ := convertAll_cons_ok.mp h
    rw [Message.integersOfAll, Value.integersOfAll, integers_convert hv, integers_convertAll hvs]

end

/-! ### The codes that a registry knows -/

theorem isRegistered_register (t : Tag) (m : Message) (code : UInt8) :
    (r.register t m).isRegistered code = (t.code == code || r.isRegistered code) := by
  rw [isRegistered, register, Catalogue.find?_register]
  split
  · rename_i hcode
    rw [beq_iff_eq.mpr hcode]
    rfl
  · rename_i hcode
    rw [beq_eq_false_iff_ne.mpr hcode]
    rfl

theorem isRegistered_standard (code : UInt8) :
    standard.isRegistered code = (Tag.ofCode? code).isSome :=
  (congrArg Option.isSome (Reader.standard_find? code)).trans Option.isSome_map

/-- Under a code that is not known there is no message, whatever the value. -/
theorem create_of_not_registered {code : UInt8} (h : r.isRegistered code = false) (v : Option Value) :
    r.create released code v = .error (.unknownTag code) := by
  have hfind : r.catalogue.find? code = none :=
    Option.isNone_iff_eq_none.mp (Option.isSome_eq_false_iff.mp h)
  simp only [create, hfind]

/-- Under every code that is known there is a message without a value. -/
theorem isRegistered_iff {code : UInt8} :
    r.isRegistered code = true ↔ ∃ m, r.create released code none = .ok m := by
  constructor
  · intro h
    obtain ⟨blank, hfind⟩ := Option.isSome_iff_exists.mp h
    exact ⟨blank, by simp only [create, hfind]⟩
  · rintro ⟨m, hm⟩
    by_cases hknown : r.isRegistered code = true
    · exact hknown
    · rw [create_of_not_registered (Bool.eq_false_iff.mpr hknown)] at hm
      cases hm

/-! ### Under the tag of the message -/

theorem create_unknown {code : UInt8} (v : Option Value) (h : Tag.ofCode? code = none) :
    standard.create released code v = .error (.unknownTag code) :=
  create_of_not_registered (by rw [isRegistered_standard, h]; rfl) v

theorem create_code (t : Tag) (v : Option Value) :
    standard.create released t.code v =
      match v with
      | none => .ok (.empty t)
      | some v => standard.fill released t v := by
  have hfind : standard.catalogue.find? t.code = some (.empty t) :=
    (Reader.standard_find? t.code).trans (by rw [Tag.ofCode?_code]; rfl)
  cases v <;> simp only [create, hfind, Message.tag_empty]

theorem fill_of_convert {v : Value} {m : Message} (h : standard.convert released v = .ok m)
    (hv : v.isColumn = false) : standard.fill released m.tag v = .ok m := by
  cases v with
  | int v =>
    rw [convert_int] at h
    cases h
    unfold Message.ofInt
    split
    · rename_i hfits
      exact if_pos hfits
    · rfl
  | object p =>
    obtain ⟨hlive, rfl⟩ := convert_object_ok.mp h
    simp only [Message.tag, fill, convertObject, handle, hlive]
    rfl
  | list items =>
    obtain ⟨ms, hms, rfl⟩ := convert_list_ok.mp h
    simp only [Message.tag, fill, hms]
    rfl
  | matrix t =>
    have hcols : t.cols ≠ 1 := by simpa [Value.isColumn] using hv
    rw [convert_of_not_column hcols] at h
    cases h
    rfl
  | _ =>
    unfold convert at h
    cases h
    rfl

theorem refused_of_column {v : Value} {m : Message} (h : standard.convert released v = .ok m)
    (hv : v.isColumn = true) :
    m.tag = .vector ∧
      standard.fill released .vector v = .error (.unserializable (.wrongTag .vector .matrix)) := by
  cases v with
  | matrix t =>
    have hcols : t.cols = 1 := by simpa [Value.isColumn] using hv
    rw [convert_of_column hcols] at h
    cases h
    exact ⟨rfl, rfl⟩
  | _ => cases hv

theorem toNat_ofNat_toNat {n : Int} (h : 0 ≤ n ∧ n < 0x100) : ((UInt8.ofNat n.toNat).toNat : Int) = n := by
  have hlt : n.toNat < 2 ^ 8 := by omega
  rw [UInt8.toNat_ofNat_of_lt' hlt]
  omega

theorem map_toInt_widened (vs : List Int32) :
    (vs.map Int32.toInt64).map Int64.toInt = vs.map Int32.toInt := by
  rw [List.map_map]
  exact List.map_congr_left fun v _ => Int32.toInt_toInt64 v

/-- A message under a tag has this tag, and the integers of the value unless doubles were asked for. -/
theorem fill_ok {t : Tag} {v : Value} {m : Message} (h : standard.fill released t v = .ok m) :
    m.tag = t ∧ m.integers = if t = .float64 then [] else v.integers := by
  unfold fill at h
  split at h
  -- Where the message holds the value as it is, there is nothing to show.
  any_goals
    cases h
    exact ⟨rfl, rfl⟩
  · split at h <;> cases h
    rename_i hfits
    exact ⟨rfl, congrArg (· :: []) (toNat_ofNat_toNat hfits)⟩
  · split at h <;> cases h
    rename_i hfits
    exact ⟨rfl, congrArg (· :: []) (toInt_toInt32 hfits)⟩
  · rename_i p
    simp only [convertObject, handle] at h
    split at h <;> cases h
    exact ⟨rfl, rfl⟩
  · cases h
    exact ⟨rfl, map_toInt_widened _⟩
  · rename_i items
    cases hms : standard.convertAll released items with
    | error fault => simp [hms, Except.map] at h
    | ok ms =>
      rw [hms] at h
      cases h
      exact ⟨rfl, integers_convertAll hms⟩
  · cases h

theorem fill_byte (n : Int64) :
    (∃ b : UInt8, (b.toNat : Int) = n.toInt ∧ standard.fill released .byte (.int n) = .ok (.byte b)) ∨
      (∀ b : UInt8, (b.toNat : Int) ≠ n.toInt) ∧
        standard.fill released .byte (.int n) = .error (.unserializable (.wrongTag .byte .int)) := by
  by_cases hfits : 0 ≤ n.toInt ∧ n.toInt < 0x100
  · exact .inl ⟨_, toNat_ofNat_toNat hfits, if_pos hfits⟩
  · refine .inr ⟨fun b hb => hfits ?_, if_neg hfits⟩
    have hlt := b.toNat_lt
    omega

theorem fill_int32 (n : Int64) :
    (∃ k : Int32, k.toInt = n.toInt ∧ standard.fill released .int32 (.int n) = .ok (.int32 k)) ∨
      (∀ k : Int32, k.toInt ≠ n.toInt) ∧
        standard.fill released .int32 (.int n) = .error (.unserializable (.wrongTag .int32 .int)) := by
  by_cases hfits : -0x80000000 ≤ n.toInt ∧ n.toInt < 0x80000000
  · exact .inl ⟨_, toInt_toInt32 hfits, if_pos hfits⟩
  · refine .inr ⟨fun k hk => hfits ?_, if_neg hfits⟩
    have hle := k.le_toInt
    have hlt := k.toInt_lt
    omega

/-! ### Both ways -/

theorem tag_create {code : UInt8} {v : Option Value} {m : Message}
    (h : standard.create released code v = .ok m) : m.tag.code = code := by
  cases hcode : Tag.ofCode? code with
  | none =>
    rw [create_unknown v hcode] at h
    cases h
  | some t =>
    obtain rfl := Tag.code_of_ofCode? hcode
    rw [create_code] at h
    cases v with
    | none =>
      cases h
      rw [Message.tag_empty]
    | some v => rw [(fill_ok h).1]

theorem integers_create {code : UInt8} {v : Value} {m : Message}
    (h : standard.create released code (some v) = .ok m) :
    m.integers = if m.tag = .float64 then [] else v.integers := by
  obtain rfl := tag_create h
  rw [create_code] at h
  exact (fill_ok h).2

/-- Under the tag of its message every value has that very message; only a matrix of one column, which the
rules make a vector, is refused there. And under any code a message has the tag of this code, with the
integers of its value and no others where it is not one of doubles: an integer that no byte or narrow
integer equals is refused, and narrow integers that are widened stay the same. -/
theorem create_of_convert (released : Proxy → Bool) (v : Value) :
    (∀ m, standard.convert released v = .ok m →
        (v.isColumn = false → standard.create released m.tag.code (some v) = .ok m) ∧
        (v.isColumn = true → m.tag = .vector ∧
          standard.create released Tag.vector.code (some v) =
            .error (.unserializable (.wrongTag .vector .matrix)))) ∧
      (∀ code m, standard.create released code none = .ok m → m.tag.code = code) ∧
      (∀ code m, standard.create released code (some v) = .ok m →
        m.tag.code = code ∧ m.integers = if m.tag = .float64 then [] else v.integers) ∧
      (∀ n : Int64,
        (∃ b : UInt8, (b.toNat : Int) = n.toInt ∧
            standard.create released Tag.byte.code (some (.int n)) = .ok (.byte b)) ∨
          (∀ b : UInt8, (b.toNat : Int) ≠ n.toInt) ∧
            standard.create released Tag.byte.code (some (.int n)) =
              .error (.unserializable (.wrongTag .byte .int))) ∧
      (∀ n : Int64,
        (∃ k : Int32, k.toInt = n.toInt ∧
            standard.create released Tag.int32.code (some (.int n)) = .ok (.int32 k)) ∨
          (∀ k : Int32, k.toInt ≠ n.toInt) ∧
            standard.create released Tag.int32.code (some (.int n)) =
              .error (.unserializable (.wrongTag .int32 .int))) ∧
      ∀ ns : List Int32, ∃ ws : List Int64, ws.map Int64.toInt = ns.map Int32.toInt ∧
        standard.create released Tag.int64Array.code (some (.int32Array ns)) = .ok (.int64Array ws) := by
  refine ⟨fun m hm => ⟨fun hv => ?_, fun hv => ?_⟩, fun code m => tag_create,
    fun code m hm => ⟨tag_create hm, integers_create hm⟩, fun n => ?_, fun n => ?_, fun ns => ?_⟩
  · rw [create_code]
    exact fill_of_convert hm hv
  · rw [create_code]
    exact refused_of_column hm hv
  · rw [create_code]
    exact fill_byte n
  · rw [create_code]
    exact fill_int32 n
  · exact ⟨ns.map Int32.toInt64, map_toInt_widened ns, create_code _ _⟩

end Registry

end ObjectBridge
