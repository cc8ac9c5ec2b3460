import ObjectBridge.Proofs.Wire.FieldReading

/-!
# Taking fields

A reader takes the bytes of a written field all at once and looks at them only when they are there.
`Takes a fields x` says that the step `a` takes these fields one after the other and then gives `x`. So where
the bytes end inside a field, the step fails in the take of that field, with what has arrived of it still
there (`Takes.cut`). The readers of single fields, arrays, texts and labels take what `Message.layout` lists
(`Follows`).
-/

namespace ObjectBridge

/-- The bytes of the fields end `arrived` bytes into the field `f`, which is longer than that. -/
def CutIn (fields : List Field) (cut : Nat) (f : Field) (arrived : Nat) : Prop :=
  ∃ before behind, fields = before ++ f :: behind ∧
    cut = (before.flatMap Field.bytes).length + arrived ∧ arrived < f.bytes.length

theorem CutIn.append {fields : List Field} {cut arrived : Nat} {f : Field} (others : List Field)
    (h : CutIn fields cut f arrived) : CutIn (fields ++ others) cut f arrived := by
  obtain ⟨before, behind, rfl, hcut⟩ := h
  exact ⟨before, behind ++ others, by rw [List.append_assoc, List.cons_append], hcut⟩

theorem CutIn.behind {fields : List Field} {cut arrived : Nat} {f : Field} (others : List Field)
    (h : CutIn fields cut f arrived) :
    CutIn (others ++ fields) ((others.flatMap Field.bytes).length + cut) f arrived := by
  obtain ⟨before, behind, rfl, rfl, hlt⟩ := h
  refine ⟨others ++ before, behind, by rw [List.append_assoc], ?_, hlt⟩
  rw [List.flatMap_append, List.length_append, Nat.add_assoc]

namespace Reader

variable {α β : Type}

/-- The step takes the bytes of these fields, one field after the other, and then gives a value. -/
inductive Takes : Action α → List Field → α → Prop
  | done (x : α) : Takes (pure x) [] x
  | take (f : Field) {next : List UInt8 → Action α} {fields : List Field} {x : α}
      (h : Takes (next f.bytes) fields x) :
      Takes (Reader.take f.bytes.length >>= next) (f :: fields) x

namespace Takes

theorem bind {a : Action α} {g : α → Action β} {fs gs : List Field} {x : α} {y : β}
    (ha : Takes a fs x) (hg : Takes (g x) gs y) : Takes (a >>= g) (fs ++ gs) y := by
  induction ha with
  | done x =>
    rw [pure_bind]
    exact hg
  | take f h ih =>
    rw [bind_assoc]
    exact .take f (ih hg)

theorem single {width : Nat} {f : Field} (h : f.bytes.length = width) :
    Takes (Reader.take width) [f] f.bytes := by
  subst h
  rw [← bind_pure (Reader.take f.bytes.length)]
  exact .take f (.done _)

/-- Where the bytes end inside a field, the step has taken the fields before it and fails in this one. -/
theorem cut {a : Action α} {fields : List Field} {x : α} (h : Takes a fields x) (cut : Nat)
    (hcut : cut < (fields.flatMap Field.bytes).length) :
    ∃ f arrived, CutIn fields cut f arrived ∧
      a (held ((fields.flatMap Field.bytes).take cut)) =
        .error (.endOfStream f.bytes.length arrived) (held (f.bytes.take arrived)) := by
  induction h generalizing cut with
  | done x =>
    rw [List.flatMap_nil] at hcut
    exact absurd hcut (Nat.not_lt_zero cut)
  | @take f next fields x h ih =>
    rw [List.flatMap_cons] at hcut ⊢
    by_cases hshort : cut < f.bytes.length
    · refine ⟨f, cut, ⟨[], fields, rfl, (Nat.zero_add cut).symm, hshort⟩, ?_⟩
      have hlen : (f.bytes.take cut).length = cut := List.length_take_of_le (Nat.le_of_lt hshort)
      have htake := take_held_of_lt (hlen.trans_lt hshort)
      rw [hlen] at htake
      rw [List.take_append_of_le_length (Nat.le_of_lt hshort), bind_of_error _ htake]
    · have hle : f.bytes.length ≤ cut := Nat.le_of_not_lt hshort
      rw [List.length_append] at hcut
      obtain ⟨g, arrived, hin, herror⟩ := ih (cut - f.bytes.length) (by omega)
      refine ⟨g, arrived, ?_, ?_⟩
      · have hbehind := hin.behind [f]
        rwa [List.flatMap_singleton, Nat.add_sub_cancel' hle] at hbehind
      · have hfront : f.bytes.length ≤
            (f.bytes ++ (fields.flatMap Field.bytes).take (cut - f.bytes.length)).length := by
          rw [List.length_append]
          exact Nat.le_add_right ..
        have htake := take_held_of_le hfront
        rw [List.take_left, List.drop_left] at htake
        rw [List.take_append, List.take_of_length_le hle, bind_of_ok _ htake]
        exact herror

end Takes

/-! ### Single fields -/

/-- The step takes the bytes of these fields and then gives `x`, provided that they can be written. -/
def Follows (a : Action α) (fields : List Field) (x : α) : Prop :=
  (∀ f ∈ fields, f.fits = true) → Takes a fields x

namespace Follows

theorem done (x : α) : Follows (pure x) [] x := fun _ => .done x

theorem bind {a : Action α} {g : α → Action β} {fs gs : List Field} {x : α} {y : β}
    (ha : Follows a fs x) (hg : Follows (g x) gs y) : Follows (a >>= g) (fs ++ gs) y := by
  intro hfits
  rw [List.forall_mem_append] at hfits
  exact (ha hfits.1).bind (hg hfits.2)

/-- What takes nothing more adds no field. -/
theorem finish {a : Action α} {g : α → Action β} {fields : List Field} {x : α} {y : β}
    (ha : Follows a fields x) (hg : Follows (g x) [] y) : Follows (a >>= g) fields y := by
  have hbind := ha.bind hg
  rwa [List.append_nil] at hbind

theorem last {a : Action α} {fields : List Field} {x : α} (ha : Follows a fields x)
    (make : α → β) : Follows (a >>= fun x => pure (make x)) fields (make x) :=
  ha.finish (.done (make x))

theorem congr {a : Action α} {fs gs : List Field} {x : α} (ha : Follows a fs x) (h : fs = gs) :
    Follows a gs x := h ▸ ha

end Follows

theorem follows_word (w : Word α) {f : Field} {x : α} (h : f.bytes = w.encode x) :
    Follows (word w) [f] x := by
  intro _
  have htake : Takes (take w.width) [f] f.bytes := .single (by rw [h, w.length_encode])
  have hword := htake.bind (g := fun bytes => pure (w.decode bytes)) (.done _)
  rw [h, w.decode_encode] at hword
  exact hword

theorem follows_flag (v : Bool) : Follows flag [.flag v] v := by
  have hword : Follows (word .u8) [.flag v] (if v then 1 else 0) :=
    follows_word .u8 (by cases v <;> rfl)
  have hflag := hword.last (· != 0)
  cases v <;> exact hflag

theorem length_of_fits {what : String} {n : Nat} {fields : List Field}
    (h : ∀ f ∈ Field.length what n :: fields, f.fits = true) : n < 0x80000000 := by
  have hfit := h _ List.mem_cons_self
  by_contra hge
  simp [Field.fits, Field.fault?, hge] at hfit

theorem follows_nonnegative (fault : Int → Fault) (what : String) (k : Nat) :
    Follows (nonnegative fault) [.length what k] k := by
  intro hfits
  have hlt := length_of_fits hfits
  obtain ⟨n, hn, hencode⟩ := exists_i32_of_lt hlt
  have hword := follows_word .i32 (f := .length what k) hencode.symm
  refine hword.finish ?_ hfits
  rw [if_neg (by omega), hn, Int.toNat_natCast]
  exact .done k

theorem follows_resolve (what : String) (k : Nat) : Follows (resolve none) [.length what k] k := by
  rw [resolve_none]
  exact follows_nonnegative _ what k

theorem follows_count (what field : String) (k : Nat) : Follows (count what) [.length field k] k := by
  rw [count_eq]
  exact follows_nonnegative _ field k

/-! ### Arrays -/

theorem follows_elements {f : Field} {count width : Nat} (h : f.bytes.length = count * width)
    (hlt : count * width < 0x10000000000000000) : Follows (elements count width) [f] f.bytes := by
  intro _
  unfold elements
  rw [if_pos hlt]
  exact .single h

theorem follows_words (w : Word α) (xs : List α)
    (hlt : xs.length * w.width < 0x10000000000000000) :
    Follows (words w (some xs.length)) [.words w xs] xs := by
  have hbytes : (Field.words w xs).bytes.length = xs.length * w.width := length_flatMap_encode w xs
  have hwords := (follows_elements hbytes hlt).last (decodeWords w xs.length)
  rw [words_eq]
  rw [Field.words, Field.bytes, decodeWords_flatMap] at hwords
  exact hwords

theorem follows_words_counted (w : Word α) (what : String) (hw : w.width ≤ 8) (xs : List α) :
    Follows (words w none) [.length what xs.length, .words w xs] xs := by
  intro hfits
  have hsize := Nat.mul_le_mul (Nat.le_of_lt (length_of_fits hfits)) hw
  exact (follows_resolve what xs.length).bind (follows_words w xs (by omega)) hfits

theorem follows_flags (what : String) (vs : List Bool) :
    Follows (flags none) [.length what vs.length, .flags vs] vs := by
  intro hfits
  have hlt := length_of_fits hfits
  have hbytes : (Field.flags vs).bytes.length = vs.length * 1 := by
    rw [Field.bytes, List.length_map, Nat.mul_one]
  have hflags := (follows_elements hbytes (by omega)).last (List.map (· != 0))
  have hvs : (Field.flags vs).bytes.map (· != 0) = vs := by
    rw [Field.bytes, List.map_map]
    exact List.map_id'' (fun v => by cases v <;> rfl) vs
  rw [hvs] at hflags
  rw [flags_eq]
  exact (follows_resolve what vs.length).bind hflags hfits

theorem follows_bytes (what : String) (bs : List UInt8) :
    Follows (bytes none) [.length what bs.length, .raw bs] bs :=
  (follows_resolve what bs.length).bind fun _ => Takes.single (f := .raw bs) rfl

/-! ### Texts -/

theorem follows_text (s : String) : Follows text (Field.text s) s := by
  refine (follows_bytes "string" (Utf8.encode s)).finish ?_
  rw [Utf8.decode_encode]
  exact .done s

theorem follows_collect {step : Action α} {fields : α → List Field} {xs : List α}
    (h : ∀ x ∈ xs, Follows step (fields x) x) (done : List α) :
    Follows (collect step xs.length done) (xs.flatMap fields) (done.reverse ++ xs) := by
  induction xs generalizing done with
  | nil =>
    rw [List.append_nil]
    exact .done _
  | cons x xs ih =>
    rw [List.forall_mem_cons] at h
    have hrest := ih h.2 (x :: done)
    rw [List.reverse_cons, List.append_assoc, List.singleton_append] at hrest
    exact h.1.bind hrest

theorem follows_repeated {step : Action α} {fields : α → List Field} {xs : List α}
    (h : ∀ x ∈ xs, Follows step (fields x) x) :
    Follows (repeated step xs.length) (xs.flatMap fields) xs := follows_collect h []

theorem follows_texts (ss : List String) :
    Follows (texts (some ss.length)) (ss.flatMap Field.text) ss :=
  follows_repeated fun s _ => follows_text s

theorem follows_texts_counted (what : String) (ss : List String) :
    Follows (texts none) (Field.texts what ss) ss :=
  (follows_resolve what ss.length).bind (follows_texts ss)

end Reader

end ObjectBridge
