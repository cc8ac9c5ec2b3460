import ObjectBridge.Message.Reading
import ObjectBridge.Proofs.Wire.Spelling
import ObjectBridge.Proofs.Wire.Stream

/-!
# Reading fields

`Reads limit a spelled`: on at most `limit` held bytes, the step `a` succeeds with a value and some bytes
left exactly if the bytes before those spell the value. The readers of single fields, arrays, texts and
labels are all streamed and read what the fields of `Message.layout` spell.
-/

namespace ObjectBridge.Reader

variable {α β : Type}

/-- `spelled x front` says which bytes make `a` return `x`. -/
def Reads (limit : Nat) (a : Action α) (spelled : α → List UInt8 → Prop) : Prop :=
  ∀ bytes x rest, bytes.length ≤ limit →
    (a (held bytes) = .ok x (held rest) ↔ ∃ front, bytes = front ++ rest ∧ spelled x front)

namespace Reads

theorem congr {limit : Nat} {a : Action α} {spelled spelled' : α → List UInt8 → Prop}
    (h : ∀ x front, spelled x front ↔ spelled' x front) (ha : Reads limit a spelled) :
    Reads limit a spelled' := by
  have heq : spelled = spelled' := funext fun x => funext fun front => propext (h x front)
  rwa [heq] at ha

theorem pure (limit : Nat) (x : α) :
    Reads limit (Pure.pure x : Action α) fun y front => y = x ∧ front = [] := by
  intro bytes y rest _
  constructor
  · intro h
    obtain ⟨rfl, hheld⟩ := pure_ok.mp h
    have hrest : bytes = rest := congrArg Reader.buffer hheld
    exact ⟨[], hrest, rfl, rfl⟩
  · intro hparts
    obtain ⟨front, rfl, rfl, rfl⟩ := hparts
    rfl

theorem throw (limit : Nat) (fault : Fault) :
    Reads limit (MonadExcept.throw fault : Action α) fun _ _ => False := by
  intro bytes y rest _
  constructor
  · intro h
    exact absurd h throw_ok
  · intro hparts
    obtain ⟨front, _, hfalse⟩ := hparts
    exact hfalse.elim

/-- A sequence of two steps reads what the first reads and behind it what the second reads. The second
step has at least `least` bytes less in front of it. -/
theorem bind_consuming {limit : Nat} {a : Action α} {f : α → Action β}
    {spelled : α → List UInt8 → Prop} {S : α → β → List UInt8 → Prop} (least : Nat)
    (hstream : Streamed a) (ha : Reads limit a spelled)
    (hleast : ∀ x front, spelled x front → least ≤ front.length)
    (hf : least ≤ limit → ∀ x, Reads (limit - least) (f x) (S x)) :
    Reads limit (a >>= f) fun y bytes =>
      ∃ x front back, bytes = front ++ back ∧ spelled x front ∧ S x y back := by
  intro bytes y rest hlimit
  constructor
  · intro h
    obtain ⟨x, mid, hx, hy⟩ := bind_ok.mp h
    obtain ⟨tail, rfl⟩ : ∃ tail, mid = held tail := ⟨_, hstream.eq_held hx⟩
    obtain ⟨front, rfl, hfront⟩ := (ha bytes x tail hlimit).mp hx
    have hle := hleast x front hfront
    rw [List.length_append] at hlimit
    obtain ⟨back, rfl, hback⟩ := (hf (by omega) x tail y rest (by omega)).mp hy
    exact ⟨front ++ back, (List.append_assoc ..).symm, x, front, back, rfl, hfront, hback⟩
  · intro hparts
    obtain ⟨front', rfl, x, front, back, rfl, hx, hy⟩ := hparts
    rw [List.append_assoc] at hlimit ⊢
    have hle := hleast x front hx
    have hfirst := (ha _ x (back ++ rest) hlimit).mpr ⟨front, rfl, hx⟩
    rw [List.length_append] at hlimit
    exact bind_ok.mpr ⟨x, held (back ++ rest), hfirst,
      (hf (by omega) x _ y rest (by omega)).mpr ⟨back, rfl, hy⟩⟩

theorem bind {limit : Nat} {a : Action α} {f : α → Action β} {spelled : α → List UInt8 → Prop}
    {S : α → β → List UInt8 → Prop} (hstream : Streamed a) (ha : Reads limit a spelled)
    (hf : ∀ x, Reads limit (f x) (S x)) :
    Reads limit (a >>= f) fun y bytes =>
      ∃ x front back, bytes = front ++ back ∧ spelled x front ∧ S x y back :=
  bind_consuming 0 hstream ha (fun _ _ _ => Nat.zero_le _) fun _ => hf

theorem always {limit : Nat} {a : Action α} {fields : α → List Field}
    (ha : Reads limit a fun x front => Spells (fields x) front) :
    Reads limit a fun x front => True ∧ Spells (fields x) front := by
  refine .congr ?_ ha
  intro x front
  rw [true_and]

theorem take (limit n : Nat) :
    Reads limit (Reader.take n) fun x front => front = x ∧ x.length = n := by
  intro bytes x rest _
  by_cases hle : n ≤ bytes.length
  · rw [take_held_of_le hle]
    constructor
    · intro h
      obtain ⟨rfl, hheld⟩ := EStateM.Result.ok.inj h
      have hdrop : bytes.drop n = rest := congrArg Reader.buffer hheld
      refine ⟨bytes.take n, ?_, rfl, List.length_take_of_le hle⟩
      rw [← hdrop, List.take_append_drop]
    · intro hparts
      obtain ⟨front, rfl, rfl, hlen⟩ := hparts
      rw [List.take_left' hlen, List.drop_left' hlen]
  · rw [take_held_of_lt (by omega)]
    constructor
    · intro h
      cases h
    · intro hparts
      obtain ⟨front, rfl, rfl, hlen⟩ := hparts
      rw [List.length_append] at hle
      omega

end Reads

/-! ### Words and lengths -/

theorem streamed_word (w : Word α) : Streamed (word w) :=
  (Streamed.take w.width).bind fun _ => .pure _

theorem reads_word (limit : Nat) (w : Word α) :
    Reads limit (word w) fun x front => Spells [.word w x] front := by
  refine .congr ?_ (.bind (.take w.width) (.take limit w.width) fun _ => .pure limit _)
  intro x front
  rw [Field.word, spells_raw]
  constructor
  · intro hparts
    obtain ⟨bytes, _, _, rfl, ⟨rfl, hlen⟩, rfl, rfl⟩ := hparts
    rw [List.append_nil, w.encode_decode hlen]
  · intro heq
    subst heq
    exact ⟨w.encode x, _, [], (List.append_nil _).symm, ⟨rfl, w.length_encode x⟩,
      (w.decode_encode x).symm, rfl⟩

theorem streamed_flag : Streamed flag := (streamed_word .u8).bind fun _ => .pure _

theorem reads_flag (limit : Nat) : Reads limit flag fun v front => Spells [.flag v] front := by
  refine .congr ?_ (.bind (streamed_word .u8) (reads_word limit .u8) fun _ => .pure limit _)
  intro v front
  rw [Field.flag, spells_flags]
  constructor
  · intro hparts
    obtain ⟨b, _, _, rfl, hb, rfl, rfl⟩ := hparts
    rw [Field.word, spells_raw] at hb
    have hencode : Word.u8.encode b = [b] := by simp [Word.encode, Word.u8, littleEndian]
    rw [hb, hencode]
    rfl
  · intro h
    obtain ⟨b, rfl, hb⟩ := List.map_eq_singleton_iff.mp h
    have hencode : Word.u8.encode b = [b] := by simp [Word.encode, Word.u8, littleEndian]
    exact ⟨b, [b], [], rfl, by rw [Field.word, spells_raw, hencode], hb.symm, rfl⟩

theorem encode_i32_of_nonneg {n : Int32} (h : ¬ n.toInt < 0) :
    Word.i32.encode n = littleEndian 4 n.toInt.toNat ∧ n.toInt.toNat < 0x80000000 := by
  have hbits : n.toBitVec.toInt = n.toInt := rfl
  have hlt := n.toBitVec.isLt
  rw [BitVec.toInt_eq_toNat_cond] at hbits
  have hnat : n.toBitVec.toNat = n.toInt.toNat := by
    split at hbits <;> omega
  refine ⟨?_, ?_⟩
  · rw [← hnat]
    rfl
  · split at hbits <;> omega

theorem exists_i32_of_lt {k : Nat} (h : k < 0x80000000) :
    ∃ n : Int32, n.toInt = k ∧ Word.i32.encode n = littleEndian 4 k := by
  have hint : (Int32.ofNat k).toInt = k := Int32.toInt_ofNat_of_lt h
  refine ⟨Int32.ofNat k, hint, ?_⟩
  rw [(encode_i32_of_nonneg (by omega)).1, hint]
  rfl

/-- Reading a signed word as a length; `fault` says what is wrong with a negative one. -/
def nonnegative (fault : Int → Fault) : Action Nat := do
  let n ← word .i32
  if n.toInt < 0 then throw (fault n.toInt) else Pure.pure n.toInt.toNat

theorem streamed_nonnegative {fault : Int → Fault} (h : ∀ n, (fault n).ofContent = true) :
    Streamed (nonnegative fault) := by
  refine (streamed_word .i32).bind fun n => ?_
  split
  · exact .throw (h _)
  · exact .pure _

theorem reads_nonnegative (limit : Nat) (fault : Int → Fault) (what : String) :
    Reads limit (nonnegative fault) fun k front => Spells [.length what k] front := by
  refine .congr ?_ (.bind (streamed_word .i32) (reads_word limit .i32)
    (S := fun n k back => ¬ n.toInt < 0 ∧ k = n.toInt.toNat ∧ back = []) fun n => ?_)
  · intro k front
    rw [spells_length]
    constructor
    · intro hparts
      obtain ⟨n, _, _, rfl, hn, hpos, rfl, rfl⟩ := hparts
      rw [Field.word, spells_raw] at hn
      obtain ⟨hencode, hlt⟩ := encode_i32_of_nonneg hpos
      exact ⟨hlt, by rw [hn, List.append_nil, hencode]⟩
    · intro hparts
      obtain ⟨hlt, rfl⟩ := hparts
      obtain ⟨n, hn, hencode⟩ := exists_i32_of_lt hlt
      exact ⟨n, _, [], (List.append_nil _).symm, by rw [Field.word, spells_raw, hencode],
        by omega, by omega, rfl⟩
  · split
    · exact .congr (fun k front => by simp [*]) (.throw limit _)
    · exact .congr (fun k front => by simp [*]) (.pure limit _)

theorem resolve_none : resolve none = nonnegative fun n => .malformed (.negativeLength n) := rfl

theorem count_eq (what : String) :
    count what = nonnegative fun n => .malformed (.negativeCount what n) := rfl

theorem streamed_resolve (len : Option Nat) : Streamed (resolve len) :=
  match len with
  | some n => .pure n
  | none => by
    rw [resolve_none]
    exact streamed_nonnegative fun _ => rfl

theorem reads_resolve (limit : Nat) (what : String) :
    Reads limit (resolve none) fun k front => Spells [.length what k] front := by
  rw [resolve_none]
  exact reads_nonnegative limit _ what

theorem streamed_count (what : String) : Streamed (count what) := by
  rw [count_eq]
  exact streamed_nonnegative fun _ => rfl

theorem reads_count (limit : Nat) (what field : String) :
    Reads limit (count what) fun k front => Spells [.length field k] front := by
  rw [count_eq]
  exact reads_nonnegative limit _ field

/-! ### Arrays -/

/-- The bytes of `count` elements of some width, all of them at once. -/
def elements (count width : Nat) : Action (List UInt8) :=
  if count * width < 0x10000000000000000 then take (count * width)
  else MonadExcept.throw (.malformed (.arrayOverflow count))

/-- The first `count` words of some bytes. -/
def decodeWords (w : Word α) : Nat → List UInt8 → List α
  | 0, _ => []
  | count + 1, bytes => w.decode (bytes.take w.width) :: decodeWords w count (bytes.drop w.width)

/-- Words that were made sure of are all in the buffer, and reading them one by one takes exactly
their bytes. -/
theorem collect_buffered (w : Word α) {count : Nat} (done : List α) {r : Reader}
    (h : count * w.width ≤ r.buffer.length) :
    collect (buffered w) count done r =
      .ok (done.reverse ++ decodeWords w count (r.buffer.take (count * w.width)))
        { r with buffer := r.buffer.drop (count * w.width) } := by
  induction count generalizing done r with
  | zero =>
    rw [Nat.zero_mul, List.drop_zero, decodeWords, List.append_nil]
    rfl
  | succ count ih =>
    rw [Nat.succ_mul] at h ⊢
    have hfront := front_of_le (n := w.width) (r := r) (by omega)
    have hword : buffered w r =
        .ok (w.decode (r.buffer.take w.width)) { r with buffer := r.buffer.drop w.width } := by
      rw [buffered, bind_of_ok _ hfront]
      rfl
    rw [collect, bind_of_ok _ hword, ih _ (by rw [List.length_drop]; omega), decodeWords,
      List.take_take, Nat.min_eq_left (Nat.le_add_left ..), List.drop_take, Nat.add_sub_cancel,
      List.drop_drop, Nat.add_comm w.width, List.reverse_cons, List.append_assoc,
      List.singleton_append]

/-- Making sure of an array and reading its words one by one comes to taking its bytes at once. -/
theorem sized_repeated (w : Word α) (count : Nat) :
    (do sized count w.width; repeated (buffered w) count) =
      (do return decodeWords w count (← elements count w.width)) := by
  funext r
  unfold sized elements
  split
  · rcases ensure_cases (count * w.width) r with
      ⟨r', hok, _, _, hle, _⟩ | ⟨fault, r', herror, _⟩
    · have htake : take (count * w.width) r = .ok (r'.buffer.take (count * w.width))
          { r' with buffer := r'.buffer.drop (count * w.width) } := by
        rw [take, bind_of_ok _ hok, front_of_le hle]
      rw [bind_of_ok _ hok, bind_of_ok _ htake]
      exact collect_buffered w [] hle
    · have htake : take (count * w.width) r = .error fault r' := by
        rw [take, bind_of_error _ herror]
      rw [bind_of_error _ herror, bind_of_error _ htake]
  · rfl

theorem words_eq (w : Word α) (len : Option Nat) :
    words w len = (do
      let count ← resolve len
      return decodeWords w count (← elements count w.width)) := by
  unfold words
  simp only [sized_repeated]

theorem decodeWords_u8 {count : Nat} {bytes : List UInt8} (h : bytes.length = count) :
    decodeWords .u8 count bytes = bytes := by
  induction count generalizing bytes with
  | zero => exact (List.eq_nil_of_length_eq_zero h).symm
  | succ count ih =>
    cases bytes with
    | nil => cases h
    | cons b rest =>
      have hb : Word.u8.decode [b] = b := by simp [Word.decode, Word.u8, fromLittleEndian]
      show Word.u8.decode [b] :: decodeWords .u8 count rest = b :: rest
      rw [hb, ih (Nat.succ.inj h)]

theorem length_of_elements {count width : Nat} {r r' : Reader} {bytes : List UInt8}
    (h : elements count width r = .ok bytes r') : bytes.length = count * width := by
  unfold elements at h
  split at h
  · rcases take_cases (count * width) r with ⟨_, hok, _, _, hle, _⟩ | ⟨_, _, herror, _⟩
    · rw [hok] at h
      cases h
      exact List.length_take_of_le hle
    · rw [herror] at h
      cases h
  · cases h

theorem flags_eq (len : Option Nat) :
    flags len = (do
      let count ← resolve len
      return (← elements count 1).map (· != 0)) := by
  have hbytes (count : Nat) :
      (do sized count 1; repeated (buffered .u8) count) = elements count 1 := by
    refine (sized_repeated .u8 count).trans (funext fun r => ?_)
    show (elements count 1 >>= fun bytes => Pure.pure (decodeWords .u8 count bytes)) r = _
    cases h : elements count 1 r with
    | ok bytes r' =>
      have hlen : bytes.length = count := by rw [length_of_elements h, Nat.mul_one]
      rw [bind_of_ok _ h, decodeWords_u8 hlen]
      rfl
    | error fault r' => exact bind_of_error _ h
  unfold flags
  simp only [← hbytes, bind_assoc]

theorem streamed_elements (count width : Nat) : Streamed (elements count width) := by
  unfold elements
  split
  · exact .take _
  · exact .throw rfl

theorem reads_elements (limit count width : Nat) :
    Reads limit (elements count width) fun x front =>
      count * width < 0x10000000000000000 ∧ front = x ∧ x.length = count * width := by
  unfold elements
  split
  · exact .congr (fun x front => by simp [*]) (.take limit _)
  · exact .congr (fun x front => by simp [*]) (.throw limit _)

theorem length_flatMap_encode (w : Word α) (xs : List α) :
    (xs.flatMap w.encode).length = xs.length * w.width := by
  induction xs with
  | nil => exact (Nat.zero_mul _).symm
  | cons x xs ih =>
    rw [List.flatMap_cons, List.length_append, ih, w.length_encode, List.length_cons, Nat.succ_mul,
      Nat.add_comm]

theorem decodeWords_flatMap (w : Word α) (xs : List α) :
    decodeWords w xs.length (xs.flatMap w.encode) = xs := by
  induction xs with
  | nil => rfl
  | cons x xs ih =>
    have hlen := w.length_encode x
    rw [List.flatMap_cons, List.length_cons, decodeWords, List.take_left' hlen,
      List.drop_left' hlen, w.decode_encode, ih]

theorem flatMap_decodeWords (w : Word α) {count : Nat} {bytes : List UInt8}
    (h : bytes.length = count * w.width) :
    (decodeWords w count bytes).length = count ∧ (decodeWords w count bytes).flatMap w.encode = bytes := by
  induction count generalizing bytes with
  | zero =>
    rw [Nat.zero_mul] at h
    exact ⟨rfl, (List.eq_nil_of_length_eq_zero h).symm⟩
  | succ count ih =>
    rw [Nat.succ_mul] at h
    have hfront : (bytes.take w.width).length = w.width := List.length_take_of_le (by omega)
    have hdrop : (bytes.drop w.width).length = count * w.width := by
      rw [List.length_drop]
      omega
    obtain ⟨hcount, hbytes⟩ := ih hdrop
    refine ⟨congrArg Nat.succ hcount, ?_⟩
    rw [decodeWords, List.flatMap_cons, hbytes, w.encode_decode hfront, List.take_append_drop]

theorem streamed_words (w : Word α) (len : Option Nat) : Streamed (words w len) := by
  rw [words_eq]
  exact (streamed_resolve len).bind fun _ => (streamed_elements _ _).bind fun _ => .pure _

/-- What follows the number of the words: all of them, if their bytes can be counted. -/
theorem reads_words (limit : Nat) (w : Word α) (count : Nat) :
    Reads limit (words w (some count)) fun xs front =>
      (xs.length = count ∧ count * w.width < 0x10000000000000000) ∧ Spells [.words w xs] front := by
  rw [words_eq]
  show Reads limit (elements count w.width >>= fun bytes => Pure.pure (decodeWords w count bytes)) _
  refine .congr ?_ (.bind (streamed_elements _ _) (reads_elements limit _ _) fun _ => .pure limit _)
  intro xs front
  rw [Field.words, spells_raw]
  constructor
  · intro hparts
    obtain ⟨bytes, _, _, rfl, ⟨hlt, rfl, hlen⟩, rfl, rfl⟩ := hparts
    obtain ⟨hcount, hbytes⟩ := flatMap_decodeWords w hlen
    rw [List.append_nil, hbytes]
    exact ⟨⟨hcount, hlt⟩, rfl⟩
  · intro hparts
    obtain ⟨⟨rfl, hlt⟩, rfl⟩ := hparts
    exact ⟨xs.flatMap w.encode, _, [], (List.append_nil _).symm,
      ⟨hlt, rfl, length_flatMap_encode w xs⟩, (decodeWords_flatMap w xs).symm, rfl⟩

theorem reads_counted {limit : Nat} {a : Nat → Action α} (size : α → Nat)
    (what : String) {S : α → List UInt8 → Prop}
    (ha : ∀ n, Reads limit (a n) fun x front => size x = n ∧ S x front) :
    Reads limit (resolve none >>= a) fun x bytes =>
      ∃ front back, bytes = front ++ back ∧ Spells [.length what (size x)] front ∧ S x back := by
  refine .congr ?_ (.bind (streamed_resolve none) (reads_resolve limit what) ha)
  intro x bytes
  constructor
  · intro hparts
    obtain ⟨_, front, back, rfl, hlength, rfl, hx⟩ := hparts
    exact ⟨front, back, rfl, hlength, hx⟩
  · intro hparts
    obtain ⟨front, back, rfl, hlength, hx⟩ := hparts
    exact ⟨_, front, back, rfl, hlength, rfl, hx⟩

theorem reads_words_counted (limit : Nat) (w : Word α) (what : String) (hw : w.width ≤ 8) :
    Reads limit (words w none) fun xs front =>
      Spells [.length what xs.length, .words w xs] front := by
  refine .congr ?_ (reads_counted List.length what
    (S := fun xs front => xs.length * w.width < 0x10000000000000000 ∧ Spells [.words w xs] front)
    fun n => .congr ?_ (reads_words limit w n))
  · intro xs bytes
    rw [spells_cons]
    constructor
    · intro hparts
      obtain ⟨front, back, rfl, hlength, _, hxs⟩ := hparts
      exact ⟨front, back, rfl, hlength, hxs⟩
    · intro hparts
      obtain ⟨front, back, rfl, hlength, hxs⟩ := hparts
      have hsize := Nat.mul_le_mul (Nat.le_of_lt (spells_length.mp hlength).1) hw
      exact ⟨front, back, rfl, hlength, by omega, hxs⟩
  · intro xs front
    constructor
    · intro hparts
      obtain ⟨⟨hcount, hlt⟩, hxs⟩ := hparts
      exact ⟨hcount, by rwa [hcount], hxs⟩
    · intro hparts
      obtain ⟨hcount, hlt, hxs⟩ := hparts
      exact ⟨⟨hcount, by rwa [← hcount]⟩, hxs⟩

theorem streamed_flags (len : Option Nat) : Streamed (flags len) := by
  rw [flags_eq]
  exact (streamed_resolve len).bind fun _ => (streamed_elements _ _).bind fun _ => .pure _

theorem reads_flags (limit : Nat) (what : String) :
    Reads limit (flags none) fun vs front => Spells [.length what vs.length, .flags vs] front := by
  rw [flags_eq]
  refine .congr ?_ (reads_counted List.length what
    (S := fun vs front => vs.length < 0x10000000000000000 ∧ Spells [.flags vs] front)
    fun n => .congr ?_ (.bind (streamed_elements n 1) (reads_elements limit n 1) fun _ => .pure limit _))
  · intro vs bytes
    rw [spells_cons]
    constructor
    · intro hparts
      obtain ⟨front, back, rfl, hlength, _, hvs⟩ := hparts
      exact ⟨front, back, rfl, hlength, hvs⟩
    · intro hparts
      obtain ⟨front, back, rfl, hlength, hvs⟩ := hparts
      have hlt := (spells_length.mp hlength).1
      exact ⟨front, back, rfl, hlength, by omega, hvs⟩
  · intro vs front
    rw [spells_flags]
    constructor
    · intro hparts
      obtain ⟨bytes, _, _, rfl, ⟨hlt, rfl, hlen⟩, rfl, rfl⟩ := hparts
      rw [List.append_nil, List.length_map]
      exact ⟨by omega, by omega, rfl⟩
    · intro hparts
      obtain ⟨rfl, hlt, rfl⟩ := hparts
      rw [List.length_map] at hlt ⊢
      exact ⟨front, front, [], (List.append_nil _).symm, ⟨by omega, rfl, by omega⟩, rfl, rfl⟩

theorem streamed_bytes (len : Option Nat) : Streamed (bytes len) :=
  (streamed_resolve len).bind fun _ => .take _

theorem reads_bytes (limit : Nat) (what : String) :
    Reads limit (bytes none) fun bs front => Spells [.length what bs.length, .raw bs] front := by
  refine .congr ?_ (reads_counted List.length what (S := fun bs front => front = bs)
    fun n => .congr ?_ (.take limit n))
  · intro bs front
    rw [spells_cons]
    simp only [spells_raw]
  · intro bs front
    exact and_comm

/-! ### Texts -/

theorem streamed_text : Streamed text := by
  refine (streamed_bytes none).bind fun raw => ?_
  split
  · exact .pure _
  · exact .throw rfl

theorem reads_text (limit : Nat) : Reads limit text fun s front => Spells (Field.text s) front := by
  refine .congr ?_ (.bind (streamed_bytes none) (reads_bytes limit "string")
    (S := fun raw s back => Utf8.decode raw = .ok s ∧ back = []) fun raw => ?_)
  · intro s front
    rw [Field.text]
    constructor
    · intro hparts
      obtain ⟨raw, _, _, rfl, hraw, hdecode, rfl⟩ := hparts
      rw [List.append_nil, ← Utf8.eq_encode_of_decode hdecode]
      exact hraw
    · intro h
      exact ⟨Utf8.encode s, front, [], (List.append_nil _).symm, h, Utf8.decode_encode s, rfl⟩
  · split
    · rename_i s hs
      exact .congr (fun t front => by rw [hs, Except.ok.injEq, eq_comm (a := t)]) (.pure limit s)
    · rename_i flaw hflaw
      exact .congr (fun t front => by simp [hflaw]) (.throw limit _)

/-! ### Repetitions -/

def Each (spelled : α → List UInt8 → Prop) : List α → List UInt8 → Prop
  | [], bytes => bytes = []
  | x :: xs, bytes => ∃ front back, bytes = front ++ back ∧ spelled x front ∧ Each spelled xs back

theorem each_spells {good : α → Prop} {fields : α → List Field} {xs : List α} {bytes : List UInt8} :
    Each (fun x front => good x ∧ Spells (fields x) front) xs bytes ↔
      (∀ x ∈ xs, good x) ∧ Spells (xs.flatMap fields) bytes := by
  induction xs generalizing bytes with
  | nil => simp [Each, Spells]
  | cons x xs ih =>
    rw [List.forall_mem_cons, List.flatMap_cons, spells_append, Each]
    constructor
    · intro hparts
      obtain ⟨front, back, rfl, ⟨hgood, hfront⟩, hback⟩ := hparts
      obtain ⟨hall, hback⟩ := ih.mp hback
      exact ⟨⟨hgood, hall⟩, front, back, rfl, hfront, hback⟩
    · intro hparts
      obtain ⟨⟨hgood, hall⟩, front, back, rfl, hfront, hback⟩ := hparts
      exact ⟨front, back, rfl, ⟨hgood, hfront⟩, ih.mpr ⟨hall, hback⟩⟩

theorem streamed_collect {step : Action α} (h : Streamed step) (count : Nat) (done : List α) :
    Streamed (collect step count done) := by
  induction count generalizing done with
  | zero => exact .pure _
  | succ count ih => exact h.bind fun x => ih (x :: done)

theorem reads_collect {limit : Nat} {step : Action α} {spelled : α → List UInt8 → Prop}
    (hstream : Streamed step) (h : Reads limit step spelled) (count : Nat) (done : List α) :
    Reads limit (collect step count done) fun xs bytes =>
      ∃ fresh, xs = done.reverse ++ fresh ∧ fresh.length = count ∧ Each spelled fresh bytes := by
  induction count generalizing done with
  | zero =>
    refine .congr ?_ (.pure limit done.reverse)
    intro xs bytes
    constructor
    · intro hparts
      obtain ⟨rfl, rfl⟩ := hparts
      exact ⟨[], (List.append_nil _).symm, rfl, rfl⟩
    · intro hparts
      obtain ⟨fresh, rfl, hlen, heach⟩ := hparts
      cases List.eq_nil_of_length_eq_zero hlen
      exact ⟨List.append_nil _, heach⟩
  | succ count ih =>
    refine .congr ?_ (.bind hstream h fun x => ih (x :: done))
    intro xs bytes
    constructor
    · intro hparts
      obtain ⟨x, front, back, rfl, hx, fresh, rfl, hlen, heach⟩ := hparts
      refine ⟨x :: fresh, ?_, by rw [List.length_cons, hlen], front, back, rfl, hx, heach⟩
      rw [List.reverse_cons, List.append_assoc, List.singleton_append]
    · intro hparts
      obtain ⟨fresh, rfl, hlen, heach⟩ := hparts
      cases fresh with
      | nil => cases hlen
      | cons x fresh =>
        obtain ⟨front, back, rfl, hx, heach⟩ := heach
        refine ⟨x, front, back, rfl, hx, fresh, ?_, Nat.succ.inj hlen, heach⟩
        rw [List.reverse_cons, List.append_assoc, List.singleton_append]

theorem streamed_repeated {step : Action α} (h : Streamed step) (count : Nat) :
    Streamed (repeated step count) := streamed_collect h count []

theorem reads_repeated {limit : Nat} {step : Action α} {good : α → Prop} {fields : α → List Field}
    (hstream : Streamed step)
    (h : Reads limit step fun x front => good x ∧ Spells (fields x) front) (count : Nat) :
    Reads limit (repeated step count) fun xs bytes =>
      xs.length = count ∧ (∀ x ∈ xs, good x) ∧ Spells (xs.flatMap fields) bytes := by
  refine .congr ?_ (reads_collect hstream h count [])
  intro xs bytes
  simp only [List.reverse_nil, List.nil_append, each_spells]
  constructor
  · intro hparts
    obtain ⟨fresh, rfl, hxs⟩ := hparts
    exact hxs
  · intro hxs
    exact ⟨xs, rfl, hxs⟩

theorem collect_succ {step : Action α} {count : Nat} {done xs : List α} {r mid r' : Reader} {x : α}
    (h : collect step count done r = .ok xs mid) (hx : step mid = .ok x r') :
    collect step (count + 1) done r = .ok (xs ++ [x]) r' := by
  induction count generalizing r done with
  | zero =>
    obtain ⟨hxs, hr⟩ := pure_ok.mp h
    subst hxs hr
    exact bind_ok.mpr ⟨x, r', hx, pure_ok.mpr ⟨List.reverse_cons, rfl⟩⟩
  | succ count ih =>
    obtain ⟨y, next, hy, hrest⟩ := bind_ok.mp h
    exact bind_ok.mpr ⟨y, next, hy, ih hrest⟩

theorem repeated_succ {step : Action α} {count : Nat} {r mid r' : Reader} {xs : List α} {x : α}
    (h : repeated step count r = .ok xs mid) (hx : step mid = .ok x r') :
    repeated step (count + 1) r = .ok (xs ++ [x]) r' := collect_succ h hx

theorem streamed_texts (len : Option Nat) : Streamed (texts len) :=
  (streamed_resolve len).bind fun _ => streamed_repeated streamed_text _

theorem reads_texts (limit count : Nat) :
    Reads limit (texts (some count)) fun ss bytes =>
      ss.length = count ∧ Spells (ss.flatMap Field.text) bytes := by
  refine .congr ?_ (reads_repeated streamed_text (reads_text limit).always count)
  intro ss bytes
  simp

theorem reads_texts_counted (limit : Nat) (what : String) :
    Reads limit (texts none) fun ss bytes => Spells (Field.texts what ss) bytes := by
  refine .congr ?_ (reads_counted List.length what (reads_texts limit))
  intro ss bytes
  rw [Field.texts, spells_cons]

end ObjectBridge.Reader
