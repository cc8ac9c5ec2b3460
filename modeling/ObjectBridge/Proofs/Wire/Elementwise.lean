import ObjectBridge.Proofs.Wire.FieldReading

/-!
# Arrays and their elements

An array is made sure of as a whole and then consumed without another look, while elements that are read one by
one are made sure of one by one. On a source that does not fail both come to the same, whatever the pieces and
whatever the reader has buffered (`arrays_elementwise`). Only where the bytes do not suffice they differ: the
elements are consumed as far as they go, the array not at all.
-/

namespace ObjectBridge.Reader

variable {α β : Type} {r mid r' : Reader}

/-! ### What a reader comes to -/

/-- The bytes that the reader still comes to: all that are left, unless it has seen an end, for then it does not ask
its source again. -/
def available (r : Reader) : List UInt8 := if r.ended then r.buffer else r.stream

theorem available_of_ended (h : r.ended = true) : r.available = r.buffer := if_pos h

theorem available_of_open (h : r.ended = false) : r.available = r.stream := by
  rw [available, h]
  rfl

/-- By consuming these bytes the reader has come from `r` to `r'`, and its source is still calm. -/
structure Consumed (r : Reader) (bytes : List UInt8) (r' : Reader) : Prop where
  source : r'.source.Calm
  available : r.available = bytes ++ r'.available
  stream : r.stream = bytes ++ r'.stream

namespace Consumed

variable {bytes others : List UInt8}

theorem append (h : Consumed r bytes mid) (h' : Consumed mid others r') :
    Consumed r (bytes ++ others) r' where
  source := h'.source
  available := by rw [h.available, h'.available, List.append_assoc]
  stream := by rw [h.stream, h'.stream, List.append_assoc]

/-- What is consumed is known from its length, and so is what is left. -/
theorem unique (h : Consumed r bytes mid) (h' : Consumed r others r') (hlen : bytes.length = others.length) :
    bytes = others ∧ mid.available = r'.available ∧ mid.stream = r'.stream := by
  obtain ⟨hbytes, havailable⟩ := List.append_inj (h.available.symm.trans h'.available) hlen
  subst hbytes
  exact ⟨rfl, havailable, List.append_cancel_left (h.stream.symm.trans h'.stream)⟩

end Consumed

/-- Bytes are made sure of exactly if the reader comes to so many. -/
theorem ensure_available (needed : Nat) (hr : r.source.Calm) :
    (∃ r', ensure needed r = .ok () r' ∧ Consumed r [] r' ∧ needed ≤ r'.buffer.length) ∨
      ∃ r', ensure needed r = .error (.endOfStream needed r.available.length) r' ∧ Consumed r [] r' ∧
        r.available.length < needed := by
  have hkept {fresh : List UInt8} {source : Source} {receipt : Receipt}
      (hgather : r.source.gather (needed - r.buffer.length) [] = (receipt, fresh.reverse, source)) :
      r.stream = r.buffer ++ fresh ++ source.rest := by
    rw [stream, (Source.front_of_gather hgather).1, List.append_assoc]
  have hcalm := hr.gather (needed - r.buffer.length) []
  generalize hresult : ensure needed r = result
  cases hresult ▸ ensureCase needed r with
  | there hle => exact .inl ⟨r, rfl, ⟨hr, rfl, rfl⟩, hle⟩
  | past hshort hended =>
    have havailable := available_of_ended hended
    exact .inr ⟨r, by rw [havailable], ⟨hr, rfl, rfl⟩, by rwa [havailable]⟩
  | enough hshort hopen hgather =>
    have hcount := (Source.front_of_gather hgather).2.mp rfl
    rw [hgather] at hcalm
    refine .inl ⟨_, rfl, ⟨hcalm.1, ?_, hkept hgather⟩, ?_⟩
    · rw [available_of_open hopen, available_of_open (by exact hopen)]
      exact hkept hgather
    · rw [List.length_append]
      omega
  | @ended fresh source hshort hopen hgather =>
    have hcount := mt (Source.front_of_gather hgather).2.mpr (by simp)
    rw [hgather] at hcalm
    -- no byte is left behind the end, so the buffer is all there is
    have hbuffer : r.available = r.buffer ++ fresh := by
      rw [available_of_open hopen, hkept hgather, hcalm.2, List.append_nil]
    refine .inr ⟨{ r with source, buffer := r.buffer ++ fresh, ended := true }, by rw [hbuffer],
      ⟨hcalm.1, hbuffer, hkept hgather⟩, ?_⟩
    rw [hbuffer, List.length_append]
    omega
  | failed hshort hopen hgather =>
    rw [hgather] at hcalm
    exact hcalm.2.elim

theorem take_available (n : Nat) (hr : r.source.Calm) :
    (∃ bytes r', take n r = .ok bytes r' ∧ Consumed r bytes r' ∧ bytes.length = n) ∨
      ∃ r', take n r = .error (.endOfStream n r.available.length) r' ∧ Consumed r [] r' ∧
        r.available.length < n := by
  rcases ensure_available n hr with ⟨mid, hok, hmid, hle⟩ | ⟨r', herror, hrest⟩
  · have htake : take n r = .ok (mid.buffer.take n) { mid with buffer := mid.buffer.drop n } := by
      rw [take, bind_of_ok _ hok, front_of_le hle]
    have hfront : Consumed mid (mid.buffer.take n) { mid with buffer := mid.buffer.drop n } := by
      refine ⟨hmid.source, ?_, ?_⟩
      · simp only [available, stream]
        split
        · rw [List.take_append_drop]
        · rw [← List.append_assoc, List.take_append_drop]
      · simp only [stream]
        rw [← List.append_assoc, List.take_append_drop]
    exact .inl ⟨_, _, htake, hmid.append hfront, List.length_take_of_le hle⟩
  · exact .inr ⟨r', by rw [take, bind_of_error _ herror], hrest⟩

/-! ### Words one by one -/

theorem decodeWords_append (w : Word α) (count : Nat) {front : List UInt8} (h : front.length = w.width)
    (back : List UInt8) :
    decodeWords w (count + 1) (front ++ back) = w.decode front :: decodeWords w count back := by
  rw [decodeWords, List.take_left' h, List.drop_left' h]

/-- Words that are read one by one consume what the words consume together, if there is so much. -/
theorem collect_word (w : Word α) (count : Nat) (done : List α) (hr : r.source.Calm) :
    (∃ bytes r', collect (word w) count done r = .ok (done.reverse ++ decodeWords w count bytes) r' ∧
        Consumed r bytes r' ∧ bytes.length = count * w.width) ∨
      ∃ fault r', collect (word w) count done r = .error fault r' ∧
        r.available.length < count * w.width := by
  induction count generalizing done r with
  | zero =>
    refine .inl ⟨[], r, ?_, ⟨hr, rfl, rfl⟩, (Nat.zero_mul _).symm⟩
    rw [decodeWords, List.append_nil]
    rfl
  | succ count ih =>
    rw [Nat.succ_mul]
    rcases take_available w.width hr with ⟨front, mid, hok, hmid, hfront⟩ | ⟨r', herror, _, hlt⟩
    · have hword : word w r = .ok (w.decode front) mid := bind_of_ok _ hok
      have hlen : r.available.length = w.width + mid.available.length := by
        rw [hmid.available, List.length_append, hfront]
      rw [collect, bind_of_ok _ hword]
      rcases ih (w.decode front :: done) hmid.source with
        ⟨bytes, r', hrest, hr', hcount⟩ | ⟨fault, r', hrest, hlt⟩
      · refine .inl ⟨front ++ bytes, r', ?_, hmid.append hr', ?_⟩
        · rw [hrest, decodeWords_append w count hfront, List.reverse_cons, List.append_assoc,
            List.singleton_append]
        · rw [List.length_append, hfront, hcount, Nat.add_comm]
      · exact .inr ⟨fault, r', hrest, by omega⟩
    · have hword : word w r = .error _ r' := bind_of_error _ herror
      exact .inr ⟨_, r', by rw [collect, bind_of_error _ hword], by omega⟩

/-! ### Arrays -/

/-- What reading an array of `size` bytes at once comes to, next to reading its elements one by one. Either both
give the same and consume the same, so that the same is left, or both fail. Then the array is short of bytes and
consumes none. -/
inductive AsElements (r : Reader) (size : Nat) :
    EStateM.Result Fault Reader (List α) → EStateM.Result Fault Reader (List α) → Prop
  | whole (xs : List α) {bytes : List UInt8} {r₁ r₂ : Reader} (hlen : bytes.length = size)
      (h₁ : Consumed r bytes r₁) (h₂ : Consumed r bytes r₂) : AsElements r size (.ok xs r₁) (.ok xs r₂)
  | short {r₁ : Reader} (h₁ : Consumed r [] r₁) (fault : Fault) (r₂ : Reader) :
      AsElements r size (.error (.endOfStream size r.available.length) r₁) (.error fault r₂)

/-- On this reader arrays of elements of one width are read as the elements are, one by one. A count that is read
first only counts the elements, and cannot be negative. -/
structure Elementwise (one : Action α) (array : Option Nat → Action (List α)) (width : Nat) (r : Reader) :
    Prop where
  given : ∀ n, n * width < 0x10000000000000000 →
    AsElements r (n * width) (array (some n) r) (repeated one n r)
  counted :
    match word .i32 r with
    | .error fault r₁ => array none r = .error fault r₁
    | .ok n r₁ =>
      Consumed r (Word.i32.encode n) r₁ ∧
        if n.toInt < 0 then array none r = .error (.malformed (.negativeLength n.toInt)) r₁
        else n.toInt.toNat * width < 0x10000000000000000 ∧ array none r = array (some n.toInt.toNat) r₁

theorem words_given (w : Word α) {n : Nat} (h : n * w.width < 0x10000000000000000) :
    words w (some n) = (do return decodeWords w n (← take (n * w.width))) := by
  rw [words_eq]
  show (elements n w.width >>= fun bytes => Pure.pure (decodeWords w n bytes)) = _
  rw [elements, if_pos h]

theorem words_counted (w : Word α) :
    words w none = (do
      let n ← word .i32
      if n.toInt < 0 then throw (.malformed (.negativeLength n.toInt)) else words w (some n.toInt.toNat)) := by
  show (resolve none >>= fun count => words w (some count)) = _
  rw [resolve, bind_assoc]
  refine congrArg (word .i32 >>= ·) (funext fun n => ?_)
  split <;> rfl

theorem elementwise_words (w : Word α) (hw : w.width ≤ 8) (hr : r.source.Calm) :
    Elementwise (word w) (words w) w.width r where
  given n hn := by
    rw [words_given w hn, repeated]
    rcases take_available (n * w.width) hr with ⟨bytes, r₁, hok, hr₁, hlen⟩ | ⟨r₁, herror, hr₁, hlt⟩
    · rw [bind_of_ok _ hok]
      rcases collect_word w n [] hr with ⟨bytes', r₂, hok', hr₂, hlen'⟩ | ⟨_, _, _, hlt⟩
      · rw [hok']
        obtain ⟨rfl, _⟩ := hr₁.unique hr₂ (hlen.trans hlen'.symm)
        exact .whole _ hlen hr₁ hr₂
      · rw [hr₁.available, List.length_append] at hlt
        omega
    · rw [bind_of_error _ herror]
      rcases collect_word w n [] hr with ⟨bytes', r₂, _, hr₂, hlen'⟩ | ⟨fault, r₂, herror', _⟩
      · rw [hr₂.available, List.length_append] at hlt
        omega
      · rw [herror']
        exact .short hr₁ fault r₂
  counted := by
    rw [words_counted]
    rcases take_available Word.i32.width hr with ⟨bytes, r₁, hok, hr₁, hlen⟩ | ⟨r₁, herror, _, _⟩
    · have hcount : word .i32 r = .ok (Word.i32.decode bytes) r₁ := bind_of_ok _ hok
      rw [bind_of_ok _ hcount, hcount]
      dsimp only
      rw [Word.i32.encode_decode hlen]
      refine ⟨hr₁, ?_⟩
      split
      · rfl
      · rename_i hnonneg
        have hsize := Nat.mul_le_mul (Nat.le_of_lt (encode_i32_of_nonneg hnonneg).2) hw
        exact ⟨by omega, rfl⟩
    · have hcount : word .i32 r = .error _ r₁ := bind_of_error _ herror
      rw [bind_of_error _ hcount, hcount]

/-! ### Truth values -/

theorem collect_map (step : Action α) (f : α → β) (count : Nat) (done : List α) :
    collect (step >>= fun x => pure (f x)) count (done.map f) =
      collect step count done >>= fun xs => pure (xs.map f) := by
  induction count generalizing done with
  | zero =>
    show Pure.pure (done.map f).reverse = Pure.pure (done.reverse.map f)
    rw [List.map_reverse]
  | succ count ih =>
    rw [collect, collect, bind_assoc, bind_assoc]
    refine congrArg (step >>= ·) (funext fun x => ?_)
    rw [pure_bind]
    exact ih (x :: done)

theorem repeated_map (step : Action α) (f : α → β) (count : Nat) :
    repeated (step >>= fun x => pure (f x)) count = repeated step count >>= fun xs => pure (xs.map f) :=
  collect_map step f count []

theorem flags_map (len : Option Nat) :
    flags len = words .u8 len >>= fun vs => pure (vs.map (· != 0)) := by
  unfold flags words
  simp only [bind_assoc]
  rfl

/-- What is made of the elements afterwards makes no difference. -/
theorem Elementwise.map {one : Action α} {array : Option Nat → Action (List α)} {width : Nat}
    (h : Elementwise one array width r) (f : α → β) :
    Elementwise (one >>= fun x => pure (f x)) (fun len => array len >>= fun xs => pure (xs.map f)) width r where
  given n hn := by
    have hgiven := h.given n hn
    rw [repeated_map]
    generalize harray : array (some n) r = atOnce at hgiven
    generalize hone : repeated one n r = oneByOne at hgiven
    cases hgiven with
    | whole xs hlen h₁ h₂ =>
      rw [bind_of_ok _ harray, bind_of_ok _ hone]
      exact .whole (xs.map f) hlen h₁ h₂
    | short h₁ fault r₂ =>
      rw [bind_of_error _ harray, bind_of_error _ hone]
      exact .short h₁ fault r₂
  counted := by
    have hcounted := h.counted
    cases hcount : word .i32 r with
    | error fault r₁ =>
      rw [hcount] at hcounted
      exact bind_of_error _ hcounted
    | ok n r₁ =>
      rw [hcount] at hcounted
      obtain ⟨hconsumed, hrest⟩ := hcounted
      refine ⟨hconsumed, ?_⟩
      split at hrest
      · rename_i hneg
        rw [if_pos hneg]
        exact bind_of_error _ hrest
      · rename_i hneg
        rw [if_neg hneg]
        refine ⟨hrest.1, ?_⟩
        cases harray : array (some n.toInt.toNat) r₁ with
        | ok xs q => rw [bind_of_ok _ harray, bind_of_ok _ (hrest.2.trans harray)]
        | error fault q => rw [bind_of_error _ harray, bind_of_error _ (hrest.2.trans harray)]

/-- Whatever has been read before, on a source that does not fail arrays of truth values, of words of 32 and of 64
bits and of numbers in floating point are read as their elements are, one by one. -/
theorem arrays_elementwise (r : Reader) (hr : r.source.Calm) :
    Elementwise flag flags 1 r ∧ Elementwise (word .i32) (words .i32) 4 r ∧
      Elementwise (word .i64) (words .i64) 8 r ∧ Elementwise (word .f64) (words .f64) 8 r := by
  refine ⟨?_, elementwise_words .i32 (by decide) hr, elementwise_words .i64 (by decide) hr,
    elementwise_words .f64 (by decide) hr⟩
  have hflags := (elementwise_words .u8 (by decide) hr).map (· != 0)
  rwa [← funext flags_map] at hflags

/-- Two bytes are buffered, seven come in pieces of one and of two bytes with an interruption: two words of 32 bits
and a byte, but not two words of 64 bits. -/
theorem arrays_elementwise_midway :
    let r : Reader :=
      { source :=
          { rest := [0, 0, 255, 255, 255, 255, 7]
            step := some 2, pieces := [1], outages := [(3, .failure .interrupted)] }
        buffer := [8, 0] }
    (∃ r₁ r₂, words .i32 (some 2) r = .ok [8, -1] r₁ ∧ repeated (word .i32) 2 r = .ok [8, -1] r₂ ∧
        r₁.stream = r₂.stream) ∧
      ∃ fault r₁ r₂, words .i64 (some 2) r = .error (.endOfStream 16 9) r₁ ∧
        repeated (word .i64) 2 r = .error fault r₂ ∧ r₁.stream = r.stream := by
  intro r
  obtain ⟨_, hi32, hi64, _⟩ := arrays_elementwise r ⟨by decide, by decide, by decide⟩
  have hi32 := hi32.given 2 (by decide)
  have hi64 := hi64.given 2 (by decide)
  obtain ⟨r₁, htake⟩ : ∃ r₁, take 8 r = .ok [8, 0, 0, 0, 255, 255, 255, 255] r₁ :=
    ⟨_, by with_unfolding_all rfl⟩
  obtain ⟨q₁, hshort⟩ : ∃ q₁, take 16 r = .error (.endOfStream 16 9) q₁ :=
    ⟨_, by with_unfolding_all rfl⟩
  have hwords : words .i32 (some 2) r = .ok [8, -1] r₁ := by
    rw [words_given .i32 (by decide)]
    exact bind_of_ok _ htake
  have hlongs : words .i64 (some 2) r = .error (.endOfStream 16 9) q₁ := by
    rw [words_given .i64 (by decide)]
    exact bind_of_error _ hshort
  rw [hwords] at hi32
  rw [hlongs] at hi64
  generalize hone : repeated (word .i32) 2 r = ones at hi32
  generalize htwo : repeated (word .i64) 2 r = twos at hi64
  cases hi32 with
  | whole xs _ h₁ h₂ =>
    cases hi64 with
    | short h₁' fault q₂ =>
      exact ⟨⟨r₁, _, hwords, rfl, (h₁.unique h₂ rfl).2.2⟩, fault, q₁, q₂, hlongs, rfl,
        h₁'.stream.symm⟩

end ObjectBridge.Reader
