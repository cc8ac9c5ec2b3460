import ObjectBridge.Decimal.Binary64

/-!
# Fixed-width words

All numbers travel with their least significant byte first. A `Word α` says how the values of `α` are
words of a fixed number of bytes; its laws make `encode` and `decode` inverse to each other on byte
strings of that width.
-/

namespace ObjectBridge

/-- How many values a word of `width` bytes has. -/
def wordLimit : Nat → Nat
  | 0 => 1
  | width + 1 => 256 * wordLimit width

/-- The `width` lowest bytes of a number, the least significant first. -/
def littleEndian : Nat → Nat → List UInt8
  | 0, _ => []
  | width + 1, n => UInt8.ofNat n :: littleEndian width (n / 256)

/-- The number whose bytes these are, the least significant first. -/
def fromLittleEndian : List UInt8 → Nat
  | [] => 0
  | b :: bs => b.toNat + 256 * fromLittleEndian bs

@[simp] theorem length_littleEndian (width n : Nat) : (littleEndian width n).length = width := by
  induction width generalizing n with
  | zero => rfl
  | succ width ih => simp [littleEndian, ih]

theorem fromLittleEndian_littleEndian (width n : Nat) :
    fromLittleEndian (littleEndian width n) = n % wordLimit width := by
  induction width generalizing n with
  | zero => simp only [littleEndian, fromLittleEndian, wordLimit, Nat.mod_one]
  | succ width ih =>
    have hb : (UInt8.ofNat n).toNat = n % 256 := UInt8.toNat_ofNat'
    rw [littleEndian, fromLittleEndian, ih, hb, wordLimit, Nat.mod_mul]

theorem littleEndian_fromLittleEndian (bs : List UInt8) :
    littleEndian bs.length (fromLittleEndian bs) = bs := by
  induction bs with
  | nil => rfl
  | cons b bs ih =>
    have hb : b.toNat < 256 := b.toNat_lt
    have hq : (b.toNat + 256 * fromLittleEndian bs) / 256 = fromLittleEndian bs := by omega
    have hr : UInt8.ofNat (b.toNat + 256 * fromLittleEndian bs) = b := by
      apply UInt8.toNat_inj.mp
      rw [UInt8.toNat_ofNat']
      omega
    simp only [fromLittleEndian, List.length_cons, littleEndian, hq, hr, ih]

theorem fromLittleEndian_lt (bs : List UInt8) : fromLittleEndian bs < wordLimit bs.length := by
  induction bs with
  | nil => exact Nat.one_pos
  | cons b bs ih =>
    have hb : b.toNat < 256 := b.toNat_lt
    simp only [fromLittleEndian, List.length_cons, wordLimit]
    omega

/-- The values of `α` as words of `width` bytes. -/
structure Word (α : Type) where
  width : Nat
  toNat : α → Nat
  ofNat : Nat → α
  toNat_lt : ∀ a, toNat a < wordLimit width
  ofNat_toNat : ∀ a, ofNat (toNat a) = a
  toNat_ofNat : ∀ n, n < wordLimit width → toNat (ofNat n) = n

namespace Word

variable {α : Type}

def encode (w : Word α) (a : α) : List UInt8 := littleEndian w.width (w.toNat a)

def decode (w : Word α) (bytes : List UInt8) : α := w.ofNat (fromLittleEndian bytes)

@[simp] theorem length_encode (w : Word α) (a : α) : (w.encode a).length = w.width := by
  simp [encode]

theorem decode_encode (w : Word α) (a : α) : w.decode (w.encode a) = a := by
  rw [decode, encode, fromLittleEndian_littleEndian, Nat.mod_eq_of_lt (w.toNat_lt a), w.ofNat_toNat]

theorem encode_decode (w : Word α) {bytes : List UInt8} (h : bytes.length = w.width) :
    w.encode (w.decode bytes) = bytes := by
  have hlt : fromLittleEndian bytes < wordLimit w.width := h ▸ fromLittleEndian_lt bytes
  rw [decode, encode, w.toNat_ofNat _ hlt, ← h, littleEndian_fromLittleEndian]

def u8 : Word UInt8 where
  width := 1
  toNat := UInt8.toNat
  ofNat := UInt8.ofNat
  toNat_lt a := a.toNat_lt
  ofNat_toNat a := by simp
  toNat_ofNat n h := by rw [UInt8.toNat_ofNat']; exact Nat.mod_eq_of_lt h

def u16 : Word UInt16 where
  width := 2
  toNat := UInt16.toNat
  ofNat := UInt16.ofNat
  toNat_lt a := a.toNat_lt
  ofNat_toNat a := by simp
  toNat_ofNat n h := by rw [UInt16.toNat_ofNat']; exact Nat.mod_eq_of_lt h

def i16 : Word Int16 where
  width := 2
  toNat a := a.toUInt16.toNat
  ofNat n := (UInt16.ofNat n).toInt16
  toNat_lt a := a.toUInt16.toNat_lt
  ofNat_toNat a := by simp
  toNat_ofNat n h := by
    rw [UInt16.toUInt16_toInt16, UInt16.toNat_ofNat']; exact Nat.mod_eq_of_lt h

def i32 : Word Int32 where
  width := 4
  toNat a := a.toUInt32.toNat
  ofNat n := (UInt32.ofNat n).toInt32
  toNat_lt a := a.toUInt32.toNat_lt
  ofNat_toNat a := by simp
  toNat_ofNat n h := by
    rw [UInt32.toUInt32_toInt32, UInt32.toNat_ofNat']; exact Nat.mod_eq_of_lt h

def i64 : Word Int64 where
  width := 8
  toNat a := a.toUInt64.toNat
  ofNat n := (UInt64.ofNat n).toInt64
  toNat_lt a := a.toUInt64.toNat_lt
  ofNat_toNat a := by simp
  toNat_ofNat n h := by
    rw [UInt64.toUInt64_toInt64, UInt64.toNat_ofNat']; exact Nat.mod_eq_of_lt h

def f64 : Word Binary64 where
  width := 8
  toNat x := x.bits.toNat
  ofNat n := ⟨UInt64.ofNat n⟩
  toNat_lt x := x.bits.toNat_lt
  ofNat_toNat x := by simp
  toNat_ofNat n h := by
    show (UInt64.ofNat n).toNat = n
    rw [UInt64.toNat_ofNat']; exact Nat.mod_eq_of_lt h

end Word

end ObjectBridge
