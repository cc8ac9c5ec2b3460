/-!
# Doubles as bit patterns

A double is carried as its 64 bits, so that NaN payloads and signs survive every copy. The functions
here read the parts of a pattern, compare two doubles as numbers, and round a ratio of natural
numbers to the nearest double, a tie going to the even neighbour.
-/

namespace ObjectBridge

def tenTo (exponent : Nat) : Nat := Nat.pow 10 exponent

/-- An IEEE 754 double, given by its bits. -/
structure Binary64 where
  bits : UInt64
deriving DecidableEq, Repr

namespace Binary64

def signBit : Nat := 0x8000000000000000

def fractionRange : Nat := 0x10000000000000

def isNegative (x : Binary64) : Bool := signBit ≤ x.bits.toNat

def biased (x : Binary64) : Nat := x.bits.toNat / fractionRange % 2048

def fraction (x : Binary64) : Nat := x.bits.toNat % fractionRange

def isNaN (x : Binary64) : Bool := x.biased == 2047 && x.fraction != 0

/-- Whether the pattern is one of the two infinities. -/
def isInfinite (x : Binary64) : Bool := x.biased == 2047 && x.fraction == 0

/-- Whether the pattern is one of the two zeros. -/
def isZero (x : Binary64) : Bool := x.biased == 0 && x.fraction == 0

/-- The integer `m` of a finite magnitude `m * 2 ^ e`. -/
def mantissa (x : Binary64) : Nat := if x.biased = 0 then x.fraction else fractionRange + x.fraction

/-- The exponent `e` of a finite magnitude `m * 2 ^ e`. -/
def exponent (x : Binary64) : Int := (max x.biased 1 : Nat) - 1075

/-- Equality of numbers: a NaN equals nothing, and the two zeros are equal. -/
def sameNumber (x y : Binary64) : Bool :=
  !x.isNaN && !y.isNaN && (x == y || (x.isZero && y.isZero))

def ofParts (negative : Bool) (magnitude : Nat) : Binary64 :=
  ⟨UInt64.ofNat ((if negative then signBit else 0) + magnitude)⟩

def infinityBits : Nat := 2047 * fractionRange

def infinity (negative : Bool) : Binary64 := ofParts negative infinityBits

def zero (negative : Bool) : Binary64 := ofParts negative 0

/-- The NaN whose only fraction bit is the highest. -/
def quietNaN (negative : Bool) : Binary64 := ofParts negative (infinityBits + fractionRange / 2)

/-- The quotient rounded to the nearest integer, a tie to the even one. -/
def divNearest (num den : Nat) : Nat :=
  let q := num / den
  let r := num % den
  if den < 2 * r ∨ (den = 2 * r ∧ q % 2 = 1) then q + 1 else q

/-- The exponent `k` with `2 ^ k ≤ num / den < 2 ^ (k + 1)`, for a positive ratio. -/
def log2Ratio (num den : Nat) : Int :=
  let k : Int := (Nat.log2 num : Int) - Nat.log2 den
  if num <<< (-k).toNat < den <<< k.toNat then k - 1 else k

/-- The double nearest to `num / den`. The magnitude bits are the significand added to the exponent
field, so a significand that rounds up to the next power of two carries into the exponent. -/
def ofRatio (negative : Bool) (num den : Nat) : Binary64 :=
  if num = 0 then zero negative
  else
    let e := max (log2Ratio num den - 52) (-1074)
    let q := divNearest (num <<< (-e).toNat) (den <<< e.toNat)
    ofParts negative (min ((e + 1074).toNat * fractionRange + q) infinityBits)

def ofInt (n : Int) : Binary64 := ofRatio (n < 0) n.natAbs 1

/-- The double nearest to `digits * 10 ^ exponent`. -/
def ofDecimal (negative : Bool) (digits : Nat) (exponent : Int) : Binary64 :=
  ofRatio negative (digits * tenTo exponent.toNat) (tenTo (-exponent).toNat)

end Binary64

end ObjectBridge
