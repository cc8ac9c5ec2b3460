import ObjectBridge.Decimal.Binary64

/-!
# The shortest decimal of a double

`shortest` gives the decimal with the fewest digits that lies in the interval of reals which round to
the double, and of those the one nearest to it. The search tries one digit, then two, and so on; with
a given number of digits only the two neighbours of the exact value on that decimal grid have to be
tested.
-/

namespace ObjectBridge

/-- The number `digits * 10 ^ exponent`. -/
structure Decimal where
  digits : Nat
  exponent : Int
deriving DecidableEq, Repr

namespace Decimal

/-- Which of two equally near decimals is taken. -/
inductive Tie where
  | upward
  | toEven
deriving DecidableEq, Repr

/-- The interval of reals that round to a double, as integers over a common unit. -/
structure Interval where
  low : Nat
  value : Nat
  high : Nat
  /-- Whether the ends belong to the interval. -/
  closed : Bool

/-- The interval of a finite magnitude in units of a quarter of its last place. Below a power of two
the doubles lie twice as dense, except at the bottom of the range. -/
def Interval.ofDouble (x : Binary64) : Interval :=
  let m := x.mantissa
  let below := if x.fraction = 0 ∧ 1 < x.biased then 1 else 2
  { low := 4 * m - below, value := 4 * m, high := 4 * m + 2, closed := m % 2 = 0 }

/-- The exponent `k` with `10 ^ k ≤ num / den < 10 ^ (k + 1)`, for a positive ratio. The estimate
from the binary logarithm is off by one place at most. -/
def log10Ratio (num den : Nat) : Int :=
  let guess := Binary64.log2Ratio num den * 30103 / 100000
  let reaches (k : Int) : Bool := den * tenTo k.toNat ≤ num * tenTo (-k).toNat
  if reaches (guess + 1) then guess + 1 else if reaches guess then guess else guess - 1

/-- The better neighbour of the value on the grid of the multiples of `10 ^ k`, if one of the two
lies in the interval. `num / den` is the unit of the interval. -/
def onGrid (tie : Tie) (i : Interval) (num den : Nat) (k : Int) : Option Nat :=
  let scale := num * tenTo (-k).toNat
  let step := den * tenTo k.toNat
  let inside (d : Nat) : Bool :=
    if i.closed then i.low * scale ≤ d * step && d * step ≤ i.high * scale
    else i.low * scale < d * step && d * step < i.high * scale
  let d := i.value * scale / step
  let twice := 2 * (i.value * scale % step)
  let preferUp := step < twice || (twice == step && (tie == .upward || d % 2 == 1))
  match inside d, inside (d + 1) with
  | false, false => none
  | true, false => some d
  | false, true => some (d + 1)
  | true, true => some (if preferUp then d + 1 else d)

/-- The shortest decimal of the magnitude of a finite double. Seventeen digits always suffice. -/
def shortest (tie : Tie) (x : Binary64) : Decimal :=
  if x.isZero then ⟨0, 0⟩
  else
    let i := Interval.ofDouble x
    let e := x.exponent - 2
    let num := 1 <<< e.toNat
    let den := 1 <<< (-e).toNat
    let top := log10Ratio (i.value * num) den
    let found := (List.range 17).findSome? fun (n : Nat) =>
      let k : Int := top - n
      (onGrid tie i num den k).map fun d => if d = tenTo (n + 1) then ⟨1, top + 1⟩ else ⟨d, k⟩
    found.getD ⟨0, 0⟩

end Decimal

end ObjectBridge
