import ObjectBridge.Decimal.Binary64

/-!
# Reading numbers

The number texts that settings and command lines accept: integers with an optional sign, and decimal
doubles with an optional point and exponent.
-/

namespace ObjectBridge.Decimal

/-- The number that decimal digits write; `none` for no digits or any other character. Only the ten
ASCII digits count. -/
def digits? (cs : List Char) : Option Nat :=
  if cs.isEmpty || !cs.all Char.isDigit then none
  else some (cs.foldl (fun n c => 10 * n + (c.toNat - '0'.toNat)) 0)

/-- A natural number of at most `limit`, with an optional plus sign. -/
def natural? (limit : Nat) (cs : List Char) : Option Nat :=
  let body := match cs with
    | '+' :: rest => rest
    | _ => cs
  (digits? body).filter (· ≤ limit)

def int64? (cs : List Char) : Option Int64 :=
  let (negative, body) := match cs with
    | '-' :: rest => (true, rest)
    | '+' :: rest => (false, rest)
    | _ => (false, cs)
  match digits? body with
  | none => none
  | some n =>
    let v : Int := if negative then -(n : Int) else n
    if -0x8000000000000000 ≤ v ∧ v < 0x8000000000000000 then some (Int64.ofInt v) else none

/-- An exponent part without its mark: an optional sign and digits. -/
def exponent? (cs : List Char) : Option Int :=
  match cs with
  | '-' :: rest => (digits? rest).map fun n => -(n : Int)
  | '+' :: rest => (digits? rest).map Int.ofNat
  | _ => (digits? cs).map Int.ofNat

/-- The double nearest to `whole.fraction * 10 ^ exponent`. Exponents beyond every double are cut
short: they give zero or infinity whatever the digits are. -/
def assemble (negative : Bool) (whole fraction : List Char) (exponent : Int) : Option Binary64 :=
  (digits? (whole ++ fraction)).map fun n =>
    let places : Int := exponent - fraction.length
    let leading : Int := places + (toString n).length
    if n = 0 then Binary64.zero negative
    else if 310 < leading then Binary64.infinity negative
    else if leading < -330 then Binary64.zero negative
    else Binary64.ofDecimal negative n places

/-- Digits with an optional point and exponent; a digit has to stand before or after the point. -/
def unsigned? (negative : Bool) (cs : List Char) : Option Binary64 :=
  let whole := cs.takeWhile Char.isDigit
  let rest := cs.dropWhile Char.isDigit
  let (fraction, rest) := match rest with
    | '.' :: more => (more.takeWhile Char.isDigit, more.dropWhile Char.isDigit)
    | _ => ([], rest)
  match rest with
  | [] => assemble negative whole fraction 0
  | mark :: more =>
    if mark = 'e' ∨ mark = 'E' then (exponent? more).bind (assemble negative whole fraction)
    else none

/-- A double: an optional sign before digits, or before a name of infinity or of NaN in letters of
either case. -/
def double? (cs : List Char) : Option Binary64 :=
  let (negative, body) := match cs with
    | '-' :: rest => (true, rest)
    | '+' :: rest => (false, rest)
    | _ => (false, cs)
  let name := String.ofList (body.map Char.toLower)
  if name = "inf" ∨ name = "infinity" then some (Binary64.infinity negative)
  else if name = "nan" then some (Binary64.quietNaN negative)
  else unsigned? negative body

end ObjectBridge.Decimal
