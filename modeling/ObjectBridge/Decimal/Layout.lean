import ObjectBridge.Decimal.Shortest

/-!
# Written numbers

How the shortest decimal of a double is laid out: with a plain point, or with an exponent when the
leading digit stands far from the point. The choices of one format are one `NumberStyle`.
-/

namespace ObjectBridge

/-- The choices of a number format. -/
structure NumberStyle where
  /-- What follows a whole number. -/
  wholeSuffix : String
  /-- Leading-digit exponents from here on are written with an exponent. -/
  scientificFrom : Option Int
  /-- Leading-digit exponents up to here are written with an exponent. -/
  scientificUpTo : Option Int
  /-- Which of two equally near decimals is written. -/
  tie : Decimal.Tie

namespace NumberStyle

/-- Numbers in running text: never an exponent, and nothing after a whole number. -/
def plain : NumberStyle := ⟨"", none, none, .upward⟩

/-- Numbers in a JSON document: a point or an exponent always, an exponent from 1e+16 on and from
1e-6 downward. -/
def document : NumberStyle := ⟨".0", some 16, some (-6), .toEven⟩

def zeros (n : Nat) : String := String.ofList (List.replicate n '0')

/-- Digits with the point after the first `point` places, filled up with zeros. -/
def positional (style : NumberStyle) (digits : String) (point : Int) : String :=
  let count := digits.length
  if point ≤ 0 then "0." ++ zeros (-point).toNat ++ digits
  else if count ≤ point.toNat then digits ++ zeros (point.toNat - count) ++ style.wholeSuffix
  else
    String.ofList (digits.toList.take point.toNat) ++ "." ++
      String.ofList (digits.toList.drop point.toNat)

/-- Digits with the point after the first place and a signed exponent. -/
def scientific (digits : String) (exponent : Int) : String :=
  let rest := String.ofList (digits.toList.drop 1)
  String.ofList (digits.toList.take 1) ++ (if rest.isEmpty then "" else "." ++ rest) ++ "e" ++
    (if exponent < 0 then "-" else "+") ++ toString exponent.natAbs

def magnitude (style : NumberStyle) (d : Decimal) : String :=
  let digits := toString d.digits
  let point : Int := d.exponent + digits.length
  let leading := point - 1
  let far := style.scientificFrom.any (· ≤ leading) || style.scientificUpTo.any (leading ≤ ·)
  if far then scientific digits leading else style.positional digits point

def finite (style : NumberStyle) (x : Binary64) : String :=
  (if x.isNegative then "-" else "") ++ style.magnitude (Decimal.shortest style.tie x)

end NumberStyle

def Binary64.toText (x : Binary64) : String :=
  if x.isNaN then "NaN"
  else if x.isInfinite then if x.isNegative then "-inf" else "inf"
  else NumberStyle.plain.finite x

end ObjectBridge
