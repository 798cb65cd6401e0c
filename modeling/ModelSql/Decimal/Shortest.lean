import ModelSql.Decimal.Binary64
/-!
# Shortest decimals

A decimal identifies a binary number if it lies in the interval of reals that
round to the number, ends included when the significand is even. The decimal
written for a number is the coarsest that identifies it: the one on the grid of
the greatest power of ten that has any. Of two on that grid the nearer is
taken, and the greater if both are equally near.

Decimals are written positionally, without an exponent, and without a point
when they are whole.
-/

namespace ModelSql.Decimal

/-- The decimal `digits * 10 ^ exponent`. -/
structure Numeral where
  digits : Nat
  exponent : Int
deriving DecidableEq, Repr

namespace Magnitude

/-- The power of two that scales the ends of the rounding interval and the number
itself, `4 * significand`, to their values. -/
def scale (m : Magnitude) : Int := m.exponent - 2

/-- The lower end of the rounding interval, on the scale of `scale`. -/
def lower (m : Magnitude) : Nat := 4 * m.significand - if m.narrowBelow then 1 else 2

/-- The upper end of the rounding interval, on the scale of `scale`. -/
def upper (m : Magnitude) : Nat := 4 * m.significand + 2

/-- The factor that brings multiples of `2 ^ scale` to the common unit of the
number and of the grid of `10 ^ exponent`. -/
def binaryFactor (m : Magnitude) (exponent : Int) : Nat :=
  Nat.pow 10 (-exponent).toNat <<< m.scale.toNat

/-- The factor that brings multiples of `10 ^ exponent` to the common unit. -/
def decimalFactor (m : Magnitude) (exponent : Int) : Nat :=
  Nat.pow 10 exponent.toNat <<< (-m.scale).toNat

/-- Whether a decimal identifies the number. -/
def identifiedBy (m : Magnitude) (n : Numeral) : Bool :=
  let point := n.digits * m.decimalFactor n.exponent
  let low := m.lower * m.binaryFactor n.exponent
  let high := m.upper * m.binaryFactor n.exponent
  if m.significand % 2 = 0 then decide (low ≤ point ∧ point ≤ high)
  else decide (low < point ∧ point < high)

/-- The decimal on the grid of `10 ^ exponent` that identifies the number, if
there is one. Only the two neighbours of the number need to be looked at. -/
def onGrid? (m : Magnitude) (exponent : Int) : Option Numeral :=
  let value := 4 * m.significand * m.binaryFactor exponent
  let step := m.decimalFactor exponent
  let below : Numeral := ⟨value / step, exponent⟩
  let above : Numeral := ⟨value / step + 1, exponent⟩
  match m.identifiedBy below, m.identifiedBy above with
  | true, true => if 2 * value < (below.digits + above.digits) * step then some below else some above
  | true, false => some below
  | false, true => some above
  | false, false => none

/-- The first hit among `count` grids, each ten times finer than the one before,
or else the exact value of the number. -/
def search (m : Magnitude) : Nat → Int → Numeral
  | 0, _ =>
    if m.exponent < 0 then ⟨m.significand * Nat.pow 5 (-m.exponent).toNat, m.exponent⟩
    else ⟨m.significand <<< m.exponent.toNat, 0⟩
  | count + 1, exponent => (m.onGrid? exponent).getD (m.search count (exponent - 1))

/-- A power of ten above the number: with `b` the power of two above it, `0.3 * b`
is at most two short of its decimal logarithm. -/
def leadingExponent (m : Magnitude) : Int :=
  (m.significand.log2 + 1 + m.exponent) * 3 / 10 + 2

/-- The coarsest decimal that identifies the number. Seventeen digits always
suffice, and the first grid is at most four powers of ten too coarse. -/
def shortest (m : Magnitude) : Numeral := m.search 24 m.leadingExponent

end Magnitude

def Numeral.positional (n : Numeral) : String :=
  let digits := Nat.toDigits 10 n.digits
  let places := (-n.exponent).toNat
  if places = 0 then String.ofList (digits ++ List.replicate n.exponent.toNat '0')
  else
    let padded := List.replicate (places + 1 - digits.length) '0' ++ digits
    let whole := padded.length - places
    String.ofList (padded.take whole ++ '.' :: padded.drop whole)

/-- The shortest decimal text that identifies the number. -/
def Binary64.toDecimal (x : Binary64) : String :=
  if x.isNaN then "NaN"
  else
    let sign := if x.negative then "-" else ""
    if x.isInfinite then sign ++ "inf"
    else if x.magnitude.significand = 0 then sign ++ "0"
    else sign ++ x.magnitude.shortest.positional

end ModelSql.Decimal
