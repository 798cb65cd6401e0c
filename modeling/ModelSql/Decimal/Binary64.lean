/-!
# Binary floating-point numbers

A number is its IEEE 754 bit pattern, so equality is equality of bits: the two
zeros differ, and a NaN equals itself. A finite number is a sign and a natural
multiple of a power of two, which is the form in which `Decimal.Shortest`
works.
-/

namespace ModelSql.Decimal

/-- A double-precision number, given by its bits. -/
structure Binary64 where
  bits : UInt64
deriving DecidableEq, Repr

/-- A single-precision number, given by its bits. -/
structure Binary32 where
  bits : UInt32
deriving DecidableEq, Repr

namespace Binary64

def negative (x : Binary64) : Bool := x.bits.toNat.testBit 63

/-- The biased exponent, of eleven bits. -/
def exponentField (x : Binary64) : Nat := (x.bits.toNat >>> 52) % 2048

/-- The fraction field, of 52 bits. -/
def fractionField (x : Binary64) : Nat := x.bits.toNat % (1 <<< 52)

def isNaN (x : Binary64) : Bool := x.exponentField = 2047 ∧ x.fractionField ≠ 0

def isInfinite (x : Binary64) : Bool := x.exponentField = 2047 ∧ x.fractionField = 0

def ofFields (negative : Bool) (exponent fraction : Nat) : Binary64 :=
  ⟨UInt64.ofNat ((if negative then 1 <<< 63 else 0) + (exponent <<< 52) + fraction)⟩

end Binary64

/-- The double-precision number of the same value. Every finite single-precision
number has one: a number below the normal range becomes normal, because the
wider exponent reaches further down. -/
def Binary32.widen (x : Binary32) : Binary64 :=
  let negative := x.bits.toNat.testBit 31
  let exponent := (x.bits.toNat >>> 23) % 256
  let fraction := x.bits.toNat % (1 <<< 23)
  if exponent = 255 then Binary64.ofFields negative 2047 (fraction <<< 29)
  else if exponent ≠ 0 then Binary64.ofFields negative (exponent + 896) (fraction <<< 29)
  else if fraction = 0 then Binary64.ofFields negative 0 0
  else
    let top := fraction.log2
    Binary64.ofFields negative (top + 874) ((fraction - 1 <<< top) <<< (52 - top))

/-- The magnitude of a finite number, `significand * 2 ^ exponent`. Halfway to
the next smaller number is half as far as usual if `narrowBelow`. -/
structure Magnitude where
  significand : Nat
  exponent : Int
  narrowBelow : Bool
deriving DecidableEq, Repr

def Binary64.magnitude (x : Binary64) : Magnitude :=
  if x.exponentField = 0 then ⟨x.fractionField, -1074, false⟩
  else
    { significand := (1 <<< 52) + x.fractionField
      exponent := x.exponentField - 1075
      narrowBelow := x.fractionField = 0 ∧ x.exponentField > 1 }

end ModelSql.Decimal
