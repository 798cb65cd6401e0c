import ModelSql.Text.Hex
/-!
# Universally unique identifiers

An identifier is 128 bits, written as five groups of lower-case hexadecimal
digits.
-/

namespace ModelSql

/-- A 128-bit identifier. -/
structure Uuid where
  bits : BitVec 128
deriving DecidableEq, Repr

/-- Groups of 8, 4, 4, 4 and 12 digits, joined by hyphens. -/
def Uuid.toText (u : Uuid) : String :=
  let digits := Text.hexDigits 32 u.bits.toNat
  let group (start length : Nat) := String.ofList ((digits.drop start).take length)
  "-".intercalate [group 0 8, group 8 4, group 12 4, group 16 4, group 20 12]

end ModelSql
