import ModelSql.Decimal.Binary64
import ModelSql.Text.Hex
import ModelSql.Text.Delimited
import ModelSql.Decimal.Shortest
/-!
# SQL values

The values that travel beside a statement and are bound to its parameters. The
text of a statement never holds one; `Value.toLiteral` is for logs and messages.
-/

namespace ModelSql

inductive Value where
  | null
  | bool (b : Bool)
  | int (n : Int64)
  | float (x : Decimal.Binary64)
  | text (s : String)
  | blob (bytes : List UInt8)
deriving DecidableEq, Repr

namespace Value

def isNull : Value → Bool
  | null => true
  | _ => false

def toLiteral : Value → String
  | null => "NULL"
  | bool b => if b then "TRUE" else "FALSE"
  | int n => toString n.toInt
  | float x => x.toDecimal
  | text s => Text.literal s
  | blob bytes => "X'" ++ Text.upperHex bytes ++ "'"

end Value

end ModelSql
