import ModelSql.Model.Basic
/-!
# Columns

A column is a persisted field with everything that statements need of it.
-/

namespace ModelSql

structure Column where
  field : String
  /-- The bare name of the column. -/
  name : String
  /-- The name as an identifier of the table's engine. -/
  quoted : String
  type : SemanticType
  /-- The engine's type of the column. -/
  native : String
  nullable : Bool
  identity : Bool
deriving DecidableEq, Repr

/-- Whether the column has the given name, up to the case of ASCII letters. -/
def Column.isNamed (c : Column) (name : String) : Bool := c.name.toLower = name.toLower

end ModelSql
