/-!
# Models

A model describes a record type: its name, an optional table alias and its
fields in declaration order. Field types are independent of any database.
-/

namespace ModelSql

/-- The type of a field, independent of any database. -/
inductive SemanticType where
  | bool
  /-- Integers of 8, 16, 32 and 64 bits. -/
  | byte | short | int | long
  | float
  | double
  | decimal
  | string
  | guid
  | dateTime
  | dateTimeOffset
  | bytes
  /-- An enumeration, stored as its integer discriminant. -/
  | enum
  /-- A host type that no database stores. -/
  | custom (name : String)
deriving DecidableEq, Repr

namespace SemanticType

/-- Whether a database can generate values of the type. -/
def isInteger : SemanticType → Bool
  | byte | short | int | long => true
  | _ => false

def toText : SemanticType → String
  | bool => "Bool"
  | byte => "Byte"
  | short => "Short"
  | int => "Int"
  | long => "Long"
  | float => "Float"
  | double => "Double"
  | decimal => "Decimal"
  | string => "String"
  | guid => "Guid"
  | dateTime => "DateTime"
  | dateTimeOffset => "DateTimeOffset"
  | bytes => "Bytes"
  | enum => "Enum"
  | custom name => "Custom(" ++ name ++ ")"

end SemanticType

structure Field where
  name : String
  type : SemanticType
  nullable : Bool := false
  /-- Marked as the identity of the record. -/
  identity : Bool := false
  /-- Left out of the table. -/
  ignored : Bool := false
  column : Option String := none
deriving DecidableEq, Repr

/-- The name of the field's column: the alias, or else the field's own name. -/
def Field.columnName (f : Field) : String := f.column.getD f.name

/-- A description of a record type. -/
structure Model where
  /-- Tells the model from others of the same name. -/
  key : Option String := none
  name : String
  table : Option String := none
  fields : List Field := []
deriving DecidableEq, Repr

/-- The key under which tables of the model are shared: the explicit key, or else the name. -/
def Model.cacheKey (m : Model) : String := m.key.getD m.name

/-- The name of the model's table: the override, or else the alias, or else the model's name. -/
def Model.tableName (m : Model) (override : Option String) : String :=
  (override.or m.table).getD m.name

end ModelSql
