import ModelSql.Engine.Dialect
import ModelSql.Fault
/-!
# Tables

A table is what a model becomes for one engine: quoted names, columns in
declaration order, and the names of the fields that have no column. A name in a
filter or payload is resolved to a column first as a field's name, then as a
column's name up to the case of ASCII letters.
-/

namespace ModelSql

/-- A model laid out for one engine. -/
structure Table where
  model : String
  /-- The bare name of the table. -/
  name : String
  /-- The name as an identifier of the engine. -/
  quotedName : String
  engine : Engine
  columns : List Column
  /-- The fields without a column. -/
  ignored : List String
deriving DecidableEq, Repr

namespace Table

/-- The dialect of the table's engine. -/
def dialect (t : Table) : Dialect := t.engine.dialect

def identity? (t : Table) : Option Column := t.columns.find? (·.identity)

/-- The columns besides the identity. -/
def dataColumns (t : Table) : List Column := t.columns.filter fun c => !c.identity

/-- The columns that an update of whole records assigns. -/
def updatableColumns (t : Table) : List Column :=
  t.columns.filter fun c => t.dialect.updatesIdentity || !c.identity

def columnByField? (t : Table) (field : String) : Option Column :=
  t.columns.find? (·.field = field)

def columnByName? (t : Table) (name : String) : Option Column :=
  t.columns.find? (·.isNamed name)

/-- The column that a name stands for. -/
def resolve (t : Table) (name : String) : Except Fault Column :=
  match (t.columnByField? name).or (t.columnByName? name) with
  | some column => .ok column
  | none =>
    if name ∈ t.ignored then .error (.ignoredField t.model name)
    else .error (.unknownField t.model name)

end Table

end ModelSql
