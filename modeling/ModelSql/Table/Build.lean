import ModelSql.Table.Basic
import ModelSql.Model.Settings
/-!
# Building tables

The fields of a model are taken in declaration order, each in view of the
fields before it. A field is refused if its name is taken; a persisted field
also if the engine has no type for it, if its column's name is taken, or if it
is the second one marked as the identity. The first refusal ends the build.

Once all are taken, the identity is the marked field, or else the field of
the conventional name if it is an integer and not nullable. A marked identity
has to be an integer.
-/

namespace ModelSql

/-- The persisted fields among `fields`. -/
def persisted (fields : List Field) : List Field := fields.filter fun f => !f.ignored

/-- The column of a field with the given native type. Which column is the
identity is settled later. -/
def Field.toColumn (f : Field) (d : Dialect) (native : String) : Column where
  field := f.name
  name := f.columnName
  quoted := d.quoteIdentifier f.columnName
  type := f.type
  native := native
  nullable := f.nullable
  identity := false

/-- The column of a persisted `field`, none for an ignored one, or the first rule
that the field breaks after the fields `earlier` of the model. -/
def acceptedColumn? (d : Dialect) (model : String) (earlier : List Field) (field : Field) :
    Except Fault (Option Column) :=
  if earlier.any (·.name = field.name) then .error (.duplicateField model field.name)
  else if field.ignored then .ok none
  else
    match d.nativeType field.type with
    | none => .error (.unmappedType d.engine model field.name field.type)
    | some native =>
      match (persisted earlier).find? (·.columnName.toLower = field.columnName.toLower) with
      | some first => .error (.columnCollision model field.columnName first.name field.name)
      | none =>
        match if field.identity then (persisted earlier).find? (·.identity) else none with
        | some first => .error (.duplicateIdentity model first.name field.name)
        | none => .ok (some (field.toColumn d native))

/-- The columns of the persisted fields among `fields`, which follow the fields `earlier`. -/
def acceptedColumns (d : Dialect) (model : String) (earlier : List Field) :
    List Field → Except Fault (List Column)
  | [] => .ok []
  | field :: rest => do
    let column? ← acceptedColumn? d model earlier field
    let columns ← acceptedColumns d model (earlier ++ [field]) rest
    return column?.toList ++ columns

/-- Whether a column can be the identity by convention. -/
def Column.isConventionalIdentity (c : Column) (settings : Settings) : Bool :=
  settings.identityConvention.fieldName? = some c.field && c.type.isInteger && !c.nullable

/-- The field that is the identity: the marked one, or else the conventional one. -/
def identityField? (settings : Settings) (fields : List Field) (columns : List Column) :
    Option String :=
  match (persisted fields).find? (·.identity) with
  | some marked => some marked.name
  | none => (columns.find? (·.isConventionalIdentity settings)).map (·.field)

/-- The columns with the column of `field` as the identity. It has to be an integer. -/
def withIdentity (model field : String) : List Column → Except Fault (List Column)
  | [] => .ok []
  | c :: rest =>
    if c.field = field then
      if c.type.isInteger then .ok ({ c with identity := true } :: rest)
      else .error (.invalidIdentityType model field c.type)
    else (withIdentity model field rest).map (c :: ·)

/-- The table of a model for an engine, under the name `override` if there is one. -/
def Model.build (m : Model) (engine : Engine) (override : Option String := none)
    (settings : Settings := {}) : Except Fault Table := do
  let columns ← acceptedColumns engine.dialect m.name [] m.fields
  if columns.isEmpty then throw (.noColumns m.name)
  let columns ← match identityField? settings m.fields columns with
    | none => pure columns
    | some field => withIdentity m.name field columns
  let name := m.tableName override
  return {
    model := m.name
    name := name
    quotedName := engine.dialect.quoteIdentifier name
    engine := engine
    columns := columns
    ignored := (m.fields.filter (·.ignored)).map (·.name) }

end ModelSql
