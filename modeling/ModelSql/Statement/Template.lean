import ModelSql.Statement.Filter
import ModelSql.Text.Occurrence
/-!
# Templates

The statements that serve every record of a table. Those that act on several
rows end in a condition that every row meets, and a compiled filter can take its
place.

The place is found as the last occurrence of the condition in the text, so it is
the right one whatever the table and its columns are called.
-/

namespace ModelSql

/-- A statement for the records of a table. -/
structure Template where
  kind : TemplateKind
  text : String
  /-- The placeholders bound from the fields of a record, in order. -/
  parameterNames : List String := []
  /-- What stands before and after the condition that a filter replaces. -/
  slot : Option (String × String) := none
deriving DecidableEq, Repr

namespace Template

/-- A template in which a filter replaces the last `placeholder`. -/
def filterable (kind : TemplateKind) (text placeholder : String)
    (parameterNames : List String := []) : Template where
  kind := kind
  text := text
  parameterNames := parameterNames
  slot := Text.splitAtLast? placeholder text

def hasSlot (t : Template) : Bool := t.slot.isSome

/-- The template as it stands. -/
def statement (t : Template) : Statement where
  text := t.text
  parameterNames := t.parameterNames

/-- The template restricted to the rows of a filter. -/
def splice (t : Template) (filter : CompiledFilter) : Except Fault Statement :=
  match t.slot with
  | none => .error (.noFilterSlot t.kind)
  | some (before, after) =>
    .ok {
      text := before ++ filter.condition ++ after
      parameterNames := t.parameterNames
      parameters := filter.parameters }

end Template

/-- The condition of the delete template, which holds of every row. -/
def everyRowOfDelete : String := "1=1"

namespace Table

/-- Every column under the name of its field. -/
def selectTemplate (t : Table) : Template :=
  let results := t.columns.map fun c =>
    "    " ++ t.quotedName ++ "." ++ c.quoted ++ " AS " ++ t.dialect.quoteAlias c.field
  .filterable .select
    ("SELECT\n" ++ ",\n".intercalate results ++ "\nFROM " ++ t.quotedName ++
      "\nWHERE\n    " ++ everyRow ++ ";")
    everyRow

/-- A new record whose identity the engine generates and reports. -/
def insertTemplate (t : Table) : Template where
  kind := .insert
  text :=
    match t.identity? with
    | some identity => t.dialect.insertReturningIdentity t.quotedName t.dataColumns identity
    | none => t.dialect.insert t.quotedName t.dataColumns
  parameterNames := t.dialect.parameters t.dataColumns

/-- A new record with all its columns, the identity included. -/
def insertAllTemplate (t : Table) : Template :=
  let insert := t.dialect.insert t.quotedName t.columns
  { kind := .insertAll
    text :=
      if t.identity?.isSome then t.dialect.insertExplicitIdentity t.quotedName insert else insert
    parameterNames := t.dialect.parameters t.columns }

/-- The record of one identity. There is none without an identity or without other columns. -/
def updateByIdentityTemplate? (t : Table) : Option Template :=
  match t.identity? with
  | none => none
  | some identity =>
    if t.dataColumns.isEmpty then none
    else
      let placeholder := t.dialect.parameter identity.field
      some {
        kind := .updateByIdentity
        text := t.dialect.update t.quotedName t.dataColumns (identity.quoted ++ " = " ++ placeholder)
        parameterNames := t.dialect.parameters t.dataColumns ++ [placeholder] }

/-- All columns that can be assigned. There is none if no column can be. -/
def updateAllTemplate? (t : Table) : Option Template :=
  if t.updatableColumns.isEmpty then none
  else
    some (.filterable .updateAll (t.dialect.update t.quotedName t.updatableColumns everyRow) everyRow
      (t.dialect.parameters t.updatableColumns))

/-- The removal of records. -/
def deleteTemplate (t : Table) : Template :=
  .filterable .delete ("DELETE FROM " ++ t.quotedName ++ " WHERE " ++ everyRowOfDelete ++ ";")
    everyRowOfDelete

/-- The template of a kind, if the table has one. -/
def template? (t : Table) : TemplateKind → Option Template
  | .select => some t.selectTemplate
  | .insert => some t.insertTemplate
  | .insertAll => some t.insertAllTemplate
  | .updateByIdentity => t.updateByIdentityTemplate?
  | .updateAll => t.updateAllTemplate?
  | .delete => some t.deleteTemplate

/-- The table's templates in their customary order. -/
def templates (t : Table) : List Template :=
  [.select, .insert, .insertAll, .updateByIdentity, .updateAll, .delete].filterMap t.template?

end Table

end ModelSql
