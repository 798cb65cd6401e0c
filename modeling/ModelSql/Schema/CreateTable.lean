import ModelSql.Table.Basic
/-!
# Table definitions
-/

namespace ModelSql

/-- The script that creates the table and does nothing where it exists. -/
def Table.createScript (t : Table) : String :=
  let definitions := t.columns.map fun c => "    " ++ t.dialect.columnDefinition c
  t.dialect.createTableHead t.quotedName ++ "\n" ++ ",\n".intercalate definitions ++ "\n);"

end ModelSql
