/-!
# Database engines

The engines for which SQL text is written, and the names by which they are
chosen.
-/

namespace ModelSql

inductive Engine where
  | sqlite
  | sqlServer
deriving DecidableEq, Repr

namespace Engine

def name : Engine → String
  | sqlite => "sqlite"
  | sqlServer => "sqlserver"

/-- The engine of a name, whatever the case of its ASCII letters. -/
def ofName? (name : String) : Option Engine :=
  let folded := name.toLower
  if folded = "sqlite" then some sqlite
  else if folded = "sqlserver" ∨ folded = "mssql" then some sqlServer
  else none

/-- What is said of a name that is no engine's. -/
def unknownMessage (name : String) : String :=
  "unknown dialect `" ++ name ++ "`, expected `sqlite` or `sqlserver`"

end Engine

end ModelSql
