import ModelSql.Engine.Basic
import ModelSql.Json.Shape
/-!
# Engines in JSON
-/

namespace ModelSql.Engine

def formName : Engine → String
  | sqlite => "sqlite"
  | sqlServer => "sql_server"

def toJson (e : Engine) : Json := .ofText e.formName

def ofJson? (value : Json) : Option Engine :=
  value.choice? [("sqlite", sqlite), ("sql_server", sqlServer)]

end ModelSql.Engine
