import ModelSql.Engine.Basic
import ModelSql.Model.Basic
/-!
# Faults

Everything that can be wrong with a model or with a request for SQL text. Apart
from a conflicting key, which depends on what a cache holds, a fault follows
from the inputs of the operation alone.
-/

namespace ModelSql

/-- The statements that are written once for a table. -/
inductive TemplateKind where
  | select
  | insert
  | insertAll
  | updateByIdentity
  | updateAll
  | delete
deriving DecidableEq, Repr

def TemplateKind.label : TemplateKind → String
  | select => "select"
  | insert => "insert"
  | insertAll => "insert_all"
  | updateByIdentity => "update_by_identity"
  | updateAll => "update_all"
  | delete => "delete"

/-- What some engines cannot do. -/
inductive Feature where
  | fullText
  | identityUpdate
deriving DecidableEq, Repr

def Feature.description : Feature → String
  | fullText => "FTS5 virtual tables"
  | identityUpdate => "updating an identity column"

/-- Why a table, a statement or a script cannot be had. -/
inductive Fault where
  | duplicateIdentity (model first second : String)
  /-- Two names stand for one column. -/
  | columnCollision (model column first second : String)
  | duplicateField (model field : String)
  /-- Every field is ignored, or there is none. -/
  | noColumns (model : String)
  /-- The engine has no type for the field. -/
  | unmappedType (engine : Engine) (model field : String) (type : SemanticType)
  /-- The marked identity is no integer. -/
  | invalidIdentityType (model field : String) (type : SemanticType)
  | unsupported (engine : Engine) (feature : Feature)
  /-- Two models share one key of a cache. -/
  | conflictingModelKey (key : String)
  /-- A full-text index of no columns. -/
  | emptyFullTextColumns (model : String)
  /-- A filter for a template without a condition. -/
  | noFilterSlot (kind : TemplateKind)
  /-- A name that the model does not declare. -/
  | unknownField (model field : String)
  /-- A name that the model declares and leaves out of the table. -/
  | ignoredField (model field : String)
  | emptyPayload (model : String)
deriving DecidableEq, Repr

/-- What a fault is about. -/
inductive Fault.Kind where
  /-- The model, or a request that the engine cannot meet. -/
  | configuration
  /-- A name without a column. -/
  | unknownField
  | emptyPayload
deriving DecidableEq, Repr

namespace Fault

def kind : Fault → Kind
  | unknownField .. | ignoredField .. => .unknownField
  | emptyPayload .. => .emptyPayload
  | _ => .configuration

/-- A name in backquotes. -/
def ticked (name : String) : String := "`" ++ name ++ "`"

def message : Fault → String
  | duplicateIdentity model first second =>
    "model " ++ ticked model ++ " marks more than one identity field: " ++
      ticked first ++ " and " ++ ticked second
  | columnCollision model column first second =>
    "model " ++ ticked model ++ ": fields " ++ ticked first ++ " and " ++ ticked second ++
      " both map to column " ++ ticked column
  | duplicateField model field =>
    "model " ++ ticked model ++ " declares field " ++ ticked field ++ " more than once"
  | noColumns model => "model " ++ ticked model ++ " has no persisted columns"
  | unmappedType engine model field type =>
    "dialect " ++ ticked engine.name ++ " has no native type for " ++ ticked type.toText ++
      " (model " ++ ticked model ++ ", field " ++ ticked field ++ ")"
  | invalidIdentityType model field type =>
    "model " ++ ticked model ++ ": identity field " ++ ticked field ++
      " must be an integer type, found " ++ ticked type.toText
  | unsupported engine feature =>
    "dialect " ++ ticked engine.name ++ " does not support " ++ feature.description
  | conflictingModelKey key =>
    "model key " ++ ticked key ++ " is already cached for a different descriptor"
  | emptyFullTextColumns model =>
    "full-text index for model " ++ ticked model ++ " needs at least one column"
  | noFilterSlot kind => "the " ++ kind.label ++ " template has no WHERE placeholder"
  | unknownField model field => "model " ++ ticked model ++ " has no field " ++ ticked field
  | ignoredField model field =>
    "field " ++ ticked field ++ " of model " ++ ticked model ++ " is ignored and has no column"
  | emptyPayload model => "partial payload for model " ++ ticked model ++ " has no fields"

end Fault

end ModelSql
