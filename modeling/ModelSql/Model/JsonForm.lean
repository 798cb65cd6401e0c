import ModelSql.Model.Basic
import ModelSql.Model.Settings
import ModelSql.Json.Shape
/-!
# Models and settings in JSON

Models, their parts and build settings are written with all their members and
read back with any that have a default left out. What is written is read as the
same value.
-/

namespace ModelSql

open Json

namespace SemanticType

/-- The types without a parameter, by name. -/
def named : List (String × SemanticType) :=
  [("bool", .bool), ("byte", .byte), ("short", .short), ("int", .int), ("long", .long),
    ("float", .float), ("double", .double), ("decimal", .decimal), ("string", .string),
    ("guid", .guid), ("date_time", .dateTime), ("date_time_offset", .dateTimeOffset),
    ("bytes", .bytes), ("enum", .enum)]

def formName : SemanticType → String
  | .bool => "bool"
  | .byte => "byte"
  | .short => "short"
  | .int => "int"
  | .long => "long"
  | .float => "float"
  | .double => "double"
  | .decimal => "decimal"
  | .string => "string"
  | .guid => "guid"
  | .dateTime => "date_time"
  | .dateTimeOffset => "date_time_offset"
  | .bytes => "bytes"
  | .enum => "enum"
  | .custom _ => "custom"

def toJson : SemanticType → Json
  | .custom name => ofMembers [("custom", ofText name)]
  | type => ofText type.formName

def ofJson? (value : Json) : Option SemanticType :=
  match value.variant? with
  | some ("custom", some content) => content.text?.map .custom
  | _ => value.choice? named

end SemanticType

namespace Field

def memberNames : List String := ["name", "type", "nullable", "identity", "ignored", "column"]

def toJson (f : Field) : Json :=
  ofMembers [("name", ofText f.name), ("type", f.type.toJson), ("nullable", .bool f.nullable),
    ("identity", .bool f.identity), ("ignored", .bool f.ignored), ("column", ofText? f.column)]

def ofJson? (value : Json) : Option Field := do
  let [name, type, nullable, identity, ignored, column] ← value.members? memberNames | none
  return {
    name := ← required? text? name
    type := ← required? SemanticType.ofJson? type
    nullable := ← optional? false bool? nullable
    identity := ← optional? false bool? identity
    ignored := ← optional? false bool? ignored
    column := ← optional? none (nullable? text?) column }

end Field

namespace Model

def memberNames : List String := ["key", "name", "table", "fields"]

def toJson (m : Model) : Json :=
  ofMembers [("key", ofText? m.key), ("name", ofText m.name), ("table", ofText? m.table),
    ("fields", .array (m.fields.map Field.toJson))]

def ofJson? (value : Json) : Option Model := do
  let [key, name, table, fields] ← value.members? memberNames | none
  return {
    key := ← optional? none (nullable? text?) key
    name := ← required? text? name
    table := ← optional? none (nullable? text?) table
    fields := ← optional? [] (list? Field.ofJson?) fields }

end Model

namespace IdentityConvention

def toJson : IdentityConvention → Json
  | .disabled => ofText "disabled"
  | .fieldNamed name => ofMembers [("field_named", ofText name)]

def ofJson? (value : Json) : Option IdentityConvention :=
  match value.variant? with
  | some ("field_named", some content) => content.text?.map .fieldNamed
  | _ => value.choice? [("disabled", .disabled)]

end IdentityConvention

namespace Settings

def memberNames : List String := ["identity_convention"]

def toJson (s : Settings) : Json :=
  ofMembers [("identity_convention", s.identityConvention.toJson)]

def ofJson? (value : Json) : Option Settings := do
  let [convention] ← value.members? memberNames | none
  return {
    identityConvention :=
      ← optional? ({} : Settings).identityConvention IdentityConvention.ofJson? convention }

end Settings

end ModelSql
