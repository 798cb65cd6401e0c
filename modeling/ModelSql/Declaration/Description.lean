import ModelSql.Declaration.Basic
import ModelSql.Declaration.Naming
/-!
# Models from declarations

The model that a declaration describes. Attributes give the table an alias, mark
the identity, leave fields out, rename columns and replace inferred types. For
every field that is kept there is an accessor, which carries the field's name.

Attributes on the type are read up to the first that names a table. Fields are
described in order, and the first fault ends the description.
-/

namespace ModelSql

inductive DeclarationFault where
  /-- An attribute without its parentheses. -/
  | missingArguments
  /-- An argument without the value that it needs. -/
  | missingValue
  /-- An argument with a value that it does not take. -/
  | unexpectedValue
  /-- A value that is no string literal. -/
  | notText
  | unknownModelArgument
  | unknownFieldArgument
  /-- A struct without named fields. -/
  | unnamedFields
  /-- An enumeration or a union. -/
  | notAStruct
  /-- A type name that replaces no type. -/
  | unknownType (name : String)
deriving DecidableEq, Repr

namespace Declaration

/-- The semantic types that can replace an inferred one. -/
def replacements : List SemanticType :=
  [.bool, .byte, .short, .int, .long, .float, .double, .decimal, .string, .guid, .dateTime,
    .dateTimeOffset, .bytes, .enum]

structure FieldSettings where
  identity : Bool := false
  ignored : Bool := false
  column : Option String := none
  typeName : Option String := none
deriving DecidableEq, Repr

end Declaration

def DeclarationFault.message : DeclarationFault → String
  | missingArguments => "expected attribute arguments in parentheses: #[model(...)]"
  | missingValue => "expected `=`"
  | unexpectedValue => "expected `,`"
  | notText => "expected a string literal"
  | unknownModelArgument => "unsupported model attribute, expected `table`"
  | unknownFieldArgument =>
    "unsupported field attribute, expected `identity`, `ignore`, `column` or `ty`"
  | unnamedFields => "Model derive only supports structs with named fields"
  | notAStruct => "Model derive only supports structs"
  | unknownType name =>
    "unknown semantic type `" ++ name ++ "`, expected one of [" ++
      ", ".intercalate (Declaration.replacements.map fun type => "\"" ++ type.toText ++ "\"") ++ "]"

/-- The text that an argument is set to. -/
def AttributeArgument.text (a : AttributeArgument) : Except DeclarationFault String :=
  match a.value with
  | some (.text s) => .ok s
  | some .expression => .error .notText
  | none => .error .missingValue

/-- An argument that takes no value. -/
def AttributeArgument.flag (a : AttributeArgument) : Except DeclarationFault Unit :=
  if a.value.isSome then .error .unexpectedValue else .ok ()

namespace Declaration

/-- The alias that the arguments of one attribute give the table after the alias `table`.
A later argument replaces it. -/
def tableOf (table : Option String) :
    List AttributeArgument → Except DeclarationFault (Option String)
  | [] => .ok table
  | a :: rest =>
    if a.name = "table" then do
      let name ← a.text
      tableOf (some name) rest
    else .error .unknownModelArgument

/-- The alias of the table, from the first attribute that gives one. -/
def tableAlias : List Attribute → Except DeclarationFault (Option String)
  | [] => .ok none
  | a :: rest =>
    if a.path = "model" then
      match a.arguments with
      | none => .error .missingArguments
      | some arguments => do
        match ← tableOf none arguments with
        | some table => return some table
        | none => tableAlias rest
    else tableAlias rest

/-- The settings on a field with one more argument. -/
def FieldSettings.add (s : FieldSettings) (a : AttributeArgument) :
    Except DeclarationFault FieldSettings :=
  if a.name = "identity" then do
    a.flag
    return { s with identity := true }
  else if a.name = "ignore" then do
    a.flag
    return { s with ignored := true }
  else if a.name = "column" then do
    return { s with column := some (← a.text) }
  else if a.name = "ty" then do
    return { s with typeName := some (← a.text) }
  else .error .unknownFieldArgument

/-- The settings on a field from all its attributes. An attribute without parentheses
sets nothing. -/
def FieldSettings.ofAttributes (attributes : List Attribute) :
    Except DeclarationFault FieldSettings :=
  let arguments := (attributes.filter (·.path = "field")).flatMap fun a => a.arguments.getD []
  arguments.foldlM FieldSettings.add {}

def replacement (name : String) : Except DeclarationFault SemanticType :=
  match replacements.find? (·.toText = name) with
  | some type => .ok type
  | none => .error (.unknownType name)

/-- The field that a declared field describes. A replaced type leaves open whether the
field admits null: that follows from the declared type. -/
def fieldOf (f : DeclaredField) : Except DeclarationFault Field := do
  let settings ← FieldSettings.ofAttributes f.attributes
  let (inferred, nullable) := f.type.semantics
  let type ← match settings.typeName with
    | some name => replacement name
    | none => pure inferred
  return {
    name := pascalCase f.identifier
    type := type
    nullable := nullable
    identity := settings.identity
    ignored := settings.ignored
    column := settings.column }

/-- A declaration in the scope of a module as a model, with the accessors of its fields:
the identifier of each field that is kept, and the field's name. -/
structure Description where
  model : Model
  accessors : List (String × String)
deriving DecidableEq, Repr

def checkShape : DeclarationShape → Except DeclarationFault Unit
  | .struct => .ok ()
  | .tuple | .unit => .error .unnamedFields
  | .enum | .union => .error .notAStruct

/-- The description of a declaration in the module of the given path. -/
def describe (d : Declaration) (modulePath : String) : Except DeclarationFault Description := do
  let table ← tableAlias d.attributes
  checkShape d.shape
  let fields ← d.fields.mapM fieldOf
  let described := d.fields.zip fields
  return {
    model := {
      key := some (modulePath ++ "::" ++ d.name)
      name := d.name
      table := table
      fields := fields }
    accessors := (described.filter fun (_, field) => !field.ignored).map fun (f, field) =>
      (f.identifier, field.name) }

end Declaration

end ModelSql
