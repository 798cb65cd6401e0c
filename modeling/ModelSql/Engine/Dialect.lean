import ModelSql.Engine.Basic
import ModelSql.Table.Column
import ModelSql.Text.Delimited
/-!
# Dialects

What engines do differently is a record of choices, with a default for most of
them: the marks around identifiers, the native types, and a few details of the
data definition. How a generated identity is read back has no default, and each
engine has its own way. The pieces of a statement that hang on these choices are
functions of the record.
-/

namespace ModelSql

/-- How a table definition is made harmless where the table exists. -/
inductive CreateGuard where
  /-- The engine skips the definition itself. -/
  | ifNotExists
  /-- The definition is conditional on the absence of the object. -/
  | objectId
deriving DecidableEq, Repr

/-- The choices of a dialect. -/
structure Dialect where
  engine : Engine
  nativeType : SemanticType → Option String
  /-- What follows the type of an identity column. -/
  identityClause : String
  openingQuote : Char := '"'
  closingQuote : Char := '"'
  parameterMark : Char := '@'
  /-- Whether an explicit identity has to be allowed around the insert. -/
  guardsExplicitIdentity : Bool := false
  /-- Whether an update may assign the identity. -/
  updatesIdentity : Bool := true
  createGuard : CreateGuard := .ifNotExists
  supportsFullText : Bool := false

namespace Dialect

def name (d : Dialect) : String := d.engine.name

/-- The text as an identifier. -/
def quoteIdentifier (d : Dialect) (text : String) : String :=
  Text.enclose d.openingQuote d.closingQuote text

/-- The text as the label of a result column. -/
def quoteAlias (_ : Dialect) (text : String) : String := Text.literal text

/-- The placeholder of a named parameter. -/
def parameter (d : Dialect) (name : String) : String :=
  String.singleton d.parameterMark ++ name

/-- The placeholders of the columns' own parameters, which are named after their fields. -/
def parameters (d : Dialect) (columns : List Column) : List String :=
  columns.map fun c => d.parameter c.field

end Dialect

def columnList (columns : List Column) : String :=
  "(" ++ ",".intercalate (columns.map (·.quoted)) ++ ")"

/-- The variable that holds generated identities. -/
def insertedIds : String := "@InsertedIds"

namespace Dialect

def valueList (d : Dialect) (columns : List Column) : String :=
  "(" ++ ",".intercalate (d.parameters columns) ++ ")"

/-- An insert of the columns into the table of this quoted name. -/
def insert (d : Dialect) (table : String) (columns : List Column) : String :=
  if columns.isEmpty then "INSERT INTO " ++ table ++ " DEFAULT VALUES;"
  else
    "INSERT INTO " ++ table ++ " " ++ columnList columns ++
      "\nVALUES " ++ d.valueList columns ++ ";"

/-- An insert that stores the generated identity in a table variable and selects it from there. -/
def insertThroughVariable (d : Dialect) (table : String) (columns : List Column)
    (identity : Column) : String :=
  let targets := if columns.isEmpty then "" else " " ++ columnList columns
  let values :=
    if columns.isEmpty then "DEFAULT VALUES;" else "VALUES " ++ d.valueList columns ++ ";"
  "DECLARE " ++ insertedIds ++ " TABLE (" ++ identity.quoted ++ " " ++ identity.native ++ ");\n" ++
    "INSERT INTO " ++ table ++ targets ++
    "\nOUTPUT Inserted." ++ identity.quoted ++ " INTO " ++ insertedIds ++ "\n" ++ values ++
    "\nSELECT " ++ identity.quoted ++ " AS " ++ identity.field ++ " FROM " ++ insertedIds ++ ";"

/-- An insert of the columns that reads back the generated identity. SQLite is asked for the
row that was inserted last, and SQL Server keeps the identity in a table variable. -/
def insertReturningIdentity (d : Dialect) (table : String) (columns : List Column)
    (identity : Column) : String :=
  match d.engine with
  | .sqlite =>
    d.insert table columns ++ "\nSELECT last_insert_rowid() AS " ++ identity.field ++ ";"
  | .sqlServer => d.insertThroughVariable table columns identity

/-- The insert `statement`, which supplies the identity, in the form that the engine accepts. -/
def insertExplicitIdentity (d : Dialect) (table statement : String) : String :=
  if d.guardsExplicitIdentity then
    "SET IDENTITY_INSERT " ++ table ++ " ON;\n" ++ statement ++
      "\nSET IDENTITY_INSERT " ++ table ++ " OFF;"
  else statement

/-- An update of the columns in the rows that meet `condition`. -/
def update (d : Dialect) (table : String) (columns : List Column) (condition : String) : String :=
  let assignments := columns.map fun c => "    " ++ c.quoted ++ " = " ++ d.parameter c.field
  "UPDATE " ++ table ++ "\nSET\n" ++ ",\n".intercalate assignments ++
    "\nWHERE\n    " ++ condition ++ ";"

/-- What opens the definition of the table of this quoted name. -/
def createTableHead (d : Dialect) (table : String) : String :=
  match d.createGuard with
  | .ifNotExists => "CREATE TABLE IF NOT EXISTS " ++ table ++ " ("
  | .objectId =>
    "IF OBJECT_ID(N" ++ Text.literal table ++ ", N'U') IS NULL\nCREATE TABLE " ++ table ++ " ("

def columnDefinition (d : Dialect) (c : Column) : String :=
  c.quoted ++ " " ++ c.native ++
    if c.identity then d.identityClause else if c.nullable then "" else " NOT NULL"

end Dialect

namespace Engine

/-- The column types of SQLite, by storage affinity. -/
def sqliteType : SemanticType → Option String
  | .bool | .byte | .short | .int | .long | .enum => some "INTEGER"
  | .float | .double => some "REAL"
  | .decimal => some "NUMERIC"
  | .string | .guid | .dateTime | .dateTimeOffset => some "TEXT"
  | .bytes => some "BLOB"
  | .custom _ => none

def sqlServerType : SemanticType → Option String
  | .bool => some "BIT"
  | .byte => some "TINYINT"
  | .short => some "SMALLINT"
  | .int | .enum => some "INT"
  | .long => some "BIGINT"
  | .float => some "REAL"
  | .double => some "FLOAT"
  | .decimal => some "DECIMAL(38, 18)"
  | .string => some "NVARCHAR(MAX)"
  | .guid => some "UNIQUEIDENTIFIER"
  | .dateTime => some "DATETIME2"
  | .dateTimeOffset => some "DATETIMEOFFSET"
  | .bytes => some "VARBINARY(MAX)"
  | .custom _ => none

def dialect : Engine → Dialect
  | sqlite =>
    { engine := sqlite
      nativeType := sqliteType
      identityClause := " PRIMARY KEY AUTOINCREMENT"
      openingQuote := '['
      closingQuote := ']'
      supportsFullText := true }
  | sqlServer =>
    { engine := sqlServer
      nativeType := sqlServerType
      identityClause := " IDENTITY(1,1) PRIMARY KEY"
      openingQuote := '['
      closingQuote := ']'
      guardsExplicitIdentity := true
      updatesIdentity := false
      createGuard := .objectId }

@[simp]
theorem dialect_engine (engine : Engine) : engine.dialect.engine = engine := by
  cases engine <;> rfl

end Engine

end ModelSql
