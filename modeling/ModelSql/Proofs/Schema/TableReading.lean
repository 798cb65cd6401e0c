import ModelSql.Proofs.Schema.TableDefinition
import ModelSql.Proofs.Table.Representation
import ModelSql.Schema.CreateTable
/-!
# What the definition of a table says

The text that creates a built table reads as one definition, whatever the names of the table
and its columns are. The definition gives the names back, the native types, and which column is
the identity or may be null, so tables of one engine with one text agree in all of these.

* `Table.definition`: the definition as a tree;
* `lexes_createScript`: the text reads as the tokens of the tree;
* `parse?_createScript`: the text is read as the tree;
* `Model.createScript_determines`: what is read of the text of a built table.
-/

namespace ModelSql

open Sql

/-! ## Native types -/

namespace Sql

/-- The types that engines have for fields. -/
def nativeTypes : List TypeName := [
  ⟨"INTEGER", []⟩, ⟨"REAL", []⟩, ⟨"NUMERIC", []⟩, ⟨"TEXT", []⟩, ⟨"BLOB", []⟩,
  ⟨"BIT", []⟩, ⟨"TINYINT", []⟩, ⟨"SMALLINT", []⟩, ⟨"INT", []⟩, ⟨"BIGINT", []⟩, ⟨"FLOAT", []⟩,
  ⟨"DECIMAL", ["38", "18"]⟩, ⟨"NVARCHAR", ["MAX"]⟩, ⟨"UNIQUEIDENTIFIER", []⟩,
  ⟨"DATETIME2", []⟩, ⟨"DATETIMEOFFSET", []⟩, ⟨"VARBINARY", ["MAX"]⟩]

namespace TypeName

/-- The native type of a text. -/
def ofText (text : String) : TypeName :=
  (nativeTypes.find? (·.text = text)).getD ⟨text, []⟩

/-- The name and the arguments are words. -/
def Proper (t : TypeName) : Prop := IsWord t.name ∧ ∀ text ∈ t.arguments, IsWord text

instance (t : TypeName) : Decidable t.Proper := inferInstanceAs (Decidable (_ ∧ _))

theorem lexes_text {t : TypeName} (h : t.Proper) : Lexes t.text t.tokens := by
  have name := lexes_word h.1
  unfold text tokens
  split
  · exact name
  · have opening : Joins "(" [.punctuation '('] := joins_of_read ⟨rfl, rfl⟩
    have separator : Joins ", " [.punctuation ','] := joins_of_read ⟨rfl, rfl⟩
    have words := lexes_intercalate separator fun text mem => lexes_word (h.2 text mem)
    rw [List.map_id'] at words
    have all := ((name.join opening).append words).join joins_closing
    simpa only [tupleTokens, listTokens, List.append_assoc, List.cons_append, List.nil_append]
      using all.lexes

end TypeName

/-- A type that an engine has for fields is found by its text. -/
theorem ofText_of_nativeType {engine : Engine} {type : SemanticType} {native : String}
    (known : engine.dialect.nativeType type = some native) :
    (TypeName.ofText native).text = native ∧ (TypeName.ofText native).Proper := by
  have listed : (nativeTypes.find? (·.text = native)).isSome = true := by
    cases engine <;> cases type <;> first | contradiction | (cases known; decide +kernel)
  have proper : ∀ t ∈ nativeTypes, t.Proper := by decide +kernel
  obtain ⟨t, found⟩ := Option.isSome_iff_exists.mp listed
  have own : t.text = native := by simpa using List.find?_some found
  simp only [TypeName.ofText, found, Option.getD_some]
  exact ⟨own, proper t (List.mem_of_find?_eq_some found)⟩

end Sql

/-! ## The definition as a tree -/

def Engine.identityClauses : Engine → List ColumnClause
  | sqlite => [.primaryKey, .autoincrement]
  | sqlServer => [.identity "1" "1", .primaryKey]

/-- What guards the definition of the table of this quoted name. -/
def Engine.definitionGuard : Engine → String → DefinitionGuard
  | sqlite, _ => .ifNotExists
  | sqlServer, quotedName => .objectId quotedName "U"

def Column.clauses (c : Column) (engine : Engine) : List ColumnClause :=
  if c.identity then engine.identityClauses else if c.nullable then [] else [.notNull]

namespace Table

variable (t : Table)

def columnDefinition (c : Column) : ColumnDefinition where
  name := c.name
  type := .ofText c.native
  clauses := c.clauses t.engine

def definition : TableDefinition where
  guard := t.engine.definitionGuard t.quotedName
  name := t.name
  columns := t.columns.map t.columnDefinition

end Table

/-! ## The text -/

/-- A literal of the national character set has its mark right before the quote. -/
theorem lexes_nationalLiteral (text : String) :
    Lexes ("N" ++ Text.literal text) [.word "N", .quoted .apostrophe text] := by
  intro rest hr
  have chars : ("N" ++ Text.literal text).toList =
      'N' :: '\'' :: (Text.doubling '\'' text.toList ++ ['\'']) := by
    simp only [Text.literal, Text.enclose, String.toList_append, String.toList_ofList]
    rfl
  have letter : Mode.between.step 'N' = ([], .run .word ['N']) := rfl
  have quote : (Mode.run .word ['N']).step '\'' = ([.word "N"], .inside .apostrophe []) := rfl
  have value := Mode.tokens_inside .apostrophe text.toList [] hr
  rw [List.nil_append, String.ofList_toList] at value
  simp only [chars, List.cons_append, List.append_assoc, List.nil_append, Mode.tokens, letter, quote]
  exact congrArg (Token.word "N" :: ·) value

/-- What follows the type of an identity starts with a blank, so the type has ended. -/
theorem lexes_identityClause (engine : Engine) :
    Lexes engine.dialect.identityClause (engine.identityClauses.flatMap ColumnClause.tokens) ∧
      Separates engine.dialect.identityClause := by
  cases engine with
  | sqlite =>
    have clause : Engine.sqlite.dialect.identityClause = " PRIMARY KEY AUTOINCREMENT" := rfl
    rw [clause]
    refine ⟨lexes_of_read ⟨rfl, rfl⟩, ?_⟩
    apply separates_of_head?
    rfl
  | sqlServer =>
    have clause : Engine.sqlServer.dialect.identityClause = " IDENTITY(1,1) PRIMARY KEY" := rfl
    rw [clause]
    refine ⟨lexes_of_read ⟨rfl, rfl⟩, ?_⟩
    apply separates_of_head?
    rfl

section
variable {t : Table} (h : t.WellFormed)
include h

/-- The definition up to its first column. -/
theorem opens_createTableHead :
    Opens (t.dialect.createTableHead t.quotedName ++ "\n")
      ((t.engine.definitionGuard t.quotedName).tokens ++ [t.token, .punctuation '(']) := by
  have columns : Joins " (" [.punctuation '('] := joins_of_read ⟨rfl, rfl⟩
  have line : Opens "\n" [] := opens_of_read rfl
  unfold Table.dialect
  cases t.engine with
  | sqlite =>
    have create : Opens "CREATE TABLE IF NOT EXISTS "
      (DefinitionGuard.tokens .ifNotExists) := opens_of_read rfl
    exact ((create.append h.lexes_quotedName).join columns).trans line
  | sqlServer =>
    have absent : Opens "IF OBJECT_ID(" [.word "IF", .word "OBJECT_ID", .punctuation '('] :=
      opens_of_read rfl
    have create : Joins ", N'U') IS NULL\nCREATE TABLE " [.punctuation ',', .word "N",
      .quoted .apostrophe "U", .punctuation ')', .word "IS", .word "NULL", .word "CREATE",
      .word "TABLE"] := joins_of_read ⟨rfl, rfl⟩
    have guarded := (absent.append (lexes_nationalLiteral t.quotedName)).join create
    have all := ((guarded.append h.lexes_quotedName).join columns).trans line
    have text : Engine.sqlServer.dialect.createTableHead t.quotedName ++ "\n" =
        "IF OBJECT_ID(" ++ ("N" ++ Text.literal t.quotedName) ++
          ", N'U') IS NULL\nCREATE TABLE " ++ t.quotedName ++ " (" ++ "\n" := by
      have mark : "IF OBJECT_ID(N" = "IF OBJECT_ID(" ++ "N" := rfl
      have head : Engine.sqlServer.dialect.createTableHead t.quotedName =
        "IF OBJECT_ID(N" ++ Text.literal t.quotedName ++ ", N'U') IS NULL\nCREATE TABLE " ++
          t.quotedName ++ " (" := rfl
      rw [head, mark]
      simp only [String.append_assoc]
    rw [text]
    simpa only [Engine.definitionGuard, DefinitionGuard.tokens, List.append_assoc,
      List.cons_append, List.nil_append] using all

theorem lexes_columnDefinition {c : Column} (mem : c ∈ t.columns) :
    Lexes (t.dialect.columnDefinition c) (t.columnDefinition c).tokens := by
  obtain ⟨native, proper⟩ := ofText_of_nativeType (h.column c mem).native_eq
  have typed : Lexes (c.quoted ++ " " ++ c.native)
      (.quoted .bracket c.name :: (TypeName.ofText c.native).tokens) := by
    have type := TypeName.lexes_text proper
    rw [native] at type
    exact ((h.lexes_quoted mem).join joins_space).append type
  unfold Dialect.columnDefinition Table.columnDefinition Column.clauses
  split
  · obtain ⟨clauses, apart⟩ := lexes_identityClause t.engine
    exact typed.append clauses apart
  · split
    · rw [String.append_empty]
      simpa only [ColumnDefinition.tokens, List.flatMap_nil, List.append_nil] using typed
    · have required : Lexes " NOT NULL" [.word "NOT", .word "NULL"] := lexes_of_read ⟨rfl, rfl⟩
      exact typed.append required (separates_of_head? (by rfl))

/-- The text that creates a table reads as the tokens of its definition. -/
theorem lexes_createScript : Lexes t.createScript t.definition.tokens := by
  have column (c : Column) (mem : c ∈ t.columns) :
      Lexes ("    " ++ t.dialect.columnDefinition c) (t.columnDefinition c).tokens :=
    opens_indent.append (lexes_columnDefinition h mem)
  have columns := lexes_intercalate joins_nextItem column
  have closing : Joins "\n);" [.punctuation ')', .punctuation ';'] := joins_of_read ⟨rfl, rfl⟩
  have all := (((opens_createTableHead h).append columns).join closing).lexes
  have listed : listTokens ColumnDefinition.tokens t.definition.columns =
      [Token.punctuation ','].intercalate (t.columns.map fun c => (t.columnDefinition c).tokens) := by
    rw [listTokens, Table.definition, List.map_map]
    rfl
  delta Table.createScript TableDefinition.tokens
  rw [listed]
  simpa only [Table.definition, Table.token, List.append_assoc, List.cons_append, List.nil_append]
    using all

/-- The text that creates a table is read as its definition. -/
theorem parse?_createScript (nonempty : t.columns ≠ []) :
    TableDefinition.parse? t.createScript = some t.definition := by
  have columns : t.definition.columns ≠ [] := mt List.map_eq_nil_iff.mp nonempty
  rw [TableDefinition.parse?, (lexes_createScript h).tokens_eq, TableDefinition.read?_tokens columns]

end

/-! ## What is read -/

/-- Whether the engine gives the column its values. -/
def Sql.ColumnClause.generates : ColumnClause → Bool
  | .autoincrement | .identity _ _ => true
  | .notNull | .primaryKey => false

/-- What the definition of a table fixes of a column. -/
structure DefinedColumn where
  name : String
  native : String
  identity : Bool
  /-- Whether nulls are allowed. The definition of an identity does not say so. -/
  nullable? : Option Bool
deriving DecidableEq, Repr

def Column.defined (c : Column) : DefinedColumn where
  name := c.name
  native := c.native
  identity := c.identity
  nullable? := if c.identity then none else some c.nullable

def Sql.ColumnDefinition.defined (d : ColumnDefinition) : DefinedColumn where
  name := d.name
  native := d.type.text
  identity := d.clauses.any ColumnClause.generates
  nullable? :=
    if d.clauses.any ColumnClause.generates then none
    else some (!d.clauses.contains .notNull)

/-- The columns with a clause, each as many times as it has the clause. -/
def Sql.TableDefinition.columnsWith (d : TableDefinition) (clause : ColumnClause) : List String :=
  d.columns.flatMap fun c => List.replicate (c.clauses.count clause) c.name

theorem Table.WellFormed.defined_columnDefinition {t : Table} (h : t.WellFormed) {c : Column}
    (mem : c ∈ t.columns) : (t.columnDefinition c).defined = c.defined := by
  obtain ⟨native, -⟩ := ofText_of_nativeType (h.column c mem).native_eq
  have identity : t.engine.identityClauses.any ColumnClause.generates = true := by
    cases t.engine <;> rfl
  cases flag : c.identity with
  | true =>
    simp only [ColumnDefinition.defined, Column.defined, columnDefinition, Column.clauses, flag,
      native, identity, if_true]
  | false =>
    cases null : c.nullable <;>
      simp only [ColumnDefinition.defined, Column.defined, columnDefinition, Column.clauses, flag,
        native, null] <;> rfl

/-- The columns that have a clause, if they have it once. -/
theorem Table.columnsWith_definition (t : Table) {clause : ColumnClause} {has : Column → Bool}
    (once : ∀ c : Column, (c.clauses t.engine).count clause = if has c then 1 else 0) :
    t.definition.columnsWith clause = (t.columns.filter has).map (·.name) := by
  unfold TableDefinition.columnsWith definition
  simp only
  induction t.columns with
  | nil => rfl
  | cons c columns ih =>
    have count : (t.columnDefinition c).clauses.count clause = if has c then 1 else 0 := once c
    rw [List.map_cons, List.flatMap_cons, count, ih]
    cases own : has c <;> simp [own, columnDefinition]

/-- The primary key is the identity. -/
theorem Model.primaryKey_definition {m : Model} {engine : Engine} {override : Option String}
    {settings : Settings} {t : Table} (built : m.build engine override settings = .ok t) :
    t.definition.columnsWith .primaryKey = (t.identity?.map (·.name)).toList := by
  have once (c : Column) : (c.clauses t.engine).count .primaryKey = if c.identity then 1 else 0 := by
    unfold Column.clauses
    cases c.identity with
    | true => cases t.engine <;> rfl
    | false => cases c.nullable <;> rfl
  rw [t.columnsWith_definition once, (m.build_flagged built).1]
  cases t.identity? <;> rfl

theorem Table.required_definition (t : Table) :
    t.definition.columnsWith .notNull =
      (t.columns.filter fun c => !c.identity && !c.nullable).map (·.name) := by
  refine t.columnsWith_definition fun c => ?_
  unfold Column.clauses
  cases c.identity with
  | true => cases t.engine <;> rfl
  | false => cases c.nullable <;> rfl

/-- The text that creates a built table is read as one definition. It names the table and its
columns, in order, with their native types, with the identity, and with the columns besides it
that may be null. The identity, if there is one, is the only primary key, the columns besides it
that may not be null are the only ones said to be so, and the object that a guard looks for is
the table. So tables of one engine agree in all of these if their texts are the same. -/
theorem Model.createScript_determines {m : Model} {engine : Engine} {override : Option String}
    {settings : Settings} {t : Table} (built : m.build engine override settings = .ok t) :
    (∃ d, TableDefinition.parse? t.createScript = some d ∧ d.name = t.name ∧
      d.columns.map (·.defined) = t.columns.map (·.defined) ∧
      d.columnsWith .primaryKey = (t.identity?.map (·.name)).toList ∧
      d.columnsWith .notNull =
        (t.columns.filter fun c => !c.identity && !c.nullable).map (·.name) ∧
      (engine = .sqlite → d.guard = .ifNotExists) ∧
      (engine = .sqlServer → d.guard = .objectId (engine.dialect.quoteIdentifier d.name) "U")) ∧
    ∀ (m' : Model) (override' : Option String) (settings' : Settings) (t' : Table),
      m'.build engine override' settings' = .ok t' → t'.createScript = t.createScript →
        t'.name = t.name ∧ t'.columns.map (·.defined) = t.columns.map (·.defined) := by
  have read {m : Model} {override : Option String} {settings : Settings} {t : Table}
      (built : m.build engine override settings = .ok t) :
      TableDefinition.parse? t.createScript = some t.definition ∧
        t.definition.columns.map (·.defined) = t.columns.map (·.defined) := by
    have wellFormed := m.build_wellFormed built
    refine ⟨parse?_createScript wellFormed (m.build_columns_ne_nil built), ?_⟩
    rw [Table.definition, List.map_map]
    exact List.map_congr_left fun c mem => wellFormed.defined_columnDefinition mem
  obtain ⟨parses, columns⟩ := read built
  constructor
  · have quoted := (m.build_wellFormed built).quotedName_eq
    rw [Table.dialect, m.build_engine built] at quoted
    have guarded : t.definition.guard =
        engine.definitionGuard (engine.dialect.quoteIdentifier t.name) := by
      rw [Table.definition, m.build_engine built, quoted]
    refine ⟨t.definition, parses, rfl, columns, m.primaryKey_definition built,
      t.required_definition, ?_, ?_⟩
    · rintro rfl
      exact guarded
    · rintro rfl
      exact guarded
  · -- One text has one tree, and the tree gives back what the text was made of.
    intro m' override' settings' t' built' same
    obtain ⟨parses', columns'⟩ := read built'
    rw [same, parses, Option.some_inj] at parses'
    exact ⟨(congrArg TableDefinition.name parses').symm, by rw [← columns', ← parses', columns]⟩

/-- A model with names that look like the text around them. -/
def ledgerModel : Model where
  name := "Ledger"
  table := some "it's], (t\n);"
  fields := [
    { name := "Id", type := .long },
    { name := "Price", type := .decimal, column := some "a] NOT NULL,\n[b" },
    { name := "Note", type := .string, nullable := true, column := some "n PRIMARY KEY'" }]

def ledgerTable : Table where
  model := "Ledger"
  name := "it's], (t\n);"
  quotedName := "[it's]], (t\n);]"
  engine := .sqlServer
  columns := [
    { field := "Id", name := "Id", quoted := "[Id]", type := .long, native := "BIGINT"
      nullable := false, identity := true },
    { field := "Price", name := "a] NOT NULL,\n[b", quoted := "[a]] NOT NULL,\n[b]"
      type := .decimal, native := "DECIMAL(38, 18)", nullable := false, identity := false },
    { field := "Note", name := "n PRIMARY KEY'", quoted := "[n PRIMARY KEY']", type := .string
      native := "NVARCHAR(MAX)", nullable := true, identity := false }]
  ignored := []

theorem Model.createScript_determines_ledger :
    ledgerModel.build .sqlServer = .ok ledgerTable ∧
    ∃ d, TableDefinition.parse? ledgerTable.createScript = some d ∧
      d.guard = .objectId "[it's]], (t\n);]" "U" ∧ d.name = "it's], (t\n);" ∧
      d.columns.map (·.defined) = [
        ⟨"Id", "BIGINT", true, none⟩,
        ⟨"a] NOT NULL,\n[b", "DECIMAL(38, 18)", false, some false⟩,
        ⟨"n PRIMARY KEY'", "NVARCHAR(MAX)", false, some true⟩] ∧
      d.columnsWith .primaryKey = ["Id"] ∧ d.columnsWith .notNull = ["a] NOT NULL,\n[b"] := by
  have built : ledgerModel.build .sqlServer = .ok ledgerTable := ok_of_toOption (by decide +kernel)
  obtain ⟨⟨d, parses, name, columns, primaryKey, required, -, guard⟩, -⟩ :=
    createScript_determines built
  have quoted : Engine.sqlServer.dialect.quoteIdentifier ledgerTable.name = "[it's]], (t\n);]" := by
    decide +kernel
  have object := guard rfl
  rw [name, quoted] at object
  exact ⟨built, d, parses, object, name, columns, primaryKey, required⟩

end ModelSql
