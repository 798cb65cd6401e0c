import ModelSql.Proofs.Filter.Syntax
import ModelSql.Proofs.Statement.Slot
/-!
# Statements as tokens

The text of a statement on a built table reads as a list of tokens in which each
quoted name is one token, whatever it contains. Field names that stand bare, in
parameters and in the label of a generated identity, are taken to be words here.

* `Table.Legible`: built tables whose field names are words;
* `opens_insert`, `opens_insertReturningIdentity`, `opens_insertExplicitIdentity`:
  the tokens of inserts;
* `opens_update`, `opens_selectWhere`, `opens_deleteWhere`: the tokens of the other
  statements, around the tokens of their condition;
* `Table.lexes_template`, `Table.lexes_spliced`: the tokens of templates, as they stand and
  with a filter.
-/

namespace ModelSql

open Sql

/-! ## Names -/

def Column.token (c : Column) : Token := .quoted .bracket c.name

def Table.token (t : Table) : Token := .quoted .bracket t.name

/-- A built table whose field names read as words. -/
structure Table.Legible (t : Table) : Prop where
  wellFormed : t.WellFormed
  field : ∀ c ∈ t.columns, IsWord c.field

theorem Table.Legible.fields {t : Table} (h : t.Legible) {columns : List Column}
    (hc : ∀ c ∈ columns, c ∈ t.columns) : ∀ c ∈ columns, IsWord c.field :=
  fun c mem => h.field c (hc c mem)

/-- Every engine takes names in brackets. -/
theorem Table.quoteIdentifier_eq (t : Table) (text : String) :
    t.dialect.quoteIdentifier text =
      Text.enclose Quote.bracket.opening Quote.bracket.closing text := by
  unfold Table.dialect
  cases t.engine <;> rfl

theorem Table.lexes_quoteIdentifier (t : Table) (text : String) :
    Lexes (t.dialect.quoteIdentifier text) [.quoted .bracket text] := by
  rw [t.quoteIdentifier_eq]
  exact lexes_enclose .bracket text

theorem lexes_quoteAlias (d : Dialect) (text : String) :
    Lexes (d.quoteAlias text) [.quoted .apostrophe text] :=
  lexes_enclose .apostrophe text

/-- The native types of integers. -/
def integerTypes : List String := ["INTEGER", "TINYINT", "SMALLINT", "INT", "BIGINT"]

theorem Engine.mem_integerTypes {engine : Engine} {type : SemanticType}
    (integer : type.isInteger = true) {native : String}
    (known : engine.dialect.nativeType type = some native) : native ∈ integerTypes := by
  cases engine <;> cases type <;>
    first | contradiction | (cases known; simp [integerTypes])

theorem Table.WellFormed.mem_integerTypes {t : Table} (h : t.WellFormed) {identity : Column}
    (mem : identity ∈ t.columns) (marked : identity.identity = true) :
    identity.native ∈ integerTypes :=
  have wellFormed := h.column identity mem
  Engine.mem_integerTypes (wellFormed.integer marked) wellFormed.native_eq

/-- The native type of an identity is one word. -/
theorem Table.WellFormed.isName_native {t : Table} (h : t.WellFormed) {identity : Column}
    (mem : identity ∈ t.columns) (marked : identity.identity = true) : IsName identity.native := by
  have names : ∀ w ∈ integerTypes, IsName w := by decide +kernel
  exact names identity.native (h.mem_integerTypes mem marked)

/-! ## Views -/

/-- Items with commas between them. -/
def listTokens {α : Type} (tokens : α → List Token) (items : List α) : List Token :=
  [Token.punctuation ','].intercalate (items.map tokens)

/-- The same in parentheses. -/
def tupleTokens {α : Type} (token : α → Token) (items : List α) : List Token :=
  .punctuation '(' :: listTokens (fun a => [token a]) items ++ [.punctuation ')']

namespace Table

variable (t : Table) (columns : List Column)

/-- The parameter of a column. -/
def parameterToken (c : Column) : Token := .parameter (t.dialect.parameter c.field)

def insertTokens : List Token :=
  [.word "INSERT", .word "INTO", t.token] ++
  (if columns.isEmpty then [.word "DEFAULT", .word "VALUES"]
    else tupleTokens Column.token columns ++
      .word "VALUES" :: tupleTokens t.parameterToken columns) ++
  [.punctuation ';']

/-- An insert that declares a table variable and selects from it. -/
def insertThroughVariableTokens (identity : Column) : List Token :=
  [.word "DECLARE", .parameter insertedIds, .word "TABLE", .punctuation '(', identity.token,
    .word identity.native, .punctuation ')', .punctuation ';', .word "INSERT", .word "INTO",
    t.token] ++
  (if columns.isEmpty then [] else tupleTokens Column.token columns) ++
  [.word "OUTPUT", .word "Inserted", .punctuation '.', identity.token, .word "INTO",
    .parameter insertedIds] ++
  (if columns.isEmpty then [.word "DEFAULT", .word "VALUES"]
    else .word "VALUES" :: tupleTokens t.parameterToken columns) ++
  [.punctuation ';', .word "SELECT", identity.token, .word "AS", .word identity.field,
    .word "FROM", .parameter insertedIds, .punctuation ';']

def insertReturningIdentityTokens (identity : Column) : List Token :=
  match t.engine with
  | .sqlite =>
    t.insertTokens columns ++ [.word "SELECT", .word "last_insert_rowid", .punctuation '(',
      .punctuation ')', .word "AS", .word identity.field, .punctuation ';']
  | .sqlServer => t.insertThroughVariableTokens columns identity

def insertExplicitIdentityTokens (statement : List Token) : List Token :=
  if t.dialect.guardsExplicitIdentity then
    [.word "SET", .word "IDENTITY_INSERT", t.token, .word "ON", .punctuation ';'] ++ statement ++
      [.word "SET", .word "IDENTITY_INSERT", t.token, .word "OFF", .punctuation ';']
  else statement

def updateTokens (condition : List Token) : List Token :=
  [.word "UPDATE", t.token, .word "SET"] ++
  listTokens (fun c => [c.token, .sign "=", t.parameterToken c]) columns ++
  .word "WHERE" :: condition ++ [.punctuation ';']

def selectTokens (condition : List Token) : List Token :=
  .word "SELECT" ::
  listTokens (fun c : Column => [t.token, .punctuation '.', c.token, .word "AS",
    .quoted .apostrophe c.field]) t.columns ++
  [.word "FROM", t.token, .word "WHERE"] ++ condition ++ [.punctuation ';']

def deleteTokens (condition : List Token) : List Token :=
  [.word "DELETE", .word "FROM", t.token, .word "WHERE"] ++ condition ++ [.punctuation ';']

end Table

/-! ## Texts -/

/-- The assignments of an update, each of a column's own parameter. -/
def Table.setList (t : Table) (columns : List Column) : String :=
  ",\n".intercalate (columns.map fun c =>
    "    " ++ c.quoted ++ " = " ++ t.dialect.parameter c.field)

theorem opens_tuple {α : Type} {items : List α} {text : α → String} {token : α → Token}
    (h : ∀ a ∈ items, Lexes (text a) [token a]) :
    Opens ("(" ++ ",".intercalate (items.map text) ++ ")") (tupleTokens token items) := by
  have items := lexes_intercalate joins_comma h
  exact (opens_parenthesis.append items).join joins_closing

theorem joins_space : Joins " " [] := joins_of_read ⟨rfl, rfl⟩

theorem joins_semicolon : Joins ";" [.punctuation ';'] := joins_of_read ⟨rfl, rfl⟩

theorem joins_equals : Joins " = " [.sign "="] := joins_of_read ⟨rfl, rfl⟩

theorem joins_label : Joins " AS " [.word "AS"] := joins_of_read ⟨rfl, rfl⟩

theorem joins_nextItem : Joins ",\n" [.punctuation ','] := joins_of_read ⟨rfl, rfl⟩

theorem joins_where : Joins "\nWHERE\n    " [.word "WHERE"] := joins_of_read ⟨rfl, rfl⟩

theorem joins_defaults :
    Joins " DEFAULT VALUES;" [.word "DEFAULT", .word "VALUES", .punctuation ';'] :=
  joins_of_read ⟨rfl, rfl⟩

theorem joins_values : Joins "\nVALUES " [.word "VALUES"] := joins_of_read ⟨rfl, rfl⟩

theorem opens_defaults :
    Opens "DEFAULT VALUES;" [.word "DEFAULT", .word "VALUES", .punctuation ';'] :=
  opens_of_read rfl

theorem opens_valuesWord : Opens "VALUES " [.word "VALUES"] := opens_of_read rfl

theorem opens_indent : Opens "    " [] := opens_of_read rfl

theorem opens_insertInto : Opens "INSERT INTO " [.word "INSERT", .word "INTO"] :=
  opens_of_read rfl

theorem lexes_insertedIds : Lexes insertedIds [.parameter insertedIds] :=
  lexes_of_read ⟨rfl, rfl⟩

theorem Table.lexes_parameter (t : Table) {c : Column} (h : IsWord c.field) :
    Lexes (t.dialect.parameter c.field) [t.parameterToken c] :=
  t.dialect.lexes_parameter t.usesAtSign h.2

theorem Table.opens_valueList (t : Table) {columns : List Column}
    (h : ∀ c ∈ columns, IsWord c.field) :
    Opens (t.dialect.valueList columns) (tupleTokens t.parameterToken columns) :=
  opens_tuple fun c mem => t.lexes_parameter (h c mem)

theorem Table.opens_values (t : Table) {columns : List Column}
    (h : ∀ c ∈ columns, IsWord c.field) :
    Opens (if columns.isEmpty then "DEFAULT VALUES;"
        else "VALUES " ++ t.dialect.valueList columns ++ ";")
      ((if columns.isEmpty then [.word "DEFAULT", .word "VALUES"]
        else .word "VALUES" :: tupleTokens t.parameterToken columns) ++ [.punctuation ';']) := by
  split
  · exact opens_defaults
  · exact (opens_valuesWord.append (t.opens_valueList h).lexes).join joins_semicolon

section
variable {t : Table} (h : t.WellFormed)
include h

theorem Table.WellFormed.lexes_quotedName : Lexes t.quotedName [t.token] := by
  rw [h.quotedName_eq]
  exact t.lexes_quoteIdentifier t.name

theorem Table.WellFormed.lexes_quoted {c : Column} (hc : c ∈ t.columns) :
    Lexes c.quoted [c.token] := by
  rw [(h.column c hc).quoted_eq]
  exact t.lexes_quoteIdentifier c.name

theorem Table.WellFormed.opens_columnList {columns : List Column}
    (hc : ∀ c ∈ columns, c ∈ t.columns) :
    Opens (columnList columns) (tupleTokens Column.token columns) :=
  opens_tuple fun c mem => h.lexes_quoted (hc c mem)

/-- Nothing, or the list of the columns, after a text. -/
theorem lexes_targets {columns : List Column} (hc : ∀ c ∈ columns, c ∈ t.columns)
    {text : String} {ts : List Token} (hs : Lexes text ts) :
    Lexes (text ++ if columns.isEmpty then "" else " " ++ columnList columns)
      (ts ++ if columns.isEmpty then [] else tupleTokens Column.token columns) := by
  split
  · rw [String.append_empty, List.append_nil]
    exact hs
  · have named := (hs.join joins_space).append (h.opens_columnList hc).lexes
    rw [String.append_assoc, List.append_nil] at named
    exact named

/-- An insert that stores the generated identity in a table variable, up to its values. -/
theorem opens_report {columns : List Column} (hc : ∀ c ∈ columns, c ∈ t.columns)
    {identity : Column} (mem : identity ∈ t.columns) (marked : identity.identity = true) :
    Opens ("DECLARE " ++ insertedIds ++ " TABLE (" ++ identity.quoted ++ " " ++ identity.native ++
        ");\n" ++ "INSERT INTO " ++ t.quotedName ++
        (if columns.isEmpty then "" else " " ++ columnList columns) ++
        "\nOUTPUT Inserted." ++ identity.quoted ++ " INTO " ++ insertedIds ++ "\n")
      ([.word "DECLARE", .parameter insertedIds, .word "TABLE", .punctuation '(', identity.token,
        .word identity.native, .punctuation ')', .punctuation ';', .word "INSERT", .word "INTO",
        t.token] ++
      (if columns.isEmpty then [] else tupleTokens Column.token columns) ++
      [.word "OUTPUT", .word "Inserted", .punctuation '.', identity.token, .word "INTO",
        .parameter insertedIds]) := by
  have quoted := h.lexes_quoted mem
  have declare : Opens "DECLARE " [.word "DECLARE"] := opens_of_read rfl
  have table : Joins " TABLE (" [.word "TABLE", .punctuation '('] :=
    joins_of_read ⟨rfl, rfl⟩
  have native := lexes_word (h.isName_native mem marked).1
  have declared : Joins ");\n" [.punctuation ')', .punctuation ';'] :=
    joins_of_read ⟨rfl, rfl⟩
  have output : Joins "\nOUTPUT Inserted." [.word "OUTPUT", .word "Inserted", .punctuation '.'] :=
    joins_of_read ⟨rfl, rfl⟩
  have into : Joins " INTO " [.word "INTO"] := joins_of_read ⟨rfl, rfl⟩
  have line : Joins "\n" [] := joins_of_read ⟨rfl, rfl⟩
  have name := ((declare.append lexes_insertedIds).join table).append quoted
  have declaration := ((name.join joins_space).append native).join declared
  have target := lexes_targets h hc ((declaration.trans opens_insertInto).append h.lexes_quotedName)
  have all := ((((target.join output).append quoted).join into).append lexes_insertedIds).join line
  simpa only [List.append_assoc, List.cons_append, List.nil_append] using all

section
variable {columns : List Column} (hc : ∀ c ∈ columns, c ∈ t.columns)
  (fields : ∀ c ∈ columns, IsWord c.field)
include hc fields

theorem opens_insert : Opens (t.dialect.insert t.quotedName columns) (t.insertTokens columns) := by
  have target := opens_insertInto.append h.lexes_quotedName
  unfold Dialect.insert Table.insertTokens
  split
  · have all := target.join joins_defaults
    simpa only [List.append_assoc, List.cons_append, List.nil_append] using all
  · have named := (target.join joins_space).append (h.opens_columnList hc).lexes
    have given := (named.join joins_values).append (t.opens_valueList fields).lexes
    have all := given.join joins_semicolon
    simpa only [List.append_assoc, List.cons_append, List.nil_append] using all

theorem opens_insertThroughVariable {identity : Column} (mem : identity ∈ t.columns)
    (marked : identity.identity = true) (label : IsWord identity.field) :
    Opens (t.dialect.insertThroughVariable t.quotedName columns identity)
      (t.insertThroughVariableTokens columns identity) := by
  have select : Joins "\nSELECT " [.word "SELECT"] := joins_of_read ⟨rfl, rfl⟩
  have source : Joins " FROM " [.word "FROM"] := joins_of_read ⟨rfl, rfl⟩
  have inserted := ((opens_report h hc mem marked).trans (t.opens_values fields)).lexes
  have labelled := (((inserted.join select).append (h.lexes_quoted mem)).join joins_label).append
    (lexes_word label)
  have all := ((labelled.join source).append lexes_insertedIds).join joins_semicolon
  delta Dialect.insertThroughVariable Table.insertThroughVariableTokens
  simpa only [List.append_assoc, List.cons_append, List.nil_append] using all

theorem opens_insertReturningIdentity {identity : Column} (mem : identity ∈ t.columns)
    (marked : identity.identity = true) (label : IsWord identity.field) :
    Opens (t.dialect.insertReturningIdentity t.quotedName columns identity)
      (t.insertReturningIdentityTokens columns identity) := by
  have insert := opens_insert h hc fields
  have own : t.dialect.engine = t.engine := t.engine.dialect_engine
  cases engine : t.engine with
  | sqlite =>
    have selects : Joins "\nSELECT last_insert_rowid() AS "
        [.word "SELECT", .word "last_insert_rowid", .punctuation '(', .punctuation ')',
          .word "AS"] := joins_of_read ⟨rfl, rfl⟩
    have all := ((insert.lexes.join selects).append (lexes_word label)).join joins_semicolon
    simpa only [Dialect.insertReturningIdentity, Table.insertReturningIdentityTokens, own, engine,
      List.append_assoc, List.cons_append, List.nil_append] using all
  | sqlServer =>
    simpa only [Dialect.insertReturningIdentity, Table.insertReturningIdentityTokens, own, engine]
      using opens_insertThroughVariable h hc fields mem marked label

/-- An update up to its condition. -/
theorem opens_updateHead :
    Opens ("UPDATE " ++ t.quotedName ++ "\nSET\n" ++ t.setList columns ++ "\nWHERE\n    ")
      ([.word "UPDATE", t.token, .word "SET"] ++
      listTokens (fun c => [c.token, .sign "=", t.parameterToken c]) columns ++
      [.word "WHERE"]) := by
  have update : Opens "UPDATE " [.word "UPDATE"] := opens_of_read rfl
  have set : Joins "\nSET\n" [.word "SET"] := joins_of_read ⟨rfl, rfl⟩
  have assignment (c : Column) (mem : c ∈ columns) :
      Lexes ("    " ++ c.quoted ++ " = " ++ t.dialect.parameter c.field)
        [c.token, .sign "=", t.parameterToken c] := by
    have quoted := opens_indent.append (h.lexes_quoted (hc c mem))
    exact (quoted.join joins_equals).append (t.lexes_parameter (fields c mem))
  have assignments := lexes_intercalate joins_nextItem assignment
  exact (((update.append h.lexes_quotedName).join set).append assignments).join joins_where

theorem opens_update {condition : String} {ts : List Token} (hw : Lexes condition ts) :
    Opens (t.dialect.update t.quotedName columns condition) (t.updateTokens columns ts) := by
  have all := ((opens_updateHead h hc fields).append hw).join joins_semicolon
  delta Dialect.update Table.updateTokens
  simpa only [Table.setList, List.append_assoc, List.cons_append, List.nil_append] using all

end

/-- What allows an explicit identity. -/
theorem opens_allowance :
    Opens ("SET IDENTITY_INSERT " ++ t.quotedName ++ " ON;\n")
      [.word "SET", .word "IDENTITY_INSERT", t.token, .word "ON", .punctuation ';'] := by
  have set : Opens "SET IDENTITY_INSERT " [.word "SET", .word "IDENTITY_INSERT"] :=
    opens_of_read rfl
  have on : Joins " ON;\n" [.word "ON", .punctuation ';'] := joins_of_read ⟨rfl, rfl⟩
  exact (set.append h.lexes_quotedName).join on

theorem opens_insertExplicitIdentity {statement : String} {ts : List Token}
    (hs : Opens statement ts) :
    Opens (t.dialect.insertExplicitIdentity t.quotedName statement)
      (t.insertExplicitIdentityTokens ts) := by
  unfold Dialect.insertExplicitIdentity Table.insertExplicitIdentityTokens
  split
  · have again : Joins "\nSET IDENTITY_INSERT " [.word "SET", .word "IDENTITY_INSERT"] :=
      joins_of_read ⟨rfl, rfl⟩
    have off : Joins " OFF;" [.word "OFF", .punctuation ';'] := joins_of_read ⟨rfl, rfl⟩
    have guarded := (opens_allowance h).append hs.lexes
    have all := ((guarded.join again).append h.lexes_quotedName).join off
    simpa only [List.append_assoc, List.cons_append, List.nil_append] using all
  · exact hs

theorem opens_selectWhere {condition : String} {ts : List Token} (hw : Lexes condition ts) :
    Opens (t.selectWhere condition) (t.selectTokens ts) := by
  have select : Opens "SELECT\n" [.word "SELECT"] := opens_of_read rfl
  have source : Joins "\nFROM " [.word "FROM"] := joins_of_read ⟨rfl, rfl⟩
  have dot : Joins "." [.punctuation '.'] := joins_of_read ⟨rfl, rfl⟩
  have result (c : Column) (mem : c ∈ t.columns) :
      Lexes ("    " ++ t.quotedName ++ "." ++ c.quoted ++ " AS " ++ t.dialect.quoteAlias c.field)
        [t.token, .punctuation '.', c.token, .word "AS", .quoted .apostrophe c.field] := by
    have quoted := ((opens_indent.append h.lexes_quotedName).join dot).append (h.lexes_quoted mem)
    exact (quoted.join joins_label).append (lexes_quoteAlias t.dialect c.field)
  have results := lexes_intercalate joins_nextItem result
  have head := ((select.append results).join source).append h.lexes_quotedName
  have all := ((head.join joins_where).append hw).join joins_semicolon
  delta Table.selectWhere Table.selectTokens listTokens
  simpa only [List.append_assoc, List.cons_append, List.nil_append] using all

theorem opens_deleteWhere {condition : String} {ts : List Token} (hw : Lexes condition ts) :
    Opens (t.deleteWhere condition) (t.deleteTokens ts) := by
  have delete : Opens "DELETE FROM " [.word "DELETE", .word "FROM"] :=
    opens_of_read rfl
  have filtered : Joins " WHERE " [.word "WHERE"] := joins_of_read ⟨rfl, rfl⟩
  have all := (((delete.append h.lexes_quotedName).join filtered).append hw).join joins_semicolon
  delta Table.deleteWhere Table.deleteTokens
  simpa only [List.append_assoc, List.cons_append, List.nil_append] using all

end

/-! ## Templates -/

namespace Table

/-- The tokens of the template of a kind, around those of its condition if it takes a filter. -/
def templateTokens (t : Table) (condition : List Token) : TemplateKind → List Token
  | .select => t.selectTokens condition
  | .insert =>
    match t.identity? with
    | some identity => t.insertReturningIdentityTokens t.dataColumns identity
    | none => t.insertTokens t.dataColumns
  | .insertAll =>
    if t.identity?.isSome then t.insertExplicitIdentityTokens (t.insertTokens t.columns)
    else t.insertTokens t.columns
  | .updateByIdentity =>
    match t.identity? with
    | some identity =>
      t.updateTokens t.dataColumns [identity.token, .sign "=", t.parameterToken identity]
    | none => []
  | .updateAll => t.updateTokens t.updatableColumns condition
  | .delete => t.deleteTokens condition

/-- The fields that a template writes bare, as parameters and as the label of a generated
identity, are words. -/
def WritesWords (t : Table) : TemplateKind → Prop
  | .select | .delete => True
  | .insert | .insertAll | .updateByIdentity => ∀ c ∈ t.columns, IsWord c.field
  | .updateAll => ∀ c ∈ t.updatableColumns, IsWord c.field

theorem lexes_template {t : Table} (h : t.WellFormed) {kind : TemplateKind} {template : Template}
    (present : t.template? kind = some template) (words : t.WritesWords kind) :
    Lexes template.text (t.templateTokens (SearchCondition.constant true).tokens kind) := by
  have data : ∀ c ∈ t.dataColumns, c ∈ t.columns := fun _ => t.mem_of_dataColumns
  cases kind with
  | select =>
    obtain rfl := Option.some.inj present
    exact (opens_selectWhere h lexes_everyRow).lexes
  | insert =>
    obtain rfl := Option.some.inj present
    have fields : ∀ c ∈ t.dataColumns, IsWord c.field := fun c hc => words c (data c hc)
    cases hi : t.identity? with
    | none =>
      simp only [templateTokens, insertTemplate, hi]
      exact (opens_insert h data fields).lexes
    | some identity =>
      obtain ⟨mem, marked⟩ := t.mem_of_identity? hi
      simp only [templateTokens, insertTemplate, hi]
      exact (opens_insertReturningIdentity h data fields mem marked (words identity mem)).lexes
  | insertAll =>
    obtain rfl := Option.some.inj present
    have insert := opens_insert h (fun _ mem => mem) words
    simp only [templateTokens, insertAllTemplate]
    split
    · exact (opens_insertExplicitIdentity h insert).lexes
    · exact insert.lexes
  | updateByIdentity =>
    obtain ⟨identity, hi, rfl⟩ := updateByIdentityTemplate?_eq_some present
    obtain ⟨mem, -⟩ := t.mem_of_identity? hi
    have condition := ((h.lexes_quoted mem).join joins_equals).append
      (t.lexes_parameter (words identity mem))
    have fields : ∀ c ∈ t.dataColumns, IsWord c.field := fun c hc => words c (data c hc)
    simp only [templateTokens, hi]
    exact (opens_update h data fields condition).lexes
  | updateAll =>
    obtain ⟨-, rfl⟩ := updateAllTemplate?_eq_some present
    exact (opens_update h (fun _ => t.mem_of_updatableColumns) words lexes_everyRow).lexes
  | delete =>
    obtain rfl := Option.some.inj present
    have condition : Lexes everyRowOfDelete (SearchCondition.constant true).tokens :=
      lexes_of_read ⟨rfl, rfl⟩
    exact (opens_deleteWhere h condition).lexes

/-- The tokens of a template with a compiled filter in its slot. -/
theorem lexes_spliced {t : Table} (h : t.WellFormed) {kind : TemplateKind} {template : Template}
    (present : t.template? kind = some template) (words : t.WritesWords kind)
    {c : CompiledFilter} {ts : List Token} (hw : Lexes c.condition ts) {s : Statement}
    (spliced : template.splice c = .ok s) : Lexes s.text (t.templateTokens ts kind) := by
  obtain ⟨rfl, rfl⟩ | ⟨rfl, rfl⟩ | ⟨rfl, rfl⟩ := t.splice_ok present spliced
  · exact (opens_selectWhere h hw).lexes
  · exact (opens_update h (fun _ => t.mem_of_updatableColumns) words hw).lexes
  · exact (opens_deleteWhere h hw).lexes

end Table

end ModelSql
