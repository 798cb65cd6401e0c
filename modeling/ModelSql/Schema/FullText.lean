import ModelSql.Table.Basic
/-!
# Full-text indexes

The script of a full-text index is a virtual table over some columns of a table.
An index with external content holds no text of its own: it names the table, and
four triggers keep it in step, each removing the entry of a row or adding one.
Rows are known by the identity, or by the engine's own row key if there is none.
-/

namespace ModelSql

/-- Where an index has the text of its columns. -/
inductive FullTextMode where
  /-- In a copy of its own. -/
  | content
  /-- Nowhere: only the index is kept. -/
  | contentLess
  /-- In the indexed table. -/
  | externalContent
deriving DecidableEq, Repr

/-- When a trigger acts on the index, and what it does to the row's entry. -/
inductive SyncTrigger where
  | beforeUpdate
  | beforeDelete
  | afterUpdate
  | afterInsert
deriving DecidableEq, Repr

namespace SyncTrigger

/-- What the trigger's name ends in. -/
def suffix : SyncTrigger → String
  | beforeUpdate => "bu"
  | beforeDelete => "bd"
  | afterUpdate => "au"
  | afterInsert => "ai"

def timing : SyncTrigger → String
  | beforeUpdate => "BEFORE UPDATE"
  | beforeDelete => "BEFORE DELETE"
  | afterUpdate => "AFTER UPDATE"
  | afterInsert => "AFTER INSERT"

/-- Whether the trigger removes the entry of the old row; otherwise it adds one for the new row. -/
def removes : SyncTrigger → Bool
  | beforeUpdate | beforeDelete => true
  | afterUpdate | afterInsert => false

end SyncTrigger

/-- The names of the columns resolved, given those that earlier names took. -/
def indexColumns (table : Table) (taken : List Column) :
    List String → Except Fault (List Column)
  | [] => .ok []
  | name :: rest => do
    let column ← table.resolve name
    match taken.find? (·.field = column.field) with
    | some prior => .error (.columnCollision table.model column.name prior.field name)
    | none =>
      let more ← indexColumns table (taken ++ [column]) rest
      return column :: more

namespace Table

def fullTextName (t : Table) : String := t.dialect.quoteIdentifier (t.name ++ "_fts")

/-- What the definition of the index says after its columns. -/
def fullTextOptions (t : Table) : FullTextMode → List String
  | .content => []
  | .contentLess => ["content = ''"]
  | .externalContent =>
    ("content = " ++ Text.literal t.name) ::
      match t.identity? with
      | none => []
      | some identity => ["content_rowid = " ++ Text.literal identity.name]

/-- The column by which triggers know a row. -/
def rowKey (t : Table) : String :=
  match t.identity? with
  | none => "rowid"
  | some identity => identity.quoted

def fullTextDefinition (t : Table) (columns : List Column) (mode : FullTextMode) : String :=
  "CREATE VIRTUAL TABLE IF NOT EXISTS " ++ t.fullTextName ++ " USING fts5(\n    " ++
    ",\n    ".intercalate (columns.map (·.quoted) ++ t.fullTextOptions mode) ++ "\n);"

/-- The removal of the old row's entry. -/
def removeEntry (t : Table) : String :=
  "DELETE FROM " ++ t.fullTextName ++ " WHERE rowid = old." ++ t.rowKey ++ ";"

/-- The entry of the new row. -/
def addEntry (t : Table) (columns : List Column) : String :=
  "INSERT INTO " ++ t.fullTextName ++ " (rowid, " ++
    ", ".intercalate (columns.map (·.quoted)) ++ ") VALUES (new." ++ t.rowKey ++ ", " ++
    ", ".intercalate (columns.map fun c => "new." ++ c.quoted) ++ ");"

/-- The definition of a trigger, set off from the text before it. -/
def triggerDefinition (t : Table) (columns : List Column) (trigger : SyncTrigger) : String :=
  "\n\nCREATE TRIGGER IF NOT EXISTS " ++
    t.dialect.quoteIdentifier (t.name ++ "_" ++ trigger.suffix) ++ " " ++ trigger.timing ++
    " ON " ++ t.quotedName ++ " BEGIN\n    " ++
    (if trigger.removes then t.removeEntry else t.addEntry columns) ++ "\nEND;"

/-- The triggers that an index needs. -/
def syncTriggers : FullTextMode → List SyncTrigger
  | .content | .contentLess => []
  | .externalContent => [.beforeUpdate, .beforeDelete, .afterUpdate, .afterInsert]

/-- The script that creates an index over the named columns. -/
def fullTextScript (t : Table) (names : List String) (mode : FullTextMode) :
    Except Fault String := do
  if !t.dialect.supportsFullText then throw (.unsupported t.engine .fullText)
  if names.isEmpty then throw (.emptyFullTextColumns t.model)
  let columns ← indexColumns t [] names
  return t.fullTextDefinition columns mode ++
    String.join ((syncTriggers mode).map (t.triggerDefinition columns))

end Table

end ModelSql
