import ModelSql.Proofs.Schema.IndexedColumns
import ModelSql.Proofs.Schema.TriggerScript
/-!
# What the script of an index says

The text of a script reads as the definition of the index and its triggers, in
every mode and whatever the names of the table and its columns are.

* `Table.indexScript`: the script as a tree;
* `Table.opens_scriptOf`: its text reads as the tokens of the tree;
* `Table.parse?_scriptOf`: its text is read as the tree.
-/

namespace ModelSql

open Sql

namespace SyncTrigger

def moment : SyncTrigger → Timing
  | beforeUpdate | beforeDelete => .before
  | afterUpdate | afterInsert => .after

def event : SyncTrigger → RowEvent
  | beforeUpdate | afterUpdate => .update
  | beforeDelete => .delete
  | afterInsert => .insert

end SyncTrigger

namespace Table

variable (t : Table)

/-- The bare name of the index. -/
def indexName : String := t.name ++ "_fts"

/-- The column that is the key of a row. -/
def keyColumn : ColumnName :=
  match t.identity? with
  | none => .bare "rowid"
  | some identity => .quoted identity.name

def indexOptions : FullTextMode → List IndexItem
  | .content => []
  | .contentLess => [.option "content" ""]
  | .externalContent =>
    .option "content" t.name ::
      match t.identity? with
      | none => []
      | some identity => [.option "content_rowid" identity.name]

def indexDefinition (columns : List Column) (mode : FullTextMode) : IndexDefinition where
  name := t.indexName
  items := columns.map (fun c => .column c.name) ++ t.indexOptions mode

theorem indexDefinition_columns (columns : List Column) (mode : FullTextMode) :
    (t.indexDefinition columns mode).columns = columns.map (·.name) := by
  have options : (t.indexOptions mode).filterMap IndexItem.column? = [] := by
    cases mode with
    | content | contentLess => rfl
    | externalContent =>
      unfold indexOptions
      cases t.identity? <;> rfl
  rw [IndexDefinition.columns, indexDefinition, List.filterMap_append, options,
    List.append_nil, List.filterMap_map]
  exact congrFun List.filterMap_eq_map columns

/-- The removal of the entry of the old row, or the addition of one for the new row. -/
def syncAction (columns : List Column) (trigger : SyncTrigger) : IndexAction :=
  if trigger.removes then .remove t.indexName ⟨.old, t.keyColumn⟩
  else .add t.indexName (columns.map (·.name)) ⟨.new, t.keyColumn⟩
    (columns.map fun c => ⟨.new, .quoted c.name⟩)

def syncTrigger (columns : List Column) (trigger : SyncTrigger) : Trigger where
  name := t.name ++ "_" ++ trigger.suffix
  timing := trigger.moment
  event := trigger.event
  table := t.name
  action := t.syncAction columns trigger

def indexScript (columns : List Column) (mode : FullTextMode) : IndexScript where
  index := t.indexDefinition columns mode
  triggers := (syncTriggers mode).map (t.syncTrigger columns)

end Table

theorem Table.lexes_fullTextName (t : Table) :
    Lexes t.fullTextName [.quoted .bracket t.indexName] :=
  t.lexes_quoteIdentifier t.indexName

theorem lexes_timing (trigger : SyncTrigger) :
    Lexes trigger.timing [.word trigger.moment.text, .word trigger.event.text] := by
  cases trigger <;> exact lexes_of_read ⟨rfl, rfl⟩

theorem joins_nextValue : Joins ", " [.punctuation ','] := joins_of_read ⟨rfl, rfl⟩

/-! ### Parts of the definition -/

/-- How a part of the definition is written. -/
def Table.itemText (t : Table) : IndexItem → String
  | .column name => t.dialect.quoteIdentifier name
  | .option key value => key ++ " = " ++ Text.literal value

theorem Table.fullTextOptions_eq (t : Table) (mode : FullTextMode) :
    t.fullTextOptions mode = (t.indexOptions mode).map t.itemText := by
  cases mode with
  | content | contentLess => rfl
  | externalContent =>
    unfold fullTextOptions indexOptions
    cases t.identity? <;> rfl

theorem Table.lexes_column (t : Table) (name : String) :
    Lexes (t.itemText (.column name)) (IndexItem.column name).tokens :=
  t.lexes_quoteIdentifier name

/-- The options of an index are called by words. -/
theorem Table.lexes_option (t : Table) {mode : FullTextMode} {item : IndexItem}
    (mem : item ∈ t.indexOptions mode) : Lexes (t.itemText item) item.tokens := by
  have option {key : String} (word : IsWord key) (value : String) :
      Lexes (t.itemText (.option key value)) (IndexItem.option key value).tokens :=
    ((lexes_word word).join joins_equals).append (lexes_enclose .apostrophe value)
  cases mode with
  | content => cases mem
  | contentLess =>
    obtain rfl := List.mem_singleton.mp mem
    exact option (by decide +kernel) _
  | externalContent =>
    obtain rfl | mem := List.mem_cons.mp mem
    · exact option (by decide +kernel) _
    · cases known : t.identity? with
      | none => simp [known] at mem
      | some identity =>
        rw [known] at mem
        obtain rfl := List.mem_singleton.mp mem
        exact option (by decide +kernel) _

section
variable {t : Table} (h : t.WellFormed)
include h

theorem Table.WellFormed.lexes_rowKey : Lexes t.rowKey [t.keyColumn.token] := by
  cases known : t.identity? with
  | none =>
    simp only [Table.rowKey, Table.keyColumn, known]
    exact lexes_of_read ⟨rfl, rfl⟩
  | some identity =>
    simp only [Table.rowKey, Table.keyColumn, known]
    exact h.lexes_quoted (t.mem_of_identity? known).1

theorem opens_removeEntry :
    Opens t.removeEntry (sentence (IndexAction.remove t.indexName ⟨.old, t.keyColumn⟩).tokens) := by
  have delete : Opens "DELETE FROM " [.word "DELETE", .word "FROM"] := opens_of_read rfl
  have key : Joins " WHERE rowid = old." [.word "WHERE", .word "rowid", .sign "=", .word "old",
    .punctuation '.'] := joins_of_read ⟨rfl, rfl⟩
  have removed := (delete.append t.lexes_fullTextName).join key
  have all := (removed.append h.lexes_rowKey).join joins_semicolon
  delta Table.removeEntry
  simpa only [sentence, IndexAction.tokens, Operand.tokens, RowVersion.text, List.append_assoc,
    List.cons_append, List.nil_append] using all

section
variable {columns : List Column} (hc : ∀ c ∈ columns, c ∈ t.columns) (nonempty : columns ≠ [])
include hc

theorem lexes_newValues :
    Lexes (", ".intercalate (columns.map fun c => "new." ++ c.quoted))
      (listTokens Operand.tokens (columns.map fun c => ⟨.new, .quoted c.name⟩)) := by
  have new : Opens "new." [.word "new", .punctuation '.'] := opens_of_read rfl
  have values := lexes_intercalate joins_nextValue fun c mem => new.append (h.lexes_quoted (hc c mem))
  rw [listTokens, List.map_map]
  exact values

include nonempty

theorem opens_addEntry :
    Opens (t.addEntry columns) (sentence (IndexAction.add t.indexName (columns.map (·.name))
      ⟨.new, t.keyColumn⟩ (columns.map fun c => ⟨.new, .quoted c.name⟩)).tokens) := by
  have insert : Opens "INSERT INTO " [.word "INSERT", .word "INTO"] := opens_of_read rfl
  have key : Joins " (rowid, " [.punctuation '(', .word "rowid", .punctuation ','] :=
    joins_of_read ⟨rfl, rfl⟩
  have given : Joins ") VALUES (new." [.punctuation ')', .word "VALUES", .punctuation '(',
    .word "new", .punctuation '.'] := joins_of_read ⟨rfl, rfl⟩
  have closing : Joins ");" [.punctuation ')', .punctuation ';'] := joins_of_read ⟨rfl, rfl⟩
  have names : Lexes (", ".intercalate (columns.map (·.quoted)))
      (listTokens nameTokens (columns.map (·.name))) := by
    have quoted := lexes_intercalate joins_nextValue fun c mem => h.lexes_quoted (hc c mem)
    rw [listTokens, List.map_map]
    exact quoted
  have values : listTokens Operand.tokens
      (⟨.new, t.keyColumn⟩ :: columns.map fun c => ⟨.new, .quoted c.name⟩) =
        .word "new" :: .punctuation '.' :: t.keyColumn.token :: .punctuation ',' ::
          listTokens Operand.tokens (columns.map fun c => ⟨.new, .quoted c.name⟩) := by
    cases columns with
    | nil => exact absurd rfl nonempty
    | cons c columns => rfl
  have named := ((insert.append t.lexes_fullTextName).join key).append names
  have keyed := ((named.join given).append h.lexes_rowKey).join joins_nextValue
  have all := (keyed.append (lexes_newValues h hc)).join closing
  delta Table.addEntry
  simpa only [sentence, IndexAction.tokens, values, List.append_assoc, List.cons_append,
    List.nil_append] using all

theorem opens_triggerDefinition (trigger : SyncTrigger) :
    Opens (t.triggerDefinition columns trigger)
      (sentence (t.syncTrigger columns trigger).tokens ++ sentence [.word "END"]) := by
  have create : Opens "\n\nCREATE TRIGGER IF NOT EXISTS " [.word "CREATE", .word "TRIGGER",
    .word "IF", .word "NOT", .word "EXISTS"] := opens_of_read rfl
  have on : Joins " ON " [.word "ON"] := joins_of_read ⟨rfl, rfl⟩
  have begins : Joins " BEGIN\n    " [.word "BEGIN"] := joins_of_read ⟨rfl, rfl⟩
  have ends : Joins "\nEND;" [.word "END", .punctuation ';'] := joins_of_read ⟨rfl, rfl⟩
  have action : Opens (if trigger.removes then t.removeEntry else t.addEntry columns)
      (sentence (t.syncAction columns trigger).tokens) := by
    unfold Table.syncAction
    split
    · exact opens_removeEntry h
    · exact opens_addEntry h hc nonempty
  have named := (create.append (t.lexes_quoteIdentifier (t.name ++ "_" ++ trigger.suffix))).join
    joins_space
  have timed := ((named.append (lexes_timing trigger)).join on).append h.lexes_quotedName
  have all := ((timed.join begins).trans action).lexes.join ends
  delta Table.triggerDefinition
  simpa only [sentence, Trigger.tokens, Table.syncTrigger, Table.token, List.append_assoc,
    List.cons_append, List.nil_append] using all

omit nonempty in
theorem opens_fullTextDefinition (mode : FullTextMode) :
    Opens (t.fullTextDefinition columns mode)
      (sentence (t.indexDefinition columns mode).tokens) := by
  have create : Opens "CREATE VIRTUAL TABLE IF NOT EXISTS " [.word "CREATE", .word "VIRTUAL",
    .word "TABLE", .word "IF", .word "NOT", .word "EXISTS"] := opens_of_read rfl
  have module : Joins " USING fts5(\n    " [.word "USING", .word "fts5", .punctuation '('] :=
    joins_of_read ⟨rfl, rfl⟩
  have nextItem : Joins ",\n    " [.punctuation ','] := joins_of_read ⟨rfl, rfl⟩
  have closing : Joins "\n);" [.punctuation ')', .punctuation ';'] := joins_of_read ⟨rfl, rfl⟩
  have texts : columns.map (·.quoted) ++ t.fullTextOptions mode =
      (t.indexDefinition columns mode).items.map t.itemText := by
    rw [t.fullTextOptions_eq, Table.indexDefinition, List.map_append, List.map_map]
    congr 1
    refine List.map_congr_left fun c mem => ?_
    exact (h.column c (hc c mem)).quoted_eq
  have items : Lexes (",\n    ".intercalate (columns.map (·.quoted) ++ t.fullTextOptions mode))
      (listTokens IndexItem.tokens (t.indexDefinition columns mode).items) := by
    rw [texts]
    refine lexes_intercalate nextItem fun item mem => ?_
    obtain column | option := List.mem_append.mp mem
    · obtain ⟨c, -, rfl⟩ := List.mem_map.mp column
      exact t.lexes_column c.name
    · exact t.lexes_option option
  have all := (((create.append t.lexes_fullTextName).join module).append items).join closing
  have name : (t.indexDefinition columns mode).name = t.indexName := rfl
  delta Table.fullTextDefinition
  simpa only [sentence, IndexDefinition.tokens, name, List.append_assoc, List.cons_append,
    List.nil_append] using all

/-- The text of a script reads as the tokens of its tree. -/
theorem opens_scriptOf (mode : FullTextMode) :
    Opens (t.scriptOf columns mode) (t.indexScript columns mode).tokens := by
  have triggers (kinds : List SyncTrigger) :
      Opens (String.join (kinds.map (t.triggerDefinition columns)))
        ((kinds.map (t.syncTrigger columns)).flatMap fun trigger =>
          sentence trigger.tokens ++ sentence [.word "END"]) := by
    induction kinds with
    | nil => exact opens_of_read rfl
    | cons kind kinds ih =>
      rw [List.map_cons, List.map_cons, String.join_cons, List.flatMap_cons]
      exact (opens_triggerDefinition h hc nonempty kind).trans ih
  exact (opens_fullTextDefinition h hc mode).trans (triggers (Table.syncTriggers mode))

/-- The text of a script is read as its tree. -/
theorem parse?_scriptOf (mode : FullTextMode) :
    IndexScript.parse? (t.scriptOf columns mode) = some (t.indexScript columns mode) := by
  have proper : (t.indexScript columns mode).Proper := by
    refine ⟨?_, ?_⟩
    · intro none
      obtain ⟨columns, -⟩ := List.append_eq_nil_iff.mp none
      exact nonempty (List.map_eq_nil_iff.mp columns)
    · intro trigger mem
      obtain ⟨kind, -, rfl⟩ := List.mem_map.mp mem
      simp only [Table.syncTrigger, Table.syncAction]
      split
      · trivial
      · exact fun none => nonempty (List.map_eq_nil_iff.mp none)
  rw [IndexScript.parse?, (opens_scriptOf h hc nonempty mode).lexes.tokens_eq,
    IndexScript.read?_tokens proper]

end

/-- The script of names is that of the columns they stand for. -/
theorem parse?_fullTextScript {names : List String} {mode : FullTextMode} {text : String}
    (created : t.fullTextScript names mode = .ok text) {columns : List Column}
    (selects : t.Selects names columns) :
    IndexScript.parse? text = some (t.indexScript columns mode) ∧
      tokens text = (t.indexScript columns mode).tokens := by
  obtain ⟨-, nonempty, own, ownSelects, rfl⟩ := Table.fullTextScript_eq_ok_iff.mp created
  have same := indexColumns_eq_ok_iff.mpr ownSelects
  rw [indexColumns_eq_ok_iff.mpr selects] at same
  obtain rfl := Except.ok.inj same
  have mem : ∀ c ∈ columns, c ∈ t.columns := fun c => selects.mem
  have someColumn := selects.columns_ne_nil nonempty
  exact ⟨parse?_scriptOf h mem someColumn mode,
    (opens_scriptOf h mem someColumn mode).lexes.tokens_eq⟩

end

end ModelSql
