import ModelSql.Proofs.Schema.Synchrony
import ModelSql.Proofs.Table.Representation
/-!
# Rows without an identity

A table without an identity has its rows known by the engine's own key, which triggers call
`rowid`. The word is not quoted and no column is kept from being called so, and a column that
is takes the word over, in any case: the triggers then act on the entries of whatever value
the column has.

* `Table.KeysOnRowid`, `Table.KeysOnColumn`: what a trigger knows the changed row by;
* `Table.read?_rowid`: what the word stands for in a row;
* `Model.rowKeys_denote_rowid_iff`: the triggers of every script without an identity.
-/

namespace ModelSql

open Sql

/-- The operand by which an action knows the changed row. -/
def Sql.IndexAction.key : IndexAction → Operand
  | remove _ key => key
  | add _ _ key _ => key

/-- The trigger knows a changed row of the table by the engine's own key. -/
def Table.KeysOnRowid (t : Table) (trigger : Trigger) : Prop :=
  ∀ change row, change.version? trigger.action.key.version = some row → t.Holds row →
    trigger.action.key.eval? change = some (.int row.rowid)

/-- The trigger knows a changed row of the table by the row's value of a column. -/
def Table.KeysOnColumn (t : Table) (name : String) (trigger : Trigger) : Prop :=
  ∀ change row, change.version? trigger.action.key.version = some row → t.Holds row →
    trigger.action.key.eval? change = row.cells.lookup name

/-! ### What the word stands for -/

section
variable {t : Table} {row : Row} (holds : t.Holds row)
include holds

theorem Table.Holds.cell?_eq_none {name : String}
    (absent : ∀ c ∈ t.columns, c.name.toLower ≠ name.toLower) : row.cell? name = none := by
  rw [Row.cell?, Option.map_eq_none_iff, List.find?_eq_none]
  intro cell mem
  have named : cell.1 ∈ t.columns.map (·.name) := by
    rw [← holds]
    exact List.mem_map_of_mem mem
  obtain ⟨c, hc, same⟩ := List.mem_map.mp named
  simpa only [decide_eq_true_eq, same] using absent c hc

/-- The word stands for the engine's key where no column is called so. -/
theorem Table.Holds.read?_rowid (absent : ∀ c ∈ t.columns, c.name.toLower ≠ "rowid") :
    row.read? (.bare "rowid") = some (.int row.rowid) := by
  have lower : "rowid".toLower = "rowid" := by decide +kernel
  have none : row.cell? "rowid" = none := Table.Holds.cell?_eq_none holds (by rwa [lower])
  rw [Row.read?, none, Option.none_or, if_pos lower]

/-- A column that is called so has its own value read. -/
theorem Table.Holds.read?_captured (names : NamesDistinct t.columns) {c : Column}
    (mem : c ∈ t.columns) (called : c.name.toLower = "rowid") :
    row.read? (.bare "rowid") = row.cells.lookup c.name := by
  obtain ⟨v, found, named⟩ := Table.Holds.value names holds mem
  have lower : "rowid".toLower = c.name.toLower := by
    rw [called]
    decide +kernel
  have same : row.cell? "rowid" = row.cell? c.name := by simp only [Row.cell?, lower]
  rw [Row.read?, same, named, found, Option.some_or]

end

/-! ### Triggers -/

theorem Operand.eval?_eq {o : Operand} {change : RowChange} {row : Row}
    (present : change.version? o.version = some row) : o.eval? change = row.read? o.column := by
  rw [Operand.eval?, present]
  rfl

section
variable {t : Table} (unidentified : t.identity? = none) (columns : List Column)
include unidentified

/-- Every trigger that is needed knows rows by the word, two by the old row's and two by the new. -/
theorem Table.indexScript_keys :
    (t.indexScript columns .externalContent).triggers.map (·.action.key) =
      [⟨.old, .bare "rowid"⟩, ⟨.old, .bare "rowid"⟩, ⟨.new, .bare "rowid"⟩,
        ⟨.new, .bare "rowid"⟩] := by
  have key : t.keyColumn = .bare "rowid" := by rw [Table.keyColumn, unidentified]
  rw [Table.indexScript, List.map_map]
  simp [Table.syncTriggers, Table.syncTrigger, Table.syncAction, SyncTrigger.removes,
    IndexAction.key, key]

theorem Table.key_column {trigger : Trigger}
    (mem : trigger ∈ (t.indexScript columns .externalContent).triggers) :
    trigger.action.key.column = .bare "rowid" := by
  have listed := List.mem_map_of_mem (f := fun t : Trigger => t.action.key) mem
  rw [t.indexScript_keys unidentified] at listed
  simp only [List.mem_cons, List.not_mem_nil, or_false] at listed
  rcases listed with key | key | key | key <;> rw [key]

end

/-- A row of the table without a value in any column. -/
def Table.blankRow (t : Table) (rowid : Int64) : Row where
  rowid := rowid
  cells := t.columns.map fun c => (c.name, .null)

theorem Table.holds_blankRow (t : Table) (rowid : Int64) : t.Holds (t.blankRow rowid) := by
  simp [Holds, blankRow, Function.comp_def]

/-- A version of a row occurs in some change. -/
theorem RowChange.exists_version (version : RowVersion) (row : Row) :
    ∃ change : RowChange, change.version? version = some row := by
  cases version with
  | old => exact ⟨.delete row, rfl⟩
  | new => exact ⟨.insert row, rfl⟩

section
variable {t : Table} (h : t.WellFormed) {trigger : Trigger}
  (key : trigger.action.key.column = .bare "rowid")
include key

theorem Table.keysOnRowid (absent : ∀ c ∈ t.columns, c.name.toLower ≠ "rowid") :
    t.KeysOnRowid trigger := by
  intro change row present holds
  rw [Operand.eval?_eq present, key, Table.Holds.read?_rowid holds absent]

include h

theorem Table.keysOnColumn {c : Column} (mem : c ∈ t.columns) (called : c.name.toLower = "rowid") :
    t.KeysOnColumn c.name trigger := by
  intro change row present holds
  rw [Operand.eval?_eq present, key, Table.Holds.read?_captured holds h.distinct mem called]

/-- A row without a value in the column is not known by the engine's key. -/
theorem Table.not_keysOnRowid {c : Column} (mem : c ∈ t.columns)
    (called : c.name.toLower = "rowid") : ¬ t.KeysOnRowid trigger := by
  intro keys
  have holds := t.holds_blankRow 0
  obtain ⟨change, present⟩ := RowChange.exists_version trigger.action.key.version (t.blankRow 0)
  have captured := t.keysOnColumn h key mem called change _ present holds
  rw [keys change _ present holds] at captured
  obtain ⟨before, after, cells, -⟩ := List.lookup_eq_some_iff.mp captured.symm
  have stored : (c.name, Value.int 0) ∈ (t.blankRow 0).cells := by
    rw [cells]
    exact List.mem_append_right _ List.mem_cons_self
  simp [Table.blankRow] at stored

end

/-- Before a change all entries go whose key is the old row's value of the column, whichever rows
they are of. -/
theorem Table.fire?_before_captured {t : Table} (h : t.WellFormed)
    (unidentified : t.identity? = none) {c : Column} (mem : c ∈ t.columns)
    (called : c.name.toLower = "rowid") {change : RowChange} {old : Row}
    (present : change.version? .old = some old) (holds : t.Holds old) {v : Value}
    (value : old.cells.lookup c.name = some v) {columns : List Column} {entries : Multiset Entry} :
    (t.indexScript columns .externalContent).fire? t.name .before change entries =
      some (entries.filter fun e => Value.int e.key ≠ v) := by
  have key : Operand.eval? ⟨.old, t.keyColumn⟩ change = some v := by
    rw [Operand.eval?_eq present, Table.keyColumn, unidentified,
      Table.Holds.read?_captured holds h.distinct mem called, value]
  have some : (change.version? .old).isSome = true := by rw [present]; rfl
  rw [fire?_before, if_pos some]
  exact IndexAction.run?_remove (d := t.indexDefinition columns .externalContent) key entries

/-- Without an identity the triggers know rows by the word `rowid`, which is the engine's own key
just if no column is called so, in any case. Otherwise it is the value of that column. -/
theorem Model.rowKeys_denote_rowid_iff {m : Model} {engine : Engine} {override : Option String}
    {settings : Settings} {t : Table} (built : m.build engine override settings = .ok t)
    (unidentified : t.identity? = none) {names : List String} {text : String}
    (created : t.fullTextScript names .externalContent = .ok text) :
    ∃ script, IndexScript.parse? text = some script ∧
      script.triggers.map (·.action.key) = [⟨.old, .bare "rowid"⟩, ⟨.old, .bare "rowid"⟩,
        ⟨.new, .bare "rowid"⟩, ⟨.new, .bare "rowid"⟩] ∧
      ((∀ trigger ∈ script.triggers, t.KeysOnRowid trigger) ↔
        ∀ f ∈ persisted m.fields, f.columnName.toLower ≠ "rowid") ∧
      ∀ f ∈ persisted m.fields, f.columnName.toLower = "rowid" →
        ∀ trigger ∈ script.triggers, t.KeysOnColumn f.columnName trigger := by
  have wellFormed := m.build_wellFormed built
  have become := m.build_columns built
  obtain ⟨-, -, columns, selects, -⟩ := Table.fullTextScript_eq_ok_iff.mp created
  have parsed := (parse?_fullTextScript wellFormed created selects).1
  have keys := t.indexScript_keys unidentified columns
  have key := @Table.key_column t unidentified columns
  refine ⟨_, parsed, keys, ⟨fun all f mem called => ?_, fun free trigger inside => ?_⟩, ?_⟩
  · obtain ⟨c, hc, made⟩ := exists_right_of_mem become mem
    obtain ⟨trigger, inside⟩ : ∃ trigger,
        trigger ∈ (t.indexScript columns .externalContent).triggers :=
      List.exists_mem_of_ne_nil _ fun none => by simp [none] at keys
    rw [← made.columnName] at called
    exact t.not_keysOnRowid wellFormed (key inside) hc called (all trigger inside)
  · refine t.keysOnRowid (key inside) fun c hc called => ?_
    obtain ⟨f, mem, made⟩ := exists_left_of_mem become hc
    exact free f mem (made.columnName ▸ called)
  · intro f mem called trigger inside
    obtain ⟨c, hc, made⟩ := exists_right_of_mem become mem
    rw [← made.columnName] at called ⊢
    exact t.keysOnColumn wellFormed (key inside) hc called

/-- A model whose only integer is not marked as the identity. -/
def tagModel : Model where
  name := "Tag"
  fields := [{ name := "Id", type := .long }, { name := "Label", type := .string }]

def tagTable : Table where
  model := "Tag"
  name := "Tag"
  quotedName := "[Tag]"
  engine := .sqlite
  columns := [
    { field := "Id", name := "Id", quoted := "[Id]", type := .long, native := "INTEGER"
      nullable := false, identity := false },
    { field := "Label", name := "Label", quoted := "[Label]", type := .string, native := "TEXT"
      nullable := false, identity := false }]
  ignored := []

theorem Model.rowKeys_denote_rowid_iff_tag :
    tagModel.build .sqlite none { identityConvention := .disabled } = .ok tagTable ∧
    tagTable.identity? = none ∧
    ∃ text script, tagTable.fullTextScript ["Label"] .externalContent = .ok text ∧
      IndexScript.parse? text = some script ∧ script.triggers.length = 4 ∧
      ∀ trigger ∈ script.triggers, tagTable.KeysOnRowid trigger := by
  have built : tagModel.build .sqlite none { identityConvention := .disabled } = .ok tagTable :=
    ok_of_toOption (by decide +kernel)
  have present : (tagTable.fullTextScript ["Label"] .externalContent).toOption.isSome = true := by
    decide +kernel
  obtain ⟨text, created⟩ := Option.isSome_iff_exists.mp present
  have created := ok_of_toOption created
  have unidentified : tagTable.identity? = none := by decide +kernel
  obtain ⟨script, parsed, keys, own, -⟩ := rowKeys_denote_rowid_iff built unidentified created
  have free : ∀ f ∈ persisted tagModel.fields, f.columnName.toLower ≠ "rowid" := by
    decide +kernel
  have four : script.triggers.length = 4 := by simpa using congrArg List.length keys
  exact ⟨built, unidentified, text, script, created, parsed, four, own.mpr free⟩

/-- A model with a column that is called as the engine calls its own key. -/
def visitModel : Model where
  name := "Visit"
  fields := [{ name := "RowId", type := .int }, { name := "Page", type := .string }]

def visitTable : Table where
  model := "Visit"
  name := "Visit"
  quotedName := "[Visit]"
  engine := .sqlite
  columns := [
    { field := "RowId", name := "RowId", quoted := "[RowId]", type := .int, native := "INTEGER"
      nullable := false, identity := false },
    { field := "Page", name := "Page", quoted := "[Page]", type := .string, native := "TEXT"
      nullable := false, identity := false }]
  ignored := []

def visitRow (rowid : Int64) (page : String) : Row where
  rowid := rowid
  cells := [("RowId", .int 7), ("Page", .text page)]

/-- The triggers read the column in place of the key: of two rows with the same value there, the
removal of one takes the entries of both. -/
theorem rowid_column_takes_keys_over :
    (visitModel.build .sqlite).toOption = some visitTable ∧ visitTable.identity? = none ∧
    ∃ text script, (visitTable.fullTextScript ["Page"] .externalContent).toOption = some text ∧
      IndexScript.parse? text = some script ∧
      (∀ trigger ∈ script.triggers, ¬ visitTable.KeysOnRowid trigger) ∧
      script.step? "Visit"
        ⟨{visitRow 1 "a", visitRow 2 "b"}, {⟨7, [.text "a"]⟩, ⟨7, [.text "b"]⟩}⟩
        (.delete (visitRow 1 "a")) = some ⟨{visitRow 2 "b"}, 0⟩ := by
  have built : visitModel.build .sqlite = .ok visitTable := ok_of_toOption (by decide +kernel)
  have wellFormed := visitModel.build_wellFormed built
  have unidentified : visitTable.identity? = none := by decide +kernel
  have called : visitTable.columns[0].name.toLower = "rowid" := by decide +kernel
  have present : (visitTable.fullTextScript ["Page"] .externalContent).toOption.isSome = true := by
    decide +kernel
  obtain ⟨text, created⟩ := Option.isSome_iff_exists.mp present
  have made := ok_of_toOption created
  obtain ⟨-, -, columns, selects, -⟩ := Table.fullTextScript_eq_ok_iff.mp made
  have parsed := (parse?_fullTextScript wellFormed made selects).1
  have holds : visitTable.Holds (visitRow 1 "a") := by decide
  have before : (visitTable.indexScript columns .externalContent).fire? visitTable.name .before
      (.delete (visitRow 1 "a")) {⟨7, [.text "a"]⟩, ⟨7, [.text "b"]⟩} = some 0 := by
    rw [Table.fire?_before_captured wellFormed unidentified List.mem_cons_self called rfl holds
      (v := .int 7) rfl]
    exact congrArg some (by decide +kernel)
  have after : (visitTable.indexScript columns .externalContent).fire? visitTable.name .after
      (.delete (visitRow 1 "a")) 0 = some 0 := by
    rw [fire?_after]
    simp [RowChange.version?]
  have rows : ({visitRow 1 "a", visitRow 2 "b"} : Multiset Row).erase (visitRow 1 "a") =
      {visitRow 2 "b"} := Multiset.erase_cons_head _ _
  refine ⟨by rw [built]; rfl, unidentified, text, _, created, parsed, fun trigger inside => ?_, ?_⟩
  · exact Table.not_keysOnRowid wellFormed (Table.key_column unidentified _ inside)
      List.mem_cons_self called
  · have name : "Visit" = visitTable.name := rfl
    simp only [IndexScript.step?, name, before, after, RowChange.apply, rows,
      Option.bind_eq_bind, Option.bind_some, Option.pure_def]

end ModelSql
