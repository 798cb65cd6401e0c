import ModelSql.Proofs.Schema.RowTriggers
import ModelSql.Proofs.Schema.ScriptReading
import ModelSql.Proofs.Table.Columns
/-!
# Triggers keep an index in step

The index of external content over some columns of a table has one entry for each
row: its identity, and its values of these columns. The triggers of the script keep
it so, whatever happens to the rows, also where an update changes the identity.

* `Table.InStep`: the entries are those of the rows;
* `fire?_before`, `fire?_after`: what the triggers do before and after a change;
* `run?_remove`, `run?_add`: the entry that goes and the one that comes;
* `step?_inStep`, `run?_inStep`: one change, and many;
* `Model.triggers_keep_index`: the script of every built table.
-/

namespace ModelSql

open Sql

/-- The identity of a row, if it is an integer. -/
def keyOf? (identity : Column) (row : Row) : Option Int64 :=
  match row.cells.lookup identity.name with
  | some (.int key) => some key
  | _ => none

/-- The entry of a row: its identity and its values of the indexed columns. -/
def entryOf? (identity : Column) (columns : List Column) (row : Row) : Option Entry := do
  let key ← keyOf? identity row
  let values ← columns.mapM fun c => row.cells.lookup c.name
  return { key, values }

namespace Table

variable (t : Table) (identity : Column)

/-- The row has a value for each column of the table. -/
def Holds (row : Row) : Prop := row.cells.map (·.1) = t.columns.map (·.name)

instance (row : Row) : Decidable (t.Holds row) := inferInstanceAs (Decidable (_ = _))

/-- Rows of the table, each with an identity of its own. -/
structure Stores (rows : Multiset Row) : Prop where
  holds : ∀ row ∈ rows, t.Holds row
  keyed : ∀ row ∈ rows, (keyOf? identity row).isSome = true
  distinct : (rows.map (keyOf? identity)).Nodup

instance (rows : Multiset Row) : Decidable (t.Stores identity rows) :=
  decidable_of_iff ((∀ row ∈ rows, t.Holds row) ∧
      (∀ row ∈ rows, (keyOf? identity row).isSome = true) ∧ (rows.map (keyOf? identity)).Nodup)
    ⟨fun ⟨holds, keyed, distinct⟩ => ⟨holds, keyed, distinct⟩,
      fun ⟨holds, keyed, distinct⟩ => ⟨holds, keyed, distinct⟩⟩

/-- The entries of the index are those of the rows, one for each. -/
structure InStep (columns : List Column) (state : Indexed) : Prop where
  stores : t.Stores identity state.rows
  entries : state.entries.map some = state.rows.map (entryOf? identity columns)

/-- The row that changes is there, and the rows after the change have an identity each. -/
structure Allows (rows : Multiset Row) (change : RowChange) : Prop where
  finds : ∀ old ∈ change.version? .old, old ∈ rows
  stores : t.Stores identity (change.apply rows)

instance (rows : Multiset Row) (change : RowChange) : Decidable (t.Allows identity rows change) :=
  decidable_of_iff ((∀ old ∈ change.version? .old, old ∈ rows) ∧
      t.Stores identity (change.apply rows))
    ⟨fun ⟨finds, stores⟩ => ⟨finds, stores⟩, fun ⟨finds, stores⟩ => ⟨finds, stores⟩⟩

/-- Each change is allowed after those before it. -/
def AllowsAll (rows : Multiset Row) : List RowChange → Prop
  | [] => True
  | change :: later => t.Allows identity rows change ∧ AllowsAll (change.apply rows) later

instance decidableAllowsAll (rows : Multiset Row) :
    (changes : List RowChange) → Decidable (t.AllowsAll identity rows changes)
  | [] => isTrue trivial
  | change :: later =>
    have := decidableAllowsAll (change.apply rows) later
    inferInstanceAs (Decidable (_ ∧ _))

end Table

/-! ### Rows -/

/-- The entry of a row is what triggers read of it, by the names of the columns. -/
structure GivesEntry (identity : Column) (columns : List Column) (row : Row) (e : Entry) :
    Prop where
  entry : entryOf? identity columns row = some e
  key : row.cell? identity.name = some (.int e.key)
  values : (columns.mapM fun c => row.cell? c.name) = some e.values
  length : e.values.length = columns.length

section
variable {t : Table} (names : NamesDistinct t.columns) {row : Row} (holds : t.Holds row)
include names holds

/-- A column has a value in a row, and its name stands for it in any case. -/
theorem Table.Holds.value {c : Column} (mem : c ∈ t.columns) :
    ∃ v, row.cells.lookup c.name = some v ∧ row.cell? c.name = some v := by
  have present : c.name ∈ row.cells.map (·.1) := by
    rw [holds]
    exact List.mem_map_of_mem mem
  obtain ⟨⟨name, v⟩, cell, same⟩ := List.mem_map.mp present
  obtain rfl : name = c.name := same
  have apart : (row.cells.map (·.1.toLower)).Nodup := by
    have lower : row.cells.map (·.1.toLower) = (row.cells.map (·.1)).map String.toLower := by
      rw [List.map_map]
      rfl
    rw [lower, holds, List.map_map]
    exact names
  have exact : (row.cells.map (·.1)).Nodup := by
    refine List.Nodup.of_map String.toLower ?_
    rwa [List.map_map]
  exact ⟨v, lookup_eq_some_of_mem exact cell, Row.cell?_of_mem apart cell⟩

/-- A row with an identity gives an entry. -/
theorem Table.Holds.givesEntry {identity : Column} {columns : List Column}
    (mem : identity ∈ t.columns) (hc : ∀ c ∈ columns, c ∈ t.columns) {key : Int64}
    (keyed : keyOf? identity row = some key) : ∃ e, GivesEntry identity columns row e := by
  let valueOf (c : Column) : Value := (row.cells.lookup c.name).getD .null
  have stored {c : Column} (mem : c ∈ t.columns) :
      row.cells.lookup c.name = some (valueOf c) ∧ row.cell? c.name = some (valueOf c) := by
    obtain ⟨v, found, named⟩ := Table.Holds.value names holds mem
    simp only [valueOf, found, named, Option.getD_some, and_self]
  have lookups : columns.mapM (fun c => row.cells.lookup c.name) = some (columns.map valueOf) :=
    mapM_eq_some_map fun c mem => (stored (hc c mem)).1
  have readings : columns.mapM (fun c => row.cell? c.name) = some (columns.map valueOf) :=
    mapM_eq_some_map fun c mem => (stored (hc c mem)).2
  have identified : row.cells.lookup identity.name = some (.int key) := by
    unfold keyOf? at keyed
    split at keyed
    · rename_i found
      cases keyed
      exact found
    · cases keyed
  obtain ⟨found, named⟩ := stored mem
  refine ⟨{ key, values := columns.map valueOf }, ?_, ?_, readings, by simp⟩
  · rw [entryOf?, keyed, lookups]
    rfl
  · rw [named, ← found, identified]

end

/-! ### Triggers -/

theorem Table.keyColumn_eq {t : Table} {identity : Column} (known : t.identity? = some identity) :
    t.keyColumn = .quoted identity.name := by
  rw [Table.keyColumn, known]

section
variable {t : Table} {identity : Column} (known : t.identity? = some identity)
  {columns : List Column} {change : RowChange} {row : Row} {e : Entry}
  (gives : GivesEntry identity columns row e) (entries : Multiset Entry)
include known gives

theorem eval?_keyColumn {version : RowVersion} (present : change.version? version = some row) :
    Operand.eval? ⟨version, t.keyColumn⟩ change = some (.int e.key) := by
  rw [Operand.eval?, present, Table.keyColumn_eq known]
  exact gives.key

/-- A removal takes the entries with the identity of the old row. -/
theorem run?_remove (old : change.version? .old = some row) :
    (IndexAction.remove t.indexName ⟨.old, t.keyColumn⟩).run?
        (t.indexDefinition columns .externalContent) change entries =
      some (entries.filter (·.key ≠ e.key)) := by
  have key := eval?_keyColumn known gives old
  have removed := IndexAction.run?_remove (d := t.indexDefinition columns .externalContent) key entries
  exact removed.trans (by simp)

/-- An addition gives the index the entry of the new row. -/
theorem run?_add (new : change.version? .new = some row)
    (distinct : (columns.map fun c => c.name.toLower).Nodup) :
    (IndexAction.add t.indexName (columns.map (·.name)) ⟨.new, t.keyColumn⟩
        (columns.map fun c => ⟨.new, .quoted c.name⟩)).run?
        (t.indexDefinition columns .externalContent) change entries =
      some (e ::ₘ entries) := by
  have key := eval?_keyColumn known gives new
  have operands : (columns.map fun c => (⟨.new, .quoted c.name⟩ : Operand)).mapM
      (·.eval? change) = some e.values := by
    rw [List.mapM_map, ← gives.values]
    simp only [Function.comp_def, Operand.eval?, new]
    rfl
  have own : (t.indexDefinition columns .externalContent).name = t.indexName := rfl
  have arranged : (t.indexDefinition columns .externalContent).arrange? (columns.map (·.name))
      e.values = some e.values := by
    rw [← t.indexDefinition_columns columns .externalContent]
    refine IndexDefinition.arrange?_columns ?_ ?_
    · rwa [t.indexDefinition_columns, List.map_map]
    · rw [t.indexDefinition_columns, List.length_map, gives.length]
  simp [IndexAction.run?, key, own, operands, arranged]

end

/-- The names of the triggers differ, so the script creates all of them. -/
theorem Table.indexScript_created (t : Table) (columns : List Column) (mode : FullTextMode) :
    (t.indexScript columns mode).created = (t.indexScript columns mode).triggers := by
  have apart (a b : SyncTrigger)
      (same : (t.name ++ "_" ++ a.suffix).toLower = (t.name ++ "_" ++ b.suffix).toLower) :
      a = b := by
    have suffixes := congrArg String.toList same
    simp only [toList_toLower, String.toList_append, List.map_append,
      List.append_cancel_left_eq] at suffixes
    cases a <;> cases b <;> first | rfl | exact absurd suffixes (by decide)
  have kinds : (syncTriggers mode).Nodup := by cases mode <;> decide
  refine IndexScript.created_eq ?_
  rw [Table.indexScript, List.map_map]
  exact kinds.map fun a b same => apart a b same

/-- The triggers that act on a change at a time. -/
theorem Table.indexScript_fire? (t : Table) (columns : List Column) (mode : FullTextMode)
    (timing : Timing) (change : RowChange) (entries : Multiset Entry) :
    (t.indexScript columns mode).fire? t.name timing change entries =
      ((syncTriggers mode).filter fun k => k.moment = timing && k.event = change.event).foldlM
        (fun entries k => (t.syncAction columns k).run? (t.indexDefinition columns mode) change
          entries) entries := by
  have acting : (t.indexScript columns mode).triggers.filter
      (·.fires t.name timing change.event) =
        ((syncTriggers mode).filter fun k => k.moment = timing && k.event = change.event).map
          (t.syncTrigger columns) := by
    rw [Table.indexScript, List.filter_map]
    refine congrArg _ (List.filter_congr fun k _ => ?_)
    simp [Trigger.fires, Table.syncTrigger]
    rfl
  rw [IndexScript.fire?, Table.indexScript_created, acting, List.foldlM_map]
  rfl

section
variable (t : Table) (columns : List Column) (change : RowChange) (entries : Multiset Entry)

/-- Before a change the entry of the old row is removed, if there is one. -/
theorem fire?_before :
    (t.indexScript columns .externalContent).fire? t.name .before change entries =
      if (change.version? .old).isSome then
        (IndexAction.remove t.indexName ⟨.old, t.keyColumn⟩).run?
          (t.indexDefinition columns .externalContent) change entries
      else some entries := by
  rw [Table.indexScript_fire?]
  cases change with
  | insert new => rfl
  | update old new => exact bind_pure _
  | delete old => exact bind_pure _

/-- After a change an entry of the new row is added, if there is one. -/
theorem fire?_after :
    (t.indexScript columns .externalContent).fire? t.name .after change entries =
      if (change.version? .new).isSome then
        (IndexAction.add t.indexName (columns.map (·.name)) ⟨.new, t.keyColumn⟩
          (columns.map fun c => ⟨.new, .quoted c.name⟩)).run?
          (t.indexDefinition columns .externalContent) change entries
      else some entries := by
  rw [Table.indexScript_fire?]
  cases change with
  | insert new => exact bind_pure _
  | update old new => exact bind_pure _
  | delete old => rfl

end

/-! ### Changes -/

theorem keyOf?_of_entryOf? {identity : Column} {columns : List Column} {row : Row} {e : Entry}
    (entry : entryOf? identity columns row = some e) : keyOf? identity row = some e.key := by
  cases keyed : keyOf? identity row with
  | none => simp [entryOf?, keyed] at entry
  | some key =>
    cases listed : columns.mapM fun c => row.cells.lookup c.name with
    | none => simp [entryOf?, keyed, listed] at entry
    | some values =>
      simp only [entryOf?, keyed, listed, Option.bind_eq_bind, Option.bind_some] at entry
      cases entry
      rfl

section
variable {t : Table} {identity : Column} {columns : List Column}

/-- Without a row and the entries of its identity, the entries are those of the other rows. -/
theorem entries_erase {rows : Multiset Row} {entries : Multiset Entry}
    (stores : t.Stores identity rows)
    (inStep : entries.map some = rows.map (entryOf? identity columns)) {old : Row}
    (mem : old ∈ rows) {e : Entry} (entry : entryOf? identity columns old = some e) :
    (entries.filter (·.key ≠ e.key)).map some =
      (rows.erase old).map (entryOf? identity columns) := by
  have distinct := stores.distinct
  rw [← Multiset.cons_erase mem, Multiset.map_cons] at inStep distinct
  rw [entry] at inStep
  obtain ⟨unique, -⟩ := Multiset.nodup_cons.mp distinct
  obtain ⟨e', present, same, others⟩ := (Multiset.map_eq_cons some entries _ _).mpr inStep
  obtain rfl := Option.some.inj same
  -- The old row has one entry, and the other entries belong to rows of other identities.
  have kept : ∀ other ∈ entries.erase e', other.key ≠ e'.key := by
    intro other mem clash
    have listed := Multiset.mem_map_of_mem some mem
    rw [others] at listed
    obtain ⟨row, rest, entryOf⟩ := Multiset.mem_map.mp listed
    refine unique (Multiset.mem_map.mpr ⟨row, rest, ?_⟩)
    rw [keyOf?_of_entryOf? entry, keyOf?_of_entryOf? entryOf, clash]
  rw [← Multiset.cons_erase present, Multiset.filter_cons_of_neg _ (by simp),
    Multiset.filter_eq_self.mpr kept, others]

/-- A new row with its entry leaves the other rows and entries as they are. -/
theorem entries_cons {rows : Multiset Row} {entries : Multiset Entry}
    (inStep : entries.map some = rows.map (entryOf? identity columns)) {new : Row} {e : Entry}
    (entry : entryOf? identity columns new = some e) :
    (e ::ₘ entries).map some = (new ::ₘ rows).map (entryOf? identity columns) := by
  rw [Multiset.map_cons, Multiset.map_cons, inStep, entry]

end

section
variable {t : Table} (h : t.WellFormed) {identity : Column} (known : t.identity? = some identity)
  {columns : List Column} (hc : ∀ c ∈ columns, c ∈ t.columns)
include h known hc

theorem Table.Stores.givesEntry {rows : Multiset Row} (stores : t.Stores identity rows)
    {row : Row} (inside : row ∈ rows) : ∃ e, GivesEntry identity columns row e := by
  obtain ⟨key, keyed⟩ := Option.isSome_iff_exists.mp (stores.keyed row inside)
  have mem := (t.mem_of_identity? known).1
  exact Table.Holds.givesEntry h.distinct (stores.holds row inside) mem hc keyed

/-- Before a change the entry of its old row goes. -/
theorem before_inStep {state : Indexed} (inStep : t.InStep identity columns state)
    {change : RowChange} (finds : ∀ old ∈ change.version? .old, old ∈ state.rows) :
    ∃ entries, (t.indexScript columns .externalContent).fire? t.name .before change
        state.entries = some entries ∧
      entries.map some = (change.untouched state.rows).map (entryOf? identity columns) := by
  rw [fire?_before]
  cases found : change.version? .old with
  | none =>
    refine ⟨state.entries, by simp, ?_⟩
    rw [RowChange.untouched, found]
    exact inStep.entries
  | some old =>
    have mem := finds old found
    obtain ⟨e, gives⟩ := inStep.stores.givesEntry h known hc mem
    refine ⟨_, run?_remove known gives _ found, ?_⟩
    rw [RowChange.untouched, found]
    exact entries_erase inStep.stores inStep.entries mem gives.entry

/-- After a change the entry of its new row comes. -/
theorem after_inStep (distinct : (columns.map fun c => c.name.toLower).Nodup)
    {rows : Multiset Row} {entries : Multiset Entry} {change : RowChange}
    (inStep : entries.map some = (change.untouched rows).map (entryOf? identity columns))
    (stores : t.Stores identity (change.apply rows)) :
    ∃ after, (t.indexScript columns .externalContent).fire? t.name .after change entries =
        some after ∧
      after.map some = (change.apply rows).map (entryOf? identity columns) := by
  rw [fire?_after]
  rw [change.apply_eq] at stores ⊢
  cases found : change.version? .new with
  | none => exact ⟨entries, by simp, inStep⟩
  | some new =>
    rw [found] at stores
    obtain ⟨e, gives⟩ := stores.givesEntry h known hc (Multiset.mem_cons_self new _)
    exact ⟨_, run?_add known gives _ found distinct, entries_cons inStep gives.entry⟩

variable (distinct : (columns.map fun c => c.name.toLower).Nodup)
include distinct

/-- A change that is allowed succeeds, and leaves the index in step. -/
theorem step?_inStep {state : Indexed} (inStep : t.InStep identity columns state)
    {change : RowChange} (allowed : t.Allows identity state.rows change) :
    ∃ after, (t.indexScript columns .externalContent).step? t.name state change = some after ∧
      after.rows = change.apply state.rows ∧ t.InStep identity columns after := by
  obtain ⟨entries, before, untouched⟩ := before_inStep h known hc inStep allowed.finds
  obtain ⟨final, after, entriesAfter⟩ :=
    after_inStep h known hc distinct untouched allowed.stores
  refine ⟨⟨change.apply state.rows, final⟩, ?_, rfl, allowed.stores, entriesAfter⟩
  simp [IndexScript.step?, before, after]

/-- So does a sequence of changes, each of them allowed after those before it. -/
theorem run?_inStep (changes : List RowChange) {state : Indexed}
    (inStep : t.InStep identity columns state)
    (allowed : t.AllowsAll identity state.rows changes) :
    ∃ after, (t.indexScript columns .externalContent).run? t.name changes state = some after ∧
      after.rows = changes.foldl (fun rows change => change.apply rows) state.rows ∧
      t.InStep identity columns after := by
  induction changes generalizing state with
  | nil => exact ⟨state, rfl, rfl, inStep⟩
  | cons change changes ih =>
    obtain ⟨first, later⟩ := allowed
    obtain ⟨next, step, rows, inStep⟩ := step?_inStep h known hc distinct inStep first
    rw [← rows] at later
    obtain ⟨after, run, rowsAfter, inStep⟩ := ih inStep later
    refine ⟨after, ?_, ?_, inStep⟩
    · rw [IndexScript.run?, List.foldlM_cons, step]
      exact run
    · rw [rowsAfter, rows, List.foldl_cons]

end

/-! ### Scripts of built tables -/

/-- Columns of different fields of a table have different names, in any case. -/
theorem Table.Selects.names_distinct {t : Table} {names : List String} {columns : List Column}
    (selects : t.Selects names columns) (distinct : NamesDistinct t.columns) :
    (columns.map fun c => c.name.toLower).Nodup := by
  refine List.Nodup.map_on ?_ selects.distinct.of_map
  intro a left b right same
  exact List.inj_on_of_nodup_map distinct (selects.mem left) (selects.mem right) same

/-- The script of an index of external content reads as a definition of an index over the
columns that the names stand for, with triggers. From any rows and their entries, every
sequence of inserts, updates and deletes succeeds with the triggers, and leaves the rows as
the changes do and the entries as those of the rows. -/
theorem Model.triggers_keep_index {m : Model} {engine : Engine} {override : Option String}
    {settings : Settings} {t : Table} (built : m.build engine override settings = .ok t)
    {identity : Column} (known : t.identity? = some identity) {names : List String}
    {text : String} (created : t.fullTextScript names .externalContent = .ok text) :
    ∃ columns script, t.Selects names columns ∧ IndexScript.parse? text = some script ∧
      script.index.columns = columns.map (·.name) ∧
      ∀ (changes : List RowChange) (state : Indexed), t.InStep identity columns state →
        t.AllowsAll identity state.rows changes →
          ∃ after, script.run? t.name changes state = some after ∧
            after.rows = changes.foldl (fun rows change => change.apply rows) state.rows ∧
            t.InStep identity columns after := by
  have wellFormed := m.build_wellFormed built
  obtain ⟨-, someName, columns, selects, rfl⟩ := Table.fullTextScript_eq_ok_iff.mp created
  have mem : ∀ c ∈ columns, c ∈ t.columns := fun c => selects.mem
  have someColumn : columns ≠ [] := by
    rintro rfl
    cases selects.resolved
    exact someName rfl
  refine ⟨columns, t.indexScript columns .externalContent, selects,
    parse?_scriptOf wellFormed mem someColumn .externalContent,
    t.indexDefinition_columns columns .externalContent, ?_⟩
  intro changes state inStep allowed
  exact run?_inStep wellFormed known mem (selects.names_distinct wellFormed.distinct) changes
    inStep allowed

/-- A model with an identity and two texts, one of them under an alias. -/
def articleModel : Model where
  name := "Article"
  fields := [
    { name := "Id", type := .long, identity := true },
    { name := "Title", type := .string },
    { name := "Text", type := .string, column := some "Body" }]

def articleTable : Table where
  model := "Article"
  name := "Article"
  quotedName := "[Article]"
  engine := .sqlite
  columns := [
    { field := "Id", name := "Id", quoted := "[Id]", type := .long, native := "INTEGER"
      nullable := false, identity := true },
    { field := "Title", name := "Title", quoted := "[Title]", type := .string, native := "TEXT"
      nullable := false, identity := false },
    { field := "Text", name := "Body", quoted := "[Body]", type := .string, native := "TEXT"
      nullable := false, identity := false }]
  ignored := []

def articleRow (id : Int64) (title body : String) : Row where
  rowid := id
  cells := [("Id", .int id), ("Title", .text title), ("Body", .text body)]

/-- Two articles, of which the first is given an unused identity and then deleted. -/
def articleChanges : List RowChange := [
  .insert (articleRow 1 "a" "x"),
  .insert (articleRow 2 "b" "y"),
  .update (articleRow 1 "a" "x") (articleRow 3 "c" "x"),
  .delete (articleRow 3 "c" "x")]

theorem Model.triggers_keep_index_article :
    ∃ identity columns text script after,
      articleModel.build .sqlite = .ok articleTable ∧
      articleTable.identity? = some identity ∧
      articleTable.fullTextScript ["Text", "Title"] .externalContent = .ok text ∧
      IndexScript.parse? text = some script ∧
      articleTable.InStep identity columns ⟨0, 0⟩ ∧
      articleTable.AllowsAll identity 0 articleChanges ∧
      script.run? "Article" articleChanges ⟨0, 0⟩ = some after ∧
      after.rows = {articleRow 2 "b" "y"} ∧ articleTable.InStep identity columns after := by
  have built : articleModel.build .sqlite = .ok articleTable := ok_of_toOption (by decide +kernel)
  have present : (articleTable.fullTextScript ["Text", "Title"] .externalContent).toOption.isSome =
      true := by decide +kernel
  obtain ⟨text, created⟩ := Option.isSome_iff_exists.mp present
  have created := ok_of_toOption created
  have known : articleTable.identity? = some articleTable.columns[0] := by decide +kernel
  obtain ⟨columns, script, -, parses, -, run⟩ := triggers_keep_index built known created
  have empty : articleTable.InStep articleTable.columns[0] columns ⟨0, 0⟩ :=
    ⟨by decide +kernel, rfl⟩
  have allowed : articleTable.AllowsAll articleTable.columns[0] 0 articleChanges := by
    decide +kernel
  obtain ⟨after, ran, rows, inStep⟩ := run articleChanges ⟨0, 0⟩ empty allowed
  have left : after.rows = {articleRow 2 "b" "y"} := rows.trans (by decide +kernel)
  exact ⟨_, columns, text, script, after, built, known, created, parses, empty, allowed, ran, left,
    inStep⟩

end ModelSql
