import Mathlib.Data.Multiset.Filter
import ModelSql.Proofs.Schema.TriggerScript
import ModelSql.Value.Basic
/-!
# Row triggers on an index

A table is a collection of rows, and an index a collection of entries, each with a
key and values of the index's columns. When a row of the table changes, the
triggers on that event act on the index, those before the change first. `old` is
the row that the change finds and `new` the one that it leaves.

* `RowChange`: one row is inserted, updated or deleted;
* `IndexAction.run?`: an action on the entries, for the rows of a change;
* `IndexScript.step?`, `IndexScript.run?`: the table and its index after one
  change and after many. Nothing is left of a change whose triggers fail.
-/

namespace ModelSql.Sql

/-- A row, with its values under the names of their columns. -/
structure Row where
  /-- The engine's own key of the row. -/
  rowid : Int64
  cells : List (String × Value)
deriving DecidableEq, Repr

structure Entry where
  key : Int64
  values : List Value
deriving DecidableEq, Repr

/-- The value of a column. Names are the same up to the case of ASCII letters. -/
def Row.cell? (r : Row) (name : String) : Option Value :=
  (r.cells.find? (·.1.toLower = name.toLower)).map (·.2)

/-- A bare `rowid` stands for the engine's key unless a column is called so. -/
def Row.read? (r : Row) : ColumnName → Option Value
  | .quoted name => r.cell? name
  | .bare name =>
    (r.cell? name).or (if name.toLower = "rowid" then some (.int r.rowid) else none)

/-- What happens to one row of a table. -/
inductive RowChange where
  | insert (new : Row)
  | update (old new : Row)
  | delete (old : Row)
deriving DecidableEq, Repr

namespace RowChange

def event : RowChange → RowEvent
  | insert _ => .insert
  | update _ _ => .update
  | delete _ => .delete

/-- The row before or after the change, if there is one. -/
def version? : RowChange → RowVersion → Option Row
  | insert new, .new => some new
  | update old _, .old => some old
  | update _ new, .new => some new
  | delete old, .old => some old
  | _, _ => none

def apply : RowChange → Multiset Row → Multiset Row
  | insert new, rows => new ::ₘ rows
  | update old new, rows => new ::ₘ rows.erase old
  | delete old, rows => rows.erase old

/-- The rows that the change does not touch. -/
def untouched (change : RowChange) (rows : Multiset Row) : Multiset Row :=
  match change.version? .old with
  | some old => rows.erase old
  | none => rows

theorem apply_eq (change : RowChange) (rows : Multiset Row) :
    change.apply rows =
      match change.version? .new with
      | some new => new ::ₘ change.untouched rows
      | none => change.untouched rows := by
  cases change <;> rfl

end RowChange

def Operand.eval? (o : Operand) (change : RowChange) : Option Value := do
  (← change.version? o.version).read? o.column

/-- Values given for the named columns, in the order of the definition. A column that is not
named is null, and one that the index does not have is an error. -/
def IndexDefinition.arrange? (d : IndexDefinition) (names : List String) (values : List Value) :
    Option (List Value) :=
  let named := names.map String.toLower
  let declared := d.columns.map String.toLower
  if names.length = values.length ∧ ∀ name ∈ named, name ∈ declared then
    some (declared.map fun name => ((named.zip values).lookup name).getD .null)
  else none

/-- An action on the entries of the index that it names. Only integers are keys of entries. -/
def IndexAction.run? (d : IndexDefinition) (change : RowChange) (entries : Multiset Entry) :
    IndexAction → Option (Multiset Entry)
  | remove index key => do
    guard (index.toLower = d.name.toLower)
    let key ← key.eval? change
    return entries.filter fun e => Value.int e.key ≠ key
  | add index columns key values => do
    guard (index.toLower = d.name.toLower)
    let .int key ← key.eval? change | none
    let values ← d.arrange? columns (← values.mapM (·.eval? change))
    return { key, values } ::ₘ entries

/-- Creates a trigger if there is none of its name. -/
def createTrigger (existing : List Trigger) (t : Trigger) : List Trigger :=
  if existing.any (·.name.toLower = t.name.toLower) then existing else existing ++ [t]

/-- Whether the trigger acts on a change of the table at the time. -/
def Trigger.fires (t : Trigger) (table : String) (timing : Timing) (event : RowEvent) : Bool :=
  t.table.toLower = table.toLower && t.timing = timing && t.event = event

/-- A table and its index. -/
structure Indexed where
  rows : Multiset Row
  entries : Multiset Entry

namespace IndexScript

variable (s : IndexScript) (table : String)

/-- The triggers that the script leaves behind. -/
def created : List Trigger := s.triggers.foldl createTrigger []

/-- The entries after the triggers that act on the change at the time. -/
def fire? (timing : Timing) (change : RowChange) (entries : Multiset Entry) :
    Option (Multiset Entry) :=
  (s.created.filter (·.fires table timing change.event)).foldlM
    (fun entries t => t.action.run? s.index change entries) entries

/-- One change of the table, with the triggers before and after it. -/
def step? (state : Indexed) (change : RowChange) : Option Indexed := do
  let entries ← s.fire? table .before change state.entries
  let rows := change.apply state.rows
  let entries ← s.fire? table .after change entries
  return { rows, entries }

/-- Changes of the table, one after the other. -/
def run? (changes : List RowChange) (state : Indexed) : Option Indexed :=
  changes.foldlM (s.step? table) state

end IndexScript

/-! ### Rows and entries by name -/

/-- A value is found under the name of its column, in any case. -/
theorem Row.cell?_of_mem {r : Row} (distinct : (r.cells.map (·.1.toLower)).Nodup)
    {name : String} {v : Value} (mem : (name, v) ∈ r.cells) : r.cell? name = some v := by
  have found := find?_key distinct mem
  rw [cell?, found]
  rfl

/-- A removal takes the entries whose key is the value that it reads. -/
theorem IndexAction.run?_remove {d : IndexDefinition} {change : RowChange} {key : Operand} {v : Value}
    (read : key.eval? change = some v) (entries : Multiset Entry) :
    (remove d.name key).run? d change entries = some (entries.filter fun e => Value.int e.key ≠ v) := by
  simp [run?, read]

/-- Values for all columns of an index are arranged as they are given. -/
theorem IndexDefinition.arrange?_columns {d : IndexDefinition}
    (distinct : (d.columns.map String.toLower).Nodup) {values : List Value}
    (same : d.columns.length = values.length) : d.arrange? d.columns values = some values := by
  have lengths : (d.columns.map String.toLower).length = values.length := by
    rwa [List.length_map]
  have found := congrArg (List.map (·.getD Value.null)) (map_lookup_zip distinct lengths)
  simp only [List.map_map, Function.comp_def, Option.getD_some, List.map_id'] at found
  rw [arrange?, if_pos ⟨same, fun _ mem => mem⟩, List.map_map, Function.comp_def, found]

/-- Triggers of different names are all created. -/
theorem foldl_createTrigger {existing triggers : List Trigger}
    (distinct : ((existing ++ triggers).map (·.name.toLower)).Nodup) :
    triggers.foldl createTrigger existing = existing ++ triggers := by
  induction triggers generalizing existing with
  | nil => simp
  | cons t triggers ih =>
    have fresh : existing.any (·.name.toLower = t.name.toLower) = false := by
      rw [List.any_eq_false]
      intro earlier mem same
      rw [List.map_append, List.map_cons] at distinct
      refine List.disjoint_of_nodup_append distinct (List.mem_map_of_mem mem) ?_
      rw [decide_eq_true_eq.mp same]
      exact List.mem_cons_self
    rw [List.foldl_cons, createTrigger, fresh, if_neg Bool.false_ne_true]
    have rest := @ih (existing ++ [t]) (by simpa using distinct)
    rw [rest, List.append_assoc]
    rfl

theorem IndexScript.created_eq {s : IndexScript}
    (distinct : (s.triggers.map (·.name.toLower)).Nodup) : s.created = s.triggers :=
  foldl_createTrigger distinct

end ModelSql.Sql
