import ModelSql.Statement.Filter
/-!
# Payloads

A payload gives values to some of a table's columns, each under the name of the
field or of the column. The statements made of it bind each value under the name
of the column's field, in the order of the payload.
-/

namespace ModelSql

/-- The entries with `value` under `name`, at the place of the name if it has one and
at the end otherwise. -/
def setEntry (name : String) (value : Value) : List (String × Value) → List (String × Value)
  | [] => [(name, value)]
  | (n, v) :: rest =>
    if n = name then (name, value) :: rest else (n, v) :: setEntry name value rest

theorem mem_names_setEntry {n name : String} {value : Value} {entries : List (String × Value)} :
    n ∈ (setEntry name value entries).map (·.1) ↔ n = name ∨ n ∈ entries.map (·.1) := by
  induction entries with
  | nil => simp only [setEntry, List.map_cons, List.map_nil, List.mem_cons]
  | cons entry rest ih =>
    obtain ⟨m, v⟩ := entry
    by_cases h : m = name
    · simp only [setEntry, h, if_true, List.map_cons, List.mem_cons, or_self_left]
    · simp only [setEntry, h, if_false, List.map_cons, List.mem_cons, ih]
      exact or_left_comm

theorem nodup_names_setEntry {name : String} {value : Value} {entries : List (String × Value)}
    (h : (entries.map (·.1)).Nodup) : ((setEntry name value entries).map (·.1)).Nodup := by
  induction entries with
  | nil => simp only [setEntry, List.map_cons, List.map_nil, List.nodup_cons, List.not_mem_nil,
      not_false_eq_true, List.nodup_nil, and_self]
  | cons entry rest ih =>
    obtain ⟨m, v⟩ := entry
    simp only [List.map_cons, List.nodup_cons] at h
    by_cases hm : m = name
    · simpa only [setEntry, hm, if_true, List.map_cons, List.nodup_cons] using hm ▸ h
    · simp only [setEntry, hm, if_false, List.map_cons, List.nodup_cons, mem_names_setEntry,
        false_or]
      exact ⟨h.1, ih h.2⟩

/-- Values for names, in order. No name has two. -/
structure Payload where
  entries : List (String × Value)
  nodup_names : (entries.map (·.1)).Nodup
deriving DecidableEq, Repr

namespace Payload

def empty : Payload := ⟨[], List.nodup_nil⟩

instance : EmptyCollection Payload := ⟨empty⟩

/-- Gives `name` a value. A name keeps its first place and takes its last value. -/
def set {α : Type} [ToValue α] (p : Payload) (name : String) (value : α) : Payload :=
  ⟨setEntry name (toValue value) p.entries, nodup_names_setEntry p.nodup_names⟩

/-- The payload of the pairs, set one after the other. -/
def ofList {α : Type} [ToValue α] (pairs : List (String × α)) : Payload :=
  pairs.foldl (fun p (name, value) => p.set name value) empty

def size (p : Payload) : Nat := p.entries.length

def isEmpty (p : Payload) : Bool := p.entries.isEmpty

end Payload

structure Assignment where
  column : Column
  value : Value
deriving DecidableEq, Repr

/-- The entries with their columns resolved, given the columns that earlier entries took. -/
def assignEntries (table : Table) (taken : List Column) :
    List (String × Value) → Except Fault (List Assignment)
  | [] => .ok []
  | (name, value) :: rest => do
    let column ← table.resolve name
    match taken.find? (·.field = column.field) with
    | some prior => .error (.columnCollision table.model column.name prior.field name)
    | none =>
      let more ← assignEntries table (taken ++ [column]) rest
      return ⟨column, value⟩ :: more

/-- The columns that a payload gives values to, in its order. The fault is that of the
first name that has no column or whose column an earlier name has taken. -/
def Payload.assignments (p : Payload) (table : Table) : Except Fault (List Assignment) :=
  if p.isEmpty then .error (.emptyPayload table.model) else assignEntries table [] p.entries

/-- The values under the placeholders of their columns. -/
def Dialect.bind (d : Dialect) (assignments : List Assignment) : Parameters :=
  ⟨assignments.map fun a => (d.parameter a.column.field, a.value)⟩

def assignedColumns (assignments : List Assignment) : List Column :=
  assignments.map (·.column)

/-- A new record of the payload's columns only. A generated identity is reported; one
that the payload supplies is inserted as the engine accepts it. -/
def Payload.insert (p : Payload) (table : Table) : Except Fault Statement := do
  let assignments ← p.assignments table
  let columns := assignedColumns assignments
  let d := table.dialect
  return {
    text :=
      match table.identity? with
      | none => d.insert table.quotedName columns
      | some identity =>
        if columns.any (·.identity) then
          d.insertExplicitIdentity table.quotedName (d.insert table.quotedName columns)
        else d.insertReturningIdentity table.quotedName columns identity
    parameters := d.bind assignments }

/-- An update of the payload's columns in the rows of a filter. The payload's values
come first among the parameters. -/
def Payload.update (p : Payload) (table : Table) (filter : Filter) : Except Fault Statement := do
  let assignments ← p.assignments table
  let columns := assignedColumns assignments
  let d := table.dialect
  if !d.updatesIdentity && columns.any (·.identity) then
    throw (.unsupported d.engine .identityUpdate)
  let compiled ← filter.compile table
  return {
    text := d.update table.quotedName columns compiled.condition
    parameters := d.bind assignments ++ compiled.parameters }

end ModelSql
