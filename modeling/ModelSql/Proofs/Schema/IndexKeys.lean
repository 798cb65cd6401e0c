import ModelSql.Proofs.Schema.ScriptReading
import ModelSql.Proofs.Statement.Assignments
import ModelSql.Proofs.Table.Columns
/-!
# Names of indexes and keys of payloads

Names of an index and keys of a payload are given to columns by the same rules. So a list of
different names has an index just if a payload with these keys is accepted, of the same columns,
and otherwise both have the same fault. A payload has no key twice; a list of names that has one
twice is refused there at the latest.

* `Table.IndexesAs`, `Table.RefusesAt`: what becomes of different names, and of repeated ones;
* `Table.fullTextScript_keys`: the script over the keys of a payload;
* `Table.fullTextScript_repeated`: a list with a name that is there before;
* `Model.fullTextScript_resolves_keys`: scripts of built tables against payloads.
-/

namespace ModelSql

open Sql

/-- Different names are the keys of a payload. -/
theorem exists_keys_eq {names : List String} (distinct : names.Nodup) :
    ∃ p : Payload, p.keys = names := by
  have keys : (names.map fun name => (name, Value.null)).map (·.1) = names := by
    rw [List.map_map]
    exact List.map_id names
  exact ⟨⟨names.map fun name => (name, .null), by rwa [keys]⟩, keys⟩

/-- A list in which a name repeats has a first one that is there before. -/
theorem exists_repeated {names : List String} (repeats : ¬ names.Nodup) :
    ∃ earlier name later, names = earlier ++ name :: later ∧ earlier.Nodup ∧ name ∈ earlier := by
  -- From the end: the last name is the repeated one only if those before it differ.
  induction names using List.reverseRecOn with
  | nil => exact absurd List.nodup_nil repeats
  | append_singleton names last ih =>
    by_cases distinct : names.Nodup
    · have before : last ∈ names := by
        by_contra fresh
        exact repeats (by simpa using List.Nodup.concat fresh distinct)
      exact ⟨names, last, [], rfl, distinct, before⟩
    · obtain ⟨earlier, name, later, rfl, before, mem⟩ := ih distinct
      exact ⟨earlier, name, later ++ [last], by simp, before, mem⟩

namespace Table

/-- The names are accepted, or refused, for an index as they are as keys of the payload. -/
structure IndexesAs (t : Table) (mode : FullTextMode) (names : List String) (p : Payload) :
    Prop where
  fails : (∃ fault, t.fullTextScript names mode = .error fault) ↔
    names = [] ∨ ∃ fault, p.assignments t = .error fault
  fault : names ≠ [] → ∀ fault,
    t.fullTextScript names mode = .error fault ↔ p.assignments t = .error fault
  columns : ∀ text assignments, t.fullTextScript names mode = .ok text →
    p.assignments t = .ok assignments → ∃ script, IndexScript.parse? text = some script ∧
      script.index.columns = (assignedColumns assignments).map (·.name)

/-- The names are refused for a fault among `earlier`, or else for `name`. -/
structure RefusesAt (t : Table) (mode : FullTextMode) (names earlier : List String)
    (name : String) : Prop where
  before : ∀ fault, t.fullTextScript earlier mode = .error fault →
    t.fullTextScript names mode = .error fault
  taken : ∀ text, t.fullTextScript earlier mode = .ok text → ∃ c, t.resolve name = .ok c ∧
    t.fullTextScript names mode = .error (.columnCollision t.model c.name c.field name)

section
variable {t : Table} (supported : t.dialect.supportsFullText = true) (mode : FullTextMode)
include supported

theorem fullTextScript_of_ne_nil {names : List String} (nonempty : names ≠ []) :
    t.fullTextScript names mode =
      (indexColumns t [] names).map fun columns => t.scriptOf columns mode := by
  rw [fullTextScript_eq, if_neg (by simp [supported]), if_neg nonempty]

/-- The script over the keys of a payload is that of the columns which it assigns. -/
theorem fullTextScript_keys {p : Payload} (nonempty : p.keys ≠ []) :
    t.fullTextScript p.keys mode =
      (p.assignments t).map fun assignments => t.scriptOf (assignedColumns assignments) mode := by
  have columns := p.assignments_eq t
  rw [if_neg nonempty] at columns
  rw [fullTextScript_of_ne_nil supported mode nonempty, ← columns]
  cases p.assignments t <;> rfl

/-- A fault among the names is the fault of every list that goes on from there. -/
theorem fullTextScript_append {earlier : List String} {fault : Fault} (nonempty : earlier ≠ [])
    (failed : t.fullTextScript earlier mode = .error fault) (later : List String) :
    t.fullTextScript (earlier ++ later) mode = .error fault := by
  have more : earlier ++ later ≠ [] := List.append_ne_nil_of_left_ne_nil nonempty later
  rw [fullTextScript_of_ne_nil supported mode nonempty, map_eq_error_iff] at failed
  rw [fullTextScript_of_ne_nil supported mode more, indexColumns_append, failed]
  rfl

/-- A name that is there before stands for the column that it has taken. -/
theorem fullTextScript_repeated (fields : (t.columns.map (·.field)).Nodup) {earlier : List String}
    {text : String} (created : t.fullTextScript earlier mode = .ok text) {name : String}
    (mem : name ∈ earlier) (later : List String) :
    ∃ c, t.resolve name = .ok c ∧ t.fullTextScript (earlier ++ name :: later) mode =
      .error (.columnCollision t.model c.name c.field name) := by
  obtain ⟨-, -, columns, selects, -⟩ := fullTextScript_eq_ok_iff.mp created
  have accepted := (t.accepts_iff_selects fields).mpr ⟨columns, selects⟩
  obtain ⟨c, resolved⟩ := accepted.resolves name mem
  have refused : indexColumns t [] (earlier ++ name :: later) =
      .error (.columnCollision t.model c.name c.field name) :=
    indexColumns_eq_error fields accepted (.taken mem resolved resolved)
  refine ⟨c, resolved, ?_⟩
  rw [fullTextScript_of_ne_nil supported mode (by simp), refused]
  rfl

/-- Different names are taken as keys are. -/
theorem indexesAs_keys (h : t.WellFormed) (p : Payload) : t.IndexesAs mode p.keys p := by
  have faults (nonempty : p.keys ≠ []) (fault : Fault) :
      t.fullTextScript p.keys mode = .error fault ↔ p.assignments t = .error fault := by
    rw [fullTextScript_keys supported mode nonempty, map_eq_error_iff]
  constructor
  case fails =>
    by_cases none : p.keys = []
    · refine iff_of_true ⟨.emptyFullTextColumns t.model, ?_⟩ (.inl none)
      rw [fullTextScript_eq, if_neg (by simp [supported]), if_pos none]
    · simp only [faults none, none, false_or]
  case fault => exact faults
  case columns =>
    intro text assignments created assigned
    obtain ⟨-, nonempty, -⟩ := fullTextScript_eq_ok_iff.mp created
    have columns := p.assignments_eq t
    rw [assigned, if_neg nonempty] at columns
    have selects := indexColumns_eq_ok_iff.mp columns.symm
    exact ⟨_, (parse?_fullTextScript h created selects).1, t.indexDefinition_columns _ mode⟩

end

end Table

/-- In SQLite a list of different names has a script just if it has names and the payloads with
these keys are accepted. The fault of names is that of the keys, and the index has the columns
that are assigned, in order. A list with a name twice is refused for the first name that is there
before, unless a name before it is at fault. Without full-text indexes every request is refused as
not supported. -/
theorem Model.fullTextScript_resolves_keys {m : Model} {engine : Engine}
    {override : Option String} {settings : Settings} {t : Table}
    (built : m.build engine override settings = .ok t) (mode : FullTextMode) :
    (engine = .sqlite →
      (∀ names : List String, names.Nodup → (∃ p : Payload, p.keys = names) ∧
        ∀ p : Payload, p.keys = names → t.IndexesAs mode names p) ∧
      ∀ names : List String, ¬ names.Nodup → ∃ earlier name later,
        names = earlier ++ name :: later ∧ earlier.Nodup ∧ name ∈ earlier ∧
          t.RefusesAt mode names earlier name) ∧
    (engine.dialect.supportsFullText = false → ∀ names,
      t.fullTextScript names mode = .error (.unsupported t.engine .fullText)) := by
  have dialect : t.dialect = engine.dialect := by rw [Table.dialect, m.build_engine built]
  constructor
  · rintro rfl
    have supported : t.dialect.supportsFullText = true := by rw [dialect]; rfl
    constructor
    · intro names distinct
      refine ⟨exists_keys_eq distinct, ?_⟩
      rintro p rfl
      exact Table.indexesAs_keys supported mode (m.build_wellFormed built) p
    · intro names repeats
      obtain ⟨earlier, name, later, rfl, distinct, mem⟩ := exists_repeated repeats
      refine ⟨earlier, name, later, rfl, distinct, mem, ?_, ?_⟩
      · intro fault failed
        exact Table.fullTextScript_append supported mode (List.ne_nil_of_mem mem) failed _
      · intro text created
        exact Table.fullTextScript_repeated supported mode (m.build_fieldsDistinct built) created
          mem later
  · intro unsupported names
    rw [Table.fullTextScript_eq, dialect, if_pos unsupported]

/-- The table of the model in an engine with full-text indexes. -/
def indexedInvoiceTable : Table :=
  { invoiceTable with
    engine := .sqlite
    columns := invoiceTable.columns.zipWith (fun c native => { c with native })
      ["INTEGER", "NUMERIC", "TEXT"] }

/-- A name is a field's, and not its column's. Of two names that repeat, the one that is there
before first is refused. -/
theorem Model.fullTextScript_resolves_keys_invoice :
    invoiceModel.build .sqlite = .ok indexedInvoiceTable ∧
    (∃ text script, indexedInvoiceTable.fullTextScript ["Note", "Total"] .content = .ok text ∧
      IndexScript.parse? text = some script ∧ script.index.columns = ["remark", "Total"]) ∧
    (∃ earlier name later, ["Total", "Note", "Total", "Note"] = earlier ++ name :: later ∧
      name ∈ earlier ∧ indexedInvoiceTable.RefusesAt .content ["Total", "Note", "Total", "Note"]
        earlier name) ∧
    invoiceModel.build .sqlServer = .ok invoiceTable ∧
    invoiceTable.fullTextScript [] .content = .error (.unsupported .sqlServer .fullText) := by
  have built : invoiceModel.build .sqlite = .ok indexedInvoiceTable :=
    ok_of_toOption (by decide +kernel)
  obtain ⟨resolves, repeats⟩ := (fullTextScript_resolves_keys built .content).1 rfl
  have alike := (resolves ["Note", "Total"] (by decide)).2
    ⟨[("Note", .null), ("Total", .int 1)], by decide⟩ rfl
  have created : indexedInvoiceTable.fullTextScript ["Note", "Total"] .content =
      .ok (indexedInvoiceTable.scriptOf
        [indexedInvoiceTable.columns[2], indexedInvoiceTable.columns[1]] .content) := rfl
  obtain ⟨script, parses, columns⟩ := alike.columns _
    [⟨indexedInvoiceTable.columns[2], .null⟩, ⟨indexedInvoiceTable.columns[1], .int 1⟩] created rfl
  obtain ⟨earlier, name, later, split, -, mem, refuses⟩ :=
    repeats ["Total", "Note", "Total", "Note"] (by decide)
  have unsupported := (fullTextScript_resolves_keys build_invoice .content).2 rfl []
  exact ⟨built, ⟨_, script, created, parses, columns⟩, ⟨earlier, name, later, split, mem, refuses⟩,
    build_invoice, unsupported⟩

end ModelSql
