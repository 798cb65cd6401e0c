import ModelSql.Proofs.Filter.Fields
import ModelSql.Proofs.Statement.PayloadKeys
import ModelSql.Proofs.Table.Representation
/-!
# Names of ignored fields

A name that stands for no column is refused in filters, in payloads and in the columns of an
index, with one and the same fault. The name of an ignored field is such a name unless a
column is called so, up to the case of ASCII letters: columns are looked up first.

* `Table.Refuses`: a name is refused wherever it would stand for a column;
* `Table.refuses_of_resolve`: this is so for each name that does not resolve;
* `Model.ignored_refused_iff`: when it is so for the name of an ignored field.
-/

namespace ModelSql

/-- The name is refused wherever it would stand for a column. The fault is the given one if
there is none before it: earlier names of a filter stand for columns, and those of a payload or
of an index for different columns. -/
structure Table.Refuses (t : Table) (name : String) (fault : Fault) : Prop where
  resolve : t.resolve name = .error fault
  filterFails : ∀ f : Filter, name ∈ f.fields → ∃ first, f.compile t = .error first
  filter : ∀ (f : Filter) (before after : List String), f.fields = before ++ name :: after →
    (∀ key ∈ before, ∃ c, t.resolve key = .ok c) → f.compile t = .error fault
  payloadFails : ∀ p : Payload, name ∈ p.keys → ∃ first, p.assignments t = .error first ∧
    p.insert t = .error first ∧ ∀ f, p.update t f = .error first
  payload : ∀ (p : Payload) (before after : List String), p.keys = before ++ name :: after →
    (∃ columns, t.Selects before columns) → p.assignments t = .error fault ∧
      p.insert t = .error fault ∧ ∀ f, p.update t f = .error fault
  fullTextFails : ∀ names mode, name ∈ names → ∃ first, t.fullTextScript names mode = .error first
  fullText : t.dialect.supportsFullText = true → ∀ before after mode,
    (∃ columns, t.Selects before columns) →
      t.fullTextScript (before ++ name :: after) mode = .error fault

/-! ## Names without a column -/

theorem error_of_not_ok {α : Type} {x : Except Fault α} (h : ∀ a, x ≠ .ok a) :
    ∃ fault, x = .error fault := by
  cases x with
  | error fault => exact ⟨fault, rfl⟩
  | ok a => exact absurd rfl (h a)

section
variable {t : Table} {name : String} {fault : Fault} (refused : t.resolve name = .error fault)
include refused

theorem Table.Selects.not_mem {names : List String} {columns : List Column}
    (h : t.Selects names columns) : name ∉ names := by
  intro mem
  obtain ⟨column, -, resolved⟩ := exists_right_of_mem h.resolved mem
  rw [refused] at resolved
  cases resolved

theorem Payload.assignments_fail {p : Payload} (mem : name ∈ p.keys) :
    ∃ first, p.assignments t = .error first := by
  apply error_of_not_ok
  intro assignments ok
  have selected := assignEntries_eq_indexColumns t [] p.entries
  rw [p.assignments_ok ok] at selected
  exact (indexColumns_eq_ok_iff.mp selected.symm).not_mem refused mem

theorem Payload.assignments_error {p : Payload} {before after : List String}
    (split : p.keys = before ++ name :: after) (earlier : ∃ columns, t.Selects before columns) :
    p.assignments t = .error fault := by
  obtain ⟨columns, selects⟩ := earlier
  have nonempty : before ++ name :: after ≠ [] := by simp
  apply (map_eq_error_iff (g := assignedColumns)).mp
  rw [p.assignments_eq t, split, if_neg nonempty]
  exact indexColumns_error (indexColumns_eq_ok_iff.mpr selects) refused after

theorem Table.fullTextScript_fails {names : List String} (mem : name ∈ names)
    (mode : FullTextMode) : ∃ first, t.fullTextScript names mode = .error first := by
  apply error_of_not_ok
  intro text ok
  obtain ⟨-, -, columns, selects, -⟩ := t.fullTextScript_eq_ok_iff.mp ok
  exact selects.not_mem refused mem

theorem Table.fullTextScript_error (supported : t.dialect.supportsFullText = true)
    {before : List String} (earlier : ∃ columns, t.Selects before columns) (after : List String)
    (mode : FullTextMode) : t.fullTextScript (before ++ name :: after) mode = .error fault := by
  obtain ⟨columns, selects⟩ := earlier
  have nonempty : before ++ name :: after ≠ [] := by simp
  rw [fullTextScript_eq, if_neg (by simp [supported]), if_neg nonempty,
    indexColumns_error (indexColumns_eq_ok_iff.mpr selects) refused]
  rfl

/-- A name that does not resolve is refused wherever it would stand for a column. -/
theorem Table.refuses_of_resolve : t.Refuses name fault := by
  constructor
  case resolve => exact refused
  case filterFails => exact fun f mem => Filter.compile_fails refused mem
  case filter => exact fun f before after => Filter.compile_error_of_fields refused
  case payloadFails =>
    intro p mem
    obtain ⟨first, failed⟩ := Payload.assignments_fail refused mem
    exact ⟨first, failed, Payload.statements_error failed⟩
  case payload =>
    intro p before after split earlier
    have failed := Payload.assignments_error refused split earlier
    exact ⟨failed, Payload.statements_error failed⟩
  case fullTextFails => exact fun names mode mem => t.fullTextScript_fails refused mem mode
  case fullText =>
    exact fun supported before after mode earlier =>
      t.fullTextScript_error refused supported earlier after mode

end

/-! ## Ignored fields -/

section
variable {m : Model} {engine : Engine} {override : Option String} {settings : Settings} {t : Table}
  (built : m.build engine override settings = .ok t) {f : Field} (mem : f ∈ m.fields)
  (ignored : f.ignored = true)
include built mem ignored

/-- Fields have different names, so no column belongs to a field of the same name. -/
theorem Model.columnByField?_ignored : t.columnByField? f.name = none := by
  cases found : t.columnByField? f.name with
  | none => rfl
  | some c =>
    obtain ⟨hc, own⟩ := (m.build_columnByField? built).mp found
    obtain ⟨g, hg, made⟩ := exists_left_of_mem (m.build_columns built) hc
    obtain ⟨persists, kept⟩ := List.mem_filter.mp hg
    have same : g = f := List.inj_on_of_nodup_map (m.build_fieldsConfigured built).distinctNames
      persists mem (made.field.symm.trans own)
    rw [same, ignored] at kept
    cases kept

/-- The name of an ignored field is refused, as the name of an ignored field, just if no column
is called so up to case. Otherwise it stands for that column. -/
theorem Model.ignored_refused_iff :
    (t.Refuses f.name (.ignoredField m.name f.name) ↔
      ∀ g ∈ persisted m.fields, g.columnName.toLower ≠ f.name.toLower) ∧
    (∀ g ∈ persisted m.fields, g.columnName.toLower = f.name.toLower →
      ∃ c, t.resolve f.name = .ok c ∧ c.field = g.name) ∧
    (Fault.ignoredField m.name f.name).kind = .unknownField := by
  have noField := m.columnByField?_ignored built mem ignored
  have taken : ∀ g ∈ persisted m.fields, g.columnName.toLower = f.name.toLower →
      ∃ c, t.resolve f.name = .ok c ∧ c.field = g.name := by
    intro g hg same
    obtain ⟨c, hc, made⟩ := exists_right_of_mem (m.build_columns built) hg
    have named : t.columnByName? f.name = some c :=
      (m.build_columnByName? built).mpr ⟨hc, by rw [made.columnName, same]⟩
    exact ⟨c, t.resolve_ok.mpr (.inr ⟨noField, named⟩), made.field⟩
  refine ⟨⟨fun refuses g hg same => ?_, fun free => t.refuses_of_resolve ?_⟩, taken, rfl⟩
  · obtain ⟨c, resolved, -⟩ := taken g hg same
    rw [refuses.resolve] at resolved
    cases resolved
  · have noName : t.columnByName? f.name = none := by
      cases found : t.columnByName? f.name with
      | none => rfl
      | some c =>
        obtain ⟨hc, same⟩ := (m.build_columnByName? built).mp found
        obtain ⟨g, hg, made⟩ := exists_left_of_mem (m.build_columns built) hc
        rw [made.columnName] at same
        exact absurd same (free g hg)
    have left : f.name ∈ t.ignored := (m.build_ignored built).mpr ⟨f, mem, ignored, rfl⟩
    rw [t.resolve_error noField noName, if_pos left, m.build_model built]

end

/-- A model with two ignored fields, one of which is called as a column is. -/
def sessionModel : Model where
  name := "Session"
  fields := [
    { name := "Snapshot", type := .string, column := some "cache" },
    { name := "Cache", type := .custom "Store", ignored := true },
    { name := "Draft", type := .string, ignored := true }]

def sessionTable : Table where
  model := "Session"
  name := "Session"
  quotedName := "[Session]"
  engine := .sqlite
  columns := [
    { field := "Snapshot", name := "cache", quoted := "[cache]", type := .string, native := "TEXT"
      nullable := false, identity := false }]
  ignored := ["Cache", "Draft"]

theorem Model.ignored_refused_iff_session :
    sessionModel.build .sqlite = .ok sessionTable ∧
    { name := "Draft", type := .string, ignored := true } ∈ sessionModel.fields ∧
    sessionTable.Refuses "Draft" (.ignoredField "Session" "Draft") ∧
    ∃ c, sessionTable.resolve "Cache" = .ok c ∧ c.field = "Snapshot" := by
  have built : sessionModel.build .sqlite = .ok sessionTable := ok_of_toOption (by decide +kernel)
  have draft := ignored_refused_iff built
    (f := { name := "Draft", type := .string, ignored := true }) (by decide) rfl
  have cache := ignored_refused_iff built
    (f := { name := "Cache", type := .custom "Store", ignored := true }) (by decide) rfl
  have free : ∀ g ∈ persisted sessionModel.fields, g.columnName.toLower ≠ "Draft".toLower := by
    decide +kernel
  have taken : "cache".toLower = "Cache".toLower := toLower_eq_of_chars (by decide)
  exact ⟨built, by decide, draft.1.mpr free, cache.2.1 _ List.mem_cons_self taken⟩

theorem sessionTable_resolve_cache :
    sessionTable.resolve "Cache" = .ok sessionTable.columns[0] := by
  have folded : "cache".toLower = "Cache".toLower := toLower_eq_of_chars (by decide)
  refine Table.resolve_ok.mpr (.inr ⟨by decide +kernel, ?_⟩)
  simp [Table.columnByName?, Column.isNamed, sessionTable, folded]

/-- A filter, a payload and an index that name an ignored field are given another's column. -/
theorem Table.ignored_field_finds_column :
    (sessionModel.build .sqlite).toOption = some sessionTable ∧ "Cache" ∈ sessionTable.ignored ∧
    (sessionTable.resolve "Cache").toOption.map (·.field) = some "Snapshot" ∧
    ((Filter.ofPredicate (.isIn "Cache" [Value.text "x"])).compile sessionTable).toOption.map
      (·.condition) = some "cache IN (@p0)" ∧
    (((∅ : Payload).set "Cache" (Value.text "x")).insert sessionTable).toOption.map (·.text) =
      some "INSERT INTO [Session] ([cache])\nVALUES (@Snapshot);" ∧
    (sessionTable.fullTextScript ["Cache"] .content).toOption =
      some "CREATE VIRTUAL TABLE IF NOT EXISTS [Session_fts] USING fts5(\n    [cache]\n);" := by
  have resolved := sessionTable_resolve_cache
  have field : sessionTable.resolve (Predicate.isIn "Cache" [Value.text "x"]).field =
      .ok sessionTable.columns[0] := resolved
  have assigned : ((∅ : Payload).set "Cache" (Value.text "x")).assignments sessionTable =
      .ok [⟨sessionTable.columns[0], .text "x"⟩] := by
    change assignEntries sessionTable [] [("Cache", .text "x")] = _
    simp only [assignEntries, resolved]
    rfl
  refine ⟨by decide +kernel, by decide, by rw [resolved]; rfl, ?_, ?_, ?_⟩
  · simp only [Filter.compile, Filter.ofPredicate, Filter.push, Predicate.compile, field]
    decide +kernel
  · simp only [Payload.insert, assigned]
    decide +kernel
  · simp only [Table.fullTextScript, indexColumns, resolved]
    decide +kernel

end ModelSql
