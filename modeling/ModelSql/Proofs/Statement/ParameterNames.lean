import ModelSql.Proofs.Filter.Resolved
import ModelSql.Proofs.Lists
import ModelSql.Proofs.Statement.Assignments
import ModelSql.Proofs.Statement.Slot
/-!
# Names of parameters

An update binds some values under the names of fields and others under the
numbered names of a filter. The two never meet unless a field is called `p`
followed by the number of a placeholder; then a lookup finds the first value only.

* `Parameters.get?_of_mem`: distinct names look up their own values;
* `updates_bind_apart_iff`: exactly when the names of an update are distinct;
* `update_binds_p0_twice`: a table with a field `p0`.
-/

namespace ModelSql

/-- A field is named like one of the first `count` placeholders of a filter. -/
def NamedLikePlaceholder (columns : List Column) (count : Nat) : Prop :=
  ∃ c ∈ columns, ∃ i < count, c.field = "p" ++ toString i

theorem Parameters.get?_of_mem {p : Parameters} (h : p.names.Nodup) {name : String} {v : Value}
    (hm : (name, v) ∈ p.entries) : p.get? name = some v :=
  lookup_eq_some_of_mem h hm

section
variable (d : Dialect)

theorem Dialect.parameter_inj {a b : String} : d.parameter a = d.parameter b ↔ a = b :=
  String.append_right_inj _

theorem Dialect.bind_names (assignments : List Assignment) :
    (d.bind assignments).names = d.parameters (assignedColumns assignments) := by
  simp only [Parameters.names, bind, parameters, assignedColumns, List.map_map, Function.comp_def]

theorem Dialect.parameters_nodup {assignments : List Assignment} (h : FieldsDistinct assignments) :
    (d.parameters (assignedColumns assignments)).Nodup := by
  have fields : (assignments.map fun a => a.column.field).Nodup := h
  have names := fields.map (f := d.parameter) fun _ _ same => d.parameter_inj.mp same
  simpa only [parameters, assignedColumns, List.map_map, Function.comp_def] using names

theorem mem_numbered_names {values : List Value} {name : String} :
    name ∈ (d.numbered 0 values).names ↔ ∃ i < values.length, d.placeholder i = name := by
  simp [numbered_names, List.mem_map, List.mem_range'_1]

/-- Field names and placeholders meet only where a field is named like a placeholder. -/
theorem parameters_disjoint_iff (columns : List Column) (values : List Value) :
    (d.numbered 0 values).names.Disjoint (d.parameters columns) ↔
      ¬ NamedLikePlaceholder columns values.length := by
  constructor
  · rintro disjoint ⟨c, hc, i, hi, same⟩
    have field : d.parameter c.field ∈ d.parameters columns := List.mem_map_of_mem hc
    refine disjoint ((mem_numbered_names d).mpr ⟨i, hi, rfl⟩) ?_
    rw [same] at field
    exact field
  · intro unlike name numbered field
    obtain ⟨i, hi, rfl⟩ := (mem_numbered_names d).mp numbered
    obtain ⟨c, hc, same⟩ := List.mem_map.mp field
    exact unlike ⟨c, hc, i, hi, d.parameter_inj.mp same⟩

end

/-- A partial update looks up the values of its payload. It looks up those of its filter
as well, and all its names are distinct, exactly if no assigned field is named like a
placeholder of the filter. -/
theorem Table.updateAssigned_names {t : Table} {assignments : List Assignment}
    (distinct : FieldsDistinct assignments) (r : ResolvedFilter) :
    let s := t.updateAssigned assignments (r.compile t.dialect)
    (∀ a ∈ assignments, s.parameters.get? (t.dialect.parameter a.column.field) = some a.value) ∧
    (s.parameters.names.Nodup ↔
      ¬ NamedLikePlaceholder (assignedColumns assignments) r.bound.length) := by
  intro s
  have bag : s.parameters = t.dialect.bind assignments ++ t.dialect.numbered 0 r.bound := by
    rw [← r.compile_parameters]
    rfl
  have payload := t.dialect.parameters_nodup distinct
  constructor
  · intro a ha
    have own : (t.dialect.bind assignments).get? (t.dialect.parameter a.column.field) =
        some a.value := by
      refine Parameters.get?_of_mem ?_ (List.mem_map_of_mem ha)
      rw [Dialect.bind_names]
      exact payload
    rw [Parameters.get?] at own ⊢
    rw [bag, Parameters.append_entries, List.lookup_append, own]
    rfl
  · rw [bag, Parameters.append_names, Dialect.bind_names, List.nodup_append',
      ← parameters_disjoint_iff t.dialect]
    constructor
    · rintro ⟨-, -, disjoint⟩
      exact List.disjoint_symm disjoint
    · intro disjoint
      exact ⟨payload, numbered_nodup t.dialect 0 _, List.disjoint_symm disjoint⟩

/-- The names of the two sources of an update are apart exactly if no field that it assigns
is named like a placeholder of its filter. -/
theorem Table.updates_bind_apart_iff (t : Table) (f : Filter) :
    (∀ p s, Payload.update p t f = .ok s → ∃ assignments compiled,
      p.assignments t = .ok assignments ∧ f.compile t = .ok compiled ∧
      (∀ a ∈ assignments,
        s.parameters.get? (t.dialect.parameter a.column.field) = some a.value) ∧
      (s.parameters.names.Nodup ↔
        ¬ NamedLikePlaceholder (assignedColumns assignments) compiled.parameters.size) ∧
      (s.parameters.names.Nodup →
        ∀ entry ∈ compiled.parameters.entries, s.parameters.get? entry.1 = some entry.2)) ∧
    (∀ compiled template, f.compile t = .ok compiled → t.updateAllTemplate? = some template →
      ∃ s, template.splice compiled = .ok s ∧
        (s.parameters.names.Disjoint s.parameterNames ↔
          ¬ NamedLikePlaceholder t.updatableColumns compiled.parameters.size)) := by
  constructor
  · intro p s h
    obtain ⟨assignments, compiled, hassignments, hcompiled, rfl⟩ := p.update_ok h
    obtain ⟨r, -, rfl⟩ := f.compile_ok hcompiled
    have distinct := p.assignments_distinct hassignments
    obtain ⟨own, apart⟩ := updateAssigned_names distinct r
    refine ⟨assignments, r.compile t.dialect, hassignments, hcompiled, own, ?_, ?_⟩
    · rw [r.compile_size]
      exact apart
    · intro nodup entry hentry
      exact Parameters.get?_of_mem nodup (List.mem_append_right _ hentry)
  · intro compiled template hcompiled htemplate
    obtain ⟨r, -, rfl⟩ := f.compile_ok hcompiled
    refine ⟨_, t.splice_updateAllTemplate? _ htemplate, ?_⟩
    rw [r.compile_size, ← parameters_disjoint_iff t.dialect, ← r.compile_parameters]

theorem Table.updates_bind_apart_invoice :
    ∃ s, Payload.update ⟨[("Total", .int 1)], by decide⟩ invoiceTable
        (.ofPredicate ⟨"Id", .comparison .equal (.int 7)⟩) = .ok s ∧
      s.parameters.get? "@p0" = some (.int 7) := by
  refine ⟨_, rfl, ?_⟩
  obtain ⟨assignments, compiled, -, hcompiled, -, -, looked⟩ :=
    (updates_bind_apart_iff invoiceTable (.ofPredicate ⟨"Id", .comparison .equal (.int 7)⟩)).1
      ⟨[("Total", .int 1)], by decide⟩ _ rfl
  cases hcompiled
  exact looked (by decide) ("@p0", .int 7) (by decide)

/-- A model with a field named like the first placeholder of a filter. -/
def clashingModel : Model where
  name := "Price"
  fields := [{ name := "p0", type := .int }, { name := "Amount", type := .int }]

def clashingTable : Table where
  model := "Price"
  name := "Price"
  quotedName := "[Price]"
  engine := .sqlite
  columns := [
    { field := "p0", name := "p0", quoted := "[p0]", type := .int, native := "INTEGER"
      nullable := false, identity := false },
    { field := "Amount", name := "Amount", quoted := "[Amount]", type := .int
      native := "INTEGER", nullable := false, identity := false }]
  ignored := []

/-- The demand for the amount five is bound to the value one of the payload. -/
theorem update_binds_p0_twice :
    clashingModel.build .sqlite = .ok clashingTable ∧
    ∃ s, Payload.update ⟨[("p0", .int 1)], by decide⟩ clashingTable
        (.ofPredicate ⟨"Amount", .comparison .equal (.int 5)⟩) = .ok s ∧
      s.parameters.entries = [("@p0", .int 1), ("@p0", .int 5)] ∧
      ¬ s.parameters.names.Nodup ∧ s.parameters.get? "@p0" = some (.int 1) := by
  refine ⟨ok_of_toOption (by decide +kernel), _, rfl, rfl, ?_, rfl⟩
  decide

end ModelSql
