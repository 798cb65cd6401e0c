import ModelSql.Proofs.Table.FieldRules
/-!
# Columns of built tables

The columns of a built table are the persisted fields of its model in declaration
order, apart from the mark of the identity. Fields have distinct names, so a name
stands for one column at most.

* `Model.build_columns`: the columns and the fields they come from;
* `Model.build_fieldsDistinct`: no two columns belong to fields of one name;
* `Table.resolve_ok_iff`: the names that stand for a column.
-/

namespace ModelSql

/-- The column is that of the field in a dialect, apart from the mark of the identity. -/
def Field.Becomes (f : Field) (d : Dialect) (c : Column) : Prop :=
  d.nativeType f.type = some c.native ∧ { c with identity := false } = f.toColumn d c.native

theorem Field.Becomes.field {f : Field} {d : Dialect} {c : Column} (h : f.Becomes d c) :
    c.field = f.name :=
  congrArg Column.field h.2

theorem Field.Becomes.type {f : Field} {d : Dialect} {c : Column} (h : f.Becomes d c) :
    c.type = f.type :=
  congrArg Column.type h.2

theorem Field.Becomes.columnName {f : Field} {d : Dialect} {c : Column} (h : f.Becomes d c) :
    c.name = f.columnName :=
  congrArg Column.name h.2

theorem Field.Becomes.nullable {f : Field} {d : Dialect} {c : Column} (h : f.Becomes d c) :
    c.nullable = f.nullable :=
  congrArg Column.nullable h.2

/-- The columns are those of the persisted fields, in order. -/
theorem acceptedColumns_become {d : Dialect} {model : String} {earlier fields : List Field}
    {columns : List Column} (h : acceptedColumns d model earlier fields = .ok columns) :
    List.Forall₂ (Field.Becomes · d ·) (persisted fields) columns := by
  induction fields generalizing earlier columns with
  | nil =>
    cases h
    exact .nil
  | cons field fields ih =>
    obtain ⟨column?, accepted, h⟩ := steps_of_ok h
    obtain ⟨rest, others, h⟩ := steps_of_ok h
    cases h
    obtain ⟨ignored, rfl⟩ | ⟨persists, native, known, -, rfl⟩ := acceptedColumn?_ok accepted
    · rw [persisted_cons_of_ignored ignored]
      exact ih others
    · rw [persisted_cons persists]
      exact .cons ⟨known, rfl⟩ (ih others)

theorem withIdentity_become {d : Dialect} {model field : String} {fields : List Field}
    {columns settled : List Column} (h : withIdentity model field columns = .ok settled)
    (become : List.Forall₂ (Field.Becomes · d ·) fields columns) :
    List.Forall₂ (Field.Becomes · d ·) fields settled := by
  induction become generalizing settled with
  | nil =>
    cases h
    exact .nil
  | @cons f c fields columns first _ ih =>
    unfold withIdentity at h
    split at h
    · split at h
      · cases h
        exact .cons first ‹_›
      · cases h
    · obtain ⟨others, rest, rfl⟩ := map_eq_ok_iff.mp h
      exact .cons first (ih rest)

/-- The columns of a built table are those of the persisted fields of its model, in order. -/
theorem Model.build_columns {m : Model} {engine : Engine} {override : Option String}
    {settings : Settings} {t : Table} (h : m.build engine override settings = .ok t) :
    List.Forall₂ (Field.Becomes · t.dialect ·) (persisted m.fields) t.columns := by
  obtain ⟨accepted, settled, haccepted, -, hsettled, rfl⟩ := m.build_ok h
  have become := acceptedColumns_become haccepted
  split at hsettled
  · cases hsettled
    exact become
  · exact withIdentity_become hsettled become

theorem fields_of_become {d : Dialect} {fields : List Field} {columns : List Column}
    (h : List.Forall₂ (Field.Becomes · d ·) fields columns) :
    columns.map (·.field) = fields.map (·.name) := by
  induction h with
  | nil => rfl
  | cons first _ ih => rw [List.map_cons, List.map_cons, first.field, ih]

/-- The columns of fields that break no rule belong to fields of different names. -/
theorem FieldsConfigured.columns_nodup {d : Dialect} {fields : List Field} {columns : List Column}
    (configured : FieldsConfigured fields)
    (become : List.Forall₂ (Field.Becomes · d ·) (persisted fields) columns) :
    (columns.map (·.field)).Nodup := by
  rw [fields_of_become become]
  have persists : (persisted fields).Sublist fields := List.filter_sublist
  exact configured.distinctNames.sublist (persists.map _)

section
variable {m : Model} {engine : Engine} {override : Option String} {settings : Settings} {t : Table}

/-- The fields of a model with a table break no rule. -/
theorem Model.build_fieldsConfigured (h : m.build engine override settings = .ok t) :
    FieldsConfigured m.fields := by
  obtain ⟨accepted, -, haccepted, -⟩ := m.build_ok h
  exact fieldsConfigured_of_accepted haccepted

/-- No two columns of a built table belong to fields of one name. -/
theorem Model.build_fieldsDistinct (h : m.build engine override settings = .ok t) :
    (t.columns.map (·.field)).Nodup :=
  (m.build_fieldsConfigured h).columns_nodup (m.build_columns h)

theorem Model.build_columns_ne_nil (h : m.build engine override settings = .ok t) :
    t.columns ≠ [] := by
  obtain ⟨accepted, settled, -, nonempty, hsettled, rfl⟩ := m.build_ok h
  split at hsettled
  · cases hsettled
    exact nonempty
  · obtain ⟨names, -⟩ := withIdentity_ok hsettled
    intro (none : settled = [])
    rw [none] at names
    exact nonempty (List.map_eq_nil_iff.mp names.symm)

/-! ## What a name stands for -/

theorem toList_toLower (text : String) : text.toLower.toList = text.toList.map Char.toLower :=
  String.toList_map

theorem toLower_eq_of_chars {a b : String}
    (h : a.toList.map Char.toLower = b.toList.map Char.toLower) : a.toLower = b.toLower := by
  apply String.toList_inj.mp
  rw [toList_toLower, toList_toLower, h]

/-- The key is the name of the column's field, or it is the column's own name in any case
and no field is called so. -/
def Table.Denotes (t : Table) (key : String) (c : Column) : Prop :=
  c ∈ t.columns ∧ (c.field = key ∨
    (∀ other ∈ t.columns, other.field ≠ key) ∧ c.name.toLower = key.toLower)

/-- A name resolves to the column it stands for. -/
theorem Table.resolve_ok_iff (fields : (t.columns.map (·.field)).Nodup)
    (names : NamesDistinct t.columns) {key : String} {c : Column} :
    t.resolve key = .ok c ↔ t.Denotes key c := by
  unfold resolve
  constructor
  · intro h
    cases byField : t.columnByField? key with
    | some found =>
      obtain rfl : found = c := by simpa [byField] using h
      have own : found.field = key := by simpa using List.find?_some byField
      exact ⟨List.mem_of_find?_eq_some byField, .inl own⟩
    | none =>
      have other : ∀ other ∈ t.columns, other.field ≠ key := by
        intro other mem
        simpa using List.find?_eq_none.mp byField other mem
      cases byName : t.columnByName? key with
      | none =>
        simp only [byField, byName, Option.or_none] at h
        split at h <;> cases h
      | some found =>
        obtain rfl : found = c := by simpa [byField, byName] using h
        have own : found.name.toLower = key.toLower := by
          simpa [Column.isNamed] using List.find?_some byName
        exact ⟨List.mem_of_find?_eq_some byName, .inr ⟨other, own⟩⟩
  · rintro ⟨mem, rfl | ⟨other, own⟩⟩
    · have byField : t.columnByField? c.field = some c := find?_key fields mem
      rw [byField]
      rfl
    · have byField : t.columnByField? key = none := by
        refine List.find?_eq_none.mpr fun first hfirst => ?_
        simpa using other first hfirst
      rw [byField, t.columnByName?_of_toLower names mem own]
      rfl

theorem Model.build_resolve_iff (h : m.build engine override settings = .ok t) {key : String}
    {c : Column} : t.resolve key = .ok c ↔ t.Denotes key c :=
  t.resolve_ok_iff (m.build_fieldsDistinct h) (m.build_wellFormed h).distinct

end

end ModelSql
