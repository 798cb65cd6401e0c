import ModelSql.Proofs.Table.Layout
/-!
# What a table represents

A built table represents its model: it has the columns of the persisted fields, names find
their columns and no others, and the identity is the marked field or, without a mark, the
conventional one.

* `Model.Identifies`: the field that is the identity;
* `Model.build_flagged`: a build flags the column of that field and nothing else;
* `Model.build_represents`: the invariant, for the columns and for their layout.
-/

namespace ModelSql

/-- The field that is the identity of a model: the marked one, or else the field of the
conventional name if it is an integer and not nullable. -/
inductive Model.Identifies (m : Model) (settings : Settings) : Field → Prop where
  | marked {f : Field} : f ∈ persisted m.fields → f.identity = true → m.Identifies settings f
  | conventional {f : Field} : (∀ g ∈ persisted m.fields, g.identity = false) →
      f ∈ persisted m.fields → settings.identityConvention.fieldName? = some f.name →
      f.type.isInteger = true → f.nullable = false → m.Identifies settings f

theorem Model.Identifies.mem {m : Model} {settings : Settings} {f : Field}
    (h : m.Identifies settings f) : f ∈ persisted m.fields := by
  cases h with
  | marked mem | conventional _ mem => exact mem

/-- What holds of the table that is built of a model. -/
structure Table.Represents (t : Table) (m : Model) (settings : Settings) : Prop where
  /-- The columns are those of the persisted fields, in declaration order. -/
  columns : List.Forall₂ (Field.Becomes · t.dialect ·) (persisted m.fields) t.columns
  byField : ∀ name c, t.columnByField? name = some c ↔ c ∈ t.columns ∧ c.field = name
  byName : ∀ name c, t.columnByName? name = some c ↔
    c ∈ t.columns ∧ c.name.toLower = name.toLower
  /-- One column at most is flagged, and it is the identity. -/
  flagged : t.columns.filter (·.identity) = t.identity?.toList
  identity : ∀ c, t.identity? = some c ↔
    c ∈ t.columns ∧ ∃ f, m.Identifies settings f ∧ c.field = f.name
  integer : ∀ c, t.identity? = some c → c.type.isInteger = true
  resolved : ∀ name c, t.resolve name = .ok c ↔
    t.columnByField? name = some c ∨ t.columnByField? name = none ∧ t.columnByName? name = some c
  unresolved : ∀ name, t.columnByField? name = none → t.columnByName? name = none →
    t.resolve name = .error (if ∃ f ∈ m.fields, f.ignored = true ∧ f.name = name then
      .ignoredField m.name name else .unknownField m.name name)

/-! ## The identity -/

theorem identityField?_eq_some_iff {m : Model} {d : Dialect} {settings : Settings}
    {columns : List Column} (configured : FieldsConfigured m.fields)
    (become : List.Forall₂ (Field.Becomes · d ·) (persisted m.fields) columns) {name : String} :
    identityField? settings m.fields columns = some name ↔
      ∃ f, m.Identifies settings f ∧ f.name = name := by
  unfold identityField?
  cases found : (persisted m.fields).find? (·.identity) with
  | some marked =>
    have mem := List.mem_of_find?_eq_some found
    have isMarked : marked.identity = true := List.find?_some found
    rw [Option.some_inj]
    constructor
    · rintro rfl
      exact ⟨marked, .marked mem isMarked, rfl⟩
    · rintro ⟨f, identifies, rfl⟩
      cases identifies with
      | marked mem' isMarked' => rw [configured.marked_unique mem mem' isMarked isMarked']
      | conventional unmarked =>
        rw [unmarked marked mem] at isMarked
        cases isMarked
  | none =>
    have unmarked : ∀ f ∈ persisted m.fields, f.identity = false := by
      intro f mem
      simpa using List.find?_eq_none.mp found f mem
    simp only
    constructor
    · intro h
      obtain ⟨c, conventional, own⟩ := Option.map_eq_some_iff.mp h
      obtain ⟨f, mem, made⟩ := exists_left_of_mem become (List.mem_of_find?_eq_some conventional)
      have eligible := List.find?_some conventional
      simp only [Column.isConventionalIdentity, made.field, made.type, made.nullable,
        Bool.and_eq_true, decide_eq_true_eq, Bool.not_eq_true'] at eligible
      obtain ⟨⟨named, integer⟩, required⟩ := eligible
      exact ⟨f, .conventional unmarked mem named integer required, made.field.symm.trans own⟩
    · rintro ⟨f, identifies, rfl⟩
      cases identifies with
      | marked mem isMarked =>
        rw [unmarked f mem] at isMarked
        cases isMarked
      | conventional _ mem named integer required =>
        obtain ⟨c, hc, made⟩ := exists_right_of_mem become mem
        cases conventional : columns.find? (·.isConventionalIdentity settings) with
        | none =>
          have refused := List.find?_eq_none.mp conventional c hc
          simp [Column.isConventionalIdentity, made.field, made.type, made.nullable, named,
            integer, required] at refused
        | some other =>
          have eligible := List.find?_some conventional
          simp only [Column.isConventionalIdentity, named, Bool.and_eq_true, decide_eq_true_eq,
            Option.some_inj] at eligible
          exact congrArg some eligible.1.1.symm

theorem Table.identity?_of_flagged {t : Table} {identity : Option Column}
    (flagged : t.columns.filter (·.identity) = identity.toList) : t.identity? = identity := by
  rw [identity?, ← List.head?_filter, flagged]
  cases identity <;> rfl

section
variable {m : Model} {engine : Engine} {override : Option String} {settings : Settings} {t : Table}
  (built : m.build engine override settings = .ok t)
include built

/-- A build flags the column of the identity's field, if there is one, and no other. -/
theorem Model.build_flagged :
    t.columns.filter (·.identity) = t.identity?.toList ∧
    ∀ name, t.identity?.map (·.field) = some name ↔
      ∃ f, m.Identifies settings f ∧ f.name = name := by
  suffices h : ∃ identity : Option Column, t.columns.filter (·.identity) = identity.toList ∧
      ∀ name, identity.map (·.field) = some name ↔
        ∃ f, m.Identifies settings f ∧ f.name = name by
    obtain ⟨identity, flagged, identifies⟩ := h
    rw [t.identity?_of_flagged flagged]
    exact ⟨flagged, identifies⟩
  obtain ⟨accepted, settled, haccepted, -, hsettled, rfl⟩ := m.build_ok built
  have become := acceptedColumns_become haccepted
  have unmarked : ∀ c ∈ accepted, c.identity = false :=
    fun c mem => ((acceptedColumns_ok haccepted).1 c mem).2.1
  have configured := m.build_fieldsConfigured built
  have identifies (name : String) :
      identityField? settings m.fields accepted = some name ↔
        ∃ f, m.Identifies settings f ∧ f.name = name :=
    identityField?_eq_some_iff configured become
  simp only [← identifies]
  cases chosen : identityField? settings m.fields accepted with
  | none =>
    rw [chosen] at hsettled
    cases hsettled
    refine ⟨none, List.filter_eq_nil_iff.mpr fun c mem => ?_, fun _ => Iff.rfl⟩
    simp [unmarked c mem]
  | some name =>
    rw [chosen] at hsettled
    obtain ⟨f, identifies, rfl⟩ := (identifies name).mp chosen
    obtain ⟨c, mem, made⟩ := exists_right_of_mem become identifies.mem
    obtain ⟨place, there⟩ := List.getElem?_of_mem mem
    rw [← made.field] at hsettled ⊢
    have distinct := configured.columns_nodup become
    simp only [withIdentity_eq_set m.name distinct there] at hsettled
    split at hsettled
    · cases hsettled
      have inside := (List.getElem?_eq_some_iff.mp there).1
      exact ⟨some { c with identity := true }, filter_identity_set unmarked rfl inside,
        fun _ => Iff.rfl⟩
    · cases hsettled

theorem Model.build_identity {c : Column} :
    t.identity? = some c ↔ c ∈ t.columns ∧ ∃ f, m.Identifies settings f ∧ c.field = f.name := by
  have identifies := (m.build_flagged built).2
  constructor
  · intro found
    obtain ⟨f, hf, own⟩ := (identifies c.field).mp (by rw [found]; rfl)
    exact ⟨(t.mem_of_identity? found).1, f, hf, own.symm⟩
  · rintro ⟨mem, f, hf, own⟩
    obtain ⟨other, found, same⟩ := Option.map_eq_some_iff.mp ((identifies f.name).mpr ⟨f, hf, rfl⟩)
    have distinct := m.build_fieldsDistinct built
    rw [found, List.inj_on_of_nodup_map distinct (t.mem_of_identity? found).1 mem
      (same.trans own.symm)]

/-- A column that is flagged is the identity. -/
theorem Model.build_identity_of_flag {c : Column} (mem : c ∈ t.columns) (flag : c.identity = true) :
    t.identity? = some c := by
  have flagged := List.mem_filter.mpr ⟨mem, flag⟩
  rw [(m.build_flagged built).1] at flagged
  exact Option.mem_toList.mp flagged

theorem Model.build_model : t.model = m.name := by
  obtain ⟨accepted, settled, -, -, -, rfl⟩ := m.build_ok built
  rfl

theorem Model.build_ignored {name : String} :
    name ∈ t.ignored ↔ ∃ f ∈ m.fields, f.ignored = true ∧ f.name = name := by
  obtain ⟨accepted, settled, -, -, -, rfl⟩ := m.build_ok built
  simp only [List.mem_map, List.mem_filter, and_assoc]

/-! ## Names -/

/-- The table is laid out with exact places, in which names look up what a search finds. -/
theorem Model.build_layout :
    ∃ l : Layout, m.layout engine settings = .ok l ∧ t = l.toTable m engine override ∧
      (∀ name, l.byField.column? name = t.columnByField? name) ∧
      (∀ name, l.byName.column? name.toLower = t.columnByName? name) ∧
      l.identity? = t.identity? := by
  have same := m.build_eq_layout engine override settings
  rw [built] at same
  generalize m.layout engine settings = outcome at same ⊢
  cases same with
  | @ok _ l related =>
    obtain ⟨rfl, identity⟩ := related
    refine ⟨l, rfl, rfl, ?_, ?_, identity.symm⟩
    · intro name
      exact l.byField.column?_eq name
    · intro name
      exact l.byName.column?_eq name.toLower

theorem Model.build_columnByField? {name : String} {c : Column} :
    t.columnByField? name = some c ↔ c ∈ t.columns ∧ c.field = name := by
  obtain ⟨l, -, rfl, byField, -⟩ := m.build_layout built
  rw [← byField]
  exact l.byField.column?_eq_some_iff

theorem Model.build_columnByName? {name : String} {c : Column} :
    t.columnByName? name = some c ↔ c ∈ t.columns ∧ c.name.toLower = name.toLower := by
  obtain ⟨l, -, rfl, -, byName, -⟩ := m.build_layout built
  rw [← byName]
  exact l.byName.column?_eq_some_iff

end

theorem Table.resolve_ok {t : Table} {name : String} {c : Column} :
    t.resolve name = .ok c ↔ t.columnByField? name = some c ∨
      t.columnByField? name = none ∧ t.columnByName? name = some c := by
  unfold resolve
  cases t.columnByField? name with
  | some own => simp
  | none =>
    cases t.columnByName? name with
    | some other => simp
    | none =>
      simp only [Option.or_none]
      split <;> simp

theorem Table.resolve_error {t : Table} {name : String} (noField : t.columnByField? name = none)
    (noName : t.columnByName? name = none) :
    t.resolve name = .error (if name ∈ t.ignored then .ignoredField t.model name
      else .unknownField t.model name) := by
  simp only [resolve, noField, noName, Option.or_none]
  by_cases ignored : name ∈ t.ignored
  · rw [if_pos ignored, if_pos ignored]
  · rw [if_neg ignored, if_neg ignored]

/-- A built table represents its model, and it is laid out with exact places. -/
theorem Model.build_represents {m : Model} {engine : Engine} {override : Option String}
    {settings : Settings} {t : Table} (built : m.build engine override settings = .ok t) :
    t.Represents m settings ∧
    ∃ l : Layout, m.layout engine settings = .ok l ∧ t = l.toTable m engine override ∧
      (∀ name, l.byField.column? name = t.columnByField? name) ∧
      (∀ name, l.byName.column? name.toLower = t.columnByName? name) ∧
      l.identity? = t.identity? := by
  refine ⟨?_, m.build_layout built⟩
  constructor
  case columns => exact m.build_columns built
  case byField => exact fun _ _ => m.build_columnByField? built
  case byName => exact fun _ _ => m.build_columnByName? built
  case flagged => exact (m.build_flagged built).1
  case identity => exact fun _ => m.build_identity built
  case integer =>
    intro c found
    obtain ⟨mem, flag⟩ := t.mem_of_identity? found
    exact ((m.build_wellFormed built).column c mem).integer flag
  case resolved => exact fun _ _ => t.resolve_ok
  case unresolved =>
    intro name noField noName
    rw [t.resolve_error noField noName, m.build_model built]
    simp only [m.build_ignored built]

theorem Model.build_represents_invoice :
    invoiceModel.build .sqlServer = .ok invoiceTable ∧
    invoiceModel.Identifies {} { name := "Id", type := .long } ∧
    (∃ c, invoiceTable.identity? = some c ∧ c.field = "Id" ∧ c.type.isInteger = true) ∧
    ∃ l : Layout, invoiceModel.layout .sqlServer {} = .ok l ∧
      ∃ c, l.byName.column? "REMARK".toLower = some c ∧ c.field = "Note" := by
  obtain ⟨represents, l, laidOut, -, -, byName, -⟩ := build_represents build_invoice
  have identifies : invoiceModel.Identifies {} { name := "Id", type := .long } :=
    .conventional (by decide) (by decide) rfl rfl rfl
  have found := (represents.identity _).mpr ⟨List.mem_cons_self, _, identifies, rfl⟩
  have remark : ∃ c ∈ invoiceTable.columns, c.name = "remark" ∧ c.field = "Note" := by decide
  obtain ⟨c, mem, named, field⟩ := remark
  have anyCase : c.name.toLower = "REMARK".toLower := by
    rw [named]
    exact toLower_eq_of_chars (by decide)
  refine ⟨build_invoice, identifies, ⟨_, found, rfl, represents.integer _ found⟩, l, laidOut, ?_⟩
  rw [byName]
  exact ⟨c, (represents.byName _ _).mpr ⟨mem, anyCase⟩, field⟩

end ModelSql
