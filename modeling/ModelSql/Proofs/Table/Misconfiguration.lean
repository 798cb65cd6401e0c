import ModelSql.Proofs.Table.Columns
/-!
# Misconfigured models

A build succeeds for the models that are configured properly, whatever the engine,
the name of the table and the settings are. The fault of any other model is that of
its first field that breaks a rule, or else that it has no columns, or else that its
marked identity is no integer.

* `Model.Configured`: what a model has to satisfy;
* `Model.Reports`: the fault of a model;
* `Model.build_faults_iff`: builds succeed for the former, and fail with the latter.
-/

namespace ModelSql

/-- The model is configured properly. -/
structure Model.Configured (m : Model) : Prop extends FieldsConfigured m.fields where
  persists : persisted m.fields ≠ []
  integer : ∀ f ∈ persisted m.fields, f.identity = true → f.type.isInteger = true

/-- The fault of a model: two rules are looked at only if no field breaks one of its own. -/
inductive Model.Reports (m : Model) (engine : Engine) : Fault → Prop where
  | field {fault : Fault} : FirstRefused engine m.name m.fields fault → m.Reports engine fault
  | noColumns : FieldsConfigured m.fields → persisted m.fields = [] →
      m.Reports engine (.noColumns m.name)
  | invalidIdentityType {f : Field} : FieldsConfigured m.fields → f ∈ persisted m.fields →
      f.identity = true → f.type.isInteger = false →
      m.Reports engine (.invalidIdentityType m.name f.name f.type)

section
variable {m : Model} {engine : Engine}

theorem Model.Reports.not_configured {fault : Fault} (h : m.Reports engine fault) :
    ¬ m.Configured := by
  intro configured
  cases h with
  | field refused => exact refused.not_unbroken (unbroken_iff.mpr configured.toFieldsConfigured)
  | noColumns _ none => exact configured.persists none
  | invalidIdentityType _ mem marked other =>
    have integer := configured.integer _ mem marked
    rw [other] at integer
    cases integer

/-- A model has one fault at most. -/
theorem Model.Reports.unique {a b : Fault} (ha : m.Reports engine a) (hb : m.Reports engine b) :
    a = b := by
  cases ha with
  | field refused =>
    cases hb with
    | field refused' => exact refused.unique refused'
    | noColumns clean | invalidIdentityType clean =>
      exact absurd (unbroken_iff.mpr clean) refused.not_unbroken
  | noColumns clean none =>
    cases hb with
    | field refused => exact absurd (unbroken_iff.mpr clean) refused.not_unbroken
    | noColumns => rfl
    | invalidIdentityType _ mem =>
      rw [none] at mem
      cases mem
  | invalidIdentityType clean mem marked =>
    cases hb with
    | field refused => exact absurd (unbroken_iff.mpr clean) refused.not_unbroken
    | noColumns _ none =>
      rw [none] at mem
      cases mem
    | invalidIdentityType _ mem' marked' => rw [clean.marked_unique mem mem' marked marked']

end

/-! ## The identity -/

/-- The identity is settled unless the column of the field is no integer. -/
theorem withIdentity_spec (model field : String) (columns : List Column) :
    (∃ settled, withIdentity model field columns = .ok settled ∧
      ∀ c, columns.find? (·.field = field) = some c → c.type.isInteger = true) ∨
    ∃ c, columns.find? (·.field = field) = some c ∧ c.type.isInteger = false ∧
      withIdentity model field columns = .error (.invalidIdentityType model field c.type) := by
  induction columns with
  | nil => exact .inl ⟨[], rfl, nofun⟩
  | cons c columns ih =>
    by_cases own : c.field = field
    · have found : (c :: columns).find? (·.field = field) = some c :=
        List.find?_cons_of_pos (by simpa using own)
      rw [found]
      by_cases integer : c.type.isInteger = true
      · refine .inl ⟨{ c with identity := true } :: columns, ?_, ?_⟩
        · simp only [withIdentity, own, integer, if_true]
        · rintro _ ⟨⟩
          exact integer
      · refine .inr ⟨c, rfl, by simpa using integer, ?_⟩
        simp only [withIdentity, own, integer, if_true, Bool.false_eq_true, if_false]
    · have found : (c :: columns).find? (·.field = field) = columns.find? (·.field = field) :=
        List.find?_cons_of_neg (by simpa using own)
      rw [found]
      simp only [withIdentity, own, if_false]
      obtain ⟨settled, rest, integer⟩ | ⟨other, first, noInteger, rest⟩ := ih
      · exact .inl ⟨c :: settled, by rw [rest]; rfl, integer⟩
      · exact .inr ⟨other, first, noInteger, by rw [rest]; rfl⟩

theorem withIdentity_of_mem (model : String) {columns : List Column}
    (distinct : (columns.map (·.field)).Nodup) {c : Column} (mem : c ∈ columns) :
    (c.type.isInteger = true ∧ ∃ settled, withIdentity model c.field columns = .ok settled) ∨
    (c.type.isInteger = false ∧ withIdentity model c.field columns =
      .error (.invalidIdentityType model c.field c.type)) := by
  have found := find?_key distinct mem
  obtain ⟨settled, ok, integer⟩ | ⟨other, first, noInteger, refused⟩ :=
    withIdentity_spec model c.field columns
  · exact .inl ⟨integer c found, settled, ok⟩
  · rw [found] at first
    cases first
    exact .inr ⟨noInteger, refused⟩

/-- The columns with the identity of the model, if it has one. -/
def Model.settleIdentity (m : Model) (settings : Settings) (columns : List Column) :
    Except Fault (List Column) :=
  match identityField? settings m.fields columns with
  | none => .ok columns
  | some field => withIdentity m.name field columns

/-- A conventional identity is an integer anyway, so a marked one alone can be refused. -/
theorem Model.settleIdentity_spec {m : Model} {d : Dialect} {columns : List Column}
    (configured : FieldsConfigured m.fields)
    (become : List.Forall₂ (Field.Becomes · d ·) (persisted m.fields) columns)
    (settings : Settings) :
    (∃ settled, m.settleIdentity settings columns = .ok settled ∧
      ∀ f ∈ persisted m.fields, f.identity = true → f.type.isInteger = true) ∨
    ∃ f ∈ persisted m.fields, f.identity = true ∧ f.type.isInteger = false ∧
      m.settleIdentity settings columns = .error (.invalidIdentityType m.name f.name f.type) := by
  have distinct := configured.columns_nodup become
  cases marked : (persisted m.fields).find? (·.identity) with
  | some f =>
    have mem := List.mem_of_find?_eq_some marked
    have isMarked : f.identity = true := List.find?_some marked
    obtain ⟨c, hc, made⟩ := exists_right_of_mem become mem
    have settle : m.settleIdentity settings columns = withIdentity m.name f.name columns := by
      simp only [settleIdentity, identityField?, marked]
    have outcome := withIdentity_of_mem m.name distinct hc
    rw [made.field, made.type] at outcome
    rw [settle]
    obtain ⟨integer, settled, ok⟩ | ⟨noInteger, refused⟩ := outcome
    · refine .inl ⟨settled, ok, fun g hg markedG => ?_⟩
      rw [configured.marked_unique hg mem markedG isMarked]
      exact integer
    · exact .inr ⟨f, mem, isMarked, noInteger, refused⟩
  | none =>
    have unmarked : ∀ f ∈ persisted m.fields, f.identity = true → f.type.isInteger = true :=
      fun f mem isMarked => absurd isMarked (List.find?_eq_none.mp marked f mem)
    left
    cases conventional : columns.find? (·.isConventionalIdentity settings) with
    | none =>
      refine ⟨columns, ?_, unmarked⟩
      simp only [settleIdentity, identityField?, marked, conventional, Option.map_none]
    | some c =>
      have integer : c.type.isInteger = true := by
        have eligible := List.find?_some conventional
        simp only [Column.isConventionalIdentity, Bool.and_eq_true] at eligible
        exact eligible.1.2
      have settle : m.settleIdentity settings columns = withIdentity m.name c.field columns := by
        simp only [settleIdentity, identityField?, marked, conventional, Option.map_some]
      rw [settle]
      obtain ⟨-, settled, ok⟩ | ⟨noInteger, -⟩ :=
        withIdentity_of_mem m.name distinct (List.mem_of_find?_eq_some conventional)
      · exact ⟨settled, ok, unmarked⟩
      · rw [integer] at noInteger
        cases noInteger

/-! ## Builds -/

/-- The table of a model with the given columns. -/
def Model.tableOf (m : Model) (engine : Engine) (override : Option String) (columns : List Column) :
    Table where
  model := m.name
  name := m.tableName override
  quotedName := engine.dialect.quoteIdentifier (m.tableName override)
  engine := engine
  columns := columns
  ignored := (m.fields.filter (·.ignored)).map (·.name)

/-- The steps of a build: fields are accepted, there are any, and the identity is settled. -/
theorem Model.build_eq (m : Model) (engine : Engine) (override : Option String)
    (settings : Settings) :
    m.build engine override settings =
      (acceptedColumns engine.dialect m.name [] m.fields).bind fun columns =>
        if columns = [] then .error (.noColumns m.name)
        else (m.settleIdentity settings columns).map (m.tableOf engine override) := by
  unfold build settleIdentity
  cases acceptedColumns engine.dialect m.name [] m.fields with
  | error fault => rfl
  | ok columns =>
    cases columns with
    | nil => rfl
    | cons c columns =>
      simp only [bind, Except.bind, List.isEmpty_cons, Bool.false_eq_true, if_false, pure,
        Except.pure, reduceCtorEq]
      cases identityField? settings m.fields (c :: columns) with
      | none => rfl
      | some field => cases withIdentity m.name field (c :: columns) <;> rfl

theorem Model.build_of_accepted {m : Model} {engine : Engine} {columns : List Column}
    (accepted : acceptedColumns engine.dialect m.name [] m.fields = .ok columns)
    (nonempty : columns ≠ []) (override : Option String) (settings : Settings) :
    m.build engine override settings =
      (m.settleIdentity settings columns).map (m.tableOf engine override) := by
  rw [m.build_eq, accepted, Except.bind, if_neg nonempty]

/-- A build succeeds for a model that is configured properly, and otherwise it reports the
model's fault. -/
theorem Model.build_spec (m : Model) (engine : Engine) (override : Option String)
    (settings : Settings) :
    (∃ t, m.build engine override settings = .ok t ∧ m.Configured) ∨
    ∃ fault, m.build engine override settings = .error fault ∧ m.Reports engine fault := by
  have start : Unbroken engine m.name [] := unbroken_iff.mpr fieldsConfigured_nil
  obtain ⟨columns, accepted, clean⟩ | ⟨fault, refused, first⟩ :=
    acceptedColumns_spec m.fields start
  · have configured : FieldsConfigured m.fields := unbroken_iff.mp clean
    have become := acceptedColumns_become accepted
    by_cases empty : columns = []
    · rw [empty] at accepted become
      refine .inr ⟨.noColumns m.name, ?_, .noColumns configured (List.forall₂_nil_right_iff.mp become)⟩
      simp only [build, accepted, bind, Except.bind, List.isEmpty_nil, if_true]
      rfl
    · rw [m.build_of_accepted accepted empty]
      obtain ⟨settled, ok, integer⟩ | ⟨f, mem, marked, noInteger, refused⟩ :=
        m.settleIdentity_spec configured become settings
      · have persists : persisted m.fields ≠ [] := by
          intro none
          rw [none] at become
          exact empty (List.forall₂_nil_left_iff.mp become)
        rw [ok]
        exact .inl ⟨_, rfl, configured, persists, integer⟩
      · rw [refused]
        exact .inr ⟨_, rfl, .invalidIdentityType configured mem marked noInteger⟩
  · refine .inr ⟨fault, ?_, .field first⟩
    simp only [build, refused, bind, Except.bind]

/-- Builds succeed for the models that are configured properly, and fail with the fault of
any other. -/
theorem Model.build_faults_iff (m : Model) (engine : Engine) (override : Option String)
    (settings : Settings) :
    ((∃ t, m.build engine override settings = .ok t) ↔ m.Configured) ∧
    ∀ fault, m.build engine override settings = .error fault ↔ m.Reports engine fault := by
  obtain ⟨t, built, configured⟩ | ⟨reported, failed, reports⟩ :=
    m.build_spec engine override settings
  · rw [built]
    refine ⟨iff_of_true ⟨t, rfl⟩ configured, fun fault => ?_⟩
    exact iff_of_false nofun fun reports => reports.not_configured configured
  · rw [failed]
    refine ⟨iff_of_false nofun reports.not_configured, fun fault => ?_⟩
    constructor
    · rintro ⟨⟩
      exact reports
    · intro others
      rw [reports.unique others]

/-- The second field breaks three rules, of which that of its name comes first. -/
example : Model.build { name := "Price", fields := [
    { name := "Net", type := .int },
    { name := "Net", type := .custom "Money", column := some "NET" }] } .sqlite =
      .error (.duplicateField "Price" "Net") := rfl

end ModelSql
