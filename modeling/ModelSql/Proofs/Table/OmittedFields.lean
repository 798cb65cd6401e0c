import ModelSql.Proofs.Table.Layout
import ModelSql.Schema.CreateTable
import ModelSql.Statement.Template
/-!
# Fields without a column

Where fields have different names, an ignored one leaves its name in the table and nothing
else. A model that does not declare it has the same fault, or the same table but for that
name, which is then refused as unknown.

* `acceptedColumns_persisted`: ignored fields have no part in what is accepted;
* `Model.build_withoutIgnored_eq`: the table is the same but for their names;
* `Model.build_withoutIgnored`: the outcomes of both builds side by side.
-/

namespace ModelSql

/-- The model without its ignored fields. -/
def Model.withoutIgnored (m : Model) : Model := { m with fields := persisted m.fields }

/-- The table without the names of ignored fields. -/
def Table.withoutIgnored (t : Table) : Table := { t with ignored := [] }

/-- The fault of a name if an ignored field counts as one that is not declared. -/
def Fault.undeclared : Fault → Fault
  | ignoredField model field => unknownField model field
  | fault => fault

/-- The tables have the same columns and texts, and names stand for the same columns. A name that
the first refuses as ignored is unknown to the second. -/
structure Table.SameButIgnored (t t' : Table) : Prop where
  model : t'.model = t.model
  engine : t'.engine = t.engine
  name : t'.name = t.name
  quotedName : t'.quotedName = t.quotedName
  columns : t'.columns = t.columns
  identity : t'.identity? = t.identity?
  templates : ∀ kind, t'.template? kind = t.template? kind
  createScript : t'.createScript = t.createScript
  resolve : ∀ name, t'.resolve name = (t.resolve name).mapError Fault.undeclared

/-! ### Accepted fields -/

theorem persisted_persisted (fields : List Field) : persisted (persisted fields) = persisted fields := by
  simp [persisted, List.filter_filter]

theorem any_name_eq_false {earlier : List Field} {name : String}
    (fresh : ∀ f ∈ earlier, f.name ≠ name) : earlier.any (·.name = name) = false := by
  simpa [List.any_eq_false] using fresh

section
variable {d : Dialect} {model : String} {earlier : List Field} {field : Field}
  (fresh : ∀ f ∈ earlier, f.name ≠ field.name)
include fresh

/-- A field of another name is judged by the persisted fields before it. -/
theorem acceptedColumn?_persisted :
    acceptedColumn? d model (persisted earlier) field = acceptedColumn? d model earlier field := by
  have freshToo : ∀ f ∈ persisted earlier, f.name ≠ field.name :=
    fun f mem => fresh f (List.mem_of_mem_filter mem)
  unfold acceptedColumn?
  rw [any_name_eq_false fresh, any_name_eq_false freshToo, persisted_persisted]

theorem acceptedColumn?_of_ignored (ignored : field.ignored = true) :
    acceptedColumn? d model earlier field = .ok none := by
  unfold acceptedColumn?
  rw [any_name_eq_false fresh, if_neg Bool.false_ne_true, if_pos ignored]

end

theorem acceptedColumns_persisted {d : Dialect} {model : String} {earlier fields : List Field}
    (distinct : ((earlier ++ fields).map (·.name)).Nodup) :
    acceptedColumns d model (persisted earlier) (persisted fields) =
      acceptedColumns d model earlier fields := by
  induction fields generalizing earlier with
  | nil => rfl
  | cons field rest ih =>
    have later : (((earlier ++ [field]) ++ rest).map (·.name)).Nodup := by simpa using distinct
    have fresh : ∀ f ∈ earlier, f.name ≠ field.name := by
      intro f mem same
      rw [List.map_append, List.nodup_append] at distinct
      exact distinct.2.2 _ (List.mem_map_of_mem mem) _ List.mem_cons_self same
    cases ignored : field.ignored with
    | true =>
      rw [persisted_cons_of_ignored ignored, acceptedColumns, acceptedColumn?_of_ignored fresh ignored, ← ih later,
        persisted_concat_of_ignored ignored]
      cases acceptedColumns d model (persisted earlier) (persisted rest) <;> rfl
    | false =>
      rw [persisted_cons ignored, acceptedColumns, acceptedColumns,
        acceptedColumn?_persisted fresh, ← ih later, persisted_concat ignored]

/-! ### Builds -/

theorem Model.settleIdentity_withoutIgnored (m : Model) (settings : Settings)
    (columns : List Column) :
    m.withoutIgnored.settleIdentity settings columns = m.settleIdentity settings columns := by
  have chosen : identityField? settings m.withoutIgnored.fields columns =
      identityField? settings m.fields columns := by
    unfold identityField?
    rw [withoutIgnored, persisted_persisted]
  unfold settleIdentity
  rw [chosen]
  rfl

theorem Model.tableOf_withoutIgnored (m : Model) (engine : Engine) (override : Option String)
    (columns : List Column) :
    m.withoutIgnored.tableOf engine override columns =
      (m.tableOf engine override columns).withoutIgnored := by
  have none : m.withoutIgnored.fields.filter (·.ignored) = [] := by
    simp [withoutIgnored, persisted, List.filter_filter]
  rw [tableOf, none]
  rfl

/-- Without the ignored fields the build is the same, but for their names in the table. -/
theorem Model.build_withoutIgnored_eq {m : Model} (distinct : (m.fields.map (·.name)).Nodup)
    (engine : Engine) (override : Option String) (settings : Settings) :
    m.withoutIgnored.build engine override settings =
      (m.build engine override settings).map Table.withoutIgnored := by
  have accepted : acceptedColumns engine.dialect m.name [] m.withoutIgnored.fields =
      acceptedColumns engine.dialect m.name [] m.fields :=
    @acceptedColumns_persisted _ _ [] m.fields distinct
  have name : m.withoutIgnored.name = m.name := rfl
  rw [build_eq, build_eq, name, accepted]
  cases acceptedColumns engine.dialect m.name [] m.fields with
  | error fault => rfl
  | ok columns =>
    simp only [Except.bind, m.settleIdentity_withoutIgnored settings columns]
    by_cases empty : columns = []
    · rw [if_pos empty, if_pos empty]
      rfl
    · rw [if_neg empty, if_neg empty]
      cases m.settleIdentity settings columns with
      | error fault => rfl
      | ok settled => exact congrArg Except.ok (m.tableOf_withoutIgnored engine override settled)

theorem Table.resolve_withoutIgnored (t : Table) (name : String) :
    t.withoutIgnored.resolve name = (t.resolve name).mapError Fault.undeclared := by
  have byField : t.withoutIgnored.columnByField? name = t.columnByField? name := rfl
  have byName : t.withoutIgnored.columnByName? name = t.columnByName? name := rfl
  unfold resolve
  rw [byField, byName]
  cases (t.columnByField? name).or (t.columnByName? name) with
  | some column => rfl
  | none => by_cases ignored : name ∈ t.ignored <;> simp [ignored, withoutIgnored] <;> rfl

theorem Table.sameButIgnored_withoutIgnored (t : Table) : t.SameButIgnored t.withoutIgnored where
  model := rfl
  engine := rfl
  name := rfl
  quotedName := rfl
  columns := rfl
  identity := rfl
  templates kind := by cases kind <;> rfl
  createScript := rfl
  resolve := t.resolve_withoutIgnored

/-- A model with distinct fields fails as it does without its ignored fields, or has the same table
but for the names of these. -/
theorem Model.build_withoutIgnored {m : Model} (distinct : (m.fields.map (·.name)).Nodup)
    (engine : Engine) (override : Option String) (settings : Settings) :
    SameOutcome Table.SameButIgnored (m.build engine override settings)
      (m.withoutIgnored.build engine override settings) := by
  rw [build_withoutIgnored_eq distinct]
  cases m.build engine override settings with
  | error fault => exact .error
  | ok t => exact .ok t.sameButIgnored_withoutIgnored

/-- A model with ignored fields at both ends. What they say of an identity, a type and a column
would be refused of persisted fields. -/
def draftModel : Model where
  name := "Draft"
  fields := [
    { name := "Scratch", type := .custom "Buffer", identity := true, ignored := true },
    { name := "Id", type := .long },
    { name := "Title", type := .string },
    { name := "Cache", type := .string, ignored := true, column := some "TITLE" }]

def draftTable : Table where
  model := "Draft"
  name := "Draft"
  quotedName := "[Draft]"
  engine := .sqlite
  columns := [
    { field := "Id", name := "Id", quoted := "[Id]", type := .long, native := "INTEGER"
      nullable := false, identity := true },
    { field := "Title", name := "Title", quoted := "[Title]", type := .string, native := "TEXT"
      nullable := false, identity := false }]
  ignored := ["Scratch", "Cache"]

theorem Model.build_withoutIgnored_draft :
    (draftModel.fields.map (·.name)).Nodup ∧ draftModel.build .sqlite = .ok draftTable ∧
    ∃ t, draftModel.withoutIgnored.build .sqlite = .ok t ∧ draftTable.SameButIgnored t ∧
      draftTable.resolve "Scratch" = .error (.ignoredField "Draft" "Scratch") ∧
      t.resolve "Scratch" = .error (.unknownField "Draft" "Scratch") := by
  have distinct : (draftModel.fields.map (·.name)).Nodup := by decide
  have built : draftModel.build .sqlite = .ok draftTable := ok_of_toOption (by decide +kernel)
  have outcome := build_withoutIgnored distinct .sqlite none {}
  rw [built] at outcome
  generalize draftModel.withoutIgnored.build .sqlite = second at outcome
  cases outcome with
  | ok related =>
    have refused : draftTable.resolve "Scratch" = .error (.ignoredField "Draft" "Scratch") := by
      have noColumn : (draftTable.columnByField? "Scratch").or
          (draftTable.columnByName? "Scratch") = none := by decide +kernel
      rw [Table.resolve, noColumn]
      rfl
    exact ⟨distinct, built, _, rfl, related, refused, by rw [related.resolve, refused]; rfl⟩

end ModelSql
