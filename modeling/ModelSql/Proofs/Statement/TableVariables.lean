import ModelSql.Proofs.Statement.Identity
import ModelSql.Proofs.Statement.PayloadKeys
/-!
# Variables that inserts declare

On SQL Server an insert that reads a generated identity back declares a table variable for it.
The parameters of the statement are named after fields, and nothing keeps them apart from the
variable: they meet if a field has its name.

* `Sql.declaredVariable?`: the table variable that a text declares;
* `Model.declares_parameter_iff`: when an insert of some columns declares a parameter;
* `Model.insert_declares_parameter_iff`: the same for templates and payloads.
-/

namespace ModelSql

open Sql

/-- The table variable that a text declares first of all. -/
def Sql.declaredVariable? (text : String) : Option String :=
  match tokens text with
  | .word "DECLARE" :: .parameter name :: .word "TABLE" :: _ => some name
  | _ => none

/-- A parameter of the statement is also the variable that its text declares. -/
def Statement.DeclaresParameter (s : Statement) : Prop :=
  ∃ name, declaredVariable? s.text = some name ∧ name ∈ s.parameterNames ++ s.parameters.names

theorem Sql.Begins.declaredVariable?_eq {text name : String}
    (h : Begins text [.word "DECLARE", .parameter name, .word "TABLE"]) :
    declaredVariable? text = some name := by
  obtain ⟨more, read⟩ := h.tokens
  rw [declaredVariable?, read]
  rfl

theorem Sql.Begins.declaredVariable?_eq_none {text : String} (h : Begins text [.word "SET"]) :
    declaredVariable? text = none := by
  obtain ⟨more, read⟩ := h.tokens
  rw [declaredVariable?, read]
  rfl

/-! ## Inserts of columns -/

section
variable {m : Model} {override : Option String} {settings : Settings} {t : Table}
  (built : m.build .sqlServer override settings = .ok t)
include built

theorem Model.insertedIds_mem_iff {columns : List Column} :
    insertedIds ∈ t.dialect.parameters columns ↔ ∃ c ∈ columns, c.field = "InsertedIds" := by
  have named : insertedIds = t.dialect.parameter "InsertedIds" := by
    rw [Table.dialect, m.build_engine built]
    decide
  simp only [Dialect.parameters, List.mem_map, named, Dialect.parameter_inj]

variable {identity : Column} (generated : t.identity? = some identity) {columns : List Column}
  (hc : ∀ c ∈ columns, c ∈ t.columns)
include generated hc

/-- The variable is declared unless the insert supplies the identity. -/
theorem Model.declaredVariable?_insertOf : declaredVariable? (t.insertOf columns) =
    if identity ∈ columns then none else some insertedIds := by
  have wellFormed := m.build_wellFormed built
  obtain ⟨mem, marked⟩ := t.mem_of_identity? generated
  split
  · rename_i supplied
    have encloses := m.insert_supplied built generated hc supplied
    rw [Table.Encloses] at encloses
    have allowance : Begins ("SET IDENTITY_INSERT " ++ t.quotedName ++ " ON;\n")
        ([.word "SET"] ++ [.word "IDENTITY_INSERT", t.token, .word "ON", .punctuation ';']) :=
      (opens_allowance wellFormed).begins
    rw [encloses]
    exact allowance.of_append.append.append.append.append.declaredVariable?_eq_none
  · rename_i other
    obtain ⟨stop, -, begins⟩ := begins_insertThroughVariable wellFormed hc mem marked
    rw [m.insert_generated built generated hc other]
    have declaration : Begins (t.dialect.insertThroughVariable t.quotedName columns identity)
        ([.word "DECLARE", .parameter insertedIds, .word "TABLE"] ++ _) :=
      begins.of_append.of_append
    exact declaration.of_append.declaredVariable?_eq

/-- A parameter is declared again if one of the columns has the name of the variable, and the
variable is declared. -/
theorem Model.declares_parameter_iff {s : Statement} (text : s.text = t.insertOf columns)
    (names : s.parameterNames ++ s.parameters.names = t.dialect.parameters columns) :
    s.DeclaresParameter ↔ identity ∉ columns ∧ ∃ c ∈ columns, c.field = "InsertedIds" := by
  rw [Statement.DeclaresParameter, text, names, m.declaredVariable?_insertOf built generated hc,
    ← m.insertedIds_mem_iff built]
  by_cases supplied : identity ∈ columns
  · simp [supplied]
  · simp [supplied]

end

section
variable {m : Model} {override : Option String} {settings : Settings} {t : Table}
  (built : m.build .sqlServer override settings = .ok t) {identity : Column}
  (generated : t.identity? = some identity)
include built generated

theorem Model.mem_dataColumns_iff {c : Column} :
    c ∈ t.dataColumns ↔ c ∈ t.columns ∧ c.field ≠ identity.field := by
  obtain ⟨mem, marked⟩ := t.mem_of_identity? generated
  rw [Table.dataColumns, List.mem_filter, Bool.not_eq_true']
  refine and_congr_right fun hc => ?_
  constructor
  · intro unmarked same
    obtain rfl := t.eq_of_field (m.build_fieldsDistinct built) hc mem same
    rw [marked] at unmarked
    cases unmarked
  · intro other
    refine Bool.eq_false_iff.mpr fun flagged => other ?_
    have own := m.build_identity_of_flag built hc flagged
    rw [generated] at own
    cases own
    rfl

/-- The data columns are those of the persisted fields besides the identity's. -/
theorem Model.exists_dataColumn_iff {field : String} :
    (∃ c ∈ t.dataColumns, c.field = field) ↔
      ∃ f ∈ persisted m.fields, f.name = field ∧ f.name ≠ identity.field := by
  constructor
  · rintro ⟨c, hc, rfl⟩
    obtain ⟨mem, other⟩ := (m.mem_dataColumns_iff built generated).mp hc
    obtain ⟨f, hf, made⟩ := exists_left_of_mem (m.build_columns built) mem
    exact ⟨f, hf, made.field.symm, made.field ▸ other⟩
  · rintro ⟨f, hf, rfl, other⟩
    obtain ⟨c, mem, made⟩ := exists_right_of_mem (m.build_columns built) hf
    exact ⟨c, (m.mem_dataColumns_iff built generated).mpr ⟨mem, made.field ▸ other⟩, made.field⟩

end

/-- The insert template declares one of its own parameters just if a persisted field besides
the identity is called as the variable. An insert of a payload does just if it leaves the
identity out and gives such a field a value. -/
theorem Model.insert_declares_parameter_iff {m : Model} {override : Option String}
    {settings : Settings} {t : Table} (built : m.build .sqlServer override settings = .ok t)
    {identity : Column} (generated : t.identity? = some identity) :
    (declaredVariable? t.insertTemplate.text = some insertedIds ∧
      (t.insertTemplate.statement.DeclaresParameter ↔
        ∃ f ∈ persisted m.fields, f.name = "InsertedIds" ∧ f.name ≠ identity.field)) ∧
    ∀ p s, Payload.insert p t = .ok s →
      ((∀ key ∈ p.keys, ¬ t.Denotes key identity) →
        declaredVariable? s.text = some insertedIds) ∧
      (s.DeclaresParameter ↔ (∀ key ∈ p.keys, ¬ t.Denotes key identity) ∧
        ∃ key ∈ p.keys, ∃ c, t.Denotes key c ∧ c.field = "InsertedIds") := by
  have data : ∀ c ∈ t.dataColumns, c ∈ t.columns := fun _ => t.mem_of_dataColumns
  have left : identity ∉ t.dataColumns := fun mem =>
    ((m.mem_dataColumns_iff built generated).mp mem).2 rfl
  constructor
  · constructor
    · rw [← t.insertOf_dataColumns, m.declaredVariable?_insertOf built generated data, if_neg left]
    · rw [m.declares_parameter_iff built generated data t.insertOf_dataColumns.symm
        (List.append_nil _), m.exists_dataColumn_iff built generated, and_iff_right left]
  · intro p s inserted
    obtain ⟨assignments, assigned, rfl⟩ := p.insert_ok inserted
    have hc := p.assignedColumns_mem assigned
    have denoted {c : Column} :
        c ∈ assignedColumns assignments ↔ ∃ key ∈ p.keys, t.Denotes key c := by
      simp only [Payload.mem_assignedColumns_iff assigned, m.build_resolve_iff built]
    have absent : identity ∉ assignedColumns assignments ↔
        ∀ key ∈ p.keys, ¬ t.Denotes key identity := by
      rw [denoted]
      push Not
      rfl
    constructor
    · intro other
      have text : (t.insertAssigned assignments).text = t.insertOf (assignedColumns assignments) :=
        rfl
      rw [text, m.declaredVariable?_insertOf built generated hc, if_neg (absent.mpr other)]
    · have names : (t.insertAssigned assignments).parameterNames ++
          (t.insertAssigned assignments).parameters.names =
            t.dialect.parameters (assignedColumns assignments) :=
        t.dialect.bind_names assignments
      rw [m.declares_parameter_iff built generated hc rfl names, absent]
      refine and_congr_right fun _ => ?_
      constructor
      · rintro ⟨c, mem, named⟩
        obtain ⟨key, hkey, denotes⟩ := denoted.mp mem
        exact ⟨key, hkey, c, denotes, named⟩
      · rintro ⟨key, hkey, c, denotes, named⟩
        exact ⟨c, denoted.mpr ⟨key, hkey, denotes⟩, named⟩

/-- A model with a field that is called as the variable. -/
def importModel : Model where
  name := "Import"
  fields := [{ name := "Id", type := .long }, { name := "InsertedIds", type := .int }]

def importTable : Table where
  model := "Import"
  name := "Import"
  quotedName := "[Import]"
  engine := .sqlServer
  columns := [
    { field := "Id", name := "Id", quoted := "[Id]", type := .long, native := "BIGINT"
      nullable := false, identity := true },
    { field := "InsertedIds", name := "InsertedIds", quoted := "[InsertedIds]", type := .int
      native := "INT", nullable := false, identity := false }]
  ignored := []

theorem build_import : importModel.build .sqlServer = .ok importTable :=
  ok_of_toOption (by decide +kernel)

/-- The field is of no harm in a payload that supplies the identity. -/
theorem Model.insert_declares_parameter_iff_import :
    let p : Payload := ⟨[("InsertedIds", .int 1), ("Id", .int 7)], by decide⟩
    importModel.build .sqlServer = .ok importTable ∧
    importTable.insertTemplate.statement.DeclaresParameter ∧
    (∃ s, p.insert importTable = .ok s ∧ ¬ s.DeclaresParameter) ∧
    ¬ invoiceTable.insertTemplate.statement.DeclaresParameter := by
  intro p
  have generated : importTable.identity? = some importTable.columns[0] := rfl
  obtain ⟨⟨-, template⟩, payloads⟩ := insert_declares_parameter_iff build_import generated
  have other : invoiceTable.identity? = some invoiceTable.columns[0] := rfl
  obtain ⟨⟨-, harmless⟩, -⟩ := insert_declares_parameter_iff build_invoice other
  refine ⟨build_import, template.mpr (by decide), ⟨_, rfl, fun clash => ?_⟩, fun clash => ?_⟩
  · have supplied : importTable.Denotes "Id" importTable.columns[0] :=
      (importModel.build_resolve_iff build_import).mp rfl
    exact ((payloads p _ rfl).2.mp clash).1 "Id" (by decide) supplied
  · exact absurd (harmless.mp clash) (by decide)

/-- The value of the field and the generated identities share one name. -/
theorem insert_declares_its_parameter :
    let p : Payload := ⟨[("InsertedIds", .int 1)], by decide⟩
    importModel.build .sqlServer = .ok importTable ∧
    declaredVariable? importTable.insertTemplate.text = some "@InsertedIds" ∧
    importTable.insertTemplate.parameterNames = ["@InsertedIds"] ∧
    ∃ s, p.insert importTable = .ok s ∧ declaredVariable? s.text = some "@InsertedIds" ∧
      s.parameters.entries = [("@InsertedIds", .int 1)] := by
  intro p
  have declares : declaredVariable? (importTable.insertOf importTable.dataColumns) =
      some "@InsertedIds" := by
    have data : ∀ c ∈ importTable.dataColumns, c ∈ importTable.columns := fun _ =>
      importTable.mem_of_dataColumns
    rw [importModel.declaredVariable?_insertOf build_import rfl data]
    exact if_neg (by decide)
  refine ⟨build_import, ?_, by decide +kernel, _, rfl, declares, rfl⟩
  rw [← importTable.insertOf_dataColumns]
  exact declares

end ModelSql
