import ModelSql.Proofs.Statement.ParameterNames
import ModelSql.Proofs.Table.Columns
/-!
# Payloads that cover a template

A payload that gives values to just the columns of a template, in their order, makes
the statement of the template: the same text with the same names, although the two are
written on separate paths. Its keys may be names of fields or of columns.

* `Payload.assignments_of_covers`: a payload assigns the columns that its keys stand for;
* `Table.insertAssigned_data`, `Table.insertAssigned_all`: the inserts of all columns
  besides the identity, and of all columns;
* `Payload.agrees_with_templates`: inserts and updates.
-/

namespace ModelSql

/-- The keys of the payload stand for the columns, in order. -/
def Payload.Covers (p : Payload) (t : Table) (columns : List Column) : Prop :=
  List.Forall₂ (fun entry c => t.resolve entry.1 = .ok c) p.entries columns

theorem Payload.assignments_of_covers {p : Payload} {t : Table} {columns : List Column}
    (covers : p.Covers t columns) (nonempty : columns ≠ [])
    (distinct : (columns.map (·.field)).Nodup) :
    ∃ assignments, p.assignments t = .ok assignments ∧ assignedColumns assignments = columns := by
  have selects : t.Selects p.keys columns := ⟨List.forall₂_map_left_iff.mpr covers, distinct⟩
  have some : p.keys ≠ [] := by
    intro none
    rw [keys, List.map_eq_nil_iff] at none
    rw [Covers, none] at covers
    exact nonempty (List.forall₂_nil_left_iff.mp covers)
  apply map_eq_ok_iff.mp
  rw [p.assignments_eq, if_neg some, indexColumns_eq_ok_iff.mpr selects]

/-! ## Inserts -/

namespace Table

variable {t : Table} {assignments : List Assignment}

/-- The text of an insert of the columns. A generated identity is read back. -/
def insertOf (t : Table) (columns : List Column) : String :=
  match t.identity? with
  | none => t.dialect.insert t.quotedName columns
  | some identity =>
    if columns.any (·.identity) then
      t.dialect.insertExplicitIdentity t.quotedName (t.dialect.insert t.quotedName columns)
    else t.dialect.insertReturningIdentity t.quotedName columns identity

theorem insertOf_dataColumns (t : Table) : t.insertOf t.dataColumns = t.insertTemplate.text := by
  have generated : t.dataColumns.any (·.identity) = false := by
    simp [dataColumns, List.any_eq_false]
  unfold insertOf insertTemplate
  cases t.identity? with
  | none => rfl
  | some identity => simp only [generated, Bool.false_eq_true, if_false]

/-- All columns supply the identity if there is one. -/
theorem insertOf_columns (t : Table) : t.insertOf t.columns = t.insertAllTemplate.text := by
  unfold insertOf insertAllTemplate
  cases hi : t.identity? with
  | none => rfl
  | some identity =>
    have supplied : t.columns.any (·.identity) = true :=
      List.any_eq_true.mpr ⟨identity, List.mem_of_find?_eq_some hi, List.find?_some hi⟩
    simp only [supplied, if_true, Option.isSome_some]

/-- The insert of all columns besides the identity. -/
theorem insertAssigned_data (h : assignedColumns assignments = t.dataColumns) :
    (t.insertAssigned assignments).text = t.insertTemplate.text := by
  rw [← t.insertOf_dataColumns, ← h]
  rfl

theorem insertAssigned_all (h : assignedColumns assignments = t.columns) :
    (t.insertAssigned assignments).text = t.insertAllTemplate.text := by
  rw [← t.insertOf_columns, ← h]
  rfl

/-- Columns that an update of whole records assigns can be assigned by any update. -/
theorem refusesUpdate_updatable (t : Table) : t.refusesUpdate t.updatableColumns = false := by
  cases updates : t.dialect.updatesIdentity <;>
    simp [refusesUpdate, updatableColumns, updates]

end Table

section
variable {p : Payload} {t : Table} {columns : List Column} (covers : p.Covers t columns)
  (nonempty : columns ≠ []) (distinct : (columns.map (·.field)).Nodup)
include covers nonempty distinct

theorem Payload.insert_of_covers :
    ∃ assignments, assignedColumns assignments = columns ∧
      p.insert t = .ok (t.insertAssigned assignments) := by
  obtain ⟨assignments, hassignments, own⟩ := p.assignments_of_covers covers nonempty distinct
  refine ⟨assignments, own, ?_⟩
  rw [p.insert_eq, hassignments]
  rfl

/-- An update is refused only with its filter. -/
theorem Payload.update_of_covers (accepted : t.refusesUpdate columns = false) :
    ∃ assignments, assignedColumns assignments = columns ∧
      ∀ f, p.update t f = (f.compile t).map (t.updateAssigned assignments) := by
  obtain ⟨assignments, hassignments, own⟩ := p.assignments_of_covers covers nonempty distinct
  refine ⟨assignments, own, fun f => ?_⟩
  rw [p.update_eq hassignments, own, accepted]
  rfl

end

theorem Table.updatableColumns_ne_nil {t : Table} {template : Template}
    (present : t.updateAllTemplate? = some template) : t.updatableColumns ≠ [] :=
  (updateAllTemplate?_eq_some present).1

theorem Table.updateAllTemplate_parameterNames {t : Table} {template : Template}
    (present : t.updateAllTemplate? = some template) :
    template.parameterNames = t.dialect.parameters t.updatableColumns := by
  obtain ⟨-, rfl⟩ := updateAllTemplate?_eq_some present
  rfl

/-- The update of the columns of a template is the template with the filter in its slot. -/
theorem Table.updateAssigned_updatable {t : Table} {template : Template}
    (present : t.updateAllTemplate? = some template) {assignments : List Assignment}
    (h : assignedColumns assignments = t.updatableColumns) (compiled : CompiledFilter) :
    ∃ spliced, template.splice compiled = .ok spliced ∧
      (t.updateAssigned assignments compiled).text = spliced.text ∧
      (t.updateAssigned assignments compiled).parameters.names =
        template.parameterNames ++ compiled.parameters.names := by
  refine ⟨_, t.splice_updateAllTemplate? compiled present, ?_, ?_⟩
  · rw [updateAssigned, h]
  · rw [updateAssigned, Parameters.append_names, Dialect.bind_names, h,
      t.updateAllTemplate_parameterNames present]

/-- A payload for the columns of a template, in their order, makes the statement of the
template. -/
theorem Payload.agrees_with_templates {m : Model} {engine : Engine} {override : Option String}
    {settings : Settings} {t : Table} (built : m.build engine override settings = .ok t) :
    (∀ key c, t.resolve key = .ok c ↔ t.Denotes key c) ∧
    ∀ (p : Payload) (columns : List Column), p.Covers t columns →
      (columns = t.dataColumns → columns ≠ [] → ∃ s, p.insert t = .ok s ∧
        s.text = t.insertTemplate.text ∧
        s.parameters.names = t.insertTemplate.parameterNames) ∧
      (columns = t.columns → ∃ s, p.insert t = .ok s ∧
        s.text = t.insertAllTemplate.text ∧
        s.parameters.names = t.insertAllTemplate.parameterNames) ∧
      ∀ template, t.updateAllTemplate? = some template → columns = t.updatableColumns →
        ∀ f : Filter,
          ((∃ s, p.update t f = .ok s) ↔ ∃ compiled, f.compile t = .ok compiled) ∧
          ∀ compiled, f.compile t = .ok compiled → ∃ s spliced, p.update t f = .ok s ∧
            template.splice compiled = .ok spliced ∧ s.text = spliced.text ∧
            s.parameters.names = template.parameterNames ++ compiled.parameters.names := by
  have fields := m.build_fieldsDistinct built
  have distinct {q : Column → Bool} : ((t.columns.filter q).map (·.field)).Nodup :=
    fields.sublist (List.filter_sublist.map _)
  refine ⟨fun key c => m.build_resolve_iff built, fun p columns covers => ⟨?_, ?_, ?_⟩⟩
  · rintro rfl nonempty
    obtain ⟨assignments, own, inserted⟩ := p.insert_of_covers covers nonempty distinct
    refine ⟨_, inserted, t.insertAssigned_data own, ?_⟩
    rw [Table.insertAssigned, Dialect.bind_names, own]
    rfl
  · rintro rfl
    obtain ⟨assignments, own, inserted⟩ :=
      p.insert_of_covers covers (m.build_columns_ne_nil built) fields
    refine ⟨_, inserted, t.insertAssigned_all own, ?_⟩
    rw [Table.insertAssigned, Dialect.bind_names, own]
    rfl
  · rintro template present rfl f
    obtain ⟨assignments, own, updates⟩ := p.update_of_covers covers
      (t.updatableColumns_ne_nil present) distinct t.refusesUpdate_updatable
    rw [updates f]
    constructor
    · cases f.compile t with
      | error fault => exact iff_of_false nofun nofun
      | ok compiled => exact iff_of_true ⟨_, rfl⟩ ⟨_, rfl⟩
    · intro compiled hcompiled
      rw [hcompiled]
      obtain ⟨spliced, hspliced, text, names⟩ := t.updateAssigned_updatable present own compiled
      exact ⟨_, spliced, rfl, hspliced, text, names⟩

theorem Payload.agrees_with_templates_invoice :
    let p : Payload := ⟨[("TOTAL", .int 1), ("Remark", .null)], by decide⟩
    let f : Filter := .ofPredicate ⟨"Id", .comparison .equal (.int 7)⟩
    invoiceModel.build .sqlServer = .ok invoiceTable ∧
    p.Covers invoiceTable invoiceTable.dataColumns ∧
    (∃ s, p.insert invoiceTable = .ok s ∧ s.text = invoiceTable.insertTemplate.text) ∧
    ∃ template compiled s spliced, invoiceTable.updateAllTemplate? = some template ∧
      f.compile invoiceTable = .ok compiled ∧ p.update invoiceTable f = .ok s ∧
      template.splice compiled = .ok spliced ∧ s.text = spliced.text := by
  intro p f
  have denotes (key : String) (c : Column) (mem : c ∈ invoiceTable.columns)
      (other : ∀ d ∈ invoiceTable.columns, d.field ≠ key)
      (own : c.name.toList.map Char.toLower = key.toList.map Char.toLower) :
      invoiceTable.resolve key = .ok c :=
    (Model.build_resolve_iff build_invoice).mpr ⟨mem, .inr ⟨other, toLower_eq_of_chars own⟩⟩
  have covers : p.Covers invoiceTable invoiceTable.dataColumns :=
    .cons (denotes "TOTAL" _ (by decide) (by decide) (by decide))
      (.cons (denotes "Remark" _ (by decide) (by decide) (by decide)) .nil)
  obtain ⟨inserts, -, updates⟩ :=
    (agrees_with_templates build_invoice).2 p invoiceTable.dataColumns covers
  obtain ⟨s, inserted, text, -⟩ := inserts rfl (by decide)
  obtain ⟨-, agrees⟩ := updates _ rfl rfl f
  obtain ⟨s', spliced, updated, hspliced, text', -⟩ := agrees _ rfl
  exact ⟨build_invoice, covers, ⟨s, inserted, text⟩, _, _, s', spliced, rfl, rfl, updated,
    hspliced, text'⟩

end ModelSql
