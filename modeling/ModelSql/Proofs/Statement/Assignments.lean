import ModelSql.Proofs.Schema.IndexedColumns
import ModelSql.Statement.Payload
/-!
# Assignments of payloads

The entries of a payload become assignments one by one. Each resolves to a
column of the table, and no field is assigned twice.

* `assignEntries_ok`: what a list of accepted entries contributes;
* `Payload.assignments_eq`: the columns of keys are those of the names of an index;
* `Payload.insert_eq`, `Payload.update_ok`: the statements as functions of the assignments.
-/

namespace ModelSql

/-- No field is assigned twice. -/
def FieldsDistinct (assignments : List Assignment) : Prop :=
  (assignments.map fun a => a.column.field).Nodup

/-- The assignments are those of the entries, in order, to fields that are not taken. -/
theorem assignEntries_ok {t : Table} {taken : List Column} {entries : List (String × Value)}
    {assignments : List Assignment} (h : assignEntries t taken entries = .ok assignments) :
    List.Forall₂ (fun entry a => t.resolve entry.1 = .ok a.column ∧ a.value = entry.2) entries
      assignments ∧
    (∀ a ∈ assignments, ∀ c ∈ taken, c.field ≠ a.column.field) ∧ FieldsDistinct assignments := by
  induction entries generalizing taken assignments with
  | nil =>
    cases h
    exact ⟨.nil, fun a ha => (List.not_mem_nil ha).elim, List.nodup_nil⟩
  | cons entry entries ih =>
    obtain ⟨name, value⟩ := entry
    obtain ⟨column, resolved, h⟩ := steps_of_ok h
    split at h
    · cases h
    · rename_i free
      obtain ⟨more, others, h⟩ := steps_of_ok h
      cases h
      obtain ⟨each, apart, distinct⟩ := ih others
      have unused : ∀ c ∈ taken, c.field ≠ column.field := by
        intro c hc
        simpa using List.find?_eq_none.mp free c hc
      refine ⟨.cons ⟨resolved, rfl⟩ each, ?_, ?_⟩
      · intro a ha c hc
        obtain rfl | ha := List.mem_cons.mp ha
        · exact unused c hc
        · exact apart a ha c (List.mem_append_left _ hc)
      · refine List.nodup_cons.mpr ⟨fun clash => ?_, distinct⟩
        obtain ⟨a, ha, same⟩ := List.mem_map.mp clash
        exact apart a ha column (List.mem_append_right _ List.mem_cons_self) same.symm

theorem Payload.assignments_ok {p : Payload} {t : Table} {assignments : List Assignment}
    (h : p.assignments t = .ok assignments) : assignEntries t [] p.entries = .ok assignments := by
  unfold Payload.assignments at h
  split at h
  · cases h
  · exact h

theorem Payload.assignments_distinct {p : Payload} {t : Table} {assignments : List Assignment}
    (h : p.assignments t = .ok assignments) : FieldsDistinct assignments :=
  (assignEntries_ok (p.assignments_ok h)).2.2

/-! ## Keys -/

def Payload.keys (p : Payload) : List String := p.entries.map (·.1)

/-- Keys are assigned to columns as names of an index are. -/
theorem assignEntries_eq_indexColumns (t : Table) (taken : List Column)
    (entries : List (String × Value)) :
    (assignEntries t taken entries).map assignedColumns =
      indexColumns t taken (entries.map (·.1)) := by
  induction entries generalizing taken with
  | nil => rfl
  | cons entry entries ih =>
    simp only [List.map_cons, assignEntries, indexColumns]
    cases t.resolve entry.1 with
    | error fault => rfl
    | ok column =>
      simp only [bind, Except.bind]
      cases taken.find? (·.field = column.field) with
      | some prior => rfl
      | none =>
        simp only [← ih]
        cases assignEntries t (taken ++ [column]) entries <;> rfl

/-- Which columns are assigned, or which fault there is, depends on the keys only. -/
theorem Payload.assignments_eq (p : Payload) (t : Table) :
    (p.assignments t).map assignedColumns =
      if p.keys = [] then .error (.emptyPayload t.model) else indexColumns t [] p.keys := by
  have empty : p.isEmpty = true ↔ p.keys = [] := by
    rw [isEmpty, List.isEmpty_iff, keys, List.map_eq_nil_iff]
  unfold assignments
  by_cases none : p.keys = []
  · rw [if_pos (empty.mpr none), if_pos none]
    rfl
  · rw [if_neg (none ∘ empty.mp), if_neg none, assignEntries_eq_indexColumns]
    rfl

/-- The columns that are assigned are those that keys stand for. -/
theorem Payload.mem_assignedColumns_iff {p : Payload} {t : Table}
    {assignments : List Assignment} (h : p.assignments t = .ok assignments) {c : Column} :
    c ∈ assignedColumns assignments ↔ ∃ key ∈ p.keys, t.resolve key = .ok c := by
  obtain ⟨each, -, -⟩ := assignEntries_ok (p.assignments_ok h)
  constructor
  · intro mem
    obtain ⟨a, assigned, rfl⟩ := List.mem_map.mp mem
    obtain ⟨entry, hentry, resolved, -⟩ := exists_left_of_mem each assigned
    exact ⟨entry.1, List.mem_map_of_mem hentry, resolved⟩
  · rintro ⟨key, mem, resolved⟩
    obtain ⟨entry, hentry, rfl⟩ := List.mem_map.mp mem
    obtain ⟨a, assigned, found, -⟩ := exists_right_of_mem each hentry
    rw [resolved] at found
    cases found
    exact List.mem_map_of_mem assigned

/-- The assigned columns are columns of the table. -/
theorem Payload.assignedColumns_mem {p : Payload} {t : Table} {assignments : List Assignment}
    (h : p.assignments t = .ok assignments) : ∀ c ∈ assignedColumns assignments, c ∈ t.columns := by
  intro c mem
  obtain ⟨key, -, resolved⟩ := (p.mem_assignedColumns_iff h).mp mem
  exact Table.mem_of_resolve resolved

/-! ## Statements of assignments -/

namespace Table

/-- The insert of the assigned columns. -/
def insertAssigned (t : Table) (assignments : List Assignment) : Statement where
  text :=
    let columns := assignedColumns assignments
    match t.identity? with
    | none => t.dialect.insert t.quotedName columns
    | some identity =>
      if columns.any (·.identity) then
        t.dialect.insertExplicitIdentity t.quotedName (t.dialect.insert t.quotedName columns)
      else t.dialect.insertReturningIdentity t.quotedName columns identity
  parameters := t.dialect.bind assignments

/-- The update of the assigned columns in the rows of a filter. -/
def updateAssigned (t : Table) (assignments : List Assignment) (c : CompiledFilter) :
    Statement where
  text := t.dialect.update t.quotedName (assignedColumns assignments) c.condition
  parameters := t.dialect.bind assignments ++ c.parameters

/-- Whether the engine refuses to update the columns. -/
def refusesUpdate (t : Table) (columns : List Column) : Bool :=
  !t.dialect.updatesIdentity && columns.any (·.identity)

end Table

theorem Payload.insert_eq (p : Payload) (t : Table) :
    p.insert t = (p.assignments t).map t.insertAssigned := by
  unfold insert
  cases p.assignments t <;> rfl

theorem Payload.insert_ok {p : Payload} {t : Table} {s : Statement} (h : p.insert t = .ok s) :
    ∃ assignments, p.assignments t = .ok assignments ∧ s = t.insertAssigned assignments := by
  rw [p.insert_eq] at h
  obtain ⟨assignments, assigned, rfl⟩ := map_eq_ok_iff.mp h
  exact ⟨assignments, assigned, rfl⟩

theorem Payload.update_eq {p : Payload} {t : Table} {assignments : List Assignment}
    (h : p.assignments t = .ok assignments) (f : Filter) :
    p.update t f =
      if t.refusesUpdate (assignedColumns assignments) then
        .error (.unsupported t.dialect.engine .identityUpdate)
      else (f.compile t).map (t.updateAssigned assignments) := by
  unfold update Table.refusesUpdate
  by_cases refused :
    (!t.dialect.updatesIdentity && (assignedColumns assignments).any (·.identity)) = true
  · simp only [h, bind, Except.bind, refused, if_true]
    rfl
  · simp only [h, bind, Except.bind, refused]
    cases f.compile t <;> rfl

theorem Payload.update_ok {p : Payload} {t : Table} {f : Filter} {s : Statement}
    (h : p.update t f = .ok s) :
    ∃ assignments compiled, p.assignments t = .ok assignments ∧ f.compile t = .ok compiled ∧
      s = t.updateAssigned assignments compiled := by
  obtain ⟨assignments, hassignments, -⟩ := steps_of_ok h
  rw [p.update_eq hassignments] at h
  split at h
  · cases h
  · obtain ⟨compiled, hcompiled, rfl⟩ := map_eq_ok_iff.mp h
    exact ⟨assignments, compiled, hassignments, hcompiled, rfl⟩

end ModelSql
