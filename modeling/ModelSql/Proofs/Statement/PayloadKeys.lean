import ModelSql.Proofs.Statement.ParameterNames
import ModelSql.Proofs.Table.Columns
/-!
# Keys of payloads

The keys of a payload are given to columns as the names of an index are. A payload is well
formed if it has keys and they stand for different columns. Otherwise all its statements are
refused for its first key at fault.

* `Payload.Faulty`, `Payload.UpdateFaulty`: what can be wrong with a payload and with an update;
* `Payload.assignments_exact`: which payloads are accepted, and what they and their statements
  are made of or refused for.
-/

namespace ModelSql

namespace Payload

/-- There is a key, and each key stands for a column of its own. -/
structure WellFormed (p : Payload) (t : Table) : Prop where
  nonempty : p.keys ≠ []
  accepted : t.Accepts p.keys

/-- A payload has no keys, or there is a first one at fault. -/
inductive Faulty (p : Payload) (t : Table) : Fault → Prop where
  | empty : p.keys = [] → Faulty p t (.emptyPayload t.model)
  | key {fault : Fault} : t.FirstFault p.keys fault → Faulty p t fault

/-- A key stands for the identity, which the engine does not update. -/
def UpdatesForbidden (p : Payload) (t : Table) : Prop :=
  t.dialect.updatesIdentity = false ∧ ∃ key ∈ p.keys, ∃ c, t.resolve key = .ok c ∧ c.identity = true

/-- The faults of an update, each if those above it do not apply. -/
inductive UpdateFaulty (p : Payload) (t : Table) (f : Filter) : Fault → Prop where
  | payload {fault : Fault} : p.Faulty t fault → UpdateFaulty p t f fault
  | identity : p.WellFormed t → p.UpdatesForbidden t →
      UpdateFaulty p t f (.unsupported t.dialect.engine .identityUpdate)
  | filter {fault : Fault} : p.WellFormed t → ¬ p.UpdatesForbidden t →
      f.compile t = .error fault → UpdateFaulty p t f fault

/-! ## Which payloads are accepted -/

variable {t : Table} {p : Payload}

section
variable (fields : (t.columns.map (·.field)).Nodup)
include fields

theorem assignments_eq_error_iff {fault : Fault} :
    p.assignments t = .error fault ↔ p.Faulty t fault := by
  rw [← map_eq_error_iff (g := assignedColumns), p.assignments_eq t]
  by_cases none : p.keys = []
  · rw [if_pos none]
    constructor
    · intro failed
      cases failed
      exact .empty none
    · rintro (- | ⟨earlier, name, later, split, -⟩)
      · rfl
      · rw [none] at split
        simp at split
  · rw [if_neg none, indexColumns_eq_error_iff fields]
    constructor
    · exact .key
    · rintro (empty | first)
      · exact absurd empty none
      · exact first

theorem assignments_ok_iff :
    (∃ assignments, p.assignments t = .ok assignments) ↔ p.WellFormed t := by
  have columns : (∃ assignments, p.assignments t = .ok assignments) ↔
      ∃ columns, (p.assignments t).map assignedColumns = .ok columns := by
    simp [map_eq_ok_iff]
  rw [columns, p.assignments_eq t]
  by_cases none : p.keys = []
  · rw [if_pos none]
    exact iff_of_false nofun fun ⟨nonempty, _⟩ => nonempty none
  · simp only [if_neg none, indexColumns_eq_ok_iff, ← t.accepts_iff_selects fields]
    exact ⟨fun accepted => ⟨none, accepted⟩, fun ⟨_, accepted⟩ => accepted⟩

end

/-- An assigned column is the identity just if a key stands for it. -/
theorem refusesUpdate_iff {assignments : List Assignment}
    (h : p.assignments t = .ok assignments) :
    t.refusesUpdate (assignedColumns assignments) = true ↔ p.UpdatesForbidden t := by
  have identity : (assignedColumns assignments).any (·.identity) = true ↔
      ∃ key ∈ p.keys, ∃ c, t.resolve key = .ok c ∧ c.identity = true := by
    rw [List.any_eq_true]
    constructor
    · rintro ⟨c, mem, own⟩
      obtain ⟨key, hkey, resolved⟩ := (mem_assignedColumns_iff h).mp mem
      exact ⟨key, hkey, c, resolved, own⟩
    · rintro ⟨key, hkey, c, resolved, own⟩
      exact ⟨c, (mem_assignedColumns_iff h).mpr ⟨key, hkey, resolved⟩, own⟩
  rw [Table.refusesUpdate, Bool.and_eq_true, identity, Bool.not_eq_true', UpdatesForbidden]

/-! ## Statements -/

/-- The statements of a payload fail as its assignments do. -/
theorem statements_error {first : Fault} (h : p.assignments t = .error first) :
    p.insert t = .error first ∧ ∀ f, p.update t f = .error first := by
  constructor
  · rw [p.insert_eq, h]
    rfl
  · intro f
    simp only [update, h, bind, Except.bind]

theorem insert_eq_error_iff {fault : Fault} :
    p.insert t = .error fault ↔ p.assignments t = .error fault := by
  rw [p.insert_eq, map_eq_error_iff]

section
variable (fields : (t.columns.map (·.field)).Nodup) (f : Filter)
include fields

theorem update_eq_error_iff {fault : Fault} :
    p.update t f = .error fault ↔ p.UpdateFaulty t f fault := by
  cases assigned : p.assignments t with
  | error first =>
    have faulty := (assignments_eq_error_iff fields).mp assigned
    have malformed : ¬ p.WellFormed t := by
      rw [← assignments_ok_iff fields, assigned]
      exact fun ⟨_, ok⟩ => nomatch ok
    rw [(statements_error assigned).2 f]
    constructor
    · intro failed
      cases failed
      exact .payload faulty
    · rintro (own | ⟨wellFormed, -⟩ | ⟨wellFormed, -, -⟩)
      · have same := (assignments_eq_error_iff fields).mpr own
        rw [assigned] at same
        cases same
        rfl
      · exact absurd wellFormed malformed
      · exact absurd wellFormed malformed
  | ok assignments =>
    have wellFormed : p.WellFormed t := (assignments_ok_iff fields).mp ⟨_, assigned⟩
    have sound : ¬ p.Faulty t fault := by
      rw [← assignments_eq_error_iff fields, assigned]
      exact nofun
    rw [p.update_eq assigned]
    by_cases forbidden : p.UpdatesForbidden t
    · rw [if_pos ((refusesUpdate_iff assigned).mpr forbidden)]
      constructor
      · intro failed
        cases failed
        exact .identity wellFormed forbidden
      · rintro (own | - | ⟨-, allowed, -⟩)
        · exact absurd own sound
        · rfl
        · exact absurd forbidden allowed
    · rw [if_neg (forbidden ∘ (refusesUpdate_iff assigned).mp), map_eq_error_iff]
      constructor
      · exact .filter wellFormed forbidden
      · rintro (own | ⟨-, refused⟩ | ⟨-, -, failed⟩)
        · exact absurd own sound
        · exact absurd refused forbidden
        · exact failed

theorem update_ok_iff :
    (∃ s, p.update t f = .ok s) ↔
      p.WellFormed t ∧ ¬ p.UpdatesForbidden t ∧ ∃ compiled, f.compile t = .ok compiled := by
  constructor
  · rintro ⟨s, updated⟩
    obtain ⟨assignments, compiled, assigned, hcompiled, -⟩ := p.update_ok updated
    refine ⟨(assignments_ok_iff fields).mp ⟨_, assigned⟩, fun forbidden => ?_, compiled, hcompiled⟩
    rw [p.update_eq assigned, if_pos ((refusesUpdate_iff assigned).mpr forbidden)] at updated
    cases updated
  · rintro ⟨wellFormed, allowed, compiled, hcompiled⟩
    obtain ⟨assignments, assigned⟩ := (assignments_ok_iff fields).mpr wellFormed
    rw [p.update_eq assigned, if_neg (allowed ∘ (refusesUpdate_iff assigned).mp), hcompiled]
    exact ⟨_, rfl⟩

end

/-- Just the well-formed payloads are accepted. They assign the values of their keys to the
columns of their keys, in order, and all columns and names of parameters differ. The others are
refused because they are empty or for their first key at fault, and so are their inserts and
updates. An update of a well-formed payload is refused if it assigns an identity that the
engine does not update, or else as its filter is. -/
theorem assignments_exact {m : Model} {engine : Engine} {override : Option String}
    {settings : Settings} {t : Table} (built : m.build engine override settings = .ok t)
    (p : Payload) :
    ((∃ assignments, p.assignments t = .ok assignments) ↔ p.WellFormed t) ∧
    (∀ assignments, p.assignments t = .ok assignments →
      List.Forall₂ (fun entry a => t.resolve entry.1 = .ok a.column ∧ a.value = entry.2) p.entries
        assignments ∧
      (assignedColumns assignments).Nodup ∧
      ∃ s, p.insert t = .ok s ∧ s.parameters = t.dialect.bind assignments ∧
        s.parameters.names.Nodup) ∧
    (∀ fault, p.assignments t = .error fault ↔ p.Faulty t fault) ∧
    (∀ fault, p.insert t = .error fault ↔ p.assignments t = .error fault) ∧
    ∀ f : Filter,
      (∀ fault, p.update t f = .error fault ↔ p.UpdateFaulty t f fault) ∧
      ((∃ s, p.update t f = .ok s) ↔
        p.WellFormed t ∧ ¬ p.UpdatesForbidden t ∧ ∃ compiled, f.compile t = .ok compiled) := by
  have fields := m.build_fieldsDistinct built
  refine ⟨assignments_ok_iff fields, fun assignments assigned => ?_,
    fun _ => assignments_eq_error_iff fields, fun _ => insert_eq_error_iff,
    fun f => ⟨fun _ => update_eq_error_iff fields f, update_ok_iff fields f⟩⟩
  obtain ⟨each, -, distinct⟩ := assignEntries_ok (p.assignments_ok assigned)
  have columns : (assignedColumns assignments).Nodup := by
    apply List.Nodup.of_map (·.field)
    rw [assignedColumns, List.map_map]
    exact distinct
  refine ⟨each, columns, t.insertAssigned assignments, ?_, rfl, ?_⟩
  · rw [p.insert_eq, assigned]
    rfl
  · rw [Table.insertAssigned, Dialect.bind_names]
    exact t.dialect.parameters_nodup distinct

/-- The field of a column and its name, in other letters, stand for one column. A second payload
is well formed, and supplies an identity. -/
theorem assignments_exact_invoice :
    let p : Payload := ⟨[("Total", .int 1), ("Note", .null), ("REMARK", .text "x")], by decide⟩
    let q : Payload := ⟨[("Note", .null), ("Id", .int 7)], by decide⟩
    let f : Filter := .ofPredicate ⟨"Due", .comparison .equal .null⟩
    let collision : Fault := .columnCollision "Invoice" "remark" "Note" "REMARK"
    invoiceModel.build .sqlServer = .ok invoiceTable ∧
    p.assignments invoiceTable = .error collision ∧ p.insert invoiceTable = .error collision ∧
    p.update invoiceTable f = .error collision ∧
    (∃ s, q.insert invoiceTable = .ok s ∧ s.parameters.names.Nodup) ∧
    q.update invoiceTable f = .error (.unsupported .sqlServer .identityUpdate) := by
  intro p q f collision
  obtain ⟨-, -, refused, inserts, updates⟩ := assignments_exact build_invoice p
  obtain ⟨accepted, made, -, -, updates'⟩ := assignments_exact build_invoice q
  have fields := invoiceModel.build_fieldsDistinct build_invoice
  have note : invoiceTable.resolve "Note" = .ok invoiceTable.columns[2] := rfl
  have remark : invoiceTable.resolve "REMARK" = .ok invoiceTable.columns[2] :=
    (Model.build_resolve_iff build_invoice).mpr
      ⟨by decide, .inr ⟨by decide, toLower_eq_of_chars (by decide)⟩⟩
  have faulty : p.Faulty invoiceTable collision := by
    refine .key ⟨["Total", "Note"], "REMARK", [], rfl, ?_, .taken (by decide) note remark⟩
    exact (invoiceTable.accepts_iff_selects fields).mpr
      ⟨[_, _], .cons rfl (.cons note .nil), by decide⟩
  have failed := (refused collision).mpr faulty
  have wellFormed : q.WellFormed invoiceTable := by
    refine ⟨by decide, (invoiceTable.accepts_iff_selects fields).mpr ?_⟩
    exact ⟨[_, _], .cons note (.cons rfl .nil), by decide⟩
  obtain ⟨assignments, assigned⟩ := accepted.mpr wellFormed
  obtain ⟨-, -, s, inserted, -, distinct⟩ := made assignments assigned
  have forbidden : q.UpdatesForbidden invoiceTable :=
    ⟨rfl, "Id", by decide, invoiceTable.columns[0], rfl, rfl⟩
  exact ⟨build_invoice, failed, (inserts collision).mpr failed,
    ((updates f).1 collision).mpr (.payload faulty), ⟨s, inserted, distinct⟩,
    ((updates' f).1 _).mpr (.identity wellFormed forbidden)⟩

end Payload

end ModelSql
