import Mathlib.Data.List.Induction
import Mathlib.Data.List.Nodup
import ModelSql.Proofs.Table.WellFormed
/-!
# Rules of fields

A field is judged in view of the fields before it. There are four rules, and a
field may break several of them; the first in their order is its fault.

* `Breaks`, `Refuses`: the rules, and the rule that takes precedence;
* `acceptedColumn?_spec`: a field is accepted unless it breaks a rule, and refused for the
  one that takes precedence;
* `acceptedColumns_spec`: a list of fields is refused for the first field that breaks one;
* `unbroken_iff`: no field breaks a rule in a list without clashes.
-/

namespace ModelSql

/-- A rule that `field` breaks after the fields `earlier` of a model, as a fault. -/
inductive Breaks (engine : Engine) (model : String) (earlier : List Field) (field : Field) :
    Fault → Prop where
  | duplicateField {first : Field} : first ∈ earlier → first.name = field.name →
      Breaks engine model earlier field (.duplicateField model field.name)
  | unmappedType {name : String} : field.ignored = false → field.type = .custom name →
      Breaks engine model earlier field (.unmappedType engine model field.name (.custom name))
  | columnCollision {first : Field} : field.ignored = false → first ∈ persisted earlier →
      first.columnName.toLower = field.columnName.toLower →
      Breaks engine model earlier field
        (.columnCollision model field.columnName first.name field.name)
  | duplicateIdentity {first : Field} : field.ignored = false → field.identity = true →
      first ∈ persisted earlier → first.identity = true →
      Breaks engine model earlier field (.duplicateIdentity model first.name field.name)

/-- The place of a field's fault among the rules. -/
def Fault.precedence : Fault → Nat
  | duplicateField .. => 0
  | unmappedType .. => 1
  | columnCollision .. => 2
  | duplicateIdentity .. => 3
  | _ => 4

/-- The fault of a field: it breaks the rule, and none that takes precedence. -/
def Refuses (engine : Engine) (model : String) (earlier : List Field) (field : Field)
    (fault : Fault) : Prop :=
  Breaks engine model earlier field fault ∧
  ∀ other, Breaks engine model earlier field other → fault.precedence ≤ other.precedence

/-- No field breaks a rule in view of the fields before it. -/
def Unbroken (engine : Engine) (model : String) (fields : List Field) : Prop :=
  ∀ earlier field, earlier ++ [field] <+: fields →
    ∀ fault, ¬ Breaks engine model earlier field fault

/-- The fault of the first field that breaks a rule. -/
def FirstRefused (engine : Engine) (model : String) (fields : List Field) (fault : Fault) : Prop :=
  ∃ earlier field, earlier ++ [field] <+: fields ∧ Unbroken engine model earlier ∧
    Refuses engine model earlier field fault

/-- What the rules ask of a list of fields. Ignored fields count for their names only. -/
@[mk_iff]
structure FieldsConfigured (fields : List Field) : Prop where
  distinctNames : (fields.map (·.name)).Nodup
  storable : ∀ f ∈ persisted fields, ∀ name, f.type ≠ .custom name
  distinctColumns : ((persisted fields).map (·.columnName.toLower)).Nodup
  oneIdentity : ((persisted fields).filter (·.identity)).length ≤ 1

/-! ## One field -/

theorem Engine.nativeType_eq_none_iff (engine : Engine) {type : SemanticType} :
    engine.dialect.nativeType type = none ↔ ∃ name, type = .custom name := by
  cases engine <;> cases type <;> simp [Engine.dialect, Engine.sqliteType, Engine.sqlServerType]

section
variable {engine : Engine} {model : String} {earlier : List Field} {field : Field}

theorem not_breaks_iff :
    (∀ fault, ¬ Breaks engine model earlier field fault) ↔
      (∀ first ∈ earlier, first.name ≠ field.name) ∧
      (field.ignored = false → (∀ name, field.type ≠ .custom name) ∧
        (∀ first ∈ persisted earlier, first.columnName.toLower ≠ field.columnName.toLower) ∧
        (field.identity = true → ∀ first ∈ persisted earlier, first.identity ≠ true)) := by
  constructor
  · intro keeps
    refine ⟨fun first mem same => keeps _ (.duplicateField mem same), fun persists => ⟨?_, ?_, ?_⟩⟩
    · exact fun name custom => keeps _ (.unmappedType persists custom)
    · exact fun first mem same => keeps _ (.columnCollision persists mem same)
    · exact fun marked first mem other => keeps _ (.duplicateIdentity persists marked mem other)
  · rintro ⟨fresh, stored⟩ fault breaks
    cases breaks with
    | duplicateField mem same => exact fresh _ mem same
    | unmappedType persists custom => exact (stored persists).1 _ custom
    | columnCollision persists mem same => exact (stored persists).2.1 _ mem same
    | duplicateIdentity persists marked mem other =>
      exact (stored persists).2.2 marked _ mem other

theorem refuses_duplicateField {first : Field} (mem : first ∈ earlier)
    (same : first.name = field.name) :
    Refuses engine model earlier field (.duplicateField model field.name) :=
  ⟨.duplicateField mem same, fun _ _ => Nat.zero_le _⟩

/-! A rule counts once the rules before it are kept. -/

section
variable (fresh : ∀ first ∈ earlier, first.name ≠ field.name) (persists : field.ignored = false)
include fresh persists

theorem refuses_unmappedType {name : String} (custom : field.type = .custom name) :
    Refuses engine model earlier field
      (.unmappedType engine model field.name (.custom name)) := by
  refine ⟨.unmappedType persists custom, fun other breaks => ?_⟩
  cases breaks with
  | duplicateField mem same => exact absurd same (fresh _ mem)
  | unmappedType | columnCollision | duplicateIdentity => simp [Fault.precedence]

variable (stored : ∀ name, field.type ≠ .custom name)
include stored

theorem refuses_columnCollision {first : Field} (mem : first ∈ persisted earlier)
    (same : first.columnName.toLower = field.columnName.toLower) :
    Refuses engine model earlier field
      (.columnCollision model field.columnName first.name field.name) := by
  refine ⟨.columnCollision persists mem same, fun other breaks => ?_⟩
  cases breaks with
  | duplicateField mem same => exact absurd same (fresh _ mem)
  | unmappedType _ custom => exact absurd custom (stored _)
  | columnCollision | duplicateIdentity => simp [Fault.precedence]

theorem refuses_duplicateIdentity
    (unused : ∀ first ∈ persisted earlier, first.columnName.toLower ≠ field.columnName.toLower)
    (marked : field.identity = true) {first : Field} (mem : first ∈ persisted earlier)
    (other : first.identity = true) :
    Refuses engine model earlier field (.duplicateIdentity model first.name field.name) := by
  refine ⟨.duplicateIdentity persists marked mem other, fun other breaks => ?_⟩
  cases breaks with
  | duplicateField mem same => exact absurd same (fresh _ mem)
  | unmappedType _ custom => exact absurd custom (stored _)
  | columnCollision _ mem same => exact absurd same (unused _ mem)
  | duplicateIdentity => simp [Fault.precedence]

end

/-- A field is accepted if it breaks no rule, and refused otherwise. -/
theorem acceptedColumn?_spec (engine : Engine) (model : String) (earlier : List Field)
    (field : Field) :
    (∃ column?, acceptedColumn? engine.dialect model earlier field = .ok column? ∧
      ∀ fault, ¬ Breaks engine model earlier field fault) ∨
    ∃ fault, acceptedColumn? engine.dialect model earlier field = .error fault ∧
      Refuses engine model earlier field fault := by
  unfold acceptedColumn?
  by_cases taken : earlier.any (·.name = field.name) = true
  · rw [if_pos taken]
    obtain ⟨first, mem, same⟩ := List.any_eq_true.mp taken
    exact .inr ⟨_, rfl, refuses_duplicateField mem (of_decide_eq_true same)⟩
  rw [if_neg taken]
  have fresh : ∀ first ∈ earlier, first.name ≠ field.name := by simpa using taken
  by_cases ignored : field.ignored = true
  · rw [if_pos ignored]
    refine .inl ⟨none, rfl, not_breaks_iff.mpr ⟨fresh, fun persists => ?_⟩⟩
    rw [ignored] at persists
    cases persists
  rw [if_neg ignored]
  have persists : field.ignored = false := by simpa using ignored
  cases native : engine.dialect.nativeType field.type with
  | none =>
    obtain ⟨name, custom⟩ := engine.nativeType_eq_none_iff.mp native
    simp only [Engine.dialect_engine, custom]
    exact .inr ⟨_, rfl, refuses_unmappedType fresh persists custom⟩
  | some native =>
    have stored : ∀ name, field.type ≠ .custom name := by
      intro name custom
      have unknown := engine.nativeType_eq_none_iff.mpr ⟨name, custom⟩
      rw [native] at unknown
      cases unknown
    simp only
    cases clash : (persisted earlier).find? (·.columnName.toLower = field.columnName.toLower) with
    | some first =>
      have mem := List.mem_of_find?_eq_some clash
      have same : first.columnName.toLower = field.columnName.toLower := by
        simpa using List.find?_some clash
      exact .inr ⟨_, rfl, refuses_columnCollision fresh persists stored mem same⟩
    | none =>
      have unused : ∀ first ∈ persisted earlier,
          first.columnName.toLower ≠ field.columnName.toLower := by
        intro first mem
        simpa using List.find?_eq_none.mp clash first mem
      simp only
      cases second : if field.identity then (persisted earlier).find? (·.identity) else none with
      | some first =>
        obtain ⟨marked, found⟩ : field.identity = true ∧
            (persisted earlier).find? (·.identity) = some first := by simpa using second
        have mem := List.mem_of_find?_eq_some found
        have other : first.identity = true := List.find?_some found
        exact .inr ⟨_, rfl,
          refuses_duplicateIdentity fresh persists stored unused marked mem other⟩
      | none =>
        refine .inl ⟨_, rfl, not_breaks_iff.mpr ⟨fresh, fun _ => ⟨stored, unused, ?_⟩⟩⟩
        intro marked first mem
        rw [if_pos marked] at second
        exact List.find?_eq_none.mp second first mem

/-! ## Lists of fields -/

theorem unbroken_append_singleton :
    Unbroken engine model (earlier ++ [field]) ↔
      Unbroken engine model earlier ∧ ∀ fault, ¬ Breaks engine model earlier field fault := by
  constructor
  · intro keeps
    refine ⟨fun before f isPrefix => keeps before f ?_, keeps earlier field (List.prefix_refl _)⟩
    exact List.prefix_concat_iff.mpr (.inr isPrefix)
  · rintro ⟨keeps, last⟩ before f isPrefix
    obtain same | isPrefix := List.prefix_concat_iff.mp isPrefix
    · obtain ⟨rfl, rfl⟩ : before = earlier ∧ f = field := by simpa using same
      exact last
    · exact keeps before f isPrefix

theorem oneIdentity_append_singleton :
    ((earlier ++ [field]).filter (·.identity)).length ≤ 1 ↔
      (earlier.filter (·.identity)).length ≤ 1 ∧
        (field.identity = true → ∀ first ∈ earlier, first.identity ≠ true) := by
  cases marked : field.identity with
  | false => simp [marked]
  | true =>
    have none : (earlier.filter (·.identity)).length = 0 ↔
        ∀ first ∈ earlier, first.identity ≠ true := by
      rw [List.length_eq_zero_iff, List.filter_eq_nil_iff]
    simp only [List.filter_append, List.filter_cons, List.filter_nil, marked, if_true,
      List.length_append, List.length_singleton, true_imp_iff, ← none]
    omega

theorem fieldsConfigured_append_singleton :
    FieldsConfigured (earlier ++ [field]) ↔
      FieldsConfigured earlier ∧ ∀ fault, ¬ Breaks engine model earlier field fault := by
  have names : ((earlier ++ [field]).map (·.name)).Nodup ↔
      (earlier.map (·.name)).Nodup ∧ ∀ first ∈ earlier, first.name ≠ field.name := by
    simp [List.nodup_append]
  rw [not_breaks_iff, fieldsConfigured_iff, fieldsConfigured_iff, names]
  cases ignored : field.ignored with
  | true =>
    rw [persisted_concat_of_ignored ignored]
    constructor
    · rintro ⟨⟨distinct, fresh⟩, others⟩
      exact ⟨⟨distinct, others⟩, fresh, fun persists => by cases persists⟩
    · rintro ⟨⟨distinct, others⟩, fresh, -⟩
      exact ⟨⟨distinct, fresh⟩, others⟩
  | false =>
    have columns : ((persisted earlier ++ [field]).map (·.columnName.toLower)).Nodup ↔
        ((persisted earlier).map (·.columnName.toLower)).Nodup ∧
          ∀ first ∈ persisted earlier, first.columnName.toLower ≠ field.columnName.toLower := by
      simp [List.nodup_append]
    have stored : (∀ f ∈ persisted earlier ++ [field], ∀ name, f.type ≠ .custom name) ↔
        (∀ f ∈ persisted earlier, ∀ name, f.type ≠ .custom name) ∧
          ∀ name, field.type ≠ .custom name := by
      simp [or_imp, forall_and]
    rw [persisted_concat ignored, columns, stored, oneIdentity_append_singleton]
    constructor
    · rintro ⟨⟨distinct, fresh⟩, ⟨each, type⟩, ⟨apart, column⟩, one, identity⟩
      exact ⟨⟨distinct, each, apart, one⟩, fresh, fun _ => ⟨type, column, identity⟩⟩
    · rintro ⟨⟨distinct, each, apart, one⟩, fresh, rules⟩
      obtain ⟨type, column, identity⟩ := rules rfl
      exact ⟨⟨distinct, fresh⟩, ⟨each, type⟩, ⟨apart, column⟩, one, identity⟩

theorem fieldsConfigured_nil : FieldsConfigured [] :=
  ⟨List.nodup_nil, fun _ mem => (List.not_mem_nil mem).elim, List.nodup_nil, Nat.zero_le _⟩

/-- No field breaks a rule in a list without clashes. -/
theorem unbroken_iff {fields : List Field} :
    Unbroken engine model fields ↔ FieldsConfigured fields := by
  induction fields using List.reverseRecOn with
  | nil =>
    constructor
    · intro _
      exact fieldsConfigured_nil
    · intro _ before f isPrefix
      exact absurd (List.prefix_nil.mp isPrefix) (by simp)
  | append_singleton fields field ih =>
    rw [unbroken_append_singleton, fieldsConfigured_append_singleton, ih]

theorem FieldsConfigured.marked_unique {fields : List Field} (h : FieldsConfigured fields)
    {f g : Field} (hf : f ∈ persisted fields) (hg : g ∈ persisted fields)
    (markedF : f.identity = true) (markedG : g.identity = true) : f = g := by
  have memF := List.mem_filter.mpr ⟨hf, markedF⟩
  have memG := List.mem_filter.mpr ⟨hg, markedG⟩
  have one := h.oneIdentity
  generalize (persisted fields).filter (·.identity) = marked at memF memG one
  cases marked with
  | nil => cases memF
  | cons only others =>
    obtain rfl : others = [] := by simpa using one
    rw [List.mem_singleton.mp memF, List.mem_singleton.mp memG]

/-- After fields that break no rule, a field has one fault at most. -/
theorem Refuses.unique (clean : Unbroken engine model earlier) {a b : Fault}
    (ha : Refuses engine model earlier field a) (hb : Refuses engine model earlier field b) :
    a = b := by
  have configured := unbroken_iff.mp clean
  have rank : a.precedence = b.precedence := Nat.le_antisymm (ha.2 b hb.1) (hb.2 a ha.1)
  cases ha.1 with
  | duplicateField =>
    cases hb.1 with
    | duplicateField => rfl
    | _ => simp [Fault.precedence] at rank
  | unmappedType _ custom =>
    cases hb.1 with
    | unmappedType _ custom' => rw [custom.symm.trans custom']
    | _ => simp [Fault.precedence] at rank
  | columnCollision _ mem same =>
    cases hb.1 with
    | columnCollision _ mem' same' =>
      rw [List.inj_on_of_nodup_map configured.distinctColumns mem mem' (same.trans same'.symm)]
    | _ => simp [Fault.precedence] at rank
  | duplicateIdentity _ _ mem marked =>
    cases hb.1 with
    | duplicateIdentity _ _ mem' marked' => rw [configured.marked_unique mem mem' marked marked']
    | _ => simp [Fault.precedence] at rank

theorem FirstRefused.not_unbroken {fields : List Field} {fault : Fault}
    (h : FirstRefused engine model fields fault) : ¬ Unbroken engine model fields := by
  obtain ⟨earlier, field, isPrefix, -, refuses⟩ := h
  exact fun clean => clean earlier field isPrefix fault refuses.1

/-- A field that breaks a rule cannot come before another one whose predecessors break none. -/
theorem Unbroken.concat_eq {before before' : List Field} {f g : Field} {fault : Fault}
    (clean : Unbroken engine model before') (breaks : Breaks engine model before f fault)
    (shorter : before ++ [f] <+: before' ++ [g]) : before = before' ∧ f = g := by
  obtain same | inside := List.prefix_concat_iff.mp shorter
  · simpa using same
  · exact absurd breaks (clean before f inside fault)

/-- There is one first field that breaks a rule, and it has one fault. -/
theorem FirstRefused.unique {fields : List Field} {a b : Fault}
    (ha : FirstRefused engine model fields a) (hb : FirstRefused engine model fields b) :
    a = b := by
  obtain ⟨before, f, prefixF, cleanF, refusesF⟩ := ha
  obtain ⟨before', g, prefixG, cleanG, refusesG⟩ := hb
  obtain shorter | shorter := List.prefix_or_prefix_of_prefix prefixF prefixG
  · obtain ⟨rfl, rfl⟩ := cleanG.concat_eq refusesF.1 shorter
    exact refusesF.unique cleanF refusesG
  · obtain ⟨rfl, rfl⟩ := cleanF.concat_eq refusesG.1 shorter
    exact refusesF.unique cleanF refusesG

/-- Fields are accepted if none of them breaks a rule, and refused for the first one that does. -/
theorem acceptedColumns_spec (fields : List Field) (clean : Unbroken engine model earlier) :
    (∃ columns, acceptedColumns engine.dialect model earlier fields = .ok columns ∧
      Unbroken engine model (earlier ++ fields)) ∨
    ∃ fault, acceptedColumns engine.dialect model earlier fields = .error fault ∧
      FirstRefused engine model (earlier ++ fields) fault := by
  induction fields generalizing earlier with
  | nil =>
    rw [List.append_nil]
    exact .inl ⟨[], rfl, clean⟩
  | cons first rest ih =>
    rw [List.append_cons]
    obtain ⟨column?, accepted, keeps⟩ | ⟨fault, refused, refuses⟩ :=
      acceptedColumn?_spec engine model earlier first
    · obtain ⟨columns, others, unbroken⟩ | ⟨fault, refused, firstRefused⟩ :=
        ih (unbroken_append_singleton.mpr ⟨clean, keeps⟩)
      · refine .inl ⟨column?.toList ++ columns, ?_, unbroken⟩
        simp only [acceptedColumns, accepted, others, bind, Except.bind, pure, Except.pure]
      · refine .inr ⟨fault, ?_, firstRefused⟩
        simp only [acceptedColumns, accepted, refused, bind, Except.bind]
    · refine .inr ⟨fault, ?_, earlier, first, List.prefix_append _ _, clean, refuses⟩
      simp only [acceptedColumns, refused, bind, Except.bind]

theorem fieldsConfigured_of_accepted {fields : List Field} {columns : List Column}
    (accepted : acceptedColumns engine.dialect model [] fields = .ok columns) :
    FieldsConfigured fields := by
  have start : Unbroken engine model [] := unbroken_iff.mpr fieldsConfigured_nil
  obtain ⟨-, -, unbroken⟩ | ⟨fault, refused, -⟩ := acceptedColumns_spec fields start
  · exact unbroken_iff.mp unbroken
  · rw [refused] at accepted
    cases accepted

end

end ModelSql
