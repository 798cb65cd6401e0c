import Mathlib.Data.List.Induction
import ModelSql.Proofs.Table.WellFormed
import ModelSql.Schema.FullText
/-!
# Columns of full-text indexes

An index is made of the columns that its names stand for, in the order of the names. No two
names may stand for one column, and the first name at fault is the fault of the script.

* `indexColumns_eq_ok_iff`: the lists of names that are accepted;
* `indexColumns_error`: a name without a column is refused, whatever names follow it;
* `indexColumns_eq_error_iff`: the fault is that of the first name that is not accepted;
* `Table.fullTextScript_eq_ok_iff`: the scripts, and the requests that have one.
-/

namespace ModelSql

/-- The names stand for the columns, in order, and no two names for one column. -/
structure Table.Selects (t : Table) (names : List String) (columns : List Column) : Prop where
  resolved : List.Forall₂ (fun name c => t.resolve name = .ok c) names columns
  distinct : (columns.map (·.field)).Nodup

theorem Table.Selects.mem {t : Table} {names : List String} {columns : List Column}
    (h : t.Selects names columns) {c : Column} (mem : c ∈ columns) : c ∈ t.columns := by
  obtain ⟨name, -, resolved⟩ := exists_left_of_mem h.resolved mem
  exact Table.mem_of_resolve resolved

theorem Table.Selects.columns_ne_nil {t : Table} {names : List String} {columns : List Column}
    (h : t.Selects names columns) (nonempty : names ≠ []) : columns ≠ [] := by
  rintro rfl
  cases h.resolved
  exact nonempty rfl

/-- The names stand for columns whose fields differ from each other and from those taken. -/
theorem indexColumns_eq_ok {t : Table} {taken : List Column} {names : List String}
    {columns : List Column} :
    indexColumns t taken names = .ok columns ↔
      t.Selects names columns ∧ ∀ c ∈ columns, ∀ prior ∈ taken, prior.field ≠ c.field := by
  induction names generalizing taken columns with
  | nil =>
    constructor
    · intro h
      cases h
      exact ⟨⟨.nil, List.nodup_nil⟩, fun _ mem => (List.not_mem_nil mem).elim⟩
    · rintro ⟨⟨resolved, -⟩, -⟩
      cases resolved
      rfl
  | cons name names ih =>
    constructor
    · intro h
      obtain ⟨column, resolved, h⟩ := steps_of_ok h
      split at h
      · cases h
      · rename_i free
        obtain ⟨more, others, h⟩ := steps_of_ok h
        cases h
        obtain ⟨⟨rest, distinct⟩, apart⟩ := ih.mp others
        have fresh : column.field ∉ more.map (·.field) := by
          intro clash
          obtain ⟨c, mem, same⟩ := List.mem_map.mp clash
          exact apart c mem column (List.mem_append_right _ List.mem_cons_self) same.symm
        refine ⟨⟨.cons resolved rest, List.nodup_cons.mpr ⟨fresh, distinct⟩⟩, ?_⟩
        intro c mem prior taken
        obtain rfl | mem := List.mem_cons.mp mem
        · simpa using List.find?_eq_none.mp free prior taken
        · exact apart c mem prior (List.mem_append_left _ taken)
    · rintro ⟨⟨resolved, distinct⟩, apart⟩
      cases resolved with
      | @cons _ column _ more first rest =>
        obtain ⟨fresh, distinct⟩ := List.nodup_cons.mp distinct
        have free : taken.find? (·.field = column.field) = none := by
          refine List.find?_eq_none.mpr fun prior mem => ?_
          simpa using apart column List.mem_cons_self prior mem
        have later : indexColumns t (taken ++ [column]) names = .ok more := by
          refine ih.mpr ⟨⟨rest, distinct⟩, fun c mem prior taken => ?_⟩
          obtain taken | taken := List.mem_append.mp taken
          · exact apart c (List.mem_cons_of_mem _ mem) prior taken
          · obtain rfl := List.mem_singleton.mp taken
            intro same
            exact fresh (List.mem_map.mpr ⟨c, mem, same.symm⟩)
        simp only [indexColumns, first, free, later, bind, Except.bind, pure, Except.pure]

theorem indexColumns_eq_ok_iff {t : Table} {names : List String} {columns : List Column} :
    indexColumns t [] names = .ok columns ↔ t.Selects names columns := by
  rw [indexColumns_eq_ok]
  exact and_iff_left fun _ _ _ mem => (List.not_mem_nil mem).elim

/-- The names are resolved in order, and only the columns that earlier ones took are recalled. -/
theorem indexColumns_append (t : Table) (taken : List Column) (before after : List String) :
    indexColumns t taken (before ++ after) = (indexColumns t taken before).bind fun columns =>
      (indexColumns t (taken ++ columns) after).map (columns ++ ·) := by
  induction before generalizing taken with
  | nil =>
    simp only [List.nil_append, indexColumns, Except.bind, List.append_nil]
    cases indexColumns t taken after <;> rfl
  | cons name before ih =>
    rw [List.cons_append, indexColumns, indexColumns]
    cases t.resolve name with
    | error fault => rfl
    | ok column =>
      simp only [bind, Except.bind]
      cases taken.find? (·.field = column.field) with
      | some prior => rfl
      | none =>
        simp only [ih]
        cases indexColumns t (taken ++ [column]) before with
        | error fault => rfl
        | ok columns =>
          simp only [Except.bind, List.append_assoc, List.singleton_append, pure, Except.pure]
          cases indexColumns t (taken ++ column :: columns) after <;> rfl

/-- After names that are accepted, a name that stands for no column is at fault. -/
theorem indexColumns_error {t : Table} {taken : List Column} {before : List String}
    {columns : List Column} (earlier : indexColumns t taken before = .ok columns) {name : String}
    {fault : Fault} (refused : t.resolve name = .error fault) (after : List String) :
    indexColumns t taken (before ++ name :: after) = .error fault := by
  rw [indexColumns_append, earlier, Except.bind, indexColumns, refused]
  rfl

/-! ## The first name at fault -/

/-- Every name stands for a column, and no two names for one. -/
structure Table.Accepts (t : Table) (names : List String) : Prop where
  resolves : ∀ name ∈ names, ∃ c, t.resolve name = .ok c
  apart : names.Pairwise fun a b => ∀ c, t.resolve a = .ok c → t.resolve b ≠ .ok c

/-- The name stands for no column, or for that of an earlier name. -/
inductive Table.FaultAfter (t : Table) (earlier : List String) (name : String) : Fault → Prop where
  | unresolved {fault : Fault} : t.resolve name = .error fault → FaultAfter t earlier name fault
  | taken {key : String} {c : Column} : key ∈ earlier → t.resolve key = .ok c →
      t.resolve name = .ok c →
      FaultAfter t earlier name (.columnCollision t.model c.name c.field name)

/-- The fault is that of the first of the names that is not accepted after those before it. -/
def Table.FirstFault (t : Table) (names : List String) (fault : Fault) : Prop :=
  ∃ earlier name later, names = earlier ++ name :: later ∧ t.Accepts earlier ∧
    t.FaultAfter earlier name fault

section
variable {t : Table}

theorem Table.Accepts.concat {names : List String} (h : t.Accepts names) {name : String}
    {c : Column} (resolved : t.resolve name = .ok c)
    (fresh : ∀ key ∈ names, t.resolve key ≠ .ok c) : t.Accepts (names ++ [name]) := by
  constructor
  case resolves =>
    intro key mem
    obtain mem | mem := List.mem_append.mp mem
    · exact h.resolves key mem
    · obtain rfl := List.mem_singleton.mp mem
      exact ⟨c, resolved⟩
  case apart =>
    refine List.pairwise_append.mpr ⟨h.apart, List.pairwise_singleton _ _, ?_⟩
    intro key mem last hlast d found same
    obtain rfl := List.mem_singleton.mp hlast
    rw [resolved] at same
    cases same
    exact fresh key mem found

/-- All names are accepted, or there is a first one that is not. -/
theorem Table.firstFault_or (t : Table) (names : List String) :
    t.Accepts names ∨ ∃ fault, t.FirstFault names fault := by
  induction names using List.reverseRecOn with
  | nil => exact .inl ⟨by simp, .nil⟩
  | append_singleton names name ih =>
    obtain accepted | ⟨fault, earlier, bad, later, rfl, accepted, faulty⟩ := ih
    · cases resolved : t.resolve name with
      | error fault => exact .inr ⟨fault, names, name, [], rfl, accepted, .unresolved resolved⟩
      | ok c =>
        by_cases fresh : ∀ key ∈ names, t.resolve key ≠ .ok c
        · exact .inl (accepted.concat resolved fresh)
        · push Not at fresh
          obtain ⟨key, mem, found⟩ := fresh
          exact .inr ⟨_, names, name, [], rfl, accepted, .taken mem found resolved⟩
    · exact .inr ⟨fault, earlier, bad, later ++ [name], by simp, accepted, faulty⟩

variable (fields : (t.columns.map (·.field)).Nodup)
include fields

/-- Columns are the same if their fields are. -/
theorem Table.eq_of_field {c d : Column} (hc : c ∈ t.columns) (hd : d ∈ t.columns)
    (same : c.field = d.field) : c = d :=
  List.inj_on_of_nodup_map fields hc hd same

theorem Table.accepts_iff_selects {names : List String} :
    t.Accepts names ↔ ∃ columns, t.Selects names columns := by
  induction names with
  | nil => exact iff_of_true ⟨by simp, .nil⟩ ⟨[], .nil, List.nodup_nil⟩
  | cons name names ih =>
    constructor
    · rintro ⟨resolves, apart⟩
      obtain ⟨⟨c, resolved⟩, later⟩ := List.forall_mem_cons.mp resolves
      obtain ⟨fresh, apart⟩ := List.pairwise_cons.mp apart
      obtain ⟨columns, selects⟩ := ih.mp ⟨later, apart⟩
      refine ⟨c :: columns, .cons resolved selects.resolved, ?_⟩
      refine List.nodup_cons.mpr ⟨fun clash => ?_, selects.distinct⟩
      obtain ⟨d, mem, same⟩ := List.mem_map.mp clash
      obtain ⟨key, hkey, found⟩ := exists_left_of_mem selects.resolved mem
      obtain rfl := t.eq_of_field fields (Table.mem_of_resolve resolved)
        (Table.mem_of_resolve found) same.symm
      exact fresh key hkey _ resolved found
    · rintro ⟨columns, resolved, distinct⟩
      cases resolved with
      | @cons _ c _ columns first rest =>
        obtain ⟨fresh, distinct⟩ := List.nodup_cons.mp distinct
        obtain ⟨later, apart⟩ := ih.mpr ⟨columns, rest, distinct⟩
        refine ⟨List.forall_mem_cons.mpr ⟨⟨c, first⟩, later⟩, List.pairwise_cons.mpr ⟨?_, apart⟩⟩
        intro key mem d own other
        rw [first] at own
        cases own
        obtain ⟨e, he, found⟩ := exists_right_of_mem rest mem
        rw [other] at found
        cases found
        exact fresh (List.mem_map_of_mem he)

/-- The names before the one at fault take columns, and it meets these. -/
theorem indexColumns_eq_error {earlier later : List String} {name : String} {fault : Fault}
    (accepted : t.Accepts earlier) (faulty : t.FaultAfter earlier name fault) :
    indexColumns t [] (earlier ++ name :: later) = .error fault := by
  obtain ⟨columns, selects⟩ := (t.accepts_iff_selects fields).mp accepted
  have before := indexColumns_eq_ok_iff.mpr selects
  cases faulty with
  | unresolved refused => exact indexColumns_error before refused later
  | @taken key c mem found resolved =>
    obtain ⟨d, hd, own⟩ := exists_right_of_mem selects.resolved mem
    rw [found] at own
    cases own
    have prior : columns.find? (·.field = c.field) = some c := find?_key selects.distinct hd
    rw [indexColumns_append, before, Except.bind, List.nil_append, indexColumns, resolved]
    simp only [bind, Except.bind, prior]
    rfl

/-- Names are refused just for the first one at fault. -/
theorem indexColumns_eq_error_iff {names : List String} {fault : Fault} :
    indexColumns t [] names = .error fault ↔ t.FirstFault names fault := by
  constructor
  · intro failed
    obtain accepted | ⟨first, bad⟩ := t.firstFault_or names
    · obtain ⟨columns, selects⟩ := (t.accepts_iff_selects fields).mp accepted
      rw [indexColumns_eq_ok_iff.mpr selects] at failed
      cases failed
    · obtain ⟨earlier, name, later, rfl, accepted, faulty⟩ := id bad
      rw [indexColumns_eq_error fields accepted faulty] at failed
      cases failed
      exact bad
  · rintro ⟨earlier, name, later, rfl, accepted, faulty⟩
    exact indexColumns_eq_error fields accepted faulty

end

/-! ## Scripts -/

/-- The script over columns, once their names are resolved. -/
def Table.scriptOf (t : Table) (columns : List Column) (mode : FullTextMode) : String :=
  t.fullTextDefinition columns mode ++
    String.join ((syncTriggers mode).map (t.triggerDefinition columns))

theorem Table.fullTextScript_eq (t : Table) (names : List String) (mode : FullTextMode) :
    t.fullTextScript names mode =
      if t.dialect.supportsFullText = false then .error (.unsupported t.engine .fullText)
      else if names = [] then .error (.emptyFullTextColumns t.model)
      else (indexColumns t [] names).map fun columns => t.scriptOf columns mode := by
  unfold fullTextScript
  cases t.dialect.supportsFullText with
  | false => rfl
  | true =>
    cases names with
    | nil => rfl
    | cons name names => cases indexColumns t [] (name :: names) <;> rfl

/-- A script is that of the columns that its names stand for. There is one if the engine has
full-text indexes and the names, of which there is one at least, stand for distinct columns. -/
theorem Table.fullTextScript_eq_ok_iff {t : Table} {names : List String} {mode : FullTextMode}
    {text : String} :
    t.fullTextScript names mode = .ok text ↔
      t.dialect.supportsFullText = true ∧ names ≠ [] ∧
        ∃ columns, t.Selects names columns ∧ text = t.scriptOf columns mode := by
  rw [fullTextScript_eq]
  cases t.dialect.supportsFullText with
  | false => simp
  | true =>
    by_cases empty : names = []
    · simp [empty]
    · simp only [empty, Bool.true_eq_false, if_false, ne_eq, not_false_eq_true, true_and,
        map_eq_ok_iff, indexColumns_eq_ok_iff, eq_comm (a := text)]

end ModelSql
