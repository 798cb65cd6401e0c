import Mathlib.Data.List.Forall2
import Mathlib.Data.List.Nodup
import ModelSql.Table.Build
/-!
# Well-formed tables

What holds of every table that a build returns. Each persisted field adds one
column after checks against the fields before it, and settling the identity
changes no more than the mark of one column.

* `acceptedColumn?_ok`: what one accepted field contributes;
* `Model.build_wellFormed`: the invariant of built tables;
* `Table.WellFormed.columnByName?_eq`: a column is found under its own name.
-/

namespace ModelSql

/-- A sequence of two steps succeeds if both do. -/
theorem steps_of_ok {ε α β : Type} {first : Except ε α} {second : α → Except ε β} {b : β}
    (h : first >>= second = .ok b) : ∃ a, first = .ok a ∧ second a = .ok b := by
  cases hf : first with
  | error fault => simp [hf, bind, Except.bind] at h
  | ok a => exact ⟨a, rfl, by simpa [hf, bind, Except.bind] using h⟩

theorem map_eq_ok_iff {α β : Type} {x : Except Fault α} {g : α → β} {b : β} :
    x.map g = .ok b ↔ ∃ a, x = .ok a ∧ g a = b := by
  cases x <;> simp [Except.map]

theorem map_eq_error_iff {α β : Type} {x : Except Fault α} {g : α → β} {fault : Fault} :
    x.map g = .error fault ↔ x = .error fault := by
  cases x <;> simp [Except.map]

theorem ok_of_toOption {ε α : Type} {x : Except ε α} {a : α} (h : x.toOption = some a) :
    x = .ok a := by
  cases x with
  | error fault => cases h
  | ok b => exact congrArg Except.ok (Option.some.inj h)

/-- What holds pairwise relates each item on the left to one on the right. -/
theorem exists_right_of_mem {α β : Type} {R : α → β → Prop} {xs : List α} {ys : List β}
    (related : List.Forall₂ R xs ys) {x : α} (mem : x ∈ xs) : ∃ y ∈ ys, R x y := by
  induction related with
  | nil => cases mem
  | @cons x' y xs ys first _ ih =>
    obtain rfl | mem := List.mem_cons.mp mem
    · exact ⟨y, List.mem_cons_self, first⟩
    · obtain ⟨y', hy, later⟩ := ih mem
      exact ⟨y', List.mem_cons_of_mem _ hy, later⟩

theorem exists_left_of_mem {α β : Type} {R : α → β → Prop} {xs : List α} {ys : List β}
    (related : List.Forall₂ R xs ys) {y : β} (mem : y ∈ ys) : ∃ x ∈ xs, R x y :=
  exists_right_of_mem related.flip mem

/-- The column is as a persisted field makes it, apart from the mark of the identity. -/
structure Column.WellFormed (c : Column) (d : Dialect) : Prop where
  quoted_eq : c.quoted = d.quoteIdentifier c.name
  native_eq : d.nativeType c.type = some c.native
  integer : c.identity = true → c.type.isInteger = true

/-- No two columns have one name, up to the case of ASCII letters. -/
def NamesDistinct (columns : List Column) : Prop :=
  (columns.map fun c => c.name.toLower).Nodup

/-- What every built table satisfies. -/
structure Table.WellFormed (t : Table) : Prop where
  quotedName_eq : t.quotedName = t.dialect.quoteIdentifier t.name
  column : ∀ c ∈ t.columns, c.WellFormed t.dialect
  distinct : NamesDistinct t.columns

section
variable {fields : List Field} {field : Field}

theorem persisted_concat_of_ignored (h : field.ignored = true) :
    persisted (fields ++ [field]) = persisted fields := by
  simp [persisted, h]

theorem persisted_concat (h : field.ignored = false) :
    persisted (fields ++ [field]) = persisted fields ++ [field] := by
  simp [persisted, h]

theorem persisted_cons_of_ignored (h : field.ignored = true) :
    persisted (field :: fields) = persisted fields := by
  simp [persisted, h]

theorem persisted_cons (h : field.ignored = false) :
    persisted (field :: fields) = field :: persisted fields := by
  simp [persisted, h]

end

/-- An accepted field is persisted if it has a column, its type is known to the engine,
and no persisted field before it has its column name. -/
theorem acceptedColumn?_ok {d : Dialect} {model : String} {earlier : List Field} {field : Field}
    {column? : Option Column} (h : acceptedColumn? d model earlier field = .ok column?) :
    (field.ignored = true ∧ column? = none) ∨
    (field.ignored = false ∧ ∃ native, d.nativeType field.type = some native ∧
      (∀ f ∈ persisted earlier, f.columnName.toLower ≠ field.columnName.toLower) ∧
      column? = some (field.toColumn d native)) := by
  unfold acceptedColumn? at h
  split at h
  · cases h
  · split at h
    · rename_i ignored
      exact .inl ⟨ignored, by cases h; rfl⟩
    · rename_i persists
      split at h
      · cases h
      · rename_i native known
        split at h
        · cases h
        · rename_i unused
          split at h
          · cases h
          · cases h
            refine .inr ⟨by simpa using persists, native, known, ?_, rfl⟩
            intro f hf
            simpa using List.find?_eq_none.mp unused f hf

/-- The columns of accepted fields are well formed, and their names differ from each
other and from those of the persisted fields before them. -/
theorem acceptedColumns_ok {d : Dialect} {model : String} {earlier fields : List Field}
    {columns : List Column} (h : acceptedColumns d model earlier fields = .ok columns) :
    (∀ c ∈ columns, c.WellFormed d ∧ c.identity = false ∧
      ∀ f ∈ persisted earlier, f.columnName.toLower ≠ c.name.toLower) ∧
    NamesDistinct columns := by
  induction fields generalizing earlier columns with
  | nil =>
    cases h
    exact ⟨fun c hc => (List.not_mem_nil hc).elim, List.nodup_nil⟩
  | cons field fields ih =>
    obtain ⟨column?, accepted, h⟩ := steps_of_ok h
    obtain ⟨rest, others, h⟩ := steps_of_ok h
    cases h
    obtain ⟨each, distinct⟩ := ih others
    obtain ⟨ignored, rfl⟩ | ⟨persists, native, known, unused, rfl⟩ := acceptedColumn?_ok accepted
    · rw [persisted_concat_of_ignored ignored] at each
      exact ⟨each, distinct⟩
    · rw [persisted_concat persists] at each
      simp only [Option.toList_some, List.singleton_append]
      constructor
      · intro c hc
        obtain rfl | hc := List.mem_cons.mp hc
        · exact ⟨⟨rfl, known, fun h => by cases h⟩, rfl, unused⟩
        · obtain ⟨wellFormed, unmarked, apart⟩ := each c hc
          exact ⟨wellFormed, unmarked, fun f hf => apart f (List.mem_append_left _ hf)⟩
      · refine List.nodup_cons.mpr ⟨fun clash => ?_, distinct⟩
        obtain ⟨c, hc, same⟩ := List.mem_map.mp clash
        exact (each c hc).2.2 field (List.mem_append_right _ List.mem_cons_self) same.symm

/-- Settling the identity keeps names and order, and marks at most one column, an integer. -/
theorem withIdentity_ok {model field : String} {columns settled : List Column}
    (h : withIdentity model field columns = .ok settled) :
    settled.map (·.name) = columns.map (·.name) ∧
    ∀ c ∈ settled, c ∈ columns ∨
      ∃ c₀ ∈ columns, c₀.type.isInteger = true ∧ c = { c₀ with identity := true } := by
  induction columns generalizing settled with
  | nil =>
    cases h
    exact ⟨rfl, fun c hc => (List.not_mem_nil hc).elim⟩
  | cons c₀ columns ih =>
    unfold withIdentity at h
    split at h
    · split at h
      · rename_i integer
        cases h
        refine ⟨rfl, fun c hc => ?_⟩
        obtain rfl | hc := List.mem_cons.mp hc
        · exact .inr ⟨c₀, List.mem_cons_self, integer, rfl⟩
        · exact .inl (List.mem_cons_of_mem _ hc)
      · cases h
    · obtain ⟨others, rest, rfl⟩ := map_eq_ok_iff.mp h
      obtain ⟨names, each⟩ := ih rest
      refine ⟨congrArg (c₀.name :: ·) names, fun c hc => ?_⟩
      obtain rfl | hc := List.mem_cons.mp hc
      · exact .inl List.mem_cons_self
      · obtain hc | ⟨c₁, hc₁, marked⟩ := each c hc
        · exact .inl (List.mem_cons_of_mem _ hc)
        · exact .inr ⟨c₁, List.mem_cons_of_mem _ hc₁, marked⟩

theorem withIdentity_wellFormed {d : Dialect} {model field : String} {columns settled : List Column}
    (h : withIdentity model field columns = .ok settled) (hc : ∀ c ∈ columns, c.WellFormed d)
    (hd : NamesDistinct columns) : (∀ c ∈ settled, c.WellFormed d) ∧ NamesDistinct settled := by
  obtain ⟨names, each⟩ := withIdentity_ok h
  constructor
  · intro c mem
    obtain mem | ⟨c₀, mem₀, integer, rfl⟩ := each c mem
    · exact hc c mem
    · exact ⟨(hc c₀ mem₀).quoted_eq, (hc c₀ mem₀).native_eq, fun _ => integer⟩
  · have lower : settled.map (fun c => c.name.toLower) = columns.map fun c => c.name.toLower := by
      simpa only [List.map_map, Function.comp_def] using congrArg (List.map String.toLower) names
    rw [NamesDistinct, lower]
    exact hd

/-- A build accepts all fields, of which one at least is persisted, and settles the identity. -/
theorem Model.build_ok {m : Model} {engine : Engine} {override : Option String}
    {settings : Settings} {t : Table} (h : m.build engine override settings = .ok t) :
    ∃ accepted settled, acceptedColumns engine.dialect m.name [] m.fields = .ok accepted ∧
      accepted ≠ [] ∧
      (match identityField? settings m.fields accepted with
        | none => Except.ok accepted
        | some field => withIdentity m.name field accepted) = .ok settled ∧
      t = {
        model := m.name
        name := m.tableName override
        quotedName := engine.dialect.quoteIdentifier (m.tableName override)
        engine := engine
        columns := settled
        ignored := (m.fields.filter (·.ignored)).map (·.name) } := by
  obtain ⟨accepted, haccepted, h⟩ := steps_of_ok h
  simp only at h
  split at h
  · cases h
  · rename_i nonempty
    refine ⟨accepted, t.columns, haccepted, by simpa using nonempty, ?_⟩
    cases chosen : identityField? settings m.fields accepted with
    | none =>
      simp only [chosen] at h
      cases h
      exact ⟨rfl, rfl⟩
    | some field =>
      simp only [chosen] at h
      obtain ⟨settled, hsettled, h⟩ := steps_of_ok h
      cases h
      exact ⟨hsettled, rfl⟩

theorem Model.build_engine {m : Model} {engine : Engine} {override : Option String}
    {settings : Settings} {t : Table} (h : m.build engine override settings = .ok t) :
    t.engine = engine := by
  obtain ⟨accepted, settled, -, -, -, rfl⟩ := m.build_ok h
  rfl

/-- Every table that a build returns is well formed. -/
theorem Model.build_wellFormed {m : Model} {engine : Engine} {override : Option String}
    {settings : Settings} {t : Table} (h : m.build engine override settings = .ok t) :
    t.WellFormed := by
  obtain ⟨accepted, settled, haccepted, -, hsettled, rfl⟩ := m.build_ok h
  obtain ⟨each, distinct⟩ := acceptedColumns_ok haccepted
  have columns : (∀ c ∈ settled, c.WellFormed engine.dialect) ∧ NamesDistinct settled := by
    split at hsettled
    · cases hsettled
      exact ⟨fun c hc => (each c hc).1, distinct⟩
    · exact withIdentity_wellFormed hsettled (fun c hc => (each c hc).1) distinct
  exact ⟨rfl, columns.1, columns.2⟩

/-- A model with a generated identity and a nullable field under an alias. -/
def invoiceModel : Model where
  name := "Invoice"
  fields := [
    { name := "Id", type := .long },
    { name := "Total", type := .decimal },
    { name := "Note", type := .string, nullable := true, column := some "remark" }]

def invoiceTable : Table where
  model := "Invoice"
  name := "Invoice"
  quotedName := "[Invoice]"
  engine := .sqlServer
  columns := [
    { field := "Id", name := "Id", quoted := "[Id]", type := .long, native := "BIGINT"
      nullable := false, identity := true },
    { field := "Total", name := "Total", quoted := "[Total]", type := .decimal
      native := "DECIMAL(38, 18)", nullable := false, identity := false },
    { field := "Note", name := "remark", quoted := "[remark]", type := .string
      native := "NVARCHAR(MAX)", nullable := true, identity := false }]
  ignored := []

theorem build_invoice : invoiceModel.build .sqlServer = .ok invoiceTable :=
  ok_of_toOption (by decide +kernel)

/-! ## Looking up columns -/

theorem Table.mem_of_identity? {t : Table} {c : Column} (h : t.identity? = some c) :
    c ∈ t.columns ∧ c.identity = true :=
  ⟨List.mem_of_find?_eq_some h, List.find?_some h⟩

theorem Table.mem_of_dataColumns {t : Table} {c : Column} (h : c ∈ t.dataColumns) :
    c ∈ t.columns :=
  List.mem_of_mem_filter h

theorem Table.mem_of_updatableColumns {t : Table} {c : Column} (h : c ∈ t.updatableColumns) :
    c ∈ t.columns :=
  List.mem_of_mem_filter h

theorem Table.mem_of_resolve {t : Table} {name : String} {c : Column}
    (h : t.resolve name = .ok c) : c ∈ t.columns := by
  unfold Table.resolve at h
  split at h
  · rename_i column found
    cases h
    cases hf : t.columnByField? name with
    | some byField =>
      obtain rfl : byField = c := by simpa [hf] using found
      exact List.mem_of_find?_eq_some hf
    | none =>
      have byName : t.columnByName? name = some c := by simpa [hf] using found
      exact List.mem_of_find?_eq_some byName
  · split at h <;> cases h

/-- Where keys are distinct, a search by the key of an item finds the item. -/
theorem find?_key {α β : Type} [DecidableEq β] {key : α → β} {items : List α}
    (distinct : (items.map key).Nodup) {a : α} (mem : a ∈ items) :
    items.find? (key · = key a) = some a := by
  cases found : items.find? (key · = key a) with
  | none =>
    have absent := List.find?_eq_none.mp found a mem
    exact absurd (decide_eq_true rfl) absent
  | some b =>
    have same : key b = key a := by simpa using List.find?_some found
    rw [List.inj_on_of_nodup_map distinct (List.mem_of_find?_eq_some found) mem same]

/-- A column is the one found under its name, in any case. -/
theorem Table.columnByName?_of_toLower {t : Table} (names : NamesDistinct t.columns)
    {key : String} {c : Column} (mem : c ∈ t.columns) (same : c.name.toLower = key.toLower) :
    t.columnByName? key = some c := by
  have found := find?_key names mem
  simpa only [columnByName?, Column.isNamed, same] using found

theorem Table.WellFormed.columnByName?_eq {t : Table} (h : t.WellFormed) {c : Column}
    (hc : c ∈ t.columns) : t.columnByName? c.name = some c :=
  t.columnByName?_of_toLower h.distinct hc rfl

end ModelSql
