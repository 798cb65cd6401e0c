import ModelSql.Proofs.Filter.Syntax
import ModelSql.Proofs.Statement.ParameterNames
/-!
# Values stay out of the text

Of the values of a filter the text shows how many a set has and whether the
operand of an equality is null. Of the values of a payload it shows nothing. Two
runs that agree on these give the same text under the same names.

* `Filter.SameShape`: filters of two tables that differ in their values only;
* `values_stay_out_of_text`: filters and payloads, in two runs.
-/

namespace ModelSql

/-! ## Shapes -/

/-- The operators are the same, with as many operands, and equalities agree on null. -/
structure Condition.SameShape (a b : Condition) : Prop where
  operator : a.operator = b.operator
  count : a.operands.length = b.operands.length
  nulls : a.operator = .comparison .equal ∨ a.operator = .comparison .notEqual →
    a.operands.map Value.isNull = b.operands.map Value.isNull

/-- The fields resolve to columns of one name, with conditions of one shape. -/
def Predicate.SameShape (t₁ t₂ : Table) (p₁ p₂ : Predicate) : Prop :=
  ∃ c₁ c₂, t₁.resolve p₁.field = .ok c₁ ∧ t₂.resolve p₂.field = .ok c₂ ∧ c₁.name = c₂.name ∧
    p₁.condition.SameShape p₂.condition

/-- Position by position, the connectives are the same and the predicates of one shape. -/
def Filter.SameShape (t₁ t₂ : Table) (f₁ f₂ : Filter) : Prop :=
  List.Forall₂ (fun n₁ n₂ => n₁.1 = n₂.1 ∧ Predicate.SameShape t₁ t₂ n₁.2 n₂.2) f₁.nodes f₂.nodes

/-- The text of a filter and the names of its parameters. -/
def CompiledFilter.visible (c : CompiledFilter) : String × List String :=
  (c.condition, c.parameters.names)

/-- The text of a statement and the names of its parameters. -/
def Statement.visible (s : Statement) : String × List String × List String :=
  (s.text, s.parameterNames, s.parameters.names)

/-- Tests of one shape on columns of one name. -/
def ColumnTest.SameShape (a b : ColumnTest) : Prop :=
  a.column.name = b.column.name ∧ a.condition.SameShape b.condition

def ResolvedFilter.LinksSameShape :
    List (Connective × ColumnTest) → List (Connective × ColumnTest) → Prop :=
  List.Forall₂ fun a b => a.1 = b.1 ∧ a.2.SameShape b.2

inductive ResolvedFilter.SameShape : ResolvedFilter → ResolvedFilter → Prop where
  | empty : SameShape .empty .empty
  | chain {first first' : ColumnTest} {links links' : List (Connective × ColumnTest)} :
      first.SameShape first' → LinksSameShape links links' →
        SameShape (.chain first links) (.chain first' links')

/-! ## Conditions -/

/-- Conditions of one shape are the same, or they bind as many operands. -/
theorem Condition.SameShape.cases {a b : Condition} (h : a.SameShape b) :
    a = b ∨
    (∃ m xs ys, a = .membership m xs ∧ b = .membership m ys ∧ xs ≠ [] ∧ xs.length = ys.length) ∨
    (∃ c v w, a = .comparison c v ∧ b = .comparison c w ∧ c.Binds v ∧ c.Binds w) := by
  obtain ⟨operator, count, nulls⟩ := h
  cases a with
  | membership m xs =>
    cases b with
    | comparison => cases operator
    | membership m' ys =>
      cases operator
      cases xs with
      | nil =>
        obtain rfl : ys = [] := List.length_eq_zero_iff.mp count.symm
        exact .inl rfl
      | cons x xs => exact .inr (.inl ⟨m, x :: xs, ys, rfl, rfl, by simp, count⟩)
  | comparison c v =>
    cases b with
    | membership => cases operator
    | comparison c' w =>
      cases operator
      have agree : c = .equal ∨ c = .notEqual → (v = .null ↔ w = .null) := by
        intro equality
        have nullable := nulls (equality.imp (congrArg _) (congrArg _))
        have same : v.isNull = w.isNull := by simpa [operands] using nullable
        cases v <;> cases w <;> simp_all [Value.isNull]
      by_cases test : (c = .equal ∨ c = .notEqual) ∧ v = .null
      · obtain ⟨equality, rfl⟩ := test
        obtain rfl := (agree equality).mp rfl
        exact .inl rfl
      · refine .inr (.inr ⟨c, v, w, rfl, rfl, ⟨?_, ?_⟩, ⟨?_, ?_⟩⟩)
        · exact fun equal null => test ⟨.inl equal, null⟩
        · exact fun notEqual null => test ⟨.inr notEqual, null⟩
        · exact fun equal null => test ⟨.inl equal, (agree (.inl equal)).mpr null⟩
        · exact fun notEqual null => test ⟨.inr notEqual, (agree (.inr notEqual)).mpr null⟩

theorem Condition.SameShape.bound_length {a b : Condition} (h : a.SameShape b) :
    a.bound.length = b.bound.length := by
  obtain rfl | ⟨m, xs, ys, rfl, rfl, -, count⟩ | ⟨c, v, w, rfl, rfl, hv, hw⟩ := h.cases
  · rfl
  · exact count
  · rw [bound_compares hv, bound_compares hw]
    rfl

/-- Within one dialect the shape determines the text. -/
theorem Condition.SameShape.condition_eq {a b : Condition} (h : a.SameShape b) (d : Dialect)
    (column : String) (start : Nat) :
    (a.compile d column start).condition = (b.compile d column start).condition := by
  obtain rfl | ⟨m, xs, ys, rfl, rfl, nonempty, count⟩ | ⟨c, v, w, rfl, rfl, hv, hw⟩ := h.cases
  · rfl
  · have others : ys ≠ [] := by
      rintro rfl
      exact nonempty (List.length_eq_zero_iff.mp count)
    simp only [compile_set nonempty, compile_set others, numbered_names, count]
  · rw [compile_compares hv, compile_compares hw]
    rfl

theorem ColumnTest.SameShape.bound_length {a b : ColumnTest} (h : a.SameShape b) :
    a.bound.length = b.bound.length :=
  Condition.SameShape.bound_length h.2

theorem ResolvedFilter.LinksSameShape.bound_length {xs ys : List (Connective × ColumnTest)}
    (h : LinksSameShape xs ys) :
    (xs.flatMap (·.2.bound)).length = (ys.flatMap (·.2.bound)).length := by
  induction h with
  | nil => rfl
  | cons link _ ih =>
    simp only [List.flatMap_cons, List.length_append, link.2.bound_length, ih]

theorem ResolvedFilter.SameShape.bound_length {r₁ r₂ : ResolvedFilter} (h : r₁.SameShape r₂) :
    r₁.bound.length = r₂.bound.length := by
  cases h with
  | empty => rfl
  | chain head links =>
    simp only [bound, List.length_append, head.bound_length, links.bound_length]

section
variable {d₁ d₂ : Dialect} (h₁ : d₁.UsesAtSign) (h₂ : d₂.UsesAtSign)
include h₁ h₂

/-- The names depend on nothing but the number of the values. -/
theorem numbered_names_eq (start : Nat) {xs ys : List Value} (h : xs.length = ys.length) :
    (d₁.numbered start xs).names = (d₂.numbered start ys).names := by
  have placeholders : d₁.placeholder = d₂.placeholder := by
    funext n
    rw [Dialect.placeholder, d₁.parameter_eq h₁, Dialect.placeholder, d₂.parameter_eq h₂]
  rw [numbered_names, numbered_names, placeholders, h]

theorem Condition.condition_eq (c : Condition) (column : String) (start : Nat) :
    (c.compile d₁ column start).condition = (c.compile d₂ column start).condition := by
  have names (values : List Value) :
      (d₁.numbered start values).names = (d₂.numbered start values).names :=
    numbered_names_eq h₁ h₂ start rfl
  cases c.has_form with
  | emptySet => rfl
  | set m nonempty => simp only [compile_set nonempty, names]
  | isNull => rfl
  | isNotNull => rfl
  | compares binds => simp only [compile_compares binds, names]

/-! ## Filters -/

theorem ColumnTest.SameShape.condition_eq {a b : ColumnTest} (h : a.SameShape b) (start : Nat) :
    (a.compile d₁ start).condition = (b.compile d₂ start).condition := by
  obtain ⟨column, shape⟩ := h
  rw [ColumnTest.compile, ColumnTest.compile, column, shape.condition_eq,
    Condition.condition_eq h₁ h₂]

theorem ResolvedFilter.LinksSameShape.condition_eq {xs ys : List (Connective × ColumnTest)}
    (h : LinksSameShape xs ys) (start : Nat) :
    (compileLinks d₁ start xs).condition = (compileLinks d₂ start ys).condition := by
  induction h generalizing start with
  | nil => rfl
  | cons link _ ih =>
    obtain ⟨connective, shape⟩ := link
    simp only [compileLinks, connective, shape.condition_eq h₁ h₂, shape.bound_length, ih]

theorem ResolvedFilter.SameShape.visible_eq {r₁ r₂ : ResolvedFilter} (h : r₁.SameShape r₂) :
    (r₁.compile d₁).visible = (r₂.compile d₂).visible := by
  have conditions : (r₁.compile d₁).condition = (r₂.compile d₂).condition := by
    cases h with
    | empty => rfl
    | chain head links =>
      have openings := List.Forall₂.length_eq links
      simp only [compile, head.condition_eq h₁ h₂, links.condition_eq h₁ h₂, head.bound_length,
        List.map_const', openings]
  have names : (r₁.compile d₁).parameters.names = (r₂.compile d₂).parameters.names := by
    rw [r₁.compile_parameters, r₂.compile_parameters]
    exact numbered_names_eq h₁ h₂ 0 h.bound_length
  rw [CompiledFilter.visible, conditions, names]
  rfl

end

theorem Predicate.SameShape.resolve {t₁ t₂ : Table} {p₁ p₂ : Predicate}
    (h : p₁.SameShape t₁ t₂ p₂) :
    ∃ a b, p₁.resolve t₁ = .ok a ∧ p₂.resolve t₂ = .ok b ∧ a.SameShape b := by
  obtain ⟨c₁, c₂, h₁, h₂, name, shape⟩ := h
  exact ⟨_, _, Predicate.resolve_of_field h₁, Predicate.resolve_of_field h₂, name, shape⟩

/-- Filters of one shape resolve to chains of one shape. -/
theorem Filter.SameShape.resolve {t₁ t₂ : Table} {f₁ f₂ : Filter} (h : f₁.SameShape t₁ t₂ f₂) :
    ∃ r₁ r₂, f₁.resolve t₁ = .ok r₁ ∧ f₂.resolve t₂ = .ok r₂ ∧ r₁.SameShape r₂ := by
  obtain ⟨r₁, r₂, h₁, h₂, related⟩ :=
    Filter.resolve_related (fun _ _ shape => Predicate.SameShape.resolve shape) h
  refine ⟨r₁, r₂, h₁, h₂, ?_⟩
  cases related with
  | empty => exact .empty
  | chain head links => exact .chain head links

/-- Filters of one shape compile to the same text with the same names. -/
theorem Filter.SameShape.compile {t₁ t₂ : Table} {f₁ f₂ : Filter} (h : f₁.SameShape t₁ t₂ f₂) :
    ∃ c₁ c₂, f₁.compile t₁ = .ok c₁ ∧ f₂.compile t₂ = .ok c₂ ∧ c₁.visible = c₂.visible := by
  obtain ⟨r₁, r₂, h₁, h₂, shape⟩ := h.resolve
  exact ⟨_, _, Filter.compile_of_resolve h₁, Filter.compile_of_resolve h₂,
    shape.visible_eq t₁.usesAtSign t₂.usesAtSign⟩

/-! ## Payloads -/

theorem Table.insertAssigned_visible (t : Table) {xs ys : List Assignment}
    (h : assignedColumns xs = assignedColumns ys) :
    (t.insertAssigned xs).visible = (t.insertAssigned ys).visible := by
  simp only [Statement.visible, insertAssigned, Dialect.bind_names, h]

theorem Table.updateAssigned_visible (t : Table) {xs ys : List Assignment}
    (h : assignedColumns xs = assignedColumns ys) {c₁ c₂ : CompiledFilter}
    (hc : c₁.visible = c₂.visible) :
    (t.updateAssigned xs c₁).visible = (t.updateAssigned ys c₂).visible := by
  obtain ⟨condition, names⟩ := Prod.mk.inj hc
  simp only [Statement.visible, updateAssigned, Parameters.append_names, Dialect.bind_names, h,
    condition, names]

/-- Two payloads with one list of keys succeed together, and show the same. -/
theorem Payload.assignments_together {p₁ p₂ : Payload} (h : p₁.keys = p₂.keys) (t : Table) :
    (∃ fault, p₁.assignments t = .error fault ∧ p₂.assignments t = .error fault) ∨
    (∃ xs ys, p₁.assignments t = .ok xs ∧ p₂.assignments t = .ok ys ∧
      assignedColumns xs = assignedColumns ys) := by
  have columns : (p₁.assignments t).map assignedColumns =
      (p₂.assignments t).map assignedColumns := by
    rw [p₁.assignments_eq, p₂.assignments_eq, h]
  cases h₁ : p₁.assignments t with
  | error fault =>
    cases h₂ : p₂.assignments t with
    | error fault' =>
      rw [h₁, h₂] at columns
      cases columns
      exact .inl ⟨fault, rfl, rfl⟩
    | ok ys => simp [h₁, h₂, Except.map] at columns
  | ok xs =>
    cases h₂ : p₂.assignments t with
    | error fault' => simp [h₁, h₂, Except.map] at columns
    | ok ys =>
      rw [h₁, h₂] at columns
      exact .inr ⟨xs, ys, rfl, rfl, Except.ok.inj columns⟩

/-- Filters of one shape compile to the same text with the same names, on tables of any
engines. On one table, payloads with the same keys are refused alike or give the same text
with the same names, whatever their values are. -/
theorem values_stay_out_of_text {t₁ t₂ : Table} {f₁ f₂ : Filter}
    (same : f₁.SameShape t₁ t₂ f₂) :
    (∃ c₁ c₂, f₁.compile t₁ = .ok c₁ ∧ f₂.compile t₂ = .ok c₂ ∧ c₁.visible = c₂.visible) ∧
    (t₁ = t₂ → ∀ p₁ p₂ : Payload, p₁.keys = p₂.keys →
      (p₁.insert t₁).map Statement.visible = (p₂.insert t₂).map Statement.visible ∧
      (p₁.update t₁ f₁).map Statement.visible = (p₂.update t₂ f₂).map Statement.visible) := by
  obtain ⟨c₁, c₂, h₁, h₂, visible⟩ := same.compile
  refine ⟨⟨c₁, c₂, h₁, h₂, visible⟩, ?_⟩
  rintro rfl p₁ p₂ keys
  rw [p₁.insert_eq, p₂.insert_eq]
  obtain ⟨fault, refused₁, refused₂⟩ | ⟨xs, ys, hxs, hys, columns⟩ :=
    Payload.assignments_together keys t₁
  · refine ⟨by rw [refused₁, refused₂], ?_⟩
    simp only [Payload.update, refused₁, refused₂]
    rfl
  · constructor
    · rw [hxs, hys]
      exact congrArg Except.ok (t₁.insertAssigned_visible columns)
    · rw [p₁.update_eq hxs, p₂.update_eq hys, columns, h₁, h₂]
      split
      · rfl
      · exact congrArg Except.ok (t₁.updateAssigned_visible columns visible)

theorem values_stay_out_of_text_invoice :
    let filter (v : Value) : Filter :=
      (Filter.ofPredicate ⟨"Total", .comparison .greaterThan v⟩).or ⟨"Note", .comparison .equal v⟩
    let payload (v : Value) : Payload := ⟨[("Total", v)], List.nodup_singleton _⟩
    ((payload (.int 1)).update invoiceTable (filter (.int 1))).map Statement.visible =
      ((payload (.text "0; --")).update invoiceTable (filter (.text "0; --"))).map
        Statement.visible := by
  intro filter payload
  have first : Predicate.SameShape invoiceTable invoiceTable
      ⟨"Total", .comparison .greaterThan (.int 1)⟩
      ⟨"Total", .comparison .greaterThan (.text "0; --")⟩ :=
    ⟨_, _, rfl, rfl, rfl, rfl, rfl, fun _ => rfl⟩
  have second : Predicate.SameShape invoiceTable invoiceTable
      ⟨"Note", .comparison .equal (.int 1)⟩ ⟨"Note", .comparison .equal (.text "0; --")⟩ :=
    ⟨_, _, rfl, rfl, rfl, rfl, rfl, fun _ => rfl⟩
  have same : (filter (.int 1)).SameShape invoiceTable invoiceTable (filter (.text "0; --")) :=
    .cons ⟨rfl, first⟩ (.cons ⟨rfl, second⟩ .nil)
  exact ((values_stay_out_of_text same).2 rfl (payload (.int 1)) (payload (.text "0; --")) rfl).2

end ModelSql
