import ModelSql.Proofs.Filter.Syntax
/-!
# The parameters of a filter

A filter binds the operands of its predicates one after the other, and none for a test
for null or an empty set. The number of a placeholder is the number of the operands
before it, in the filter and in a set of it, so a placeholder is bound once and looks up
its own operand.

* `Filter.compile_bound`: the parameters are the operands of the chain, numbered from zero;
* `numbered_get?_eq_some_iff`: what the names of numbered parameters look up;
* `Filter.binds_operands_in_order`: the names, the values and all lookups.
-/

namespace ModelSql

/-- The operands that a filter binds, predicate by predicate. -/
def Filter.bound (f : Filter) : List Value := f.predicates.flatMap (·.condition.bound)

/-! ## The operands of a chain -/

theorem Predicate.resolve_condition {t : Table} {p : Predicate} {test : ColumnTest}
    (h : p.resolve t = .ok test) : test.condition = p.condition := by
  obtain ⟨column, -, h⟩ := steps_of_ok h
  cases h
  rfl

theorem resolveLinks_bound {t : Table} {links : List (Connective × Predicate)}
    {tests : List (Connective × ColumnTest)} (h : resolveLinks t links = .ok tests) :
    tests.flatMap (·.2.bound) = links.flatMap (·.2.condition.bound) := by
  induction links generalizing tests with
  | nil =>
    cases h
    rfl
  | cons link links ih =>
    obtain ⟨test, htest, h⟩ := steps_of_ok h
    obtain ⟨more, hmore, h⟩ := steps_of_ok h
    cases h
    rw [List.flatMap_cons, List.flatMap_cons, ih hmore, ColumnTest.bound,
      Predicate.resolve_condition htest]

/-- Looking up the names of a filter leaves its operands as they are. -/
theorem Filter.resolve_bound {t : Table} {f : Filter} {r : ResolvedFilter}
    (h : f.resolve t = .ok r) : r.bound = f.bound := by
  cases f with
  | empty =>
    cases h
    rfl
  | chain first links =>
    obtain ⟨head, hhead, h⟩ := steps_of_ok h
    obtain ⟨tests, htests, h⟩ := steps_of_ok h
    cases h
    rw [Filter.bound, predicates_chain, List.flatMap_cons, List.flatMap_map,
      ← resolveLinks_bound htests, ← Predicate.resolve_condition hhead]
    rfl

/-- The parameters of a filter are its operands in order, numbered from zero. -/
theorem Filter.compile_bound {t : Table} {f : Filter} {compiled : CompiledFilter}
    (h : f.compile t = .ok compiled) :
    compiled.parameters = t.dialect.numbered 0 f.bound := by
  obtain ⟨r, resolved, rfl⟩ := f.compile_ok h
  rw [r.compile_parameters, Filter.resolve_bound resolved]

/-! ## Looking up numbered parameters -/

section
variable (d : Dialect) (start : Nat) {values : List Value} {name : String} {v : Value}

theorem numbered_values (values : List Value) : (d.numbered start values).values = values := by
  induction values generalizing start with
  | nil => rfl
  | cons v values ih =>
    have rest := ih (start + 1)
    simp only [Parameters.values] at rest ⊢
    rw [numbered_cons, List.map_cons, rest]

/-- A name looks up a value exactly if it is the placeholder of the number of that value. -/
theorem numbered_get?_eq_some_iff :
    (d.numbered start values).get? name = some v ↔
      ∃ i, name = d.placeholder (start + i) ∧ values[i]? = some v := by
  constructor
  · intro found
    induction values generalizing start with
    | nil => cases found
    | cons first values ih =>
      rw [Parameters.get?, numbered_cons, List.lookup_cons] at found
      by_cases own : name = d.placeholder start
      · rw [beq_iff_eq.mpr own] at found
        exact ⟨0, own, found⟩
      · rw [beq_false_of_ne own] at found
        obtain ⟨i, rfl, later⟩ := ih (start + 1) found
        exact ⟨i + 1, by rw [Nat.add_assoc, Nat.add_comm 1], later⟩
  · rintro ⟨i, rfl, there⟩
    exact numbered_get? d start values there

/-- A name that is no placeholder of the values looks up nothing. -/
theorem numbered_get?_eq_none
    (other : ∀ i < values.length, name ≠ d.placeholder (start + i)) :
    (d.numbered start values).get? name = none := by
  cases found : (d.numbered start values).get? name with
  | none => rfl
  | some v =>
    obtain ⟨i, same, there⟩ := (numbered_get?_eq_some_iff d start).mp found
    have bound : i < values.length := (List.getElem?_eq_some_iff.mp there).1
    exact absurd same (other i bound)

end

theorem Table.placeholder_eq (t : Table) (n : Nat) :
    t.dialect.placeholder n = "@p" ++ toString n := by
  rw [Dialect.placeholder, t.dialect.parameter_eq t.usesAtSign, ← String.append_assoc]
  rfl

/-! ## The parameters of compiled filters -/

/-- A compiled filter binds the operands of its predicates in order, under the names `@p0`,
`@p1` and so on. Each of these names looks up its own operand, and no other name does. -/
theorem Filter.binds_operands_in_order {t : Table} {f : Filter} {compiled : CompiledFilter}
    (h : f.compile t = .ok compiled) :
    compiled.parameters.names =
      (List.range f.bound.length).map (fun i : Nat => "@p" ++ toString i) ∧
    compiled.parameters.names.Nodup ∧
    compiled.parameters.values = f.bound ∧
    (∀ (i : Nat) (v : Value), f.bound[i]? = some v →
      compiled.parameters.get? ("@p" ++ toString i) = some v) ∧
    (∀ name, (∀ i < f.bound.length, name ≠ "@p" ++ toString i) →
      compiled.parameters.get? name = none) := by
  rw [Filter.compile_bound h]
  simp only [← t.placeholder_eq]
  refine ⟨?_, numbered_nodup t.dialect 0 f.bound, numbered_values t.dialect 0 f.bound, ?_, ?_⟩
  · rw [numbered_names, List.range_eq_range']
  · intro i v there
    have found := numbered_get? t.dialect 0 f.bound there
    rwa [Nat.zero_add] at found
  · intro name other
    apply numbered_get?_eq_none
    intro i bound
    rw [Nat.zero_add]
    exact other i bound

/-- A test for null and an empty set bind nothing, and the set after them goes on with the
numbers. -/
theorem Filter.binds_operands_in_order_invoice :
    let f : Filter := .chain ⟨"Total", .comparison .greaterThan (.int 5)⟩ [
      (.and, ⟨"Note", .comparison .equal .null⟩),
      (.or, ⟨"Total", .membership .notIn []⟩),
      (.or, ⟨"Note", .membership .isIn [.text "a", .null]⟩)]
    ∃ compiled, f.compile invoiceTable = .ok compiled ∧
      compiled.parameters.names = ["@p0", "@p1", "@p2"] ∧
      compiled.parameters.values = [.int 5, .text "a", .null] ∧
      compiled.parameters.get? "@p2" = some .null ∧
      compiled.parameters.get? "@p02" = none := by
  intro f
  refine ⟨_, rfl, ?_⟩
  obtain ⟨names, -, values, looksUp, other⟩ :=
    binds_operands_in_order (f := f) (t := invoiceTable) rfl
  exact ⟨names, values, looksUp 2 .null rfl, other "@p02" (by decide)⟩

end ModelSql
