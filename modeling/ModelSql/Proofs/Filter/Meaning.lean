import ModelSql.Proofs.Filter.Syntax
/-!
# The meaning of a compiled filter

The predicates of a filter are folded from the left, in three-valued logic. This
is also the value of the compiled condition, read by the grammar of search
conditions, under the values that are returned with it.

* `Condition.holds`, `holdsFromLeft`: what a filter demands of a row;
* `ResolvedFilter.parse_compile`: the compiled text is read as the tree that
  leans to the left;
* `ResolvedFilter.eval_searchCondition`: the value of this tree;
* `Filter.compile_means_fold`: both for filters that are built by pushes.
-/

namespace ModelSql

open Sql

/-! ## Meaning -/

/-- The demand on a value. Nothing is in an empty set, and equality with null is a test
for null. -/
def Condition.holds (order : ValueOrder) (v : Value) : Condition → Truth
  | .membership .isIn [] => .false
  | .membership .notIn [] => .true
  | .membership m operands => m.holds order v operands
  | .comparison .equal .null => .ofBool v.isNull
  | .comparison .notEqual .null => .ofBool !v.isNull
  | .comparison c operand => c.holds order v operand

theorem Condition.holds_set {m : Membership} {operands : List Value} (h : operands ≠ [])
    (order : ValueOrder) (v : Value) :
    (membership m operands).holds order v = m.holds order v operands := by
  unfold holds
  split <;> simp_all

theorem Condition.holds_compares {c : Comparison} {operand : Value} (h : c.Binds operand)
    (order : ValueOrder) (v : Value) :
    (comparison c operand).holds order v = c.holds order v operand := by
  obtain ⟨equal, notEqual⟩ := h
  unfold holds
  split <;> simp_all

def ColumnTest.holds (order : ValueOrder) (row : Column → Value) (test : ColumnTest) : Truth :=
  test.condition.holds order (row test.column)

/-- Joins the tests to `value`, one after the other. -/
def joinTests (order : ValueOrder) (row : Column → Value) (value : Truth)
    (links : List (Connective × ColumnTest)) : Truth :=
  links.foldl (fun value (c, test) => c.join value (test.holds order row)) value

/-- The tests folded from the left. There is nothing for the first connective to join. -/
def holdsFromLeft (order : ValueOrder) (row : Column → Value) :
    List (Connective × ColumnTest) → Truth
  | [] => .true
  | (_, first) :: links => joinTests order row (first.holds order row) links

/-- The value of a row in the column of a name. -/
def Table.cell (t : Table) (row : Column → Value) (name : String) : Option Value :=
  (t.columnByName? name).map row

/-! ## Reading the condition -/

theorem Sql.isWord_of_isIdentifier {name : String} (h : isIdentifier name = true) :
    IsWord name := by
  unfold isIdentifier at h
  split at h
  · cases h
  · rename_i c rest chars
    simp only [Bool.and_eq_true, Bool.or_eq_true, decide_eq_true_eq, List.all_eq_true] at h
    obtain ⟨⟨first, others⟩, -⟩ := h
    refine ⟨?_, ?_⟩
    · rintro rfl
      simp at chars
    · intro c' hc'
      rw [chars] at hc'
      obtain rfl | hc' := List.mem_cons.mp hc'
      · obtain letter | rfl := first
        · simp [isWordChar, letter]
        · rfl
      · exact others c' hc'

theorem Condition.proper_searchCondition (d : Dialect) {column : String}
    (h : isIdentifier column = true) (start : Nat) (c : Condition) :
    (c.searchCondition d column start).Proper := by
  cases c.has_form with
  | emptySet m => cases m <;> trivial
  | @set m operands nonempty =>
    rw [searchCondition_set nonempty]
    have named : (d.numbered start operands).names ≠ [] := by
      simpa [numbered_names] using nonempty
    exact ⟨h, named⟩
  | isNull => exact h
  | isNotNull => exact h
  | compares binds =>
    rw [searchCondition_compares binds]
    exact h

theorem ResolvedFilter.proper_nest (d : Dialect) {links : List (Connective × ColumnTest)}
    (hl : ∀ link ∈ links, isIdentifier link.2.column.name = true) {left : SearchCondition}
    (h : left.Proper) (start : Nat) : (nest d left start links).Proper := by
  induction links generalizing left start with
  | nil => exact h
  | cons link links ih =>
    obtain ⟨c, test⟩ := link
    have right := test.condition.proper_searchCondition d (hl _ List.mem_cons_self) start
    have joined : (SearchCondition.junction c left (test.searchCondition d start)).Proper :=
      ⟨h, right⟩
    exact ih (fun l hm => hl l (List.mem_cons_of_mem _ hm)) joined _

theorem ResolvedFilter.proper_searchCondition (d : Dialect) {r : ResolvedFilter}
    (h : ∀ test ∈ r.tests, isIdentifier test.column.name = true) :
    (r.searchCondition d).Proper := by
  cases r with
  | empty => trivial
  | chain first links =>
    have head := first.condition.proper_searchCondition d (h first List.mem_cons_self) 0
    exact proper_nest d
      (fun link hl => h _ (List.mem_cons_of_mem _ (List.mem_map_of_mem hl))) head _

/-- The compiled text is read as the tree of the filter. -/
theorem ResolvedFilter.parse_compile {d : Dialect} (hd : d.UsesAtSign) {r : ResolvedFilter}
    (h : ∀ test ∈ r.tests, isIdentifier test.column.name = true) :
    SearchCondition.parse (r.compile d).condition = some (r.searchCondition d) := by
  have lexes := r.lexes_compile hd fun test ht _ => isWord_of_isIdentifier (h test ht)
  rw [SearchCondition.parse, lexes.tokens_eq,
    SearchCondition.parse_tokens (r.proper_searchCondition d h)]

/-! ## The value of the condition -/

/-- The placeholders from number `start` on look up `values`. -/
def Binds (d : Dialect) (binding : String → Option Value) (start : Nat) (values : List Value) :
    Prop :=
  ∀ i v, values[i]? = some v → binding (d.placeholder (start + i)) = some v

section
variable {d : Dialect} {binding : String → Option Value} {start : Nat} {xs ys : List Value}

theorem Binds.left (h : Binds d binding start (xs ++ ys)) : Binds d binding start xs := by
  intro i v hv
  have bound : i < xs.length := (List.getElem?_eq_some_iff.mp hv).1
  exact h i v (by rw [List.getElem?_append_left bound, hv])

theorem Binds.right (h : Binds d binding start (xs ++ ys)) :
    Binds d binding (start + xs.length) ys := by
  intro i v hv
  rw [Nat.add_assoc]
  exact h (xs.length + i) v (by rw [List.getElem?_append_right (by omega)]; simpa using hv)

/-- A list of placeholders looks up the list of values. -/
theorem Binds.mapM_names (h : Binds d binding start xs) :
    (d.numbered start xs).names.mapM binding = some xs := by
  induction xs generalizing start with
  | nil => rfl
  | cons v xs ih =>
    have first : binding (d.placeholder start) = some v := h 0 v rfl
    have later : Binds d binding (start + 1) xs := @Binds.right d binding start [v] xs h
    have rest := ih later
    simp only [Parameters.names, numbered_cons, List.map_cons, List.mapM_cons, first,
      Option.bind_eq_bind, Option.bind_some] at rest ⊢
    rw [rest]
    rfl

variable (order : ValueOrder) {row : String → Option Value}

theorem Condition.eval_searchCondition {column : String} {v : Value} (hv : row column = some v)
    {c : Condition} (h : Binds d binding start c.bound) :
    (c.searchCondition d column start).eval order row binding = some (c.holds order v) := by
  cases c.has_form with
  | emptySet m => cases m <;> rfl
  | @set m operands nonempty =>
    have found : (d.numbered start operands).names.mapM binding = some operands :=
      Binds.mapM_names h
    rw [searchCondition_set nonempty, SearchCondition.eval, hv, found, holds_set nonempty]
    rfl
  | isNull => cases v <;> simp [searchCondition, SearchCondition.eval, hv, holds, Value.isNull]
  | isNotNull => cases v <;> simp [searchCondition, SearchCondition.eval, hv, holds, Value.isNull]
  | @compares c operand binds =>
    rw [bound_compares binds] at h
    have bound : binding (d.placeholder start) = some operand := h 0 operand rfl
    rw [searchCondition_compares binds, SearchCondition.eval, hv, bound, holds_compares binds]
    rfl

theorem ResolvedFilter.eval_nest {cell : Column → Value} {links : List (Connective × ColumnTest)}
    (hl : ∀ link ∈ links, row link.2.column.name = some (cell link.2.column))
    (h : Binds d binding start (links.flatMap (·.2.bound))) {left : SearchCondition}
    {value : Truth} (hv : left.eval order row binding = some value) :
    (nest d left start links).eval order row binding =
      some (joinTests order cell value links) := by
  induction links generalizing left start value with
  | nil => exact hv
  | cons link links ih =>
    obtain ⟨c, test⟩ := link
    have right := test.condition.eval_searchCondition order (hl _ List.mem_cons_self) h.left
    apply ih (fun l hm => hl l (List.mem_cons_of_mem _ hm)) h.right
    simp only [SearchCondition.eval, hv, ColumnTest.searchCondition, right]
    rfl

end

/-! ## Filters that are built by pushes -/

/-- The filter after the pushes, one after the other. -/
def Filter.ofPushes (pushes : List (Connective × Predicate)) : Filter :=
  pushes.foldl (fun f (c, p) => f.push c p) .empty

theorem Filter.ofPushes_cons (c : Connective) (first : Predicate)
    (links : List (Connective × Predicate)) :
    ofPushes ((c, first) :: links) = .chain first links := by
  have pushed (done : List (Connective × Predicate)) :
      links.foldl (fun (f : Filter) (c, p) => f.push c p) (chain first done) =
        chain first (done ++ links) := by
    induction links generalizing done with
    | nil => rw [List.foldl_nil, List.append_nil]
    | cons link links ih =>
      rw [List.foldl_cons, List.append_cons]
      exact ih (done ++ [link])
  exact pushed []

/-- The chain of tests in order, without the first connective. -/
def ResolvedFilter.ofTests : List (Connective × ColumnTest) → ResolvedFilter
  | [] => .empty
  | (_, first) :: links => .chain first links

theorem Filter.resolve_ofPushes {t : Table} {pushes : List (Connective × Predicate)}
    {tests : List (Connective × ColumnTest)} (h : resolveLinks t pushes = .ok tests) :
    (ofPushes pushes).resolve t = .ok (.ofTests tests) := by
  cases pushes with
  | nil =>
    cases h
    rfl
  | cons push links =>
    obtain ⟨first, hfirst, h⟩ := steps_of_ok h
    obtain ⟨more, hmore, h⟩ := steps_of_ok h
    cases h
    rw [ofPushes_cons, Filter.resolve, hfirst]
    simp only [bind, Except.bind, hmore]
    rfl

/-- The value of the tree is the fold from the left. -/
theorem ResolvedFilter.eval_searchCondition {d : Dialect} {binding : String → Option Value}
    (order : ValueOrder) {row : String → Option Value} {cell : Column → Value}
    {tests : List (Connective × ColumnTest)}
    (hl : ∀ link ∈ tests, row link.2.column.name = some (cell link.2.column))
    (h : Binds d binding 0 (ofTests tests).bound) :
    ((ofTests tests).searchCondition d).eval order row binding =
      some (holdsFromLeft order cell tests) := by
  cases tests with
  | nil => rfl
  | cons link links =>
    obtain ⟨c, first⟩ := link
    have head := first.condition.eval_searchCondition order (hl _ List.mem_cons_self) h.left
    have rest := h.right
    rw [Nat.zero_add] at rest
    exact eval_nest order (fun l hm => hl l (List.mem_cons_of_mem _ hm)) rest head

/-- A filter is compiled to a text that reads as the tree of its predicates, leaning to the
left, and this tree has the value of the predicates folded from the left, in every row. -/
theorem Filter.compile_means_fold {m : Model} {engine : Engine} {override : Option String}
    {settings : Settings} {t : Table} (built : m.build engine override settings = .ok t)
    (identifiers : ∀ c ∈ t.columns, isIdentifier c.name = true)
    (pushes : List (Connective × Predicate))
    (fields : ∀ push ∈ pushes, ∃ c, t.resolve push.2.field = .ok c) :
    ∃ tests compiled, resolveLinks t pushes = .ok tests ∧
      (ofPushes pushes).compile t = .ok compiled ∧
      SearchCondition.parse compiled.condition =
        some ((ResolvedFilter.ofTests tests).searchCondition t.dialect) ∧
      ∀ order row, ((ResolvedFilter.ofTests tests).searchCondition t.dialect).eval order
        (t.cell row) compiled.parameters.get? = some (holdsFromLeft order row tests) := by
  obtain ⟨tests, htests⟩ := resolveLinks_of_fields fields
  have resolved := resolve_ofPushes htests
  refine ⟨tests, (ResolvedFilter.ofTests tests).compile t.dialect, htests, ?_, ?_, ?_⟩
  · rw [Filter.compile_eq, resolved]
    rfl
  · exact ResolvedFilter.parse_compile t.usesAtSign fun test ht =>
      identifiers _ (Filter.resolve_columns resolved test ht)
  · intro order row
    refine ResolvedFilter.eval_searchCondition order (fun link hl => ?_) ?_
    · have hc := resolveLinks_columns htests link hl
      rw [Table.cell, (Model.build_wellFormed built).columnByName?_eq hc]
      rfl
    · intro i v hv
      rw [ResolvedFilter.compile_parameters]
      exact numbered_get? t.dialect 0 _ hv

theorem Filter.compile_means_fold_invoice :
    let pushes : List (Connective × Predicate) := [
      (.and, ⟨"Total", .comparison .greaterThan (.int 5)⟩),
      (.or, ⟨"Note", .comparison .equal .null⟩),
      (.and, ⟨"Id", .membership .isIn [.int 1, .int 2]⟩)]
    ∃ tests compiled tree, resolveLinks invoiceTable pushes = .ok tests ∧
      (ofPushes pushes).compile invoiceTable = .ok compiled ∧
      SearchCondition.parse compiled.condition = some tree ∧
      ∀ order row, tree.eval order (invoiceTable.cell row) compiled.parameters.get? =
        some (holdsFromLeft order row tests) := by
  intro pushes
  have identifiers : ∀ c ∈ invoiceTable.columns, isIdentifier c.name = true := by decide
  have fields : ∀ push ∈ pushes, ∃ c, invoiceTable.resolve push.2.field = .ok c := by
    simp only [pushes, List.mem_cons, List.not_mem_nil, or_false, forall_eq_or_imp, forall_eq]
    exact ⟨⟨_, rfl⟩, ⟨_, rfl⟩, ⟨_, rfl⟩⟩
  obtain ⟨tests, compiled, resolved, hcompiled, parsed, means⟩ :=
    compile_means_fold build_invoice identifiers pushes fields
  exact ⟨tests, compiled, _, resolved, hcompiled, parsed, means⟩

end ModelSql
