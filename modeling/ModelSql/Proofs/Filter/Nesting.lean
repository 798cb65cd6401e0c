import ModelSql.Proofs.Filter.Resolved
/-!
# Nested filters

A chain is compiled in one pass, with all its parentheses in front. The same text comes
out of a recursion that puts what it has so far in parentheses and joins the next test to
it, also in parentheses. A test is written the same wherever it stands, apart from the
numbers of its placeholders, which go on from the values bound before it.

* `Condition.compile_leaf`: the text of a test, and how its placeholders are numbered;
* `Filter.compile_eq_nested`: the pass is the recursion;
* `Filter.compile_push`: what one more predicate does to a compiled filter;
* `Filter.pushAll_keeps`: more predicates leave what is there as it is;
* `Filter.compile_nests`: these together.
-/

namespace ModelSql

/-! ## Tests with open numbers -/

/-- The text of a test around its placeholders. -/
structure Leaf where
  before : String
  /-- The numbers of the placeholders. Commas stand between them. -/
  numbers : List Nat
  after : String
deriving DecidableEq, Repr

namespace Leaf

/-- The same test after `start` values. -/
def renumber (start : Nat) (leaf : Leaf) : Leaf :=
  { leaf with numbers := leaf.numbers.map (start + ·) }

def text (d : Dialect) (leaf : Leaf) : String :=
  leaf.before ++ ",".intercalate (leaf.numbers.map d.placeholder) ++ leaf.after

theorem renumber_zero (leaf : Leaf) : leaf.renumber 0 = leaf := by
  simp [renumber]

/-- A text without placeholders is as it stands, whatever values are before it. -/
theorem text_constant (d : Dialect) (start : Nat) (words : String) :
    (renumber start ⟨words, [], ""⟩).text d = words := by
  simp [text, renumber]

end Leaf

/-- The test of a condition on its own, with placeholders from zero on. -/
def Condition.leaf (column : String) : Condition → Leaf
  | .membership m [] => ⟨m.ofEmptySet, [], ""⟩
  | .membership m operands =>
    ⟨column ++ " " ++ m.sql ++ " (", List.range operands.length, ")"⟩
  | .comparison .equal .null => ⟨column ++ " IS NULL", [], ""⟩
  | .comparison .notEqual .null => ⟨column ++ " IS NOT NULL", [], ""⟩
  | .comparison c _ => ⟨column ++ " " ++ c.sql ++ " ", [0], ""⟩

section
variable {m : Membership} {c : Comparison} {operands : List Value} {operand : Value}

theorem Condition.leaf_set (h : operands ≠ []) (column : String) :
    (membership m operands).leaf column =
      ⟨column ++ " " ++ m.sql ++ " (", List.range operands.length, ")"⟩ := by
  unfold leaf
  split <;> simp_all

theorem Condition.leaf_compares (h : c.Binds operand) (column : String) :
    (comparison c operand).leaf column = ⟨column ++ " " ++ c.sql ++ " ", [0], ""⟩ := by
  obtain ⟨equal, notEqual⟩ := h
  unfold leaf
  split <;> simp_all

end

theorem numbered_names_renumber (d : Dialect) (start : Nat) (values : List Value) :
    (d.numbered start values).names =
      ((List.range values.length).map (start + ·)).map d.placeholder := by
  rw [numbered_names, List.range'_eq_map_range]

/-- A condition after `start` values is its test with all placeholders moved on by that. -/
theorem Condition.compile_leaf (d : Dialect) (column : String) (start : Nat) (c : Condition) :
    c.compile d column start =
      { condition := ((c.leaf column).renumber start).text d
        parameters := d.numbered start c.bound } := by
  cases c.has_form with
  | emptySet m =>
    rw [leaf, Leaf.text_constant]
    rfl
  | set m nonempty =>
    rw [compile_set nonempty, leaf_set nonempty, numbered_names_renumber]
    rfl
  | isNull =>
    rw [leaf, Leaf.text_constant]
    rfl
  | isNotNull =>
    rw [leaf, Leaf.text_constant]
    rfl
  | compares binds =>
    rw [compile_compares binds, leaf_compares binds, bound_compares binds,
      numbered_names_renumber]
    simp only [Leaf.text, Leaf.renumber, String.append_empty]
    rfl

/-! ## The recursion -/

/-- Two conditions in parentheses. -/
def CompiledFilter.join (left : CompiledFilter) (c : Connective) (right : CompiledFilter) :
    CompiledFilter where
  condition := "(" ++ left.condition ++ ") " ++ c.sql ++ " (" ++ right.condition ++ ")"
  parameters := left.parameters ++ right.parameters

/-- The test of a predicate after `start` values. -/
def Predicate.compileLeaf (t : Table) (start : Nat) (p : Predicate) :
    Except Fault CompiledFilter := do
  let column ← t.resolve p.field
  return {
    condition := ((p.condition.leaf column.name).renumber start).text t.dialect
    parameters := t.dialect.numbered start p.condition.bound }

/-- One more predicate after what has been compiled. -/
def CompiledFilter.extend (t : Table) (left : CompiledFilter) (link : Connective × Predicate) :
    Except Fault CompiledFilter := do
  let right ← link.2.compileLeaf t left.parameters.size
  return left.join link.1 right

/-- The condition of a filter, from the inside out. -/
def Filter.compileNested (t : Table) : Filter → Except Fault CompiledFilter
  | .empty => .ok { condition := everyRow }
  | .chain first links => do
    let head ← first.compileLeaf t 0
    links.foldlM (CompiledFilter.extend t) head

theorem Predicate.compile_eq_leaf (t : Table) (start : Nat) (p : Predicate) :
    p.compile t start = p.compileLeaf t start := by
  unfold Predicate.compile compileLeaf
  simp only [Condition.compile_leaf]

/-- The text of links that the pass writes after `left`, with the parentheses it has opened
in front, is what the recursion makes of `left`. -/
theorem foldlM_extend (t : Table) (left : CompiledFilter)
    (links : List (Connective × Predicate)) :
    links.foldlM (CompiledFilter.extend t) left = do
      let tail ← compileLinks t left.parameters.size links
      return {
        condition := String.join (links.map fun _ => "(") ++ left.condition ++ tail.condition
        parameters := left.parameters ++ tail.parameters } := by
  induction links generalizing left with
  | nil =>
    have unchanged : left = ⟨left.condition, left.parameters ++ Parameters.empty⟩ := by
      rw [Parameters.append_empty]
    simp only [List.foldlM_nil, compileLinks, bind, Except.bind, List.map_nil, String.join_nil,
      String.empty_append, String.append_empty]
    exact congrArg Except.ok unchanged
  | cons link links ih =>
    obtain ⟨c, p⟩ := link
    simp only [List.foldlM_cons, compileLinks, CompiledFilter.extend, Predicate.compile_eq_leaf]
    cases p.compileLeaf t left.parameters.size with
    | error fault => rfl
    | ok right =>
      have size : (left.join c right).parameters.size =
          left.parameters.size + right.parameters.size := Parameters.append_size _ _
      simp only [bind, Except.bind, pure, Except.pure] at ih ⊢
      rw [ih, size]
      cases compileLinks t (left.parameters.size + right.parameters.size) links with
      | error fault => rfl
      | ok tail =>
        -- the parenthesis that is opened for this link is the last of those in front
        simp only [CompiledFilter.join, List.map_cons, String.join_cons, openings_comm,
          String.append_assoc, Parameters.append_assoc]

/-- The pass over a chain gives what the recursion gives, with the same fault if there is one. -/
theorem Filter.compile_eq_nested (t : Table) (f : Filter) : f.compile t = f.compileNested t := by
  cases f with
  | empty => rfl
  | chain first links =>
    simp only [compile, compileNested, Predicate.compile_eq_leaf]
    cases first.compileLeaf t 0 with
    | error fault => rfl
    | ok head => exact (foldlM_extend t head links).symm

/-! ## One more predicate -/

/-- A filter without predicates compiles to the test of the first one, whatever its connective. -/
theorem Filter.compile_push_empty (t : Table) (c : Connective) (p : Predicate) :
    (empty.push c p).compile t = p.compileLeaf t 0 := by
  rw [compile_eq_nested]
  exact bind_pure _

theorem Filter.compile_push (t : Table) {f : Filter} (nonempty : f ≠ .empty) (c : Connective)
    (p : Predicate) :
    (f.push c p).compile t = f.compile t >>= fun left => left.extend t (c, p) := by
  cases f with
  | empty => exact absurd rfl nonempty
  | chain first links =>
    simp only [compile_eq_nested, push, compileNested, bind_assoc, List.foldlM_append,
      List.foldlM_cons, List.foldlM_nil, bind_pure]

theorem Predicate.compileLeaf_of_field {t : Table} {p : Predicate} {column : Column}
    (h : t.resolve p.field = .ok column) (start : Nat) :
    p.compileLeaf t start = .ok {
      condition := ((p.condition.leaf column.name).renumber start).text t.dialect
      parameters := t.dialect.numbered start p.condition.bound } := by
  rw [compileLeaf, h]
  rfl

/-! ## More predicates -/

/-- The filter with predicates added at its end, one after the other. -/
def Filter.pushAll (f : Filter) (links : List (Connective × Predicate)) : Filter :=
  links.foldl (fun f (c, p) => f.push c p) f

theorem Filter.push_ne_empty (f : Filter) (c : Connective) (p : Predicate) :
    f.push c p ≠ .empty := by
  cases f <;> exact nofun

/-- What a filter compiles to stays within what it compiles to with more predicates: the
text between parentheses and the text of the others, the parameters in front of theirs. -/
theorem Filter.pushAll_keeps {t : Table} {f : Filter} (nonempty : f ≠ .empty)
    {links : List (Connective × Predicate)} {whole : CompiledFilter}
    (h : (f.pushAll links).compile t = .ok whole) :
    ∃ left rest more, f.compile t = .ok left ∧
      whole.condition = String.join (links.map fun _ => "(") ++ left.condition ++ rest ∧
      whole.parameters = left.parameters ++ more := by
  induction links generalizing f with
  | nil =>
    refine ⟨whole, "", .empty, h, ?_, ?_⟩
    · rw [List.map_nil, String.join_nil, String.empty_append, String.append_empty]
    · rw [Parameters.append_empty]
  | cons link links ih =>
    obtain ⟨c, p⟩ := link
    obtain ⟨joined, rest, more, compiled, text, parameters⟩ := ih (f.push_ne_empty c p) h
    rw [compile_push t nonempty] at compiled
    obtain ⟨left, hleft, compiled⟩ := steps_of_ok compiled
    obtain ⟨right, -, compiled⟩ := steps_of_ok compiled
    cases compiled
    refine ⟨left, ") " ++ c.sql ++ " (" ++ right.condition ++ ")" ++ rest,
      right.parameters ++ more, hleft, ?_, ?_⟩
    · rw [text]
      simp only [CompiledFilter.join, List.map_cons, String.join_cons, openings_comm,
        String.append_assoc]
    · rw [parameters, ← Parameters.append_assoc]
      rfl

/-- A filter is compiled as the recursion does it. A single predicate is its bare test,
whatever its connective. One more predicate puts parentheses around the text so far and
around its own test, whose placeholders go on from the values so far; its own values follow
them. However many are added, the text and the parameters of the filter stay in place. -/
theorem Filter.compile_nests (t : Table) :
    (∀ f : Filter, f.compile t = f.compileNested t) ∧
    (∀ c p column, t.resolve p.field = .ok column →
      (empty.push c p).compile t = .ok {
        condition := (p.condition.leaf column.name).text t.dialect
        parameters := t.dialect.numbered 0 p.condition.bound }) ∧
    (∀ (f : Filter) left c p column, f ≠ .empty → f.compile t = .ok left →
      t.resolve p.field = .ok column →
      let leaf := (p.condition.leaf column.name).renumber left.parameters.size
      (f.push c p).compile t = .ok {
        condition :=
          "(" ++ left.condition ++ ") " ++ c.sql ++ " (" ++ leaf.text t.dialect ++ ")"
        parameters := left.parameters ++
          t.dialect.numbered left.parameters.size p.condition.bound }) ∧
    (∀ (f : Filter) links whole, f ≠ .empty → (f.pushAll links).compile t = .ok whole →
      ∃ left rest more, f.compile t = .ok left ∧
        whole.condition = String.join (links.map fun _ => "(") ++ left.condition ++ rest ∧
        whole.parameters = left.parameters ++ more) := by
  refine ⟨compile_eq_nested t, ?_, ?_, ?_⟩
  · intro c p column resolved
    have leaf := p.compileLeaf_of_field resolved 0
    rw [Leaf.renumber_zero] at leaf
    rw [compile_push_empty, leaf]
  · intro f left c p column nonempty compiled resolved
    have leaf := p.compileLeaf_of_field resolved left.parameters.size
    rw [compile_push t nonempty, compiled]
    simp only [bind, Except.bind, CompiledFilter.extend, leaf]
    rfl
  · intro f links whole nonempty compiled
    exact pushAll_keeps nonempty compiled

/-- The placeholders of a set are renumbered behind a test for null, which binds nothing. -/
theorem Filter.compile_nests_invoice :
    let f : Filter := .chain ⟨"Total", .comparison .greaterThan (.int 5)⟩
      [(.or, ⟨"Note", .comparison .equal .null⟩)]
    let p : Predicate := ⟨"Id", .membership .isIn [.int 1, .int 2]⟩
    f.compile invoiceTable =
        .ok ⟨"(Total > @p0) OR (remark IS NULL)", ⟨[("@p0", .int 5)]⟩⟩ ∧
      (f.push .and p).compile invoiceTable =
        .ok ⟨"((Total > @p0) OR (remark IS NULL)) AND (Id IN (@p1,@p2))",
          ⟨[("@p0", .int 5), ("@p1", .int 1), ("@p2", .int 2)]⟩⟩ := by
  intro f p
  have compiled : f.compile invoiceTable =
      .ok ⟨"(Total > @p0) OR (remark IS NULL)", ⟨[("@p0", .int 5)]⟩⟩ := rfl
  obtain ⟨-, -, push, -⟩ := compile_nests invoiceTable
  have pushed := push f _ .and p _ nofun compiled rfl
  exact ⟨compiled, pushed⟩

end ModelSql
