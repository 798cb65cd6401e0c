import ModelSql.Proofs.Table.WellFormed
import ModelSql.Statement.Filter
/-!
# Filters over columns

Compiling a filter looks up its names and writes the condition. The first part
alone can fail: with columns in place of names, writing is a function of the
chain.

* `Filter.compile_eq`: a filter is compiled by resolving it and writing the result;
* `ResolvedFilter.compile_parameters`: the values bound are those of the chain, in
  order, numbered from zero;
* `numbered_get?`: a placeholder of the chain looks up its own value;
* `Filter.compile_error`: the first name without a column is the fault of a filter;
* `Filter.resolve_related`: two filters resolve side by side.
-/

namespace ModelSql

/-- A demand on a column. -/
structure ColumnTest where
  column : Column
  condition : Condition
deriving DecidableEq, Repr

/-- A filter with columns in place of names. -/
inductive ResolvedFilter where
  | empty
  | chain (first : ColumnTest) (links : List (Connective × ColumnTest))
deriving DecidableEq, Repr

def Predicate.resolve (t : Table) (p : Predicate) : Except Fault ColumnTest := do
  let column ← t.resolve p.field
  return ⟨column, p.condition⟩

def resolveLinks (t : Table) :
    List (Connective × Predicate) → Except Fault (List (Connective × ColumnTest))
  | [] => .ok []
  | (c, p) :: links => do
    let test ← p.resolve t
    let more ← resolveLinks t links
    return (c, test) :: more

/-- Looks up the names of a filter, from the first to the last. -/
def Filter.resolve (t : Table) : Filter → Except Fault ResolvedFilter
  | .empty => .ok .empty
  | .chain first links => do
    let first ← first.resolve t
    let links ← resolveLinks t links
    return .chain first links

/-- The operands that are bound to placeholders. -/
def Condition.bound : Condition → List Value
  | .membership _ operands => operands
  | .comparison .equal .null | .comparison .notEqual .null => []
  | .comparison _ operand => [operand]

/-- The operand of the comparison is bound to a placeholder. -/
def Comparison.Binds (c : Comparison) (v : Value) : Prop :=
  (c = .equal → v = .null → False) ∧ (c = .notEqual → v = .null → False)

namespace Condition

/-- The forms in which a condition is written. -/
inductive Form : Condition → Prop where
  | emptySet (m : Membership) : Form (membership m [])
  | set (m : Membership) {operands : List Value} : operands ≠ [] → Form (membership m operands)
  | isNull : Form (comparison .equal .null)
  | isNotNull : Form (comparison .notEqual .null)
  | compares {c : Comparison} {operand : Value} : c.Binds operand → Form (comparison c operand)

theorem has_form (condition : Condition) : condition.Form := by
  cases condition with
  | membership m operands =>
    by_cases empty : operands = []
    · rw [empty]
      exact .emptySet m
    · exact .set m empty
  | comparison c operand =>
    by_cases null : operand = .null
    · rw [null]
      cases c with
      | equal => exact .isNull
      | notEqual => exact .isNotNull
      | _ => exact .compares ⟨nofun, nofun⟩
    · exact .compares ⟨fun _ => null, fun _ => null⟩

section
variable {m : Membership} {c : Comparison} {operands : List Value} {operand : Value}

theorem bound_compares (h : c.Binds operand) : (comparison c operand).bound = [operand] := by
  obtain ⟨equal, notEqual⟩ := h
  unfold bound
  split <;> simp_all

theorem compile_set (h : operands ≠ []) (d : Dialect) (column : String) (start : Nat) :
    (membership m operands).compile d column start =
      ⟨column ++ " " ++ m.sql ++ " (" ++ ",".intercalate (d.numbered start operands).names ++ ")",
        d.numbered start operands⟩ := by
  unfold compile
  split <;> simp_all

theorem compile_compares (h : c.Binds operand) (d : Dialect) (column : String) (start : Nat) :
    (comparison c operand).compile d column start =
      ⟨column ++ " " ++ c.sql ++ " " ++ ",".intercalate (d.numbered start [operand]).names,
        d.numbered start [operand]⟩ := by
  obtain ⟨equal, notEqual⟩ := h
  unfold compile
  split <;> simp_all

end

end Condition

namespace ColumnTest

def compile (d : Dialect) (start : Nat) (test : ColumnTest) : CompiledFilter :=
  test.condition.compile d test.column.name start

def bound (test : ColumnTest) : List Value := test.condition.bound

end ColumnTest

namespace ResolvedFilter

/-- The links of a chain that has bound `start` values before them. -/
def compileLinks (d : Dialect) (start : Nat) :
    List (Connective × ColumnTest) → CompiledFilter
  | [] => { condition := "" }
  | (c, test) :: links =>
    let term := test.compile d start
    let rest := compileLinks d (start + test.bound.length) links
    { condition := ") " ++ c.sql ++ " (" ++ term.condition ++ ")" ++ rest.condition
      parameters := term.parameters ++ rest.parameters }

/-- The condition in one pass from the left. -/
def compile (d : Dialect) : ResolvedFilter → CompiledFilter
  | empty => { condition := everyRow }
  | chain first links =>
    let head := first.compile d 0
    let tail := compileLinks d first.bound.length links
    { condition := String.join (links.map fun _ => "(") ++ head.condition ++ tail.condition
      parameters := head.parameters ++ tail.parameters }

/-- The values that the chain binds, in order. -/
def bound : ResolvedFilter → List Value
  | empty => []
  | chain first links => first.bound ++ links.flatMap (·.2.bound)

def tests : ResolvedFilter → List ColumnTest
  | empty => []
  | chain first links => first :: links.map (·.2)

end ResolvedFilter

/-! ## Numbered parameters -/

/-- The placeholder of a number. -/
def Dialect.placeholder (d : Dialect) (n : Nat) : String := d.parameter ("p" ++ toString n)

theorem Dialect.placeholder_inj (d : Dialect) {m n : Nat} :
    d.placeholder m = d.placeholder n ↔ m = n := by
  constructor
  · intro h
    have chars := congrArg String.toList h
    simp only [placeholder, parameter, String.toList_append, List.append_cancel_left_eq,
      Nat.toString_eq_repr, Nat.toList_repr] at chars
    have numbers := congrArg (fun digits => Nat.ofDigitChars 10 digits 0) chars
    simpa only [Nat.ofDigitChars_ten_toDigits] using numbers
  · rintro rfl
    rfl

theorem Parameters.append_entries (p q : Parameters) : (p ++ q).entries = p.entries ++ q.entries :=
  rfl

theorem Parameters.append_names (p q : Parameters) : (p ++ q).names = p.names ++ q.names := by
  simp only [names, append_entries, List.map_append]

theorem Parameters.append_size (p q : Parameters) : (p ++ q).size = p.size + q.size :=
  List.length_append

theorem Parameters.append_assoc (p q r : Parameters) : p ++ q ++ r = p ++ (q ++ r) :=
  congrArg Parameters.mk (List.append_assoc _ _ _)

theorem Parameters.append_empty (p : Parameters) : p ++ Parameters.empty = p :=
  congrArg Parameters.mk (List.append_nil _)

section
variable (d : Dialect) (start : Nat)

theorem numbered_cons (v : Value) (values : List Value) :
    (d.numbered start (v :: values)).entries =
      (d.placeholder start, v) :: (d.numbered (start + 1) values).entries := by
  simp only [Dialect.numbered, Dialect.placeholder, List.mapIdx_cons, Nat.add_zero]
  congr 2
  funext i v
  rw [show start + (i + 1) = start + 1 + i by omega]

theorem numbered_size (values : List Value) : (d.numbered start values).size = values.length :=
  List.length_mapIdx

theorem numbered_append (xs ys : List Value) :
    d.numbered start (xs ++ ys) = d.numbered start xs ++ d.numbered (start + xs.length) ys := by
  have entries : (d.numbered start (xs ++ ys)).entries =
      (d.numbered start xs).entries ++ (d.numbered (start + xs.length) ys).entries := by
    induction xs generalizing start with
    | nil => rfl
    | cons x xs ih =>
      rw [List.cons_append, numbered_cons, numbered_cons, ih, List.cons_append, List.length_cons,
        show start + 1 + xs.length = start + (xs.length + 1) by omega]
  exact congrArg Parameters.mk entries

theorem numbered_names (values : List Value) :
    (d.numbered start values).names = (List.range' start values.length).map d.placeholder := by
  induction values generalizing start with
  | nil => rfl
  | cons v values ih =>
    have h := ih (start + 1)
    simp only [Parameters.names] at h ⊢
    rw [numbered_cons, List.map_cons, h, List.length_cons, List.range'_succ, List.map_cons]

/-- Numbers that differ have placeholders that differ. -/
theorem numbered_nodup (values : List Value) :
    (d.numbered start values).names.Nodup := by
  rw [numbered_names]
  exact List.Nodup.map (fun _ _ same => d.placeholder_inj.mp same) List.nodup_range'

/-- A placeholder looks up the value of its number. -/
theorem numbered_get? (values : List Value) {i : Nat} {v : Value} (h : values[i]? = some v) :
    (d.numbered start values).get? (d.placeholder (start + i)) = some v := by
  induction values generalizing start i with
  | nil => simp at h
  | cons first values ih =>
    rw [Parameters.get?, numbered_cons]
    cases i with
    | zero =>
      obtain rfl : first = v := by simpa using h
      simp
    | succ i =>
      have later := ih (start + 1) (i := i) (by simpa using h)
      have other : d.placeholder (start + (i + 1)) ≠ d.placeholder start := by
        rw [Ne, d.placeholder_inj]
        omega
      rw [List.lookup_cons, beq_false_of_ne other,
        show start + (i + 1) = start + 1 + i by omega]
      exact later

end

/-! ## Compiling is resolving, then writing -/

/-- Of the parentheses that a chain opens, each can be the first or the last. -/
theorem openings_comm {α : Type} (links : List α) :
    "(" ++ String.join (links.map fun _ => "(") =
      String.join (links.map fun _ => "(") ++ "(" := by
  rw [List.map_const', ← String.join_cons, ← List.replicate_succ, List.replicate_succ',
    String.join_append, String.join_cons, String.join_nil, String.append_empty]

theorem Condition.compile_parameters (d : Dialect) (column : String) (start : Nat)
    (c : Condition) : (c.compile d column start).parameters = d.numbered start c.bound := by
  cases c.has_form with
  | emptySet => rfl
  | set m nonempty =>
    rw [compile_set nonempty]
    rfl
  | isNull => rfl
  | isNotNull => rfl
  | compares binds => rw [compile_compares binds, bound_compares binds]

theorem ColumnTest.compile_size (d : Dialect) (start : Nat) (test : ColumnTest) :
    (test.compile d start).parameters.size = test.bound.length := by
  rw [ColumnTest.compile, Condition.compile_parameters, numbered_size]
  rfl

theorem Predicate.compile_eq (t : Table) (start : Nat) (p : Predicate) :
    p.compile t start = (p.resolve t).map (ColumnTest.compile t.dialect start) := by
  unfold Predicate.compile Predicate.resolve
  cases t.resolve p.field <;> rfl

theorem compileLinks_eq (t : Table) (start : Nat) (links : List (Connective × Predicate)) :
    compileLinks t start links =
      (resolveLinks t links).map (ResolvedFilter.compileLinks t.dialect start) := by
  induction links generalizing start with
  | nil => rfl
  | cons link links ih =>
    obtain ⟨c, p⟩ := link
    simp only [compileLinks, resolveLinks, Predicate.compile_eq]
    cases p.resolve t with
    | error fault => rfl
    | ok test =>
      simp only [Except.map, bind, Except.bind, ih, ColumnTest.compile_size]
      cases resolveLinks t links <;> rfl

theorem resolveLinks_length {t : Table} {links : List (Connective × Predicate)}
    {tests : List (Connective × ColumnTest)} (h : resolveLinks t links = .ok tests) :
    tests.length = links.length := by
  induction links generalizing tests with
  | nil =>
    cases h
    rfl
  | cons link links ih =>
    obtain ⟨test, -, h⟩ := steps_of_ok h
    obtain ⟨more, hmore, h⟩ := steps_of_ok h
    cases h
    simp only [List.length_cons, ih hmore]

/-- Only looking up names can fail. -/
theorem Filter.compile_eq (t : Table) (f : Filter) :
    f.compile t = (f.resolve t).map (ResolvedFilter.compile t.dialect) := by
  cases f with
  | empty => rfl
  | chain first links =>
    simp only [Filter.compile, Filter.resolve, Predicate.compile_eq]
    cases first.resolve t with
    | error fault => rfl
    | ok test =>
      simp only [Except.map, bind, Except.bind, compileLinks_eq, ColumnTest.compile_size]
      cases resolved : resolveLinks t links with
      | error fault => rfl
      | ok tests =>
        have opening : (links.map fun _ => "(") = tests.map fun _ => "(" := by
          simp only [List.map_const', resolveLinks_length resolved]
        rw [opening]
        rfl

theorem Filter.compile_of_resolve {t : Table} {f : Filter} {r : ResolvedFilter}
    (h : f.resolve t = .ok r) : f.compile t = .ok (r.compile t.dialect) := by
  rw [f.compile_eq, h]
  rfl

theorem Filter.compile_ok {t : Table} {f : Filter} {c : CompiledFilter} (h : f.compile t = .ok c) :
    ∃ r, f.resolve t = .ok r ∧ c = r.compile t.dialect := by
  rw [f.compile_eq] at h
  obtain ⟨r, resolved, rfl⟩ := map_eq_ok_iff.mp h
  exact ⟨r, resolved, rfl⟩

theorem ResolvedFilter.compileLinks_parameters (d : Dialect) (start : Nat)
    (links : List (Connective × ColumnTest)) :
    (compileLinks d start links).parameters = d.numbered start (links.flatMap (·.2.bound)) := by
  induction links generalizing start with
  | nil => rfl
  | cons link links ih =>
    obtain ⟨c, test⟩ := link
    simp only [compileLinks, ih, ColumnTest.compile, Condition.compile_parameters]
    exact (numbered_append d start test.bound _).symm

/-- The values of a chain are bound in order, numbered from zero. -/
theorem ResolvedFilter.compile_parameters (d : Dialect) (r : ResolvedFilter) :
    (r.compile d).parameters = d.numbered 0 r.bound := by
  cases r with
  | empty => rfl
  | chain first links =>
    simp only [compile, bound, compileLinks_parameters, ColumnTest.compile,
      Condition.compile_parameters, numbered_append, Nat.zero_add]
    rfl

theorem ResolvedFilter.compile_size (d : Dialect) (r : ResolvedFilter) :
    (r.compile d).parameters.size = r.bound.length := by
  rw [compile_parameters, numbered_size]

/-! ## Which chains resolve -/

theorem Predicate.resolve_of_field {t : Table} {p : Predicate} {c : Column}
    (h : t.resolve p.field = .ok c) : p.resolve t = .ok ⟨c, p.condition⟩ := by
  rw [Predicate.resolve, h]
  rfl

/-- Links resolve if all their fields do. -/
theorem resolveLinks_of_fields {t : Table} {links : List (Connective × Predicate)}
    (h : ∀ link ∈ links, ∃ c, t.resolve link.2.field = .ok c) :
    ∃ tests, resolveLinks t links = .ok tests := by
  induction links with
  | nil => exact ⟨[], rfl⟩
  | cons link links ih =>
    obtain ⟨column, hcolumn⟩ := h link List.mem_cons_self
    obtain ⟨tests, htests⟩ := ih fun l hl => h l (List.mem_cons_of_mem _ hl)
    refine ⟨(link.1, ⟨column, link.2.condition⟩) :: tests, ?_⟩
    rw [resolveLinks, Predicate.resolve_of_field hcolumn, htests]
    rfl

/-! ## Which chains do not -/

/-- A link whose field stands for no column fails, whatever links follow it. -/
theorem resolveLinks_error {t : Table} {links : List (Connective × Predicate)}
    {before after : List Predicate} {p : Predicate} {fault : Fault}
    (split : links.map (·.2) = before ++ p :: after)
    (earlier : ∀ q ∈ before, ∃ c, t.resolve q.field = .ok c)
    (refused : t.resolve p.field = .error fault) : resolveLinks t links = .error fault := by
  induction before generalizing links with
  | nil =>
    obtain ⟨link, links, rfl, rfl, -⟩ := List.map_eq_cons_iff.mp split
    rw [resolveLinks, Predicate.resolve, refused]
    rfl
  | cons q before ih =>
    obtain ⟨link, links, rfl, rfl, rest⟩ := List.map_eq_cons_iff.mp split
    obtain ⟨column, found⟩ := earlier link.2 List.mem_cons_self
    have later := ih rest fun q mem => earlier q (List.mem_cons_of_mem _ mem)
    rw [resolveLinks, Predicate.resolve_of_field found, later]
    rfl

theorem Filter.predicates_chain (first : Predicate) (links : List (Connective × Predicate)) :
    (chain first links).predicates = first :: links.map (·.2) := by
  simp [predicates, nodes, Function.comp_def]

/-- The fault of a filter is that of its first field that stands for no column. -/
theorem Filter.compile_error {t : Table} {f : Filter} {before after : List Predicate}
    {p : Predicate} {fault : Fault} (split : f.predicates = before ++ p :: after)
    (earlier : ∀ q ∈ before, ∃ c, t.resolve q.field = .ok c)
    (refused : t.resolve p.field = .error fault) : f.compile t = .error fault := by
  suffices resolved : f.resolve t = .error fault by
    rw [f.compile_eq, resolved]
    rfl
  cases f with
  | empty => exact absurd split (by simp [predicates, nodes])
  | chain first links =>
    rw [predicates_chain] at split
    cases before with
    | nil =>
      obtain ⟨rfl, -⟩ := List.cons.inj split
      rw [resolve, Predicate.resolve, refused]
      rfl
    | cons q before =>
      obtain ⟨rfl, rest⟩ := List.cons.inj split
      obtain ⟨column, found⟩ := earlier first List.mem_cons_self
      have later := resolveLinks_error rest
        (fun q mem => earlier q (List.mem_cons_of_mem _ mem)) refused
      rw [resolve, Predicate.resolve_of_field found, later]
      rfl

/-! ## Where the tests come from -/

theorem resolveLinks_from {t : Table} {links : List (Connective × Predicate)}
    {tests : List (Connective × ColumnTest)} (h : resolveLinks t links = .ok tests) :
    ∀ link ∈ tests, ∃ p ∈ links.map (·.2), p.resolve t = .ok link.2 := by
  induction links generalizing tests with
  | nil =>
    cases h
    exact fun link hl => (List.not_mem_nil hl).elim
  | cons link links ih =>
    obtain ⟨test, htest, h⟩ := steps_of_ok h
    obtain ⟨more, hmore, h⟩ := steps_of_ok h
    cases h
    intro l hl
    obtain rfl | hl := List.mem_cons.mp hl
    · exact ⟨link.2, List.mem_cons_self, htest⟩
    · obtain ⟨p, hp, resolved⟩ := ih hmore l hl
      exact ⟨p, List.mem_cons_of_mem _ hp, resolved⟩

/-- Each test of a resolved filter is one of its predicates. -/
theorem Filter.resolve_from {t : Table} {f : Filter} {r : ResolvedFilter}
    (h : f.resolve t = .ok r) :
    ∀ test ∈ r.tests, ∃ p ∈ f.predicates, p.resolve t = .ok test := by
  cases f with
  | empty =>
    cases h
    exact fun test ht => (List.not_mem_nil ht).elim
  | chain first links =>
    obtain ⟨head, hhead, h⟩ := steps_of_ok h
    obtain ⟨tests, htests, h⟩ := steps_of_ok h
    cases h
    rw [predicates_chain]
    intro test ht
    obtain rfl | ht := List.mem_cons.mp ht
    · exact ⟨first, List.mem_cons_self, hhead⟩
    · obtain ⟨link, hl, rfl⟩ := List.mem_map.mp ht
      obtain ⟨p, hp, resolved⟩ := resolveLinks_from htests link hl
      exact ⟨p, List.mem_cons_of_mem _ hp, resolved⟩

theorem Predicate.column_mem {t : Table} {p : Predicate} {test : ColumnTest}
    (h : p.resolve t = .ok test) : test.column ∈ t.columns := by
  obtain ⟨column, hcolumn, h⟩ := steps_of_ok h
  cases h
  exact Table.mem_of_resolve hcolumn

theorem resolveLinks_columns {t : Table} {links : List (Connective × Predicate)}
    {tests : List (Connective × ColumnTest)} (h : resolveLinks t links = .ok tests) :
    ∀ link ∈ tests, link.2.column ∈ t.columns := by
  intro link hl
  obtain ⟨p, -, resolved⟩ := resolveLinks_from h link hl
  exact p.column_mem resolved

/-- The columns of a resolved filter are columns of the table. -/
theorem Filter.resolve_columns {t : Table} {f : Filter} {r : ResolvedFilter}
    (h : f.resolve t = .ok r) : ∀ test ∈ r.tests, test.column ∈ t.columns := by
  intro test ht
  obtain ⟨p, -, resolved⟩ := Filter.resolve_from h test ht
  exact p.column_mem resolved

/-! ## Two filters side by side -/

/-- Chains whose tests are related, position by position, under the same connectives. -/
inductive ResolvedFilter.Related (R : ColumnTest → ColumnTest → Prop) :
    ResolvedFilter → ResolvedFilter → Prop where
  | empty : Related R .empty .empty
  | chain {first first' : ColumnTest} {links links' : List (Connective × ColumnTest)} :
      R first first' → List.Forall₂ (fun a b => a.1 = b.1 ∧ R a.2 b.2) links links' →
        Related R (.chain first links) (.chain first' links')

section
variable {t t' : Table} {P : Predicate → Predicate → Prop} {R : ColumnTest → ColumnTest → Prop}
  (step : ∀ p p', P p p' → ∃ a b, p.resolve t = .ok a ∧ p'.resolve t' = .ok b ∧ R a b)
include step

theorem resolveLinks_related {links links' : List (Connective × Predicate)}
    (h : List.Forall₂ (fun x y => x.1 = y.1 ∧ P x.2 y.2) links links') :
    ∃ tests tests', resolveLinks t links = .ok tests ∧ resolveLinks t' links' = .ok tests' ∧
      List.Forall₂ (fun a b => a.1 = b.1 ∧ R a.2 b.2) tests tests' := by
  induction h with
  | nil => exact ⟨[], [], rfl, rfl, .nil⟩
  | @cons x y _ _ link _ ih =>
    obtain ⟨connective, predicate⟩ := link
    obtain ⟨a, b, ha, hb, related⟩ := step _ _ predicate
    obtain ⟨tests, tests', htests, htests', rest⟩ := ih
    refine ⟨(x.1, a) :: tests, (y.1, b) :: tests', ?_, ?_, .cons ⟨connective, related⟩ rest⟩
    · rw [resolveLinks, ha, htests]
      rfl
    · rw [resolveLinks, hb, htests']
      rfl

/-- Filters whose predicates resolve to related tests resolve to related chains. -/
theorem Filter.resolve_related {f f' : Filter}
    (h : List.Forall₂ (fun n n' => n.1 = n'.1 ∧ P n.2 n'.2) f.nodes f'.nodes) :
    ∃ r r', f.resolve t = .ok r ∧ f'.resolve t' = .ok r' ∧ r.Related R r' := by
  cases f with
  | empty =>
    cases f' with
    | empty => exact ⟨.empty, .empty, rfl, rfl, .empty⟩
    | chain => cases h
  | chain first links =>
    cases f' with
    | empty => cases h
    | chain first' links' =>
      obtain ⟨⟨-, head⟩, rest⟩ := List.forall₂_cons.mp h
      have tail : List.Forall₂ (fun x y => x.1 = y.1 ∧ P x.2 y.2) links links' := by
        refine (List.forall₂_map_left_iff.mp (List.forall₂_map_right_iff.mp rest)).imp ?_
        rintro ⟨c, p⟩ ⟨c', p'⟩ ⟨connective, predicate⟩
        exact ⟨Option.some.inj connective, predicate⟩
      obtain ⟨a, b, ha, hb, related⟩ := step _ _ head
      obtain ⟨tests, tests', htests, htests', links⟩ := resolveLinks_related step tail
      refine ⟨.chain a tests, .chain b tests', ?_, ?_, .chain related links⟩
      · rw [Filter.resolve, ha, htests]
        rfl
      · rw [Filter.resolve, hb, htests']
        rfl

end

end ModelSql
