import ModelSql.Proofs.Filter.Resolved
import ModelSql.Proofs.Sql.SearchCondition
/-!
# The condition of a filter as a tree

A filter stands for a tree that leans to the left: each link joins everything
before it with one more test. The text that is compiled in one pass, with all
parentheses opened in front, reads as the tokens of this tree.

* `ResolvedFilter.searchCondition`: the tree;
* `ResolvedFilter.lexes_compile`: the compiled text reads as its tokens;
* `ResolvedFilter.placeholders_searchCondition`: its placeholders are the names bound.
-/

namespace ModelSql

open Sql

/-- The tree of a condition on a column, with placeholders from number `start` on. -/
def Condition.searchCondition (d : Dialect) (column : String) (start : Nat) :
    Condition → SearchCondition
  | .membership .isIn [] => .constant false
  | .membership .notIn [] => .constant true
  | .membership m operands => .membership column m (d.numbered start operands).names
  | .comparison .equal .null => .nullTest column true
  | .comparison .notEqual .null => .nullTest column false
  | .comparison c _ => .comparison column c (d.placeholder start)

theorem Condition.searchCondition_set {m : Membership} {operands : List Value}
    (h : operands ≠ []) (d : Dialect) (column : String) (start : Nat) :
    (membership m operands).searchCondition d column start =
      .membership column m (d.numbered start operands).names := by
  unfold searchCondition
  split <;> simp_all

theorem Condition.searchCondition_compares {c : Comparison} {operand : Value}
    (h : c.Binds operand) (d : Dialect) (column : String) (start : Nat) :
    (comparison c operand).searchCondition d column start =
      .comparison column c (d.placeholder start) := by
  obtain ⟨equal, notEqual⟩ := h
  unfold searchCondition
  split <;> simp_all

def ColumnTest.searchCondition (d : Dialect) (start : Nat) (test : ColumnTest) :
    SearchCondition :=
  test.condition.searchCondition d test.column.name start

/-- The name of the column reads as a word, unless the set of the test is empty: such a
test does not name its column. -/
def ColumnTest.Legible (test : ColumnTest) : Prop :=
  test.condition.operands ≠ [] → IsWord test.column.name

namespace ResolvedFilter

/-- The links joined one after the other to `left`, which binds `start` values. -/
def nest (d : Dialect) (left : SearchCondition) (start : Nat) :
    List (Connective × ColumnTest) → SearchCondition
  | [] => left
  | (c, test) :: links =>
    nest d (.junction c left (test.searchCondition d start)) (start + test.bound.length) links

/-- The tree of a filter. -/
def searchCondition (d : Dialect) : ResolvedFilter → SearchCondition
  | empty => .constant true
  | chain first links => nest d (first.searchCondition d 0) first.bound.length links

end ResolvedFilter

/-! ## Texts of parts -/

/-- Parameters are marked with `@`. -/
def Dialect.UsesAtSign (d : Dialect) : Prop := d.parameterMark = '@'

theorem Table.usesAtSign (t : Table) : t.dialect.UsesAtSign := by
  unfold Table.dialect
  cases t.engine <;> rfl

theorem lexes_everyRow : Lexes everyRow (SearchCondition.constant true).tokens :=
  lexes_of_read ⟨rfl, rfl⟩

theorem Membership.lexes_ofEmptySet (m : Membership) :
    Lexes m.ofEmptySet (SearchCondition.constant (m = .notIn)).tokens := by
  cases m <;> exact lexes_of_read ⟨rfl, rfl⟩

theorem Comparison.joins (c : Comparison) : Joins (" " ++ c.sql ++ " ") [.sign c.sql] := by
  cases c <;> exact joins_of_read ⟨rfl, rfl⟩

theorem Membership.joins (m : Membership) :
    Joins (" " ++ m.sql ++ " (") (SearchCondition.keywords m ++ [.punctuation '(']) := by
  cases m <;> exact joins_of_read ⟨rfl, rfl⟩

theorem Connective.joins (c : Connective) :
    Joins (") " ++ c.sql ++ " (") [.punctuation ')', .word c.sql, .punctuation '('] := by
  cases c <;> exact joins_of_read ⟨rfl, rfl⟩

theorem opens_parenthesis : Opens "(" [.punctuation '('] := opens_of_read rfl

theorem joins_closing : Joins ")" [.punctuation ')'] := joins_of_read ⟨rfl, rfl⟩

theorem joins_comma : Joins "," [.punctuation ','] := joins_of_read ⟨rfl, rfl⟩

section
variable {d : Dialect} (hd : d.UsesAtSign)
include hd

theorem Dialect.parameter_eq (name : String) : d.parameter name = "@" ++ name := by
  have mark : d.parameterMark = '@' := hd
  rw [parameter, mark]
  rfl

theorem Dialect.lexes_parameter {name : String} (h : ∀ c ∈ name.toList, isWordChar c = true) :
    Lexes (d.parameter name) [.parameter (d.parameter name)] := by
  rw [d.parameter_eq hd]
  exact Sql.lexes_parameter h

theorem Dialect.lexes_placeholder (n : Nat) :
    Lexes (d.placeholder n) [.parameter (d.placeholder n)] := by
  apply d.lexes_parameter hd
  intro c hc
  simp only [String.toList_append, Nat.toString_eq_repr, Nat.toList_repr, List.mem_append] at hc
  obtain hc | hc := hc
  · obtain rfl : c = 'p' := by simpa using hc
    rfl
  · have digit : c.isDigit = true := Nat.isDigit_of_mem_toDigits (by decide) (by decide) hc
    simp [isWordChar, digit]

/-- Placeholders with commas between them. -/
theorem Dialect.lexes_numbered (start : Nat) (values : List Value) :
    Lexes (",".intercalate (d.numbered start values).names)
      ([Token.punctuation ','].intercalate
        ((d.numbered start values).names.map fun p => [Token.parameter p])) := by
  rw [numbered_names, List.map_map]
  exact lexes_intercalate joins_comma fun n _ => d.lexes_placeholder hd n

theorem lexes_comparison {column : String} (hc : IsWord column) (start : Nat) (c : Comparison) :
    Lexes (column ++ " " ++ c.sql ++ " " ++ d.placeholder start)
      [.word column, .sign c.sql, .parameter (d.placeholder start)] := by
  have all := ((lexes_word hc).join c.joins).append (d.lexes_placeholder hd start)
  simpa only [String.append_assoc, List.cons_append, List.nil_append] using all

theorem lexes_membership {column : String} (hc : IsWord column) (start : Nat) (m : Membership)
    (values : List Value) :
    Lexes (column ++ " " ++ m.sql ++ " (" ++ ",".intercalate (d.numbered start values).names ++ ")")
      (.word column :: SearchCondition.keywords m ++ .punctuation '(' ::
        [Token.punctuation ','].intercalate
          ((d.numbered start values).names.map fun p => [Token.parameter p]) ++
        [.punctuation ')']) := by
  have list := ((lexes_word hc).join m.joins).append (d.lexes_numbered hd start values)
  have all := (list.join joins_closing).lexes
  simpa only [String.append_assoc, List.append_assoc, List.cons_append, List.nil_append] using all

/-- The text of a condition reads as the tokens of its tree. -/
theorem Condition.lexes_compile {column : String} {c : Condition}
    (hc : c.operands ≠ [] → IsWord column) (start : Nat) :
    Lexes (c.compile d column start).condition (c.searchCondition d column start).tokens := by
  cases c.has_form with
  | emptySet m =>
    have constant := m.lexes_ofEmptySet
    cases m <;> exact constant
  | set m nonempty =>
    rw [compile_set nonempty, searchCondition_set nonempty]
    exact lexes_membership hd (hc nonempty) start m _
  | isNull =>
    have column := lexes_word (hc (List.cons_ne_nil _ _))
    have test : Lexes " IS NULL" [.word "IS", .word "NULL"] :=
      lexes_of_read ⟨rfl, rfl⟩
    exact column.append test fun _ => rfl
  | isNotNull =>
    have column := lexes_word (hc (List.cons_ne_nil _ _))
    have test : Lexes " IS NOT NULL" [.word "IS", .word "NOT", .word "NULL"] :=
      lexes_of_read ⟨rfl, rfl⟩
    exact column.append test fun _ => rfl
  | compares binds =>
    rw [compile_compares binds, searchCondition_compares binds]
    exact lexes_comparison hd (hc (List.cons_ne_nil _ _)) start _

theorem ColumnTest.lexes_compile {test : ColumnTest} (h : test.Legible) (start : Nat) :
    Lexes (test.compile d start).condition (test.searchCondition d start).tokens :=
  Condition.lexes_compile hd h start

/-- One link puts parentheses around what is before it and around its own test. -/
theorem ResolvedFilter.lexes_junction {test : ColumnTest} (h : test.Legible)
    (c : Connective) {text : String} {left : SearchCondition} (hs : Lexes text left.tokens)
    (start : Nat) :
    Lexes ("(" ++ text ++ (") " ++ c.sql ++ " (" ++ (test.compile d start).condition ++ ")"))
      (SearchCondition.junction c left (test.searchCondition d start)).tokens := by
  have left := (opens_parenthesis.append hs).join c.joins
  have all := ((left.append (test.lexes_compile hd h start)).join joins_closing).lexes
  simpa only [SearchCondition.tokens, String.append_assoc, List.append_assoc, List.cons_append,
    List.nil_append] using all

/-- All parentheses are opened in front, and each link closes one of them. -/
theorem ResolvedFilter.lexes_nest {links : List (Connective × ColumnTest)}
    (hl : ∀ link ∈ links, link.2.Legible) {text : String} {left : SearchCondition}
    (hs : Lexes text left.tokens) (start : Nat) :
    Lexes (String.join (links.map fun _ => "(") ++ text ++ (compileLinks d start links).condition)
      (nest d left start links).tokens := by
  induction links generalizing text left start with
  | nil => simpa [compileLinks, String.join, nest] using hs
  | cons link links ih =>
    obtain ⟨c, test⟩ := link
    have joined := lexes_junction hd (hl (c, test) List.mem_cons_self) c hs start
    have rest := ih (fun l h => hl l (List.mem_cons_of_mem _ h)) joined (start + test.bound.length)
    simp only [List.map_cons, String.join_cons, openings_comm, compileLinks, nest,
      String.append_assoc] at rest ⊢
    exact rest

/-- The compiled text of a filter reads as the tokens of its tree. -/
theorem ResolvedFilter.lexes_compile {r : ResolvedFilter}
    (h : ∀ test ∈ r.tests, test.Legible) :
    Lexes (r.compile d).condition (r.searchCondition d).tokens := by
  cases r with
  | empty => exact lexes_everyRow
  | chain first links =>
    have head := first.lexes_compile hd (h first List.mem_cons_self) 0
    exact lexes_nest hd (fun link hl => h _ (List.mem_cons_of_mem _ (List.mem_map_of_mem hl)))
      head first.bound.length

end

/-! ## Placeholders -/

section
variable (d : Dialect) (start : Nat)

theorem Condition.placeholders_searchCondition (column : String) (c : Condition) :
    (c.searchCondition d column start).placeholders = (d.numbered start c.bound).names := by
  cases c.has_form with
  | emptySet m => cases m <;> rfl
  | set m nonempty =>
    rw [searchCondition_set nonempty]
    rfl
  | isNull => rfl
  | isNotNull => rfl
  | compares binds =>
    rw [searchCondition_compares binds, bound_compares binds]
    rfl

theorem ResolvedFilter.placeholders_nest (links : List (Connective × ColumnTest))
    (left : SearchCondition) :
    (nest d left start links).placeholders =
      left.placeholders ++ (d.numbered start (links.flatMap (·.2.bound))).names := by
  induction links generalizing left start with
  | nil => exact (List.append_nil _).symm
  | cons link links ih =>
    obtain ⟨c, test⟩ := link
    rw [nest, ih, SearchCondition.placeholders, ColumnTest.searchCondition,
      Condition.placeholders_searchCondition, List.flatMap_cons, numbered_append,
      Parameters.append_names, List.append_assoc]
    rfl

/-- The placeholders of a filter are the names under which its values are bound, in order. -/
theorem ResolvedFilter.placeholders_searchCondition (r : ResolvedFilter) :
    (r.searchCondition d).placeholders = (r.compile d).parameters.names := by
  cases r with
  | empty => rfl
  | chain first links =>
    rw [compile_parameters, bound, numbered_append, Parameters.append_names, Nat.zero_add,
      searchCondition, placeholders_nest, ColumnTest.searchCondition,
      Condition.placeholders_searchCondition]
    rfl

end

end ModelSql
