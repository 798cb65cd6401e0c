import ModelSql.Statement.Parameters
import ModelSql.Table.Basic
/-!
# Filters

A filter is a chain of predicates, read from the left without precedence: each
link joins everything before it with one more predicate. Compiling it for a
table gives the condition of a `WHERE` clause and the values that it binds as
`@p0`, `@p1` and so on, in the order of their placeholders.

Operands never reach the text. What of them does show is whether the operand of
an equality is null, which makes it a null test, and how many members a set has;
a set without members makes its predicate a constant.
-/

namespace ModelSql

/-- Comparisons with one value. -/
inductive Comparison where
  | equal
  | notEqual
  | greaterThan
  | greaterThanOrEqual
  | lessThan
  | lessThanOrEqual
deriving DecidableEq, Repr

def Comparison.sql : Comparison → String
  | equal => "="
  | notEqual => "<>"
  | greaterThan => ">"
  | greaterThanOrEqual => ">="
  | lessThan => "<"
  | lessThanOrEqual => "<="

/-- Comparisons with a set of values. -/
inductive Membership where
  | isIn
  | notIn
deriving DecidableEq, Repr

namespace Membership

def sql : Membership → String
  | isIn => "IN"
  | notIn => "NOT IN"

/-- The condition for a set without members: nothing is in it. -/
def ofEmptySet : Membership → String
  | isIn => "1=0"
  | notIn => "1=1"

end Membership

inductive Operator where
  | comparison (c : Comparison)
  | membership (m : Membership)
deriving DecidableEq, Repr

namespace Operator

def sql : Operator → String
  | comparison c => c.sql
  | membership m => m.sql

/-- Whether the operator takes a set of values. -/
def isSet : Operator → Bool
  | comparison _ => false
  | membership _ => true

end Operator

/-- What a predicate demands of its column. -/
inductive Condition where
  | comparison (c : Comparison) (operand : Value)
  | membership (m : Membership) (operands : List Value)
deriving DecidableEq, Repr

namespace Condition

/-- An operator applied to one value, which is the only member of a set operator's set. -/
def ofOperator : Operator → Value → Condition
  | .comparison c, v => comparison c v
  | .membership m, v => membership m [v]

def operator : Condition → Operator
  | comparison c _ => .comparison c
  | membership m _ => .membership m

def operands : Condition → List Value
  | comparison _ v => [v]
  | membership _ vs => vs

end Condition

/-- A condition on a field, given by its own name or its column's. -/
structure Predicate where
  field : String
  condition : Condition
deriving DecidableEq, Repr

namespace Predicate

/-- A field under an operator and one value. -/
def ofOperator {α : Type} [ToValue α] (field : String) (operator : Operator) (value : α) :
    Predicate :=
  ⟨field, .ofOperator operator (toValue value)⟩

def isIn {α : Type} [ToValue α] (field : String) (values : List α) : Predicate :=
  ⟨field, .membership .isIn (values.map toValue)⟩

def notIn {α : Type} [ToValue α] (field : String) (values : List α) : Predicate :=
  ⟨field, .membership .notIn (values.map toValue)⟩

end Predicate

/-- What joins a predicate to everything before it. -/
inductive Connective where
  | and
  | or
deriving DecidableEq, Repr

def Connective.sql : Connective → String
  | and => "AND"
  | or => "OR"

/-- A chain of predicates. The filter without predicates accepts every row. -/
inductive Filter where
  | empty
  | chain (first : Predicate) (links : List (Connective × Predicate))
deriving DecidableEq, Repr

namespace Filter

/-- Adds a predicate at the end. A connective before the first predicate has no effect. -/
def push : Filter → Connective → Predicate → Filter
  | empty, _, p => chain p []
  | chain first links, c, p => chain first (links ++ [(c, p)])

def ofPredicate (p : Predicate) : Filter := empty.push .and p

def and (f : Filter) (p : Predicate) : Filter := f.push .and p

def or (f : Filter) (p : Predicate) : Filter := f.push .or p

/-- The predicates in order, each with the connective before it. -/
def nodes : Filter → List (Option Connective × Predicate)
  | empty => []
  | chain first links => (none, first) :: links.map fun (c, p) => (some c, p)

def predicates (f : Filter) : List Predicate := f.nodes.map (·.2)

def size (f : Filter) : Nat := f.nodes.length

def isEmpty : Filter → Bool
  | empty => true
  | chain .. => false

end Filter

/-- A condition for the rows of a statement, with the values that it binds. -/
structure CompiledFilter where
  condition : String
  parameters : Parameters := .empty
deriving DecidableEq, Repr

/-- The condition that holds of every row. -/
def everyRow : String := "1 = 1"

/-- The values under consecutive placeholders from number `start` on. -/
def Dialect.numbered (d : Dialect) (start : Nat) (values : List Value) : Parameters :=
  ⟨values.mapIdx fun i v => (d.parameter ("p" ++ toString (start + i)), v)⟩

/-- The condition on a column and the values that it binds from number `start` on. -/
def Condition.compile (d : Dialect) (column : String) (start : Nat) :
    Condition → CompiledFilter
  | .membership m [] => { condition := m.ofEmptySet }
  | .membership m operands =>
    let bound := d.numbered start operands
    { condition := column ++ " " ++ m.sql ++ " (" ++ ",".intercalate bound.names ++ ")"
      parameters := bound }
  | .comparison .equal .null => { condition := column ++ " IS NULL" }
  | .comparison .notEqual .null => { condition := column ++ " IS NOT NULL" }
  | .comparison c operand =>
    let bound := d.numbered start [operand]
    { condition := column ++ " " ++ c.sql ++ " " ++ ",".intercalate bound.names
      parameters := bound }

/-- The predicate on its own, binding values from number `start` on. -/
def Predicate.compile (table : Table) (start : Nat) (p : Predicate) :
    Except Fault CompiledFilter := do
  let column ← table.resolve p.field
  return p.condition.compile table.dialect column.name start

/-- The links of a chain that has bound `start` values before them. Each closes the
parenthesis around everything before it. -/
def compileLinks (table : Table) (start : Nat) :
    List (Connective × Predicate) → Except Fault CompiledFilter
  | [] => .ok { condition := "" }
  | (connective, predicate) :: links => do
    let term ← predicate.compile table start
    let rest ← compileLinks table (start + term.parameters.size) links
    return {
      condition := ") " ++ connective.sql ++ " (" ++ term.condition ++ ")" ++ rest.condition
      parameters := term.parameters ++ rest.parameters }

/-- The condition of a filter in one pass from the left: a parenthesis is opened for
every link before the first predicate is written. The first name that stands for
no column is the fault. -/
def Filter.compile (f : Filter) (table : Table) : Except Fault CompiledFilter :=
  match f with
  | .empty => .ok { condition := everyRow }
  | .chain first links => do
    let head ← first.compile table 0
    let tail ← compileLinks table head.parameters.size links
    return {
      condition := String.join (links.map fun _ => "(") ++ head.condition ++ tail.condition
      parameters := head.parameters ++ tail.parameters }

end ModelSql
