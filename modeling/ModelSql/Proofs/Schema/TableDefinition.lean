import ModelSql.Proofs.Statement.TokenLists
/-!
# Definitions of tables

The definition of a table as a tree, and the grammar that reads it from tokens. The columns
stand in a list in parentheses, and types and clauses may hold lists in parentheses of their
own.

* `TableDefinition.read?`: the definition that a list of tokens spells;
* `TableDefinition.read?_tokens`: a definition is read from its tokens, whatever its names are.
-/

namespace ModelSql.Sql

open Token

/-! ## Trees -/

/-- A native type: its name, and its arguments if it takes any. -/
structure TypeName where
  name : String
  arguments : List String
deriving DecidableEq, Repr

/-- What is said of a column after its type. -/
inductive ColumnClause where
  | notNull
  | primaryKey
  | autoincrement
  /-- The engine numbers the rows from `first` on, in steps of `step`. -/
  | identity (first step : String)
deriving DecidableEq, Repr

structure ColumnDefinition where
  name : String
  type : TypeName
  clauses : List ColumnClause
deriving DecidableEq, Repr

/-- What makes a definition harmless where the table exists. -/
inductive DefinitionGuard where
  | ifNotExists
  /-- There is no object of this name and kind. The name is given as a literal. -/
  | objectId (name kind : String)
deriving DecidableEq, Repr

structure TableDefinition where
  guard : DefinitionGuard
  name : String
  columns : List ColumnDefinition
deriving DecidableEq, Repr

/-! ## Reading -/

/-- A word that stands alone. -/
def loneWord? : List Token → Option String
  | [word text] => some text
  | _ => none

/-- A type at the beginning of a list of tokens, and what follows it. -/
def TypeName.read? : List Token → Option (TypeName × List Token)
  | word name :: punctuation '(' :: ts => do
    let (arguments, rest) ← readTuple? loneWord? ts
    return ({ name, arguments }, rest)
  | word name :: rest => some ({ name, arguments := [] }, rest)
  | _ => none

def ColumnClause.readAll? : List Token → Option (List ColumnClause)
  | [] => some []
  | word "NOT" :: word "NULL" :: rest => (readAll? rest).map (notNull :: ·)
  | word "PRIMARY" :: word "KEY" :: rest => (readAll? rest).map (primaryKey :: ·)
  | word "AUTOINCREMENT" :: rest => (readAll? rest).map (autoincrement :: ·)
  | word "IDENTITY" :: punctuation '(' :: word first :: punctuation ',' :: word step ::
      punctuation ')' :: rest => (readAll? rest).map (identity first step :: ·)
  | _ => none

def ColumnDefinition.read? : List Token → Option ColumnDefinition
  | .quoted .bracket name :: ts => do
    let (type, rest) ← TypeName.read? ts
    return { name, type, clauses := ← ColumnClause.readAll? rest }
  | _ => none

/-- The beginning of a definition with its guard, and what follows it. -/
def DefinitionGuard.read? : List Token → Option (DefinitionGuard × List Token)
  | word "CREATE" :: word "TABLE" :: word "IF" :: word "NOT" :: word "EXISTS" :: rest =>
    some (ifNotExists, rest)
  | word "IF" :: word "OBJECT_ID" :: punctuation '(' :: word "N" :: .quoted .apostrophe name ::
      punctuation ',' :: word "N" :: .quoted .apostrophe kind :: punctuation ')' :: word "IS" ::
      word "NULL" :: word "CREATE" :: word "TABLE" :: rest => some (objectId name kind, rest)
  | _ => none

def TableDefinition.read? (ts : List Token) : Option TableDefinition := do
  match ← DefinitionGuard.read? ts with
  | (guard, .quoted .bracket name :: punctuation '(' :: ts) =>
    match ← readTuple? ColumnDefinition.read? ts with
    | (columns, [punctuation ';']) => return { guard, name, columns }
    | _ => none
  | _ => none

def TableDefinition.parse? (text : String) : Option TableDefinition := read? (tokens text)

/-! ## Writing -/

def TypeName.text (t : TypeName) : String :=
  if t.arguments = [] then t.name else t.name ++ "(" ++ ", ".intercalate t.arguments ++ ")"

def TypeName.tokens (t : TypeName) : List Token :=
  word t.name :: if t.arguments = [] then [] else tupleTokens word t.arguments

def ColumnClause.tokens : ColumnClause → List Token
  | notNull => [word "NOT", word "NULL"]
  | primaryKey => [word "PRIMARY", word "KEY"]
  | autoincrement => [word "AUTOINCREMENT"]
  | identity first step => word "IDENTITY" :: tupleTokens word [first, step]

def ColumnDefinition.tokens (d : ColumnDefinition) : List Token :=
  .quoted .bracket d.name :: d.type.tokens ++ d.clauses.flatMap ColumnClause.tokens

def DefinitionGuard.tokens : DefinitionGuard → List Token
  | ifNotExists => [word "CREATE", word "TABLE", word "IF", word "NOT", word "EXISTS"]
  | objectId name kind =>
    [word "IF", word "OBJECT_ID", punctuation '(', word "N", .quoted .apostrophe name,
      punctuation ',', word "N", .quoted .apostrophe kind, punctuation ')', word "IS",
      word "NULL", word "CREATE", word "TABLE"]

def TableDefinition.tokens (d : TableDefinition) : List Token :=
  d.guard.tokens ++ .quoted .bracket d.name :: punctuation '(' ::
    (listTokens ColumnDefinition.tokens d.columns ++ [punctuation ')', punctuation ';'])

/-! ## Reading what is written -/

/-- A type is read up to what follows it, unless that could be its arguments. -/
theorem TypeName.read?_tokens (t : TypeName) {rest : List Token}
    (ends : rest.head? ≠ some (punctuation '(')) : read? (t.tokens ++ rest) = some (t, rest) := by
  obtain ⟨name, arguments⟩ := t
  by_cases none : arguments = []
  · subst none
    cases rest with
    | nil => rfl
    | cons t rest =>
      simp only [tokens, if_true, List.singleton_append]
      unfold read?
      split
      · rename_i same
        cases same
        exact absurd rfl ends
      · rename_i same
        cases same
        rfl
      · rename_i other
        exact absurd rfl (other _ _)
  · have words : ∀ text ∈ arguments, Passes 0 [word text] := fun _ _ => passes_plain rfl
    have each (text : String) : loneWord? [word text] = some text := rfl
    have read := readTuple?_listTokens each words none rest
    simp only [tokens, none, if_false, tupleTokens, List.cons_append, List.append_assoc,
      List.nil_append, read?, read]
    rfl

theorem ColumnClause.readAll?_tokens (clauses : List ColumnClause) :
    readAll? (clauses.flatMap tokens) = some clauses := by
  induction clauses with
  | nil => rfl
  | cons clause clauses ih =>
    cases clause with
    | notNull | primaryKey | autoincrement | identity =>
      simp [tokens, tupleTokens, listTokens, readAll?, ih]

theorem ColumnDefinition.read?_tokens (d : ColumnDefinition) : read? d.tokens = some d := by
  obtain ⟨name, type, clauses⟩ := d
  have ends : (clauses.flatMap ColumnClause.tokens).head? ≠ some (punctuation '(') := by
    cases clauses with
    | nil => simp
    | cons clause clauses => cases clause <;> simp [ColumnClause.tokens]
  simp only [tokens, List.cons_append, read?, type.read?_tokens ends, Option.bind_eq_bind,
    Option.bind_some, ColumnClause.readAll?_tokens]
  rfl

theorem DefinitionGuard.read?_tokens (g : DefinitionGuard) (rest : List Token) :
    read? (g.tokens ++ rest) = some (g, rest) := by
  cases g <;> rfl

theorem ColumnClause.passes_tokens (clause : ColumnClause) : Passes 0 clause.tokens := by
  have words (ts : List String) : Passes 0 (ts.map word) := by
    induction ts with
    | nil => exact passes_nil
    | cons t ts ih => exact (passes_plain rfl).append ih
  cases clause with
  | notNull => exact words ["NOT", "NULL"]
  | primaryKey => exact words ["PRIMARY", "KEY"]
  | autoincrement => exact words ["AUTOINCREMENT"]
  | identity first step =>
    have numbers : Passes 0 (tupleTokens word [first, step]) := passes_tupleTokens fun _ _ => rfl
    exact (words ["IDENTITY"]).append numbers

theorem ColumnDefinition.passes_tokens (d : ColumnDefinition) : Passes 0 d.tokens := by
  have name : Passes 0 [Token.quoted .bracket d.name] := passes_plain rfl
  have type : Passes 0 d.type.tokens := by
    have word : Passes 0 [word d.type.name] := passes_plain rfl
    unfold TypeName.tokens
    split
    · exact word
    · exact word.append (passes_tupleTokens fun _ _ => rfl)
  have clauses : Passes 0 (d.clauses.flatMap ColumnClause.tokens) := by
    induction d.clauses with
    | nil => exact passes_nil
    | cons clause clauses ih => exact clause.passes_tokens.append ih
  exact (name.append type).append clauses

/-- A definition is read from its tokens. -/
theorem TableDefinition.read?_tokens {d : TableDefinition} (nonempty : d.columns ≠ []) :
    read? d.tokens = some d := by
  have columns := readTuple?_listTokens ColumnDefinition.read?_tokens
    (fun d _ => d.passes_tokens) nonempty [punctuation ';']
  simp only [tokens, read?, DefinitionGuard.read?_tokens, Option.bind_eq_bind, Option.bind_some,
    columns]
  rfl

end ModelSql.Sql
