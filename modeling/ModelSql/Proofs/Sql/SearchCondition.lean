import ModelSql.Proofs.Sql.Token
import ModelSql.Statement.Filter
/-!
# Search conditions

The condition of a `WHERE` clause as a tree, the grammar that reads it from
tokens, and its value for a row. `AND` binds tighter than `OR`, both group from
the left, parentheses group otherwise, and keywords are known in any case.

* `SearchCondition.parse`: the tree of a text;
* `SearchCondition.parse_tokens`: a tree whose connectives have their operands
  in parentheses is read back from its tokens;
* `SearchCondition.eval`: the value of a tree in three-valued logic.
-/

namespace ModelSql

/-! ## Three-valued logic -/

inductive Truth where
  | true
  | false
  | unknown
deriving DecidableEq, Repr

namespace Truth

def ofBool : Bool → Truth
  | .true => true
  | .false => false

def not : Truth → Truth
  | true => false
  | false => true
  | unknown => unknown

def and : Truth → Truth → Truth
  | false, _ | _, false => false
  | true, true => true
  | _, _ => unknown

def or : Truth → Truth → Truth
  | true, _ | _, true => true
  | false, false => false
  | _, _ => unknown

end Truth

def Connective.join : Connective → Truth → Truth → Truth
  | and => Truth.and
  | or => Truth.or

/-- How an engine orders the values that are not null. -/
abbrev ValueOrder := Value → Value → Ordering

/-- Compares two values. Nothing is known of a comparison with null. -/
def Comparison.holds (c : Comparison) (order : ValueOrder) (a b : Value) : Truth :=
  if a.isNull || b.isNull then .unknown
  else
    .ofBool <| match c with
      | equal => (order a b).isEq
      | notEqual => (order a b).isNe
      | greaterThan => (order a b).isGT
      | greaterThanOrEqual => (order a b).isGE
      | lessThan => (order a b).isLT
      | lessThanOrEqual => (order a b).isLE

/-- Compares a value with the members of a set: with one of them, or with none. -/
def Membership.holds (m : Membership) (order : ValueOrder) (a : Value) (set : List Value) :
    Truth :=
  let found := (set.map (Comparison.equal.holds order a)).foldr Truth.or .false
  match m with
  | isIn => found
  | notIn => found.not

/-! ## Trees -/

/-- The condition of a `WHERE` clause. -/
inductive SearchCondition where
  | comparison (column : String) (c : Comparison) (placeholder : String)
  | membership (column : String) (m : Membership) (placeholders : List String)
  /-- Whether the column is null, or whether it is not. -/
  | nullTest (column : String) (isNull : Bool)
  /-- One compared with itself, or with zero. -/
  | constant (b : Bool)
  | junction (c : Connective) (left right : SearchCondition)
deriving Repr

namespace Sql

/-- Whether a word is the keyword, in any case. -/
def isKeyword (keyword word : String) : Bool := word.toList.map Char.toUpper = keyword.toList

/-- The words that have a meaning of their own in a condition. -/
def reserved : List String := ["AND", "OR", "IN", "NOT", "IS", "NULL"]

/-- An ordinary identifier: it starts with a letter or an underscore, goes on with
letters, digits and underscores, and is not reserved. -/
def isIdentifier (word : String) : Bool :=
  match word.toList with
  | [] => false
  | c :: rest =>
    (isLetter c || c = '_') && rest.all isWordChar && !reserved.any (isKeyword · word)

end Sql

namespace SearchCondition

open Sql Sql.Token

/-! ## The grammar -/

def comparisonOf? : String → Option Comparison
  | "=" => some .equal
  | "<>" => some .notEqual
  | ">" => some .greaterThan
  | ">=" => some .greaterThanOrEqual
  | "<" => some .lessThan
  | "<=" => some .lessThanOrEqual
  | _ => none

/-- Placeholders with commas between them, and the parenthesis after them. -/
def placeholderList : List Token → Option (List String × List Token)
  | parameter p :: .punctuation ',' :: rest =>
    (placeholderList rest).map fun (ps, rest) => (p :: ps, rest)
  | parameter p :: .punctuation ')' :: rest => some ([p], rest)
  | _ => none

def memberTest (column : String) (m : Membership) :
    List Token → Option (SearchCondition × List Token)
  | .punctuation '(' :: rest =>
    (placeholderList rest).map fun (ps, rest) => (membership column m ps, rest)
  | _ => none

/-- What is demanded of a column. -/
def columnTest (column : String) : List Token → Option (SearchCondition × List Token)
  | sign s :: parameter p :: rest =>
    (comparisonOf? s).map fun c => (comparison column c p, rest)
  | word w :: rest =>
    if isKeyword "IN" w then memberTest column .isIn rest
    else
      match rest with
      | word v :: rest =>
        if isKeyword "NOT" w && isKeyword "IN" v then memberTest column .notIn rest
        else if isKeyword "IS" w && isKeyword "NULL" v then some (nullTest column true, rest)
        else
          match rest with
          | word u :: rest =>
            if isKeyword "IS" w && isKeyword "NOT" v && isKeyword "NULL" u then
              some (nullTest column false, rest)
            else none
          | _ => none
      | _ => none
  | _ => none

/-- A condition without connectives and parentheses. -/
def atom : List Token → Option (SearchCondition × List Token)
  | word "1" :: sign "=" :: word "0" :: rest => some (constant false, rest)
  | word "1" :: sign "=" :: word "1" :: rest => some (constant true, rest)
  | word column :: rest => if isIdentifier column then columnTest column rest else none
  | _ => none

mutual

/-- Conjunctions joined by `OR`. The first argument bounds the depth of the calls. -/
def disjunction : Nat → List Token → Option (SearchCondition × List Token)
  | 0, _ => none
  | depth + 1, ts => do
    let (left, rest) ← conjunction depth ts
    disjuncts depth left rest

/-- More conjunctions after `left`. -/
def disjuncts : Nat → SearchCondition → List Token → Option (SearchCondition × List Token)
  | 0, _, _ => none
  | depth + 1, left, word w :: rest =>
    if isKeyword "OR" w then do
      let (right, rest) ← conjunction depth rest
      disjuncts depth (junction .or left right) rest
    else some (left, word w :: rest)
  | _ + 1, left, rest => some (left, rest)

/-- Factors joined by `AND`. -/
def conjunction : Nat → List Token → Option (SearchCondition × List Token)
  | 0, _ => none
  | depth + 1, ts => do
    let (left, rest) ← factor depth ts
    conjuncts depth left rest

/-- More factors after `left`. -/
def conjuncts : Nat → SearchCondition → List Token → Option (SearchCondition × List Token)
  | 0, _, _ => none
  | depth + 1, left, word w :: rest =>
    if isKeyword "AND" w then do
      let (right, rest) ← factor depth rest
      conjuncts depth (junction .and left right) rest
    else some (left, word w :: rest)
  | _ + 1, left, rest => some (left, rest)

/-- A condition in parentheses, or an atom. -/
def factor : Nat → List Token → Option (SearchCondition × List Token)
  | 0, _ => none
  | depth + 1, .punctuation '(' :: ts =>
    match disjunction depth ts with
    | some (inner, .punctuation ')' :: rest) => some (inner, rest)
    | _ => none
  | _ + 1, ts => atom ts

end

/-- The tree of a list of tokens, of which none may be left over. Three calls at most
lead from one token to the next. -/
def ofTokens (ts : List Token) : Option SearchCondition :=
  match disjunction (3 * ts.length + 3) ts with
  | some (condition, []) => some condition
  | _ => none

def parse (text : String) : Option SearchCondition := ofTokens (Sql.tokens text)

/-! ## Values -/

/-- The value of a condition for a row and the values bound to the placeholders, both
given by name. There is none if a name is missing. -/
def eval (order : ValueOrder) (row binding : String → Option Value) :
    SearchCondition → Option Truth
  | comparison column c p => do return c.holds order (← row column) (← binding p)
  | membership column m ps => do return m.holds order (← row column) (← ps.mapM binding)
  | nullTest column isNull => do return .ofBool ((← row column).isNull == isNull)
  | constant b => some (.ofBool b)
  | junction c left right => do
    return c.join (← left.eval order row binding) (← right.eval order row binding)

/-! ## Reading back -/

def keywords : Membership → List Token
  | .isIn => [word "IN"]
  | .notIn => [word "NOT", word "IN"]

/-- The tokens of a condition whose connectives have their operands in parentheses. -/
def tokens : SearchCondition → List Token
  | comparison column c p => [word column, sign c.sql, parameter p]
  | membership column m ps =>
    word column :: keywords m ++ .punctuation '(' ::
      [.punctuation ','].intercalate (ps.map fun p => [parameter p]) ++ [.punctuation ')']
  | nullTest column isNull =>
    word column :: word "IS" :: if isNull then [word "NULL"] else [word "NOT", word "NULL"]
  | constant b => [word "1", sign "=", word (if b then "1" else "0")]
  | junction c left right =>
    .punctuation '(' :: left.tokens ++ .punctuation ')' :: word c.sql :: .punctuation '(' ::
      right.tokens ++ [.punctuation ')']

/-- The placeholders from the left to the right. -/
def placeholders : SearchCondition → List String
  | comparison _ _ p => [p]
  | membership _ _ ps => ps
  | nullTest _ _ | constant _ => []
  | junction _ left right => left.placeholders ++ right.placeholders

/-- Columns are ordinary identifiers, and sets have members. -/
def Proper : SearchCondition → Prop
  | comparison column _ _ | nullTest column _ => isIdentifier column = true
  | membership column _ ps => isIdentifier column = true ∧ ps ≠ []
  | constant _ => True
  | junction _ left right => left.Proper ∧ right.Proper

theorem parametersOf_list (ps : List String) :
    parametersOf ([Token.punctuation ','].intercalate (ps.map fun p => [parameter p])) = ps := by
  rw [parametersOf_intercalate]
  exact List.flatMap_singleton' ps

theorem parametersOf_tokens (e : SearchCondition) : parametersOf e.tokens = e.placeholders := by
  induction e with
  | comparison column c p => rfl
  | membership column m ps =>
    have list := parametersOf_list ps
    cases m <;> simp [tokens, keywords, placeholders, list]
  | nullTest column isNull => cases isNull <;> rfl
  | constant b => cases b <;> rfl
  | junction c left right ihl ihr => simp [tokens, placeholders, ihl, ihr]

theorem comparisonOf?_sql (c : Comparison) : comparisonOf? c.sql = some c := by
  cases c <;> rfl

theorem placeholderList_intercalate {ps : List String} (h : ps ≠ []) (rest : List Token) :
    placeholderList ([Token.punctuation ','].intercalate (ps.map fun p => [parameter p]) ++
      .punctuation ')' :: rest) = some (ps, rest) := by
  induction ps with
  | nil => exact absurd rfl h
  | cons p ps ih =>
    cases ps with
    | nil => rfl
    | cons q ps =>
      have more := ih (by simp)
      simp only [List.map_cons, List.intercalate_cons_cons, List.cons_append, List.nil_append,
        placeholderList] at more ⊢
      rw [more]
      rfl

theorem atom_column {column : String} (h : isIdentifier column = true) (rest : List Token) :
    atom (word column :: rest) = columnTest column rest := by
  have notOne : column ≠ "1" := by
    rintro rfl
    exact absurd h (by decide)
  unfold atom
  split
  · rename_i heq; exact absurd (by simpa using congrArg List.head? heq) notOne
  · rename_i heq; exact absurd (by simpa using congrArg List.head? heq) notOne
  · rename_i heq
    obtain ⟨rfl, rfl⟩ : column = _ ∧ rest = _ := by simpa using heq
    rw [if_pos h]
  · rename_i heq; exact absurd rfl (heq column rest)

theorem memberTest_tokens {column : String} {m : Membership} {ps : List String} (h : ps ≠ [])
    (rest : List Token) :
    memberTest column m (.punctuation '(' ::
      ([Token.punctuation ','].intercalate (ps.map fun p => [parameter p]) ++
        .punctuation ')' :: rest)) = some (membership column m ps, rest) := by
  rw [memberTest, placeholderList_intercalate h]
  rfl

/-- No connective follows. -/
def Ends (rest : List Token) : Prop := ∀ w more, rest ≠ word w :: more

theorem ends_nil : Ends [] := by
  intro w more h
  cases h

theorem ends_closing (rest : List Token) : Ends (.punctuation ')' :: rest) := by
  intro w more h
  cases h

theorem disjuncts_of_ends (depth : Nat) (left : SearchCondition) {rest : List Token}
    (h : Ends rest) : disjuncts (depth + 1) left rest = some (left, rest) := by
  unfold disjuncts
  split
  · contradiction
  · exact absurd rfl (h _ _)
  · simp_all

theorem conjuncts_of_ends (depth : Nat) (left : SearchCondition) {rest : List Token}
    (h : Ends rest) : conjuncts (depth + 1) left rest = some (left, rest) := by
  unfold conjuncts
  split
  · contradiction
  · exact absurd rfl (h _ _)
  · simp_all

/-- A factor with no connective after it is the whole condition. -/
theorem disjunction_of_factor {depth : Nat} {e : SearchCondition} {ts rest : List Token}
    (h : factor (depth + 1) ts = some (e, rest)) (hr : Ends rest) :
    disjunction (depth + 3) ts = some (e, rest) := by
  have hc : conjunction (depth + 2) ts = some (e, rest) := by
    simp only [conjunction, h, Option.bind_eq_bind, Option.bind_some]
    exact conjuncts_of_ends depth e hr
  simp only [disjunction, hc, Option.bind_eq_bind, Option.bind_some]
  exact disjuncts_of_ends (depth + 1) e hr

theorem factor_parentheses {depth : Nat} {e : SearchCondition} {ts rest : List Token}
    (h : disjunction depth (ts ++ .punctuation ')' :: rest) = some (e, .punctuation ')' :: rest)) :
    factor (depth + 1) (.punctuation '(' :: (ts ++ .punctuation ')' :: rest)) = some (e, rest) := by
  simp only [factor, h]

theorem conjunction_and {depth : Nat} {l r : SearchCondition} {ts us rest : List Token}
    (hl : factor (depth + 2) ts = some (l, word "AND" :: us))
    (hr : factor (depth + 1) us = some (r, rest)) (he : Ends rest) :
    conjunction (depth + 3) ts = some (junction .and l r, rest) := by
  have keyword : isKeyword "AND" "AND" = true := rfl
  simp only [conjunction, conjuncts, hl, hr, keyword, if_true, Option.bind_eq_bind,
    Option.bind_some]
  exact conjuncts_of_ends depth _ he

theorem disjunction_or {depth : Nat} {l r : SearchCondition} {ts us rest : List Token}
    (hl : conjunction (depth + 2) ts = some (l, word "OR" :: us))
    (hr : conjunction (depth + 1) us = some (r, rest)) (he : Ends rest) :
    disjunction (depth + 3) ts = some (junction .or l r, rest) := by
  have keyword : isKeyword "OR" "OR" = true := rfl
  simp only [disjunction, disjuncts, hl, hr, keyword, if_true, Option.bind_eq_bind,
    Option.bind_some]
  exact disjuncts_of_ends depth _ he

/-- A factor before `OR`, or before the end, is a conjunction of its own. -/
theorem conjunction_of_factor {depth : Nat} {e : SearchCondition} {ts rest : List Token}
    (h : factor (depth + 1) ts = some (e, rest))
    (hr : Ends rest ∨ ∃ more, rest = word "OR" :: more) :
    conjunction (depth + 2) ts = some (e, rest) := by
  simp only [conjunction, h, Option.bind_eq_bind, Option.bind_some]
  obtain he | ⟨more, rfl⟩ := hr
  · exact conjuncts_of_ends depth e he
  · have keyword : isKeyword "AND" "OR" = false := rfl
    simp only [conjuncts, keyword, Bool.false_eq_true, if_false]

/-- The factor of an atom is the atom. -/
theorem factor_atom {e : SearchCondition} (h : e.Proper) (hj : ∀ c l r, e ≠ junction c l r)
    (depth : Nat) (rest : List Token) : factor (depth + 1) (e.tokens ++ rest) = some (e, rest) := by
  cases e with
  | comparison column c p =>
    simp only [tokens, List.cons_append, List.nil_append, factor, atom_column h, columnTest,
      comparisonOf?_sql, Option.map_some]
  | membership column m ps =>
    obtain ⟨identifier, nonempty⟩ := h
    cases m <;>
      simp only [tokens, keywords, List.cons_append, List.nil_append, List.append_assoc, factor,
        atom_column identifier, columnTest, memberTest_tokens nonempty] <;> rfl
  | nullTest column isNull =>
    cases isNull <;>
      simp only [tokens, List.cons_append, List.nil_append, factor, atom_column h, columnTest,
        if_true, Bool.false_eq_true, if_false] <;> rfl
  | constant b => cases b <;> rfl
  | junction c l r => exact absurd rfl (hj c l r)

/-- A condition is read back from its tokens, if the depth allows three calls for each. -/
theorem disjunction_tokens {e : SearchCondition} (h : e.Proper) {depth : Nat}
    (hd : 3 * e.tokens.length ≤ depth + 1) {rest : List Token} (hr : Ends rest) :
    disjunction (depth + 3) (e.tokens ++ rest) = some (e, rest) := by
  induction e generalizing depth rest with
  | junction c l r ihl ihr =>
    simp only [tokens, List.length_append, List.length_cons, List.length_nil] at hd
    obtain ⟨d, rfl⟩ : ∃ d, depth = d + 6 := ⟨depth - 6, by omega⟩
    have left (depth : Nat) (hd : 3 * l.tokens.length ≤ depth + 1) (more : List Token) :
        factor (depth + 4) (.punctuation '(' :: (l.tokens ++ .punctuation ')' :: more)) =
          some (l, more) :=
      factor_parentheses (ihl h.1 hd (ends_closing more))
    have right (depth : Nat) (hd : 3 * r.tokens.length ≤ depth + 1) :
        factor (depth + 4) (.punctuation '(' :: (r.tokens ++ .punctuation ')' :: rest)) =
          some (r, rest) :=
      factor_parentheses (ihr h.2 hd (ends_closing rest))
    simp only [tokens, List.cons_append, List.append_assoc, List.nil_append]
    cases c with
    | and =>
      have both := conjunction_and (left (d + 3) (by omega) _) (right (d + 2) (by omega)) hr
      simp only [disjunction, Connective.sql, both, Option.bind_eq_bind, Option.bind_some]
      exact disjuncts_of_ends _ _ hr
    | or =>
      have second := conjunction_of_factor (right (d + 2) (by omega)) (.inl hr)
      exact disjunction_or
        (conjunction_of_factor (left (d + 3) (by omega) _) (.inr ⟨_, rfl⟩)) second hr
  | comparison | membership | nullTest | constant =>
    exact disjunction_of_factor (factor_atom h (by simp) _ _) hr

theorem parse_tokens {e : SearchCondition} (h : e.Proper) : ofTokens e.tokens = some e := by
  have all := disjunction_tokens h (Nat.le_succ _) ends_nil
  rw [List.append_nil] at all
  rw [ofTokens, all]

end SearchCondition

end ModelSql
