import ModelSql.Proofs.Statement.Tokens
/-!
# Renaming

The kinds of the tokens of a statement do not depend on the names that it holds, as
long as each name stays one token. Names of tables and columns are quoted, and may be
anything. Two kinds of names are written bare: parameters and the columns that a filter
tests; these have to be words. Of the label of a generated identity nothing is said
unless it is a word too.

* `Sql.tokenKinds`: the kinds of the tokens of a text;
* `Table.Alike.kinds_templateTokens`: templates of tables with as many columns, marked alike;
* `Filter.Renamed.compile`: filters that differ in the names of their fields;
* `Model.renaming_keeps_kinds`: templates, compiled filters and spliced statements;
* `Model.bare_names_change_kinds`: parameters and tested columns that are not words do show.
-/

namespace ModelSql

namespace Sql

/-- What a token is, whatever name or word it holds. -/
inductive TokenKind where
  | word
  | number
  | parameter
  | sign (text : String)
  | quoted (q : Quote)
  | unclosed
  | punctuation (c : Char)
deriving DecidableEq, Repr

def Token.kind : Token → TokenKind
  | word text => if text.toList.head?.any Char.isDigit then .number else .word
  | parameter _ => .parameter
  | sign text => .sign text
  | quoted q _ => .quoted q
  | unclosed => .unclosed
  | punctuation c => .punctuation c

def kinds (ts : List Token) : List TokenKind := ts.map Token.kind

/-- The kinds of the tokens of a text, from the left. -/
def tokenKinds (text : String) : List TokenKind := kinds (tokens text)

theorem Token.kind_word {text : String} (h : IsName text) : (word text).kind = .word := by
  simp only [kind, h.2, Bool.false_eq_true, if_false]

theorem Lexes.tokenKinds_eq {text : String} {ts : List Token} (h : Lexes text ts) :
    tokenKinds text = kinds ts := by
  rw [tokenKinds, h.tokens_eq]

section
variable (ts us : List Token)

@[simp]
theorem kinds_nil : kinds [] = [] := rfl

@[simp]
theorem kinds_cons (token : Token) : kinds (token :: ts) = token.kind :: kinds ts := rfl

@[simp]
theorem kinds_append : kinds (ts ++ us) = kinds ts ++ kinds us := List.map_append

end

end Sql

open Sql

/-! ## Lists -/

section
variable {α : Type} {xs ys : List α} (h : xs.length = ys.length)
include h

theorem isEmpty_of_length : xs.isEmpty = ys.isEmpty := by
  rw [Bool.eq_iff_iff, List.isEmpty_iff_length_eq_zero, List.isEmpty_iff_length_eq_zero, h]

/-- If the items are of one kind, only their number shows. -/
theorem kinds_list {f g : α → List Token} (each : ∀ a b, kinds (f a) = kinds (g b)) :
    kinds (listTokens f xs) = kinds (listTokens g ys) := by
  unfold listTokens
  -- A comma stands before each item but the first, so the step looks at two items.
  induction xs generalizing ys with
  | nil =>
    obtain rfl : ys = [] := List.eq_nil_of_length_eq_zero h.symm
    rfl
  | cons x xs ih =>
    cases ys with
    | nil => cases h
    | cons y ys =>
      have length : xs.length = ys.length := Nat.succ.inj h
      have rest := ih length
      cases xs with
      | nil =>
        obtain rfl : ys = [] := List.eq_nil_of_length_eq_zero length.symm
        simpa using each x y
      | cons x' xs =>
        cases ys with
        | nil => cases length
        | cons y' ys =>
          simp only [List.map_cons, List.intercalate_cons_cons, kinds_append] at rest ⊢
          rw [each x y, rest]

theorem kinds_tuple {f g : α → Token} (each : ∀ a b, (f a).kind = (g b).kind) :
    kinds (tupleTokens f xs) = kinds (tupleTokens g ys) := by
  have items (a b : α) : kinds [f a] = kinds [g b] := congrArg (fun k => [k]) (each a b)
  simp only [tupleTokens, List.cons_append, kinds_cons, kinds_append, kinds_list h items]

end

/-! ## Tables -/

@[simp]
theorem Column.kind_token (c : Column) : c.token.kind = .quoted .bracket := rfl

namespace Table

@[simp]
theorem kind_token (t : Table) : t.token.kind = .quoted .bracket := rfl

@[simp]
theorem kind_parameterToken (t : Table) (c : Column) : (t.parameterToken c).kind = .parameter := rfl

/-- Tables of one engine with as many columns, marked as the identity alike. -/
structure Alike (t t' : Table) : Prop where
  engine : t.engine = t'.engine
  marks : t.columns.map (·.identity) = t'.columns.map (·.identity)

namespace Alike

variable {t t' : Table} (h : t.Alike t')
include h

theorem dialect : t.dialect = t'.dialect := congrArg Engine.dialect h.engine

/-- As many columns meet a condition on their marks. -/
theorem filter_length (p : Bool → Bool) :
    (t.columns.filter fun c => p c.identity).length =
      (t'.columns.filter fun c => p c.identity).length := by
  have marks := congrArg (List.countP p) h.marks
  simpa only [List.countP_map, ← List.countP_eq_length_filter, Function.comp_def] using marks

theorem columns_length : t.columns.length = t'.columns.length := by
  simpa using congrArg List.length h.marks

theorem dataColumns_length : t.dataColumns.length = t'.dataColumns.length :=
  h.filter_length fun mark => !mark

theorem updatableColumns_length : t.updatableColumns.length = t'.updatableColumns.length := by
  unfold updatableColumns
  rw [h.dialect]
  exact h.filter_length fun mark => t'.dialect.updatesIdentity || !mark

theorem identity?_isSome : t.identity?.isSome = t'.identity?.isSome := by
  have marks := congrArg (List.any · id) h.marks
  simpa only [identity?, List.isSome_find?, List.any_map, Function.id_comp] using marks

theorem identity?_together :
    (t.identity? = none ∧ t'.identity? = none) ∨
    ∃ c c', t.identity? = some c ∧ t'.identity? = some c' := by
  have isSome := h.identity?_isSome
  cases hi : t.identity? with
  | none => exact .inl ⟨rfl, by simpa [hi] using isSome⟩
  | some c =>
    rw [hi] at isSome
    obtain ⟨c', hi'⟩ := Option.isSome_iff_exists.mp isSome.symm
    exact .inr ⟨c, c', rfl, hi'⟩

end Alike

/-! ## Statements -/

section
variable {columns columns' : List Column} (h : columns.length = columns'.length) (t t' : Table)
include h

theorem kinds_columnList :
    kinds (tupleTokens Column.token columns) = kinds (tupleTokens Column.token columns') :=
  kinds_tuple h fun _ _ => rfl

theorem kinds_valueList :
    kinds (tupleTokens t.parameterToken columns) =
      kinds (tupleTokens t'.parameterToken columns') :=
  kinds_tuple h fun _ _ => rfl

theorem kinds_insert : kinds (t.insertTokens columns) = kinds (t'.insertTokens columns') := by
  unfold insertTokens
  rw [isEmpty_of_length h]
  split
  · rfl
  · simp only [List.cons_append, List.nil_append, kinds_cons, kinds_append, kind_token,
      kinds_columnList h, kinds_valueList h t t']

theorem kinds_update {ts us : List Token} (condition : kinds ts = kinds us) :
    kinds (t.updateTokens columns ts) = kinds (t'.updateTokens columns' us) := by
  have assignments :
      kinds (listTokens (fun c => [c.token, .sign "=", t.parameterToken c]) columns) =
        kinds (listTokens (fun c => [c.token, .sign "=", t'.parameterToken c]) columns') :=
    kinds_list h fun _ _ => rfl
  simp only [updateTokens, List.cons_append, List.nil_append, kinds_cons, kinds_append,
    kind_token, assignments, condition]

theorem kinds_insertThroughVariable {identity identity' : Column}
    (native : IsName identity.native) (native' : IsName identity'.native)
    (label : IsName identity.field) (label' : IsName identity'.field) :
    kinds (t.insertThroughVariableTokens columns identity) =
      kinds (t'.insertThroughVariableTokens columns' identity') := by
  unfold insertThroughVariableTokens
  rw [isEmpty_of_length h]
  split <;>
    simp only [List.cons_append, List.nil_append, kinds_cons, kinds_append, kind_token,
      Column.kind_token, kinds_columnList h, kinds_valueList h t t', Token.kind_word native,
      Token.kind_word native', Token.kind_word label, Token.kind_word label']

end

section
variable {t t' : Table} (h : t.Alike t')
include h

theorem kinds_insertReturningIdentity {columns columns' : List Column}
    (length : columns.length = columns'.length) {identity identity' : Column}
    (native : IsName identity.native) (native' : IsName identity'.native)
    (label : IsName identity.field) (label' : IsName identity'.field) :
    kinds (t.insertReturningIdentityTokens columns identity) =
      kinds (t'.insertReturningIdentityTokens columns' identity') := by
  have insert := kinds_insert length t t'
  unfold insertReturningIdentityTokens
  rw [h.engine]
  cases t'.engine with
  | sqlite =>
    simp only [kinds_append, kinds_cons, insert, Token.kind_word label, Token.kind_word label']
  | sqlServer => exact kinds_insertThroughVariable length t t' native native' label label'

theorem kinds_insertExplicitIdentity {ts us : List Token} (statement : kinds ts = kinds us) :
    kinds (t.insertExplicitIdentityTokens ts) = kinds (t'.insertExplicitIdentityTokens us) := by
  unfold insertExplicitIdentityTokens
  rw [h.dialect]
  split
  · simp only [List.cons_append, List.nil_append, kinds_cons, kinds_append, kind_token, statement]
  · exact statement

theorem kinds_select {ts us : List Token} (condition : kinds ts = kinds us) :
    kinds (t.selectTokens ts) = kinds (t'.selectTokens us) := by
  have results :
      kinds (listTokens (fun c => [t.token, .punctuation '.', c.token, .word "AS",
        .quoted .apostrophe c.field]) t.columns) =
      kinds (listTokens (fun c => [t'.token, .punctuation '.', c.token, .word "AS",
        .quoted .apostrophe c.field]) t'.columns) :=
    kinds_list h.columns_length fun _ _ => rfl
  simp only [selectTokens, List.cons_append, kinds_cons, kinds_append, kinds_nil, kind_token,
    results, condition]

omit h in
theorem kinds_delete {ts us : List Token} (condition : kinds ts = kinds us) :
    kinds (t.deleteTokens ts) = kinds (t'.deleteTokens us) := by
  simp only [deleteTokens, List.cons_append, List.nil_append, kinds_cons, kinds_append,
    kind_token, condition]

end

/-! ## Templates -/

/-- What is asked of the fields of a table for one of its templates. -/
structure WritesNames (t : Table) (kind : TemplateKind) : Prop where
  /-- Parameters are named after fields, and these are words. -/
  parameters : t.WritesWords kind
  /-- A generated identity is labelled by a name. No other labels are considered. -/
  label : kind = .insert → ∀ c, t.identity? = some c → IsName c.field

theorem updateByIdentityTemplate?_isSome (t : Table) :
    t.updateByIdentityTemplate?.isSome = (t.identity?.isSome && !t.dataColumns.isEmpty) := by
  unfold updateByIdentityTemplate?
  cases t.identity? with
  | none => rfl
  | some identity => cases t.dataColumns.isEmpty <;> rfl

theorem updateAllTemplate?_isSome (t : Table) :
    t.updateAllTemplate?.isSome = !t.updatableColumns.isEmpty := by
  unfold updateAllTemplate?
  cases t.updatableColumns.isEmpty <;> rfl

namespace Alike

variable {t t' : Table} (h : t.Alike t')
include h

/-- The tables have the same templates. -/
theorem template?_isSome (kind : TemplateKind) :
    (t.template? kind).isSome = (t'.template? kind).isSome := by
  cases kind with
  | updateByIdentity =>
    have data := isEmpty_of_length h.dataColumns_length
    simp only [template?, updateByIdentityTemplate?_isSome, h.identity?_isSome, data]
  | updateAll =>
    have updatable := isEmpty_of_length h.updatableColumns_length
    simp only [template?, updateAllTemplate?_isSome, updatable]
  | _ => simp only [template?, Option.isSome_some]

/-- The kinds of a template's tokens come from the number of the columns and their marks. -/
theorem kinds_templateTokens (wellFormed : t.WellFormed) (wellFormed' : t'.WellFormed)
    {kind : TemplateKind} (names : t.WritesNames kind) (names' : t'.WritesNames kind)
    {ts us : List Token} (condition : kinds ts = kinds us) :
    kinds (t.templateTokens ts kind) = kinds (t'.templateTokens us kind) := by
  cases kind with
  | select => exact kinds_select h condition
  | insert =>
    obtain ⟨hi, hi'⟩ | ⟨identity, identity', hi, hi'⟩ := h.identity?_together
    · simp only [templateTokens, hi, hi']
      exact kinds_insert h.dataColumns_length t t'
    · obtain ⟨mem, marked⟩ := t.mem_of_identity? hi
      obtain ⟨mem', marked'⟩ := t'.mem_of_identity? hi'
      simp only [templateTokens, hi, hi']
      exact kinds_insertReturningIdentity h h.dataColumns_length
        (wellFormed.isName_native mem marked) (wellFormed'.isName_native mem' marked')
        (names.label rfl identity hi) (names'.label rfl identity' hi')
  | insertAll =>
    have insert := kinds_insert h.columns_length t t'
    simp only [templateTokens, h.identity?_isSome]
    split
    · exact kinds_insertExplicitIdentity h insert
    · exact insert
  | updateByIdentity =>
    obtain ⟨hi, hi'⟩ | ⟨identity, identity', hi, hi'⟩ := h.identity?_together
    · simp only [templateTokens, hi, hi']
    · have condition : kinds [identity.token, .sign "=", t.parameterToken identity] =
          kinds [identity'.token, .sign "=", t'.parameterToken identity'] := by
        simp only [kinds_cons, kind_parameterToken, Column.kind_token]
      simp only [templateTokens, hi, hi']
      exact kinds_update h.dataColumns_length t t' condition
  | updateAll => exact kinds_update h.updatableColumns_length t t' condition
  | delete => exact kinds_delete condition

end Alike

end Table

/-! ## Filters -/

/-- Predicates that differ in the name of their field only. -/
def Predicate.Renamed (t t' : Table) (p p' : Predicate) : Prop :=
  p.condition = p'.condition ∧ (∃ c, t.resolve p.field = .ok c) ∧ ∃ c, t'.resolve p'.field = .ok c

/-- Filters that differ, position by position, in the names of their fields only. Each names
columns of its own table. -/
def Filter.Renamed (t t' : Table) (f f' : Filter) : Prop :=
  List.Forall₂ (fun n n' => n.1 = n'.1 ∧ Predicate.Renamed t t' n.2 n'.2) f.nodes f'.nodes

/-- The columns that a filter writes, which it writes bare, have names that are words. A
predicate with an empty set writes none. -/
def Filter.WritesNames (f : Filter) (t : Table) : Prop :=
  ∀ p ∈ f.predicates, p.condition.operands ≠ [] → ∀ c, t.resolve p.field = .ok c → IsName c.name

/-- The same for a test. -/
def ColumnTest.WritesName (test : ColumnTest) : Prop :=
  test.condition.operands ≠ [] → IsName test.column.name

theorem ColumnTest.WritesName.legible {test : ColumnTest} (h : test.WritesName) : test.Legible :=
  fun operands => (h operands).1

theorem Filter.WritesNames.tests {f : Filter} {t : Table} (h : f.WritesNames t)
    {r : ResolvedFilter} (resolved : f.resolve t = .ok r) : ∀ test ∈ r.tests, test.WritesName := by
  intro test ht
  obtain ⟨p, mem, hp⟩ := Filter.resolve_from resolved test ht
  obtain ⟨column, hcolumn, hp⟩ := steps_of_ok hp
  cases hp
  exact fun operands => h p mem operands column hcolumn

/-- The tests have one condition. -/
def ColumnTest.SameCondition (a b : ColumnTest) : Prop := a.condition = b.condition

theorem Predicate.Renamed.resolve {t t' : Table} (p p' : Predicate) (h : p.Renamed t t' p') :
    ∃ a b, p.resolve t = .ok a ∧ p'.resolve t' = .ok b ∧ a.SameCondition b := by
  obtain ⟨condition, ⟨c, hc⟩, c', hc'⟩ := h
  exact ⟨_, _, Predicate.resolve_of_field hc, Predicate.resolve_of_field hc', condition⟩

section
variable (d : Dialect)

theorem Condition.kinds_searchCondition (c : Condition) (start : Nat) {column column' : String}
    (h : c.operands ≠ [] → IsName column) (h' : c.operands ≠ [] → IsName column') :
    kinds (c.searchCondition d column start).tokens =
      kinds (c.searchCondition d column' start).tokens := by
  by_cases empty : c.operands = []
  · cases c with
    | comparison => cases empty
    | membership m operands =>
      obtain rfl : operands = [] := empty
      cases m <;> rfl
  · have name := Token.kind_word (h empty)
    have name' := Token.kind_word (h' empty)
    cases c.has_form with
    | emptySet m => exact absurd rfl empty
    | set m nonempty =>
      rw [searchCondition_set nonempty, searchCondition_set nonempty]
      simp only [SearchCondition.tokens, List.cons_append, kinds_cons, name, name']
    | isNull =>
      simp only [searchCondition, SearchCondition.tokens, kinds_cons, name, name']
    | isNotNull =>
      simp only [searchCondition, SearchCondition.tokens, kinds_cons, name, name']
    | compares binds =>
      rw [searchCondition_compares binds, searchCondition_compares binds]
      simp only [SearchCondition.tokens, kinds_cons, name, name']

theorem ColumnTest.kinds_searchCondition {a b : ColumnTest} (same : a.SameCondition b)
    (ha : a.WritesName) (hb : b.WritesName) (start : Nat) :
    kinds (a.searchCondition d start).tokens = kinds (b.searchCondition d start).tokens := by
  obtain ⟨column, condition⟩ := a
  obtain ⟨column', _⟩ := b
  obtain rfl : condition = _ := same
  exact condition.kinds_searchCondition d start ha hb

/-- Links put tokens of the same kinds around what is before them. -/
theorem ResolvedFilter.kinds_nest {links links' : List (Connective × ColumnTest)}
    (same : List.Forall₂ (fun a b => a.1 = b.1 ∧ a.2.SameCondition b.2) links links')
    (h : ∀ link ∈ links, link.2.WritesName) (h' : ∀ link ∈ links', link.2.WritesName)
    {left left' : SearchCondition} (start : Nat) (before : kinds left.tokens = kinds left'.tokens) :
    kinds (nest d left start links).tokens = kinds (nest d left' start links').tokens := by
  induction same generalizing left left' start with
  | nil => exact before
  | @cons a b links links' link _ ih =>
    obtain ⟨connective, condition⟩ := link
    have test := ColumnTest.kinds_searchCondition d condition (h a List.mem_cons_self)
      (h' b List.mem_cons_self) start
    have bound : a.2.bound = b.2.bound := congrArg Condition.bound condition
    rw [nest, nest, bound]
    apply ih
    · exact fun link mem => h link (List.mem_cons_of_mem _ mem)
    · exact fun link mem => h' link (List.mem_cons_of_mem _ mem)
    · simp only [SearchCondition.tokens, List.cons_append, kinds_cons, kinds_append, before, test,
        connective]

theorem ResolvedFilter.kinds_searchCondition {r r' : ResolvedFilter}
    (same : r.Related ColumnTest.SameCondition r') (h : ∀ test ∈ r.tests, test.WritesName)
    (h' : ∀ test ∈ r'.tests, test.WritesName) :
    kinds (r.searchCondition d).tokens = kinds (r'.searchCondition d).tokens := by
  cases same with
  | empty => rfl
  | @chain first first' links links' condition rest =>
    have head := ColumnTest.kinds_searchCondition d condition (h first List.mem_cons_self)
      (h' first' List.mem_cons_self) 0
    have bound : first.bound = first'.bound := congrArg Condition.bound condition
    rw [searchCondition, searchCondition, bound]
    apply kinds_nest d rest
    · exact fun link mem => h _ (List.mem_cons_of_mem _ (List.mem_map_of_mem mem))
    · exact fun link mem => h' _ (List.mem_cons_of_mem _ (List.mem_map_of_mem mem))
    · exact head

end

/-- Filters that differ in names compile to texts whose tokens are of the same kinds. -/
theorem Filter.Renamed.compile {t t' : Table} (engine : t.engine = t'.engine) {f f' : Filter}
    (h : f.Renamed t t' f') :
    ∃ c c', f.compile t = .ok c ∧ f'.compile t' = .ok c' ∧
      (f.WritesNames t → f'.WritesNames t' → ∃ ts us, Lexes c.condition ts ∧
        Lexes c'.condition us ∧ kinds ts = kinds us) := by
  obtain ⟨r, r', hr, hr', same⟩ := Filter.resolve_related Predicate.Renamed.resolve h
  have dialect : t.dialect = t'.dialect := congrArg Engine.dialect engine
  refine ⟨_, _, Filter.compile_of_resolve hr, Filter.compile_of_resolve hr', ?_⟩
  intro names names'
  have tests := names.tests hr
  have tests' := names'.tests hr'
  have text := r.lexes_compile t.usesAtSign fun test ht => (tests test ht).legible
  have text' := r'.lexes_compile t'.usesAtSign fun test ht => (tests' test ht).legible
  refine ⟨_, _, text, text', ?_⟩
  rw [dialect]
  exact ResolvedFilter.kinds_searchCondition t'.dialect same tests tests'

/-! ## Models -/

/-- Take two models that differ in names only, or that at least have tables of one engine with
as many columns and the identity in the same place, and two filters that differ in names only.
The names of tables and columns do not show in the kinds of the tokens of a template, nor do
the names of parameters and tested columns that are words, with a filter in its slot or
without. -/
theorem Model.renaming_keeps_kinds {m m' : Model} {engine : Engine}
    {override override' : Option String} {settings settings' : Settings} {t t' : Table}
    (built : m.build engine override settings = .ok t)
    (built' : m'.build engine override' settings' = .ok t')
    (marks : t.columns.map (·.identity) = t'.columns.map (·.identity))
    {f f' : Filter} (renamed : f.Renamed t t' f') :
    ∃ c c', f.compile t = .ok c ∧ f'.compile t' = .ok c' ∧
      (f.WritesNames t → f'.WritesNames t' →
        tokenKinds c.condition = tokenKinds c'.condition) ∧
      ∀ kind template, t.template? kind = some template →
        ∃ template', t'.template? kind = some template' ∧
          (t.WritesNames kind → t'.WritesNames kind →
            tokenKinds template.text = tokenKinds template'.text) ∧
          ∀ s, template.splice c = .ok s → ∃ s', template'.splice c' = .ok s' ∧
            (t.WritesNames kind → t'.WritesNames kind → f.WritesNames t → f'.WritesNames t' →
              tokenKinds s.text = tokenKinds s'.text) := by
  have wellFormed := m.build_wellFormed built
  have wellFormed' := m'.build_wellFormed built'
  have alike : t.Alike t' := ⟨by rw [m.build_engine built, m'.build_engine built'], marks⟩
  obtain ⟨c, c', hc, hc', texts⟩ := renamed.compile alike.engine
  refine ⟨c, c', hc, hc', ?_, ?_⟩
  · intro names names'
    obtain ⟨ts, us, text, text', same⟩ := texts names names'
    rw [text.tokenKinds_eq, text'.tokenKinds_eq, same]
  intro kind template present
  obtain ⟨template', present'⟩ : ∃ template', t'.template? kind = some template' := by
    rw [← Option.isSome_iff_exists, ← alike.template?_isSome, present]
    rfl
  refine ⟨template', present', ?_, ?_⟩
  · intro fields fields'
    have text := (Table.lexes_template wellFormed present fields.parameters).tokenKinds_eq
    have text' := (Table.lexes_template wellFormed' present' fields'.parameters).tokenKinds_eq
    rw [text, text']
    exact alike.kinds_templateTokens wellFormed wellFormed' fields fields' rfl
  · intro s spliced
    obtain ⟨s', spliced'⟩ := Table.splice_of_kind present spliced present' c'
    refine ⟨s', spliced', fun fields fields' names names' => ?_⟩
    obtain ⟨ts, us, condition, condition', same⟩ := texts names names'
    have text := (Table.lexes_spliced wellFormed present fields.parameters condition
      spliced).tokenKinds_eq
    have text' := (Table.lexes_spliced wellFormed' present' fields'.parameters condition'
      spliced').tokenKinds_eq
    rw [text, text']
    exact alike.kinds_templateTokens wellFormed wellFormed' fields fields' same

/-- A model with names to be given. -/
def priceModel (table identity amount column : String) : Model where
  name := "Price"
  table := some table
  fields := [
    { name := identity, type := .long, identity := true },
    { name := amount, type := .int, column := some column }]

def priceTable (table identity amount column : String) : Table where
  model := "Price"
  name := table
  quotedName := Engine.sqlite.dialect.quoteIdentifier table
  engine := .sqlite
  columns := [
    { field := identity, name := identity
      quoted := Engine.sqlite.dialect.quoteIdentifier identity, type := .long
      native := "INTEGER", nullable := false, identity := true },
    { field := amount, name := column
      quoted := Engine.sqlite.dialect.quoteIdentifier column, type := .int
      native := "INTEGER", nullable := false, identity := false }]
  ignored := []

/-- Names that hold marks or blanks, in quotes, do not show. -/
theorem Model.renaming_keeps_kinds_price :
    let t := priceTable "Price" "Id" "Amount" "Amount"
    let t' := priceTable "x]; DROP TABLE y; --" "Row" "Sum" "the row's [net] amount"
    let f : Filter := .ofPredicate ⟨"Id", .comparison .equal (.int 7)⟩
    let f' : Filter := .ofPredicate ⟨"Row", .comparison .equal (.int 7)⟩
    ∃ c c', f.compile t = .ok c ∧ f'.compile t' = .ok c' ∧
      tokenKinds c.condition = tokenKinds c'.condition ∧
      tokenKinds t.insertTemplate.text = tokenKinds t'.insertTemplate.text ∧
      ∃ s s', t.selectTemplate.splice c = .ok s ∧ t'.selectTemplate.splice c' = .ok s' ∧
        tokenKinds s.text = tokenKinds s'.text := by
  intro t t' f f'
  have built : (priceModel "Price" "Id" "Amount" "Amount").build .sqlite = .ok t :=
    ok_of_toOption (by decide +kernel)
  have built' : (priceModel "x]; DROP TABLE y; --" "Row" "Sum" "the row's [net] amount").build
      .sqlite = .ok t' := ok_of_toOption (by decide +kernel)
  have renamed : f.Renamed t t' f' := .cons ⟨rfl, rfl, ⟨_, rfl⟩, ⟨_, rfl⟩⟩ .nil
  have names : f.WritesNames t := by
    intro p mem _ c hc
    obtain rfl := List.mem_singleton.mp mem
    cases hc
    decide
  have names' : f'.WritesNames t' := by
    intro p mem _ c hc
    obtain rfl := List.mem_singleton.mp mem
    cases hc
    decide
  obtain ⟨c, c', hc, hc', conditions, templates⟩ :=
    renaming_keeps_kinds built built' rfl renamed
  obtain ⟨_, present, inserts, -⟩ := templates .insert _ rfl
  cases present
  obtain ⟨_, present, -, selects⟩ := templates .select _ rfl
  cases present
  obtain ⟨s', spliced', texts⟩ := selects _ (t.splice_selectTemplate c)
  have words : ∀ c ∈ t.columns, IsWord c.field := by decide
  have words' : ∀ c ∈ t'.columns, IsWord c.field := by decide
  have fields : t.WritesNames .insert := by
    refine ⟨words, ?_⟩
    rintro - c ⟨⟩
    decide
  have fields' : t'.WritesNames .insert := by
    refine ⟨words', ?_⟩
    rintro - c ⟨⟩
    decide
  have free (t : Table) : t.WritesNames .select := ⟨trivial, nofun⟩
  exact ⟨c, c', hc, hc', conditions names names', inserts fields fields', _, s',
    t.splice_selectTemplate c, spliced', texts (free t) (free t') names names'⟩

/-- Names that are written bare and are not words show: that of a tested column and that of a
parameter. -/
theorem Model.bare_names_change_kinds :
    let plain := priceTable "Price" "Id" "Amount" "Amount"
    let column := priceTable "Price" "Id" "Amount" "Net Amount"
    let field := priceTable "Price" "Id" "Net Amount" "Amount"
    let f : Filter := .ofPredicate ⟨"Amount", .comparison .equal (.int 5)⟩
    (priceModel "Price" "Id" "Amount" "Amount").build .sqlite = .ok plain ∧
    (priceModel "Price" "Id" "Amount" "Net Amount").build .sqlite = .ok column ∧
    (priceModel "Price" "Id" "Net Amount" "Amount").build .sqlite = .ok field ∧
    (∀ t ∈ [column, field],
      plain.columns.map (·.identity) = t.columns.map (·.identity)) ∧
    f.Renamed plain column f ∧
    (∃ c c', f.compile plain = .ok c ∧ f.compile column = .ok c' ∧
      tokenKinds c.condition ≠ tokenKinds c'.condition) ∧
    tokenKinds plain.insertAllTemplate.text ≠ tokenKinds field.insertAllTemplate.text := by
  intro plain column field f
  have renamed : f.Renamed plain column f := .cons ⟨rfl, rfl, ⟨_, rfl⟩, ⟨_, rfl⟩⟩ .nil
  have marks : ∀ t ∈ [column, field],
      plain.columns.map (·.identity) = t.columns.map (·.identity) := by
    decide
  refine ⟨ok_of_toOption (by decide +kernel), ok_of_toOption (by decide +kernel),
    ok_of_toOption (by decide +kernel), marks, renamed, ⟨_, _, rfl, rfl, ?_⟩, ?_⟩
  · decide +kernel
  · decide +kernel

end ModelSql
