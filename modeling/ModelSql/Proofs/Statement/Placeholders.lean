import ModelSql.Proofs.Statement.ParameterNames
import ModelSql.Proofs.Statement.Tokens
/-!
# Placeholders of statements

A statement is read from the left: the parameters in its text are the names under
which values are bound, in order. Only an insert that reports through a table
variable names that variable as well, twice before the others and once after.

* `Table.parametersOf_insertReturningIdentity`, `Table.parametersOf_update`: the
  parameters among the tokens of statements;
* `Table.statements_line_up`: templates, spliced templates, inserts and updates.
-/

namespace ModelSql

open Sql

/-! ## Parameters among tokens -/

theorem parametersOf_tuple {α : Type} (token : α → Token) (items : List α) :
    parametersOf (tupleTokens token items) = items.flatMap fun a => parametersOf [token a] := by
  simp [tupleTokens, listTokens, parametersOf_intercalate]

namespace Table

variable (t : Table) (columns : List Column)

theorem parametersOf_columnList : parametersOf (tupleTokens Column.token columns) = [] := by
  rw [parametersOf_tuple]
  exact List.flatMap_eq_nil_iff.mpr fun _ _ => rfl

theorem parametersOf_valueList :
    parametersOf (tupleTokens t.parameterToken columns) = t.dialect.parameters columns := by
  rw [parametersOf_tuple]
  exact List.map_eq_flatMap.symm

theorem parametersOf_insert :
    parametersOf (t.insertTokens columns) = t.dialect.parameters columns := by
  unfold insertTokens
  split
  · rename_i empty
    rw [List.isEmpty_iff.mp empty]
    rfl
  · simp [token, parametersOf_columnList, parametersOf_valueList]

theorem parametersOf_insertThroughVariable (identity : Column) :
    parametersOf (t.insertThroughVariableTokens columns identity) =
      insertedIds :: insertedIds :: t.dialect.parameters columns ++ [insertedIds] := by
  unfold insertThroughVariableTokens
  split
  · rename_i empty
    rw [List.isEmpty_iff.mp empty]
    rfl
  · simp [token, Column.token, parametersOf_columnList, parametersOf_valueList]

/-- The readback through a table variable adds the variable. -/
theorem parametersOf_insertReturningIdentity (identity : Column) :
    parametersOf (t.insertReturningIdentityTokens columns identity) =
      if t.engine = .sqlServer then
        insertedIds :: insertedIds :: t.dialect.parameters columns ++ [insertedIds]
      else t.dialect.parameters columns := by
  cases engine : t.engine <;>
    simp [insertReturningIdentityTokens, engine, parametersOf_insert,
      parametersOf_insertThroughVariable]

theorem parametersOf_insertExplicitIdentity (statement : List Token) :
    parametersOf (t.insertExplicitIdentityTokens statement) = parametersOf statement := by
  unfold insertExplicitIdentityTokens
  split <;> simp [token]

theorem parametersOf_update (condition : List Token) :
    parametersOf (t.updateTokens columns condition) =
      t.dialect.parameters columns ++ parametersOf condition := by
  have assigned : parametersOf (listTokens (fun c => [c.token, .sign "=", t.parameterToken c])
      columns) = t.dialect.parameters columns := by
    rw [listTokens, parametersOf_intercalate]
    exact List.map_eq_flatMap.symm
  simp [updateTokens, assigned, token]

theorem parametersOf_select (condition : List Token) :
    parametersOf (t.selectTokens condition) = parametersOf condition := by
  simp [selectTokens, listTokens, parametersOf_intercalate, token, Column.token]

theorem parametersOf_delete (condition : List Token) :
    parametersOf (t.deleteTokens condition) = parametersOf condition := by
  simp [deleteTokens, token]

end Table

/-! ## Statements -/

/-- A name of ASCII letters, digits and underscores. -/
def Sql.isPlainName (name : String) : Bool :=
  name ≠ "" && name.toList.all fun c => c.isAlphanum || c = '_'

theorem Sql.isWord_of_isPlainName {name : String} (h : isPlainName name = true) : IsWord name := by
  simp only [isPlainName, Bool.and_eq_true, decide_eq_true_eq, List.all_eq_true,
    Bool.or_eq_true] at h
  obtain ⟨nonempty, plain⟩ := h
  refine ⟨nonempty, fun c hc => ?_⟩
  obtain alphanumeric | rfl := plain c hc
  · simp only [Char.isAlphanum, Bool.or_eq_true] at alphanumeric
    obtain letter | digit := alphanumeric
    · simp [isWordChar, isLetter, letter]
    · simp [isWordChar, digit]
  · rfl

/-- All names under which values are bound. -/
def Statement.names (s : Statement) : List String := s.parameterNames ++ s.parameters.names

/-- The parameters in the text are the names, in order. Where the statement reports through
a table variable, they stand between two occurrences of the variable and a third one. -/
def Statement.LinesUp (throughVariable : Bool) (s : Statement) : Prop :=
  placeholders s.text =
    if throughVariable then insertedIds :: insertedIds :: s.names ++ [insertedIds] else s.names

/-- A generated identity is reported through a table variable. -/
def Table.reportsThroughVariable (t : Table) : Bool :=
  t.engine = .sqlServer && t.identity?.isSome

theorem Table.reportsThroughVariable_of_none {t : Table} (h : t.identity? = none) :
    t.reportsThroughVariable = false := by
  simp [reportsThroughVariable, h]

theorem Table.reportsThroughVariable_of_some {t : Table} {identity : Column}
    (h : t.identity? = some identity) :
    t.reportsThroughVariable = decide (t.engine = .sqlServer) := by
  rw [reportsThroughVariable, h]
  exact Bool.and_true _

theorem Sql.Lexes.placeholders_eq {text : String} {ts : List Token} (h : Lexes text ts) :
    placeholders text = parametersOf ts := by
  rw [placeholders, h.tokens_eq]

/-- The placeholders of a compiled filter are its names. -/
theorem Filter.lexes_compile {t : Table} {f : Filter} {c : CompiledFilter}
    (h : f.compile t = .ok c) (names : ∀ c ∈ t.columns, IsWord c.name) :
    ∃ ts, Lexes c.condition ts ∧ parametersOf ts = c.parameters.names := by
  obtain ⟨r, resolved, rfl⟩ := f.compile_ok h
  have columns := Filter.resolve_columns resolved
  refine ⟨_, r.lexes_compile t.usesAtSign fun test ht _ => names _ (columns test ht), ?_⟩
  rw [SearchCondition.parametersOf_tokens, r.placeholders_searchCondition]

theorem Template.statement_names (template : Template) :
    template.statement.names = template.parameterNames := List.append_nil _

/-- A condition without parameters leaves those of the template. -/
theorem Table.parametersOf_templateTokens {t : Table} {kind : TemplateKind} {template : Template}
    (present : t.template? kind = some template) {condition : List Token}
    (bare : parametersOf condition = []) :
    parametersOf (t.templateTokens condition kind) =
      if kind == .insert && t.reportsThroughVariable then
        insertedIds :: insertedIds :: template.parameterNames ++ [insertedIds]
      else template.parameterNames := by
  cases kind with
  | select =>
    obtain rfl := Option.some.inj present
    rw [templateTokens, parametersOf_select, bare]
    rfl
  | insert =>
    obtain rfl := Option.some.inj present
    cases hi : t.identity? with
    | none =>
      simp only [templateTokens, hi, parametersOf_insert, reportsThroughVariable_of_none hi]
      rfl
    | some identity =>
      simp only [templateTokens, hi, parametersOf_insertReturningIdentity,
        reportsThroughVariable_of_some hi, decide_eq_true_eq, beq_self_eq_true, Bool.true_and]
      rfl
  | insertAll =>
    obtain rfl := Option.some.inj present
    have insert := t.parametersOf_insert t.columns
    rw [templateTokens]
    split
    · exact (t.parametersOf_insertExplicitIdentity _).trans insert
    · exact insert
  | updateByIdentity =>
    obtain ⟨identity, hi, rfl⟩ := updateByIdentityTemplate?_eq_some present
    simp only [templateTokens, hi, parametersOf_update]
    rfl
  | updateAll =>
    obtain ⟨-, rfl⟩ := updateAllTemplate?_eq_some present
    rw [templateTokens, parametersOf_update, bare, List.append_nil]
    rfl
  | delete =>
    obtain rfl := Option.some.inj present
    rw [templateTokens, parametersOf_delete, bare]
    rfl

section
variable {t : Table} (h : t.Legible)
include h

theorem Table.Legible.insert_lines_up {columns : List Column} (hc : ∀ c ∈ columns, c ∈ t.columns) :
    placeholders (t.dialect.insert t.quotedName columns) = t.dialect.parameters columns := by
  rw [(opens_insert h.wellFormed hc (h.fields hc)).lexes.placeholders_eq, t.parametersOf_insert]

theorem Table.Legible.insertReturningIdentity_lines_up {columns : List Column}
    (hc : ∀ c ∈ columns, c ∈ t.columns) {identity : Column} (hi : t.identity? = some identity) :
    placeholders (t.dialect.insertReturningIdentity t.quotedName columns identity) =
      if t.reportsThroughVariable then
        insertedIds :: insertedIds :: t.dialect.parameters columns ++ [insertedIds]
      else t.dialect.parameters columns := by
  obtain ⟨mem, marked⟩ := t.mem_of_identity? hi
  have text := opens_insertReturningIdentity h.wellFormed hc (h.fields hc) mem marked
    (h.field identity mem)
  rw [text.lexes.placeholders_eq, t.parametersOf_insertReturningIdentity,
    reportsThroughVariable_of_some hi]
  simp only [decide_eq_true_eq]

theorem Table.Legible.insertExplicitIdentity_lines_up {columns : List Column}
    (hc : ∀ c ∈ columns, c ∈ t.columns) :
    placeholders (t.dialect.insertExplicitIdentity t.quotedName
      (t.dialect.insert t.quotedName columns)) = t.dialect.parameters columns := by
  have insert := opens_insert h.wellFormed hc (h.fields hc)
  have statement := opens_insertExplicitIdentity h.wellFormed insert
  rw [statement.lexes.placeholders_eq, t.parametersOf_insertExplicitIdentity, t.parametersOf_insert]

theorem Table.Legible.update_lines_up {columns : List Column} (hc : ∀ c ∈ columns, c ∈ t.columns)
    {condition : String} {ts : List Token} (hw : Lexes condition ts) :
    placeholders (t.dialect.update t.quotedName columns condition) =
      t.dialect.parameters columns ++ parametersOf ts := by
  rw [(opens_update h.wellFormed hc (h.fields hc) hw).lexes.placeholders_eq, t.parametersOf_update]

theorem Table.Legible.writesWords (kind : TemplateKind) : t.WritesWords kind := by
  cases kind with
  | select | delete => trivial
  | insert | insertAll | updateByIdentity => exact h.field
  | updateAll => exact h.fields fun _ => t.mem_of_updatableColumns

/-- Templates as they stand. -/
theorem Table.Legible.template_lines_up {kind : TemplateKind} {template : Template}
    (present : t.template? kind = some template) :
    template.statement.LinesUp (kind == .insert && t.reportsThroughVariable) := by
  have text := Table.lexes_template h.wellFormed present (h.writesWords kind)
  rw [Statement.LinesUp, Template.statement_names]
  exact text.placeholders_eq.trans (Table.parametersOf_templateTokens present rfl)

/-- Templates with a compiled filter in their slot. -/
theorem Table.Legible.splice_lines_up {kind : TemplateKind} {template : Template}
    (present : t.template? kind = some template) {c : CompiledFilter} {ts : List Token}
    (hw : Lexes c.condition ts) (hn : parametersOf ts = c.parameters.names) {s : Statement}
    (spliced : template.splice c = .ok s) : s.LinesUp false := by
  have text := Table.lexes_spliced h.wellFormed present (h.writesWords kind) hw spliced
  rw [Statement.LinesUp, text.placeholders_eq]
  obtain ⟨rfl, rfl⟩ | ⟨rfl, rfl⟩ | ⟨rfl, rfl⟩ := Table.splice_ok present spliced
  · rw [Table.templateTokens, t.parametersOf_select, hn]
    rfl
  · rw [Table.templateTokens, t.parametersOf_update, hn]
    rfl
  · rw [Table.templateTokens, t.parametersOf_delete, hn]
    rfl

theorem Table.Legible.insertAssigned_lines_up {assignments : List Assignment}
    (hc : ∀ c ∈ assignedColumns assignments, c ∈ t.columns) :
    (t.insertAssigned assignments).LinesUp
      (t.reportsThroughVariable && !(assignedColumns assignments).any (·.identity)) := by
  have names : (t.insertAssigned assignments).names =
      t.dialect.parameters (assignedColumns assignments) := t.dialect.bind_names assignments
  rw [Statement.LinesUp, names]
  cases hi : t.identity? with
  | none =>
    rw [reportsThroughVariable_of_none hi]
    simpa only [insertAssigned, hi, Bool.false_and, Bool.false_eq_true, if_false]
      using h.insert_lines_up hc
  | some identity =>
    simp only [insertAssigned, hi]
    split
    · rename_i supplied
      simpa only [supplied, Bool.not_true, Bool.and_false, Bool.false_eq_true, if_false]
        using h.insertExplicitIdentity_lines_up hc
    · rename_i generated
      have text := h.insertReturningIdentity_lines_up hc hi
      simpa only [generated, Bool.not_false, Bool.and_true] using text

theorem Table.Legible.updateAssigned_lines_up {assignments : List Assignment}
    (hc : ∀ c ∈ assignedColumns assignments, c ∈ t.columns) {c : CompiledFilter} {ts : List Token}
    (hw : Lexes c.condition ts) (hn : parametersOf ts = c.parameters.names) :
    (t.updateAssigned assignments c).LinesUp false := by
  have text := h.update_lines_up hc hw
  rw [hn, ← t.dialect.bind_names, ← Parameters.append_names] at text
  exact text

end

/-- In every statement on a built table with plain names, the parameters in the text are the
names under which values are bound. -/
theorem Table.statements_line_up {m : Model} {engine : Engine} {override : Option String}
    {settings : Settings} {t : Table} (built : m.build engine override settings = .ok t)
    (plain : ∀ c ∈ t.columns, isPlainName c.field = true ∧ isPlainName c.name = true) :
    (∀ kind template, t.template? kind = some template →
      template.statement.LinesUp (kind == .insert && t.reportsThroughVariable)) ∧
    (∀ kind template, t.template? kind = some template →
      ∀ (t' : Table) (f : Filter) compiled s, (∀ c ∈ t'.columns, isPlainName c.name = true) →
        f.compile t' = .ok compiled → template.splice compiled = .ok s → s.LinesUp false) ∧
    (∀ p s, Payload.insert p t = .ok s → ∃ assignments, p.assignments t = .ok assignments ∧
      s.LinesUp (t.reportsThroughVariable && !(assignedColumns assignments).any (·.identity))) ∧
    (∀ p f s, Payload.update p t f = .ok s → s.LinesUp false) := by
  have legible : t.Legible :=
    ⟨Model.build_wellFormed built, fun c hc => isWord_of_isPlainName (plain c hc).1⟩
  refine ⟨?_, ?_, ?_, ?_⟩
  · intro kind template present
    exact legible.template_lines_up present
  · intro kind template present t' f compiled s names hcompiled spliced
    obtain ⟨ts, hw, hn⟩ := f.lexes_compile hcompiled fun c hc => isWord_of_isPlainName (names c hc)
    exact legible.splice_lines_up present hw hn spliced
  · intro p s inserted
    obtain ⟨assignments, hassignments, rfl⟩ := p.insert_ok inserted
    exact ⟨assignments, hassignments,
      legible.insertAssigned_lines_up (p.assignedColumns_mem hassignments)⟩
  · intro p f s updated
    obtain ⟨assignments, compiled, hassignments, hcompiled, rfl⟩ := p.update_ok updated
    obtain ⟨ts, hw, hn⟩ := f.lexes_compile hcompiled fun c hc =>
      isWord_of_isPlainName (plain c hc).2
    exact legible.updateAssigned_lines_up (p.assignedColumns_mem hassignments) hw hn

theorem Table.statements_line_up_invoice :
    invoiceTable.insertTemplate.statement.LinesUp true ∧
    ∃ s, Payload.update ⟨[("Note", .null)], by decide⟩ invoiceTable
        (.ofPredicate ⟨"Total", .membership .isIn [.int 1, .int 2]⟩) = .ok s ∧
      s.LinesUp false ∧ s.names = ["@Note", "@p0", "@p1"] := by
  have plain : ∀ c ∈ invoiceTable.columns,
      isPlainName c.field = true ∧ isPlainName c.name = true := by decide
  obtain ⟨templates, -, -, updates⟩ := statements_line_up build_invoice plain
  have inserts := templates .insert _ rfl
  refine ⟨inserts, _, rfl, ?_, rfl⟩
  exact updates ⟨[("Note", .null)], by decide⟩
    (.ofPredicate ⟨"Total", .membership .isIn [.int 1, .int 2]⟩) _ rfl

end ModelSql
