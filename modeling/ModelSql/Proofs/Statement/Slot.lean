import ModelSql.Statement.Template
/-!
# Slots of templates

A template that ends in its condition and a semicolon is split at the condition,
even if names before it contain the same text: only the last occurrence counts.

* `Text.splitAtLast?_append`: what stands before a text does not move its last split;
* `Template.splice_filterable`: a filter takes the place of the condition;
* `Table.splice_selectTemplate`, `Table.splice_deleteTemplate`,
  `Table.splice_updateAllTemplate?`: the templates with a slot;
* `Table.splice_ok`: no other template takes a filter.
-/

namespace ModelSql

theorem Text.splitLast?_append {pattern text before after : List Char}
    (h : splitLast? pattern text = some (before, after)) (head : List Char) :
    splitLast? pattern (head ++ text) = some (head ++ before, after) := by
  induction head with
  | nil => exact h
  | cons c head ih => rw [List.cons_append, splitLast?, ih, List.cons_append]

theorem Text.splitAtLast?_append {pattern text before after : String}
    (h : splitAtLast? pattern text = some (before, after)) (head : String) :
    splitAtLast? pattern (head ++ text) = some (head ++ before, after) := by
  obtain ⟨⟨first, last⟩, found, same⟩ := Option.map_eq_some_iff.mp h
  obtain ⟨rfl, rfl⟩ : String.ofList first = before ∧ String.ofList last = after := by
    simpa using same
  simp only [splitAtLast?, String.toList_append, splitLast?_append found head.toList,
    Option.map_some, String.ofList_append, String.ofList_toList]

/-- The slot is the condition at the end. -/
theorem Template.slot_filterable {kind : TemplateKind} {placeholder : String} {names : List String}
    (h : Text.splitAtLast? placeholder (placeholder ++ ";") = some ("", ";")) (head : String) :
    (filterable kind (head ++ placeholder ++ ";") placeholder names).slot = some (head, ";") := by
  have slot := Text.splitAtLast?_append h head
  rwa [← String.append_assoc, String.append_empty] at slot

/-- A filter takes the place of the condition at the end. -/
theorem Template.splice_filterable {kind : TemplateKind} {placeholder : String}
    {names : List String}
    (h : Text.splitAtLast? placeholder (placeholder ++ ";") = some ("", ";")) (head : String)
    (c : CompiledFilter) :
    (filterable kind (head ++ placeholder ++ ";") placeholder names).splice c =
      .ok { text := head ++ c.condition ++ ";", parameterNames := names
            parameters := c.parameters } := by
  simp only [splice, Template.slot_filterable h head]
  rfl

theorem splitAtLast?_everyRow : Text.splitAtLast? everyRow (everyRow ++ ";") = some ("", ";") := by
  rfl

theorem splitAtLast?_everyRowOfDelete :
    Text.splitAtLast? everyRowOfDelete (everyRowOfDelete ++ ";") = some ("", ";") := by
  rfl

namespace Table

/-- Every column of the rows that meet `condition`. -/
def selectWhere (t : Table) (condition : String) : String :=
  let results := t.columns.map fun c =>
    "    " ++ t.quotedName ++ "." ++ c.quoted ++ " AS " ++ t.dialect.quoteAlias c.field
  "SELECT\n" ++ ",\n".intercalate results ++ "\nFROM " ++ t.quotedName ++
    "\nWHERE\n    " ++ condition ++ ";"

/-- The removal of the rows that meet `condition`. -/
def deleteWhere (t : Table) (condition : String) : String :=
  "DELETE FROM " ++ t.quotedName ++ " WHERE " ++ condition ++ ";"

/-- The template that updates by identity needs an identity. -/
theorem updateByIdentityTemplate?_eq_some {t : Table} {template : Template}
    (h : t.updateByIdentityTemplate? = some template) :
    ∃ identity, t.identity? = some identity ∧ template = {
      kind := .updateByIdentity
      text := t.dialect.update t.quotedName t.dataColumns
        (identity.quoted ++ " = " ++ t.dialect.parameter identity.field)
      parameterNames := t.dialect.parameters t.dataColumns ++
        [t.dialect.parameter identity.field] } := by
  unfold updateByIdentityTemplate? at h
  split at h
  · cases h
  · rename_i identity found
    split at h
    · cases h
    · exact ⟨identity, found, (Option.some.inj h).symm⟩

/-- The template that updates all records needs a column to assign. -/
theorem updateAllTemplate?_eq_some {t : Table} {template : Template}
    (h : t.updateAllTemplate? = some template) :
    t.updatableColumns ≠ [] ∧ template =
      .filterable .updateAll (t.dialect.update t.quotedName t.updatableColumns everyRow) everyRow
        (t.dialect.parameters t.updatableColumns) := by
  unfold updateAllTemplate? at h
  split at h
  · cases h
  · rename_i nonempty
    exact ⟨mt List.isEmpty_iff.mpr nonempty, (Option.some.inj h).symm⟩

variable (t : Table) (c : CompiledFilter)

theorem splice_selectTemplate :
    t.selectTemplate.splice c =
      .ok { text := t.selectWhere c.condition, parameters := c.parameters } :=
  Template.splice_filterable splitAtLast?_everyRow _ c

theorem splice_deleteTemplate :
    t.deleteTemplate.splice c =
      .ok { text := t.deleteWhere c.condition, parameters := c.parameters } :=
  Template.splice_filterable splitAtLast?_everyRowOfDelete _ c

theorem splice_updateAllTemplate? {template : Template}
    (h : t.updateAllTemplate? = some template) :
    template.splice c =
      .ok { text := t.dialect.update t.quotedName t.updatableColumns c.condition
            parameterNames := t.dialect.parameters t.updatableColumns
            parameters := c.parameters } := by
  obtain ⟨-, rfl⟩ := updateAllTemplate?_eq_some h
  exact Template.splice_filterable splitAtLast?_everyRow _ c

/-- The templates that a filter can restrict. -/
theorem splice_ok {t : Table} {kind : TemplateKind} {template : Template}
    (present : t.template? kind = some template) {c : CompiledFilter} {s : Statement}
    (spliced : template.splice c = .ok s) :
    (kind = .select ∧ s = { text := t.selectWhere c.condition, parameters := c.parameters }) ∨
    (kind = .updateAll ∧ s =
      { text := t.dialect.update t.quotedName t.updatableColumns c.condition
        parameterNames := t.dialect.parameters t.updatableColumns
        parameters := c.parameters }) ∨
    (kind = .delete ∧ s = { text := t.deleteWhere c.condition, parameters := c.parameters }) := by
  cases kind with
  | select =>
    obtain rfl := Option.some.inj present
    rw [t.splice_selectTemplate] at spliced
    exact .inl ⟨rfl, (Except.ok.inj spliced).symm⟩
  | insert =>
    obtain rfl := Option.some.inj present
    cases spliced
  | insertAll =>
    obtain rfl := Option.some.inj present
    cases spliced
  | updateByIdentity =>
    obtain ⟨identity, -, rfl⟩ := updateByIdentityTemplate?_eq_some present
    cases spliced
  | updateAll =>
    rw [t.splice_updateAllTemplate? c present] at spliced
    exact .inr (.inl ⟨rfl, (Except.ok.inj spliced).symm⟩)
  | delete =>
    obtain rfl := Option.some.inj present
    rw [t.splice_deleteTemplate] at spliced
    exact .inr (.inr ⟨rfl, (Except.ok.inj spliced).symm⟩)

/-- Whether a template takes a filter depends on its kind alone. -/
theorem splice_of_kind {t t' : Table} {kind : TemplateKind} {template template' : Template}
    (present : t.template? kind = some template) {c : CompiledFilter} {s : Statement}
    (spliced : template.splice c = .ok s) (present' : t'.template? kind = some template')
    (c' : CompiledFilter) : ∃ s', template'.splice c' = .ok s' := by
  obtain ⟨rfl, -⟩ | ⟨rfl, -⟩ | ⟨rfl, -⟩ := t.splice_ok present spliced
  · obtain rfl := Option.some.inj present'
    exact ⟨_, t'.splice_selectTemplate c'⟩
  · exact ⟨_, t'.splice_updateAllTemplate? c' present'⟩
  · obtain rfl := Option.some.inj present'
    exact ⟨_, t'.splice_deleteTemplate c'⟩

end Table

end ModelSql
