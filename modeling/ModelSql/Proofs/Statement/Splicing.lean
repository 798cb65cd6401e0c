import ModelSql.Proofs.Statement.Slot
import ModelSql.Proofs.Table.WellFormed
/-!
# Splicing filters

The place of a filter is found by a search for the last occurrence of the condition in the
text of a template. The names in the text may contain the condition as well, but they all
stand before it, so the search finds the condition of the template.

* `Text.splitAtLast?_eq_some`: the search finds the last occurrence;
* `Table.exists_head`: the templates with a condition end in it;
* `Table.splice_replaces_condition`: a filter replaces just the condition.
-/

namespace ModelSql

/-! ## The last occurrence -/

namespace Text

theorem dropPattern?_eq_some_iff {pattern text rest : List Char} :
    dropPattern? pattern text = some rest ↔ text = pattern ++ rest := by
  induction pattern generalizing text with
  | nil => simp [dropPattern?]
  | cons p pattern ih =>
    cases text with
    | nil => simp [dropPattern?]
    | cons c text =>
      by_cases same : p = c
      · simp [dropPattern?, same, ih]
      · have other : ¬ c = p := fun h => same h.symm
        simp [dropPattern?, same, other]

theorem dropPattern?_eq_none {pattern text : List Char} (h : dropPattern? pattern text = none)
    (rest : List Char) : text ≠ pattern ++ rest := by
  intro same
  rw [dropPattern?_eq_some_iff.mpr same] at h
  cases h

theorem splitLast?_eq_none {pattern text : List Char} (h : splitLast? pattern text = none)
    (before after : List Char) : text ≠ before ++ pattern ++ after := by
  induction text generalizing before with
  | nil =>
    intro same
    obtain ⟨rfl, none, rest⟩ : before = [] ∧ pattern = [] ∧ after = [] := by simpa using same
    exact dropPattern?_eq_none (Option.map_eq_none_iff.mp h) after (by rw [none, rest]; rfl)
  | cons c text ih =>
    unfold splitLast? at h
    split at h
    · cases h
    · rename_i nowhere
      cases before with
      | nil => exact dropPattern?_eq_none (Option.map_eq_none_iff.mp h) after
      | cons b before =>
        intro same
        exact ih nowhere before (List.cons.inj same).2

/-- The search finds an occurrence, and none starts later. -/
theorem splitLast?_eq_some {pattern text before after : List Char}
    (h : splitLast? pattern text = some (before, after)) :
    text = before ++ pattern ++ after ∧
    ∀ first last, text = first ++ pattern ++ last → first.length ≤ before.length := by
  induction text generalizing before with
  | nil =>
    obtain ⟨rest, found, same⟩ := Option.map_eq_some_iff.mp h
    cases same
    refine ⟨dropPattern?_eq_some_iff.mp found, fun first last same => ?_⟩
    obtain ⟨rfl, -⟩ : first = [] ∧ pattern = [] ∧ last = [] := by simpa using same
    exact Nat.le_refl _
  | cons c text ih =>
    unfold splitLast? at h
    split at h
    · rename_i before' after' later
      cases h
      obtain ⟨there, latest⟩ := ih later
      refine ⟨congrArg (c :: ·) there, fun first last same => ?_⟩
      cases first with
      | nil => exact Nat.zero_le _
      | cons b first => exact Nat.succ_le_succ (latest first last (List.cons.inj same).2)
    · rename_i nowhere
      obtain ⟨rest, found, same⟩ := Option.map_eq_some_iff.mp h
      cases same
      refine ⟨dropPattern?_eq_some_iff.mp found, fun first last same => ?_⟩
      cases first with
      | nil => exact Nat.le_refl _
      | cons b first => exact absurd (List.cons.inj same).2 (splitLast?_eq_none nowhere first last)

theorem splitAtLast?_eq_some {pattern text before after : String}
    (h : splitAtLast? pattern text = some (before, after)) :
    text = before ++ pattern ++ after ∧
    ∀ first last, text = first ++ pattern ++ last → first.length ≤ before.length := by
  obtain ⟨⟨head, tail⟩, found, same⟩ := Option.map_eq_some_iff.mp h
  cases same
  obtain ⟨there, latest⟩ := splitLast?_eq_some found
  constructor
  · apply String.toList_inj.mp
    simpa only [String.toList_append, String.toList_ofList] using there
  · rintro first last rfl
    have bound := latest first.toList last.toList (by simp only [String.toList_append])
    simpa only [String.length_ofList, String.length_toList] using bound

end Text

/-! ## Templates -/

/-- The keyword before the condition of a template, with what separates it, and the condition.
Some templates have none that a filter could replace. -/
def TemplateKind.condition? : TemplateKind → Option (String × String)
  | .select | .updateAll => some ("\nWHERE\n    ", everyRow)
  | .delete => some (" WHERE ", everyRowOfDelete)
  | .insert | .insertAll | .updateByIdentity => none

theorem TemplateKind.splitAtLast?_condition {kind : TemplateKind} {keyword condition : String}
    (h : kind.condition? = some (keyword, condition)) :
    Text.splitAtLast? condition (condition ++ ";") = some ("", ";") := by
  cases kind <;> cases h
  case select | updateAll => exact splitAtLast?_everyRow
  case delete => exact splitAtLast?_everyRowOfDelete

namespace Table

variable {t : Table} {kind : TemplateKind} {template : Template}
  (present : t.template? kind = some template)
include present

/-- A template with a condition ends in it. -/
theorem exists_head {keyword condition : String}
    (h : kind.condition? = some (keyword, condition)) :
    ∃ head names, template =
      .filterable kind (head ++ keyword ++ condition ++ ";") condition names := by
  cases kind <;> cases h
  case select =>
    cases present
    exact ⟨_, _, rfl⟩
  case updateAll =>
    obtain ⟨-, rfl⟩ := updateAllTemplate?_eq_some present
    exact ⟨_, _, rfl⟩
  case delete =>
    cases present
    exact ⟨_, _, rfl⟩

theorem splice_of_no_condition (h : kind.condition? = none) (c : CompiledFilter) :
    template.splice c = .error (.noFilterSlot kind) := by
  cases kind <;> cases h
  case insert | insertAll =>
    cases present
    rfl
  case updateByIdentity =>
    obtain ⟨identity, -, rfl⟩ := updateByIdentityTemplate?_eq_some present
    rfl

end Table

/-- A filter replaces the condition of a template, which is the last occurrence of its text
whatever the names before it are, and nothing else. The empty filter puts the condition of the
templates of select and update back. The other templates take no filter. -/
theorem Table.splice_replaces_condition (t : Table) (c : CompiledFilter) :
    (∀ kind ∈ [TemplateKind.select, .insert, .insertAll, .delete], (t.template? kind).isSome) ∧
    ∀ kind template, t.template? kind = some template →
      (∀ keyword condition, kind.condition? = some (keyword, condition) → ∃ head,
        template.text = head ++ keyword ++ condition ++ ";" ∧
        template.slot = some (head ++ keyword, ";") ∧
        (∀ before after, template.text = before ++ condition ++ after →
          before.length ≤ (head ++ keyword).length) ∧
        template.splice c = .ok {
          text := head ++ keyword ++ c.condition ++ ";"
          parameterNames := template.parameterNames
          parameters := c.parameters }) ∧
      (kind = .select ∨ kind = .updateAll → ∃ empty s, Filter.empty.compile t = .ok empty ∧
        template.splice empty = .ok s ∧ s.text = template.text) ∧
      (kind.condition? = none → template.splice c = .error (.noFilterSlot kind)) := by
  refine ⟨by simp [template?], fun kind template present => ⟨?_, ?_, ?_⟩⟩
  · intro keyword condition h
    obtain ⟨head, names, rfl⟩ := exists_head present h
    have last := kind.splitAtLast?_condition h
    have slot : (Template.filterable kind (head ++ keyword ++ condition ++ ";") condition
        names).slot = some (head ++ keyword, ";") := Template.slot_filterable last _
    refine ⟨head, rfl, slot, (Text.splitAtLast?_eq_some slot).2, ?_⟩
    exact Template.splice_filterable last (head ++ keyword) c
  · intro plain
    have h : kind.condition? = some ("\nWHERE\n    ", everyRow) := by
      obtain rfl | rfl := plain <;> rfl
    obtain ⟨head, names, rfl⟩ := exists_head present h
    exact ⟨_, _, rfl, Template.splice_filterable splitAtLast?_everyRow _ _, rfl⟩
  · exact fun h => splice_of_no_condition present h c

/-- A model whose names contain conditions. -/
def conditionModel : Model where
  name := "1 = 1"
  table := some "x WHERE 1=1"
  fields := [{ name := "WHERE 1 = 1;", type := .int }]

def conditionTable : Table where
  model := "1 = 1"
  name := "x WHERE 1=1"
  quotedName := "[x WHERE 1=1]"
  engine := .sqlite
  columns := [
    { field := "WHERE 1 = 1;", name := "WHERE 1 = 1;", quoted := "[WHERE 1 = 1;]", type := .int
      native := "INTEGER", nullable := false, identity := false }]
  ignored := []

theorem Table.splice_replaces_condition_names :
    conditionModel.build .sqlite = .ok conditionTable ∧
    conditionTable.template? .delete = some conditionTable.deleteTemplate ∧
    ∃ s, conditionTable.deleteTemplate.splice { condition := "x = @p0" } = .ok s ∧
      s.text = "DELETE FROM [x WHERE 1=1] WHERE x = @p0;" ∧
      conditionTable.insertTemplate.splice { condition := "x = @p0" } =
        .error (.noFilterSlot .insert) := by
  have replaces := (splice_replaces_condition conditionTable { condition := "x = @p0" }).2
  obtain ⟨head, text, slot, -, spliced⟩ := (replaces .delete _ rfl).1 _ _ rfl
  refine ⟨ok_of_toOption (by decide +kernel), rfl, _, spliced, ?_, (replaces .insert _ rfl).2.2 rfl⟩
  have own : conditionTable.deleteTemplate.slot =
      some ("DELETE FROM [x WHERE 1=1] WHERE ", ";") := by decide +kernel
  have before : head ++ " WHERE " = "DELETE FROM [x WHERE 1=1] WHERE " :=
    congrArg Prod.fst (Option.some.inj (slot.symm.trans own))
  rw [before]
  rfl

end ModelSql
