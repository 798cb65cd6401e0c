import ModelSql.Proofs.Sql.Clauses
import ModelSql.Proofs.Statement.TokenLists
import ModelSql.Proofs.Table.Columns
/-!
# Selects as maps of aliases

A select names every column of one table and gives each a label. It is read from its tokens
whatever the names and the labels are, so the select of a built table says which column each
field is stored in, and says nothing else: the engine leaves no trace in it.

* `Selection.read?`: the select that a list of tokens spells;
* `Selection.read?_tokens`: a select is read from its tokens;
* `parse?_selectWhere`: the select of a table is read as its columns under their fields;
* `Model.selectTemplate_maps_aliases`: what is read of the select of a built table.
-/

namespace ModelSql

open Sql

namespace Sql

/-- A column of a table, and its label in the result. -/
structure LabelledColumn where
  table : String
  column : String
  label : String
deriving DecidableEq, Repr

/-- Columns of the rows of one table that meet a condition. -/
structure Selection where
  columns : List LabelledColumn
  source : String
  condition : SearchCondition
deriving Repr

/-- The columns with their labels. -/
def Selection.aliases (s : Selection) : List (String × String) :=
  s.columns.map fun c => (c.column, c.label)

open Token

/-! ## Reading -/

def LabelledColumn.read? : List Token → Option LabelledColumn
  | [.quoted .bracket table, punctuation '.', .quoted .bracket column, word "AS",
      .quoted .apostrophe label] => some { table, column, label }
  | _ => none

def Selection.read? : List Token → Option Selection
  | word "SELECT" :: ts =>
    match afterWord "FROM" ts with
    | .quoted .bracket source :: word "WHERE" :: rest =>
      match rest.splitOn (punctuation ';') with
      | [condition, []] => do
        return {
          columns := ← readList? LabelledColumn.read? (upToWord ["FROM"] ts)
          source := source
          condition := ← SearchCondition.ofTokens condition }
      | _ => none
    | _ => none
  | _ => none

def Selection.parse? (text : String) : Option Selection := read? (tokens text)

/-! ## Reading what is written -/

def LabelledColumn.tokens (c : LabelledColumn) : List Token :=
  [.quoted .bracket c.table, punctuation '.', .quoted .bracket c.column, word "AS",
    .quoted .apostrophe c.label]

def Selection.tokens (s : Selection) : List Token :=
  word "SELECT" :: (listTokens LabelledColumn.tokens s.columns ++
    word "FROM" :: .quoted .bracket s.source :: word "WHERE" ::
      (s.condition.tokens ++ [punctuation ';']))

theorem LabelledColumn.read?_tokens (c : LabelledColumn) : read? c.tokens = some c := rfl

theorem notMem_wordsOf_list {α : Type} {item : α → List Token} {w : String}
    (absent : ∀ a, w ∉ wordsOf (item a)) (items : List α) : w ∉ wordsOf (listTokens item items) := by
  rw [wordsOf, listTokens, filterMap_intercalate rfl]
  intro mem
  obtain ⟨a, -, own⟩ := List.mem_flatMap.mp mem
  exact absent a own

/-- A condition is part of one sentence. -/
theorem notMem_conditionTokens (condition : SearchCondition) :
    punctuation ';' ∉ condition.tokens := by
  induction condition with
  | comparison column c placeholder => simp [SearchCondition.tokens]
  | membership column m placeholders =>
    have list : punctuation ';' ∉ listTokens (fun p => [parameter p]) placeholders :=
      notMem_listTokens (by decide) fun p => by simp
    rw [listTokens] at list
    cases m <;> simp [SearchCondition.tokens, SearchCondition.keywords, list]
  | nullTest column isNull => cases isNull <;> simp [SearchCondition.tokens]
  | constant b => simp [SearchCondition.tokens]
  | junction c left right ihl ihr => simp [SearchCondition.tokens, ihl, ihr]

/-- A select is read from its tokens. -/
theorem Selection.read?_tokens {s : Selection} (nonempty : s.columns ≠ [])
    (proper : s.condition.Proper) : read? s.tokens = some s := by
  obtain ⟨columns, source, condition⟩ := s
  have absent : "FROM" ∉ wordsOf (listTokens LabelledColumn.tokens columns) :=
    notMem_wordsOf_list (fun c => by simp [LabelledColumn.tokens]) columns
  have results : readList? LabelledColumn.read? (listTokens LabelledColumn.tokens columns) =
      some columns :=
    readList?_listTokens LabelledColumn.read?_tokens (fun c => by simp [LabelledColumn.tokens])
      nonempty
  have ends : (condition.tokens ++ [punctuation ';']).splitOn (punctuation ';') =
      [condition.tokens, []] := splitOn_append_cons (notMem_conditionTokens condition) []
  have before (rest : List Token) :
      upToWord ["FROM"] (listTokens LabelledColumn.tokens columns ++ word "FROM" :: rest) =
        listTokens LabelledColumn.tokens columns :=
    upToWord_append (by simpa using absent) (List.mem_singleton_self _)
  simp only [tokens, read?, afterWord_append absent, ends, before, results,
    SearchCondition.parse_tokens proper]
  rfl

end Sql

/-! ## Selects of tables -/

/-- The columns with the names of their fields. -/
def Table.aliases (t : Table) : List (String × String) := t.columns.map fun c => (c.name, c.field)

/-- The select of the table. -/
def Table.selection (t : Table) (condition : SearchCondition) : Selection where
  columns := t.aliases.map fun (column, label) => { table := t.name, column, label }
  source := t.name
  condition := condition

theorem Table.aliases_selection (t : Table) (condition : SearchCondition) :
    (t.selection condition).aliases = t.aliases := by
  rw [Selection.aliases, selection, List.map_map]
  exact List.map_id _

theorem Table.selection_tokens (t : Table) (condition : SearchCondition) :
    (t.selection condition).tokens = t.selectTokens condition.tokens := by
  have columns : listTokens LabelledColumn.tokens (t.selection condition).columns =
      listTokens (fun c : Column => [t.token, .punctuation '.', c.token, .word "AS",
        .quoted .apostrophe c.field]) t.columns := by
    rw [listTokens, listTokens, selection, aliases, List.map_map, List.map_map]
    rfl
  rw [Selection.tokens, selectTokens, columns]
  simp only [selection, token, List.append_assoc, List.cons_append, List.nil_append]

section
variable {t t' : Table} (h : t.WellFormed)
include h

/-- A select is read as the columns of its table under the names of their fields. -/
theorem parse?_selectWhere (nonempty : t.columns ≠ []) {text : String}
    {condition : SearchCondition} (lexes : Lexes text condition.tokens)
    (proper : condition.Proper) :
    Selection.parse? (t.selectWhere text) = some (t.selection condition) := by
  have columns : (t.selection condition).columns ≠ [] := by
    simpa [Table.selection, Table.aliases] using nonempty
  rw [Selection.parse?, (opens_selectWhere h lexes).lexes.tokens_eq, ← t.selection_tokens condition,
    Selection.read?_tokens columns proper]

/-- Tables of one name with the same aliases have the same selects. -/
theorem selectWhere_congr (h' : t'.WellFormed) (name : t'.name = t.name)
    (aliases : t'.aliases = t.aliases) (text : String) :
    t'.selectWhere text = t.selectWhere text := by
  have results {t : Table} (h : t.WellFormed) (d : Dialect) :
      (t.columns.map fun c => "    " ++ t.quotedName ++ "." ++ c.quoted ++ " AS " ++
        d.quoteAlias c.field) =
      t.aliases.map fun (column, label) => "    " ++ t.quotedName ++ "." ++
        Text.enclose '[' ']' column ++ " AS " ++ Text.literal label := by
    rw [Table.aliases, List.map_map]
    refine List.map_congr_left fun c mem => ?_
    rw [(h.column c mem).quoted_eq, t.quoteIdentifier_eq]
    rfl
  have source : t'.quotedName = t.quotedName := by
    rw [h.quotedName_eq, h'.quotedName_eq, t.quoteIdentifier_eq, t'.quoteIdentifier_eq, name]
  dsimp only [Table.selectWhere]
  rw [results h, results h', source, aliases]

end

theorem aliases_of_become {d : Dialect} {fields : List Field} {columns : List Column}
    (h : List.Forall₂ (Field.Becomes · d ·) fields columns) :
    columns.map (fun c => (c.name, c.field)) = fields.map fun f => (f.columnName, f.name) := by
  induction h with
  | nil => rfl
  | cons first _ ih => rw [List.map_cons, List.map_cons, first.columnName, first.field, ih]

/-- The select template of a built table is read as one select. Every column is of the table
that the rows come from, and the columns and their labels are those of the persisted fields of
the model, in declaration order, with no label twice. So built tables, whatever their engines,
have one select template just if they agree in their names and in the columns of their fields. -/
theorem Model.selectTemplate_maps_aliases {m : Model} {engine : Engine}
    {override : Option String} {settings : Settings} {t : Table}
    (built : m.build engine override settings = .ok t) :
    (∃ s, Selection.parse? t.selectTemplate.text = some s ∧ s.source = t.name ∧
      (∀ c ∈ s.columns, c.table = t.name) ∧ s.aliases = t.aliases ∧
      s.aliases = (persisted m.fields).map (fun f => (f.columnName, f.name)) ∧
      (s.aliases.map Prod.snd).Nodup) ∧
    ∀ (m' : Model) (engine' : Engine) (override' : Option String) (settings' : Settings)
      (t' : Table), m'.build engine' override' settings' = .ok t' →
        (t'.selectTemplate.text = t.selectTemplate.text ↔
          t'.name = t.name ∧ t'.aliases = t.aliases) := by
  have read {m : Model} {engine : Engine} {override : Option String} {settings : Settings}
      {t : Table} (built : m.build engine override settings = .ok t) :
      Selection.parse? t.selectTemplate.text = some (t.selection (.constant true)) :=
    parse?_selectWhere (m.build_wellFormed built) (m.build_columns_ne_nil built) lexes_everyRow
      trivial
  constructor
  · refine ⟨_, read built, rfl, ?_, t.aliases_selection _, ?_, ?_⟩
    · intro c mem
      obtain ⟨pair, -, rfl⟩ := List.mem_map.mp mem
      rfl
    · rw [t.aliases_selection]
      exact aliases_of_become (m.build_columns built)
    · rw [t.aliases_selection, Table.aliases, List.map_map]
      exact m.build_fieldsDistinct built
  · intro m' engine' override' settings' t' built'
    constructor
    · intro same
      have trees := (read built').symm.trans ((congrArg Selection.parse? same).trans (read built))
      have selections := Option.some.inj trees
      refine ⟨congrArg Selection.source selections, ?_⟩
      rw [← t'.aliases_selection (.constant true), selections, t.aliases_selection]
    · -- The condition is the same, and so are the quotes of both engines.
      rintro ⟨name, aliases⟩
      exact selectWhere_congr (m.build_wellFormed built) (m'.build_wellFormed built') name aliases _

/-- A model whose names look like parts of a select. -/
def contactModel : Model where
  name := "Contact"
  table := some "a]\nFROM [b"
  fields := [
    { name := "o'clock", type := .int, column := some "x AS 'y',\n" },
    { name := "x',", type := .string, column := some "FROM" }]

/-- The table of the model in an engine with these types. -/
def contactTable (engine : Engine) (int string : String) : Table where
  model := "Contact"
  name := "a]\nFROM [b"
  quotedName := "[a]]\nFROM [b]"
  engine := engine
  columns := [
    { field := "o'clock", name := "x AS 'y',\n", quoted := "[x AS 'y',\n]", type := .int
      native := int, nullable := false, identity := false },
    { field := "x',", name := "FROM", quoted := "[FROM]", type := .string, native := string
      nullable := false, identity := false }]
  ignored := []

theorem Model.selectTemplate_maps_aliases_contact :
    let lite := contactTable .sqlite "INTEGER" "TEXT"
    let server := contactTable .sqlServer "INT" "NVARCHAR(MAX)"
    contactModel.build .sqlite = .ok lite ∧ contactModel.build .sqlServer = .ok server ∧
    server.selectTemplate.text = lite.selectTemplate.text ∧
    ∃ s, Selection.parse? lite.selectTemplate.text = some s ∧ s.source = "a]\nFROM [b" ∧
      s.aliases = [("x AS 'y',\n", "o'clock"), ("FROM", "x',")] := by
  intro lite server
  have built : contactModel.build .sqlite = .ok lite := ok_of_toOption (by decide +kernel)
  have builtServer : contactModel.build .sqlServer = .ok server :=
    ok_of_toOption (by decide +kernel)
  obtain ⟨⟨s, parses, source, -, aliases, -⟩, same⟩ := selectTemplate_maps_aliases built
  refine ⟨built, builtServer, ?_, s, parses, source, aliases⟩
  exact (same contactModel .sqlServer none {} server builtServer).mpr ⟨rfl, rfl⟩

end ModelSql
