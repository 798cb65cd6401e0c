import ModelSql.Proofs.Sql.Clauses
import ModelSql.Proofs.Statement.Agreement
import ModelSql.Proofs.Statement.Tokens
import ModelSql.Proofs.Table.Representation
/-!
# Identities on SQL Server

SQL Server generates identities. No statement updates one, and an insert that supplies one
is allowed to; any other insert reports the identity that was generated. This holds for
each way in which updates and inserts are made.

* `Table.IsUpdate`, `Table.IsInsert`: the texts of updates and inserts;
* `Table.Sets.unique`: a text assigns one list of columns;
* `insertClauses_enclosed`, `insertClauses_insertThroughVariable`: the clauses of inserts;
* `Model.identity_discipline`: what updates assign, what surrounds inserts, and which
  payloads are refused.
-/

namespace ModelSql

open Sql

/-! ## Lists -/

section
variable {α : Type} (items : List α)

theorem wordsOf_list {tokens : α → List Token} (each : ∀ a, wordsOf (tokens a) = []) :
    wordsOf (listTokens tokens items) = [] := by
  rw [wordsOf, listTokens, filterMap_intercalate rfl]
  exact List.flatMap_eq_nil_iff.mpr fun a _ => each a

theorem namesOf_list {tokens : α → List Token} {name : α → String}
    (each : ∀ a, namesOf (tokens a) = [name a]) :
    namesOf (listTokens tokens items) = items.map name := by
  rw [namesOf, listTokens, filterMap_intercalate rfl, List.map_eq_flatMap]
  exact List.flatMap_congr fun a _ => each a

end

/-- The columns of an insert, which may have none. -/
def targetTokens (columns : List Column) : List Token :=
  if columns.isEmpty then [] else tupleTokens Column.token columns

theorem wordsOf_target (columns : List Column) : wordsOf (targetTokens columns) = [] := by
  unfold targetTokens
  split
  · rfl
  · have items : wordsOf (listTokens (fun c : Column => [c.token]) columns) = [] :=
      wordsOf_list columns fun _ => rfl
    simp [tupleTokens, items]

theorem namesOf_target (columns : List Column) :
    namesOf (targetTokens columns) = columns.map (·.name) := by
  unfold targetTokens
  split
  · rename_i empty
    rw [List.isEmpty_iff.mp empty]
    rfl
  · have items : namesOf (listTokens (fun c : Column => [c.token]) columns) =
      columns.map (·.name) := namesOf_list columns fun _ => rfl
    simp [tupleTokens, items]

/-! ## Updates -/

/-- The texts of updates: of templates, with a filter or without, and of payloads. -/
inductive Table.IsUpdate (t : Table) : String → Prop where
  | byIdentity {template : Template} :
      t.updateByIdentityTemplate? = some template → t.IsUpdate template.text
  | all {template : Template} : t.updateAllTemplate? = some template → t.IsUpdate template.text
  | spliced {template : Template} {c : CompiledFilter} {s : Statement} :
      t.updateAllTemplate? = some template → template.splice c = .ok s → t.IsUpdate s.text
  | payload {p : Payload} {f : Filter} {s : Statement} : p.update t f = .ok s → t.IsUpdate s.text

/-- The text is an update of the table that assigns just the columns, in order. The parameter of
a column is one piece of the text, whatever it is called. -/
def Table.Sets (t : Table) (columns : List Column) (text : String) : Prop :=
  (∀ c ∈ columns, c ∈ t.columns) ∧ ∃ condition, text =
    "UPDATE " ++ t.quotedName ++ "\nSET\n" ++ t.setList columns ++ "\nWHERE\n    " ++ condition ++
      ";"

theorem Table.sets_update (t : Table) {columns : List Column} (hc : ∀ c ∈ columns, c ∈ t.columns)
    (condition : String) : t.Sets columns (t.dialect.update t.quotedName columns condition) :=
  ⟨hc, condition, rfl⟩

theorem append_ne_of_head? {s s' : String} {a b : Char} (hs : s.toList.head? = some a)
    (hs' : s'.toList.head? = some b) (other : a ≠ b) (u u' : String) : s ++ u ≠ s' ++ u' := by
  intro same
  have first {s : String} {a : Char} (hs : s.toList.head? = some a) (u : String) :
      (s ++ u).toList.head? = some a := by
    rw [String.toList_append, List.head?_append, hs, Option.some_or]
  have chars := first hs u
  rw [same, first hs' u', Option.some_inj] at chars
  exact other chars.symm

theorem Table.setList_cons_append (t : Table) (c : Column) (columns : List Column) (rest : String) :
    t.setList (c :: columns) ++ rest =
      "    " ++ c.quoted ++ " = " ++ (t.dialect.parameter c.field ++
        match columns with
        | [] => rest
        | _ :: _ => ",\n" ++ (t.setList columns ++ rest)) := by
  cases columns with
  | nil => simp [setList, String.append_assoc]
  | cons d columns => simp [setList, String.append_assoc]

section
variable {t : Table} (h : t.WellFormed)
include h

theorem Table.WellFormed.eq_of_name {c c' : Column} (mem : c ∈ t.columns) (mem' : c' ∈ t.columns)
    (same : c.name = c'.name) : c = c' :=
  List.inj_on_of_nodup_map h.distinct mem mem' (congrArg String.toLower same)

/-- An assignment is read with its column first. -/
theorem eq_of_assignment {c c' : Column} (mem : c ∈ t.columns) (mem' : c' ∈ t.columns)
    {rest rest' : String}
    (same : "    " ++ c.quoted ++ " = " ++ rest = "    " ++ c'.quoted ++ " = " ++ rest') :
    c = c' := by
  have read {c : Column} (mem : c ∈ t.columns) (rest : String) :
      Begins ("    " ++ c.quoted ++ " = " ++ rest) [c.token, .sign "="] :=
    ((opens_indent.append (h.lexes_quoted mem)).join joins_equals).begins.append
  obtain ⟨more, first⟩ := (read mem rest).tokens
  obtain ⟨more', second⟩ := (read mem' rest').tokens
  rw [same, second] at first
  have token : c'.token = c.token := (List.cons.inj first).1
  exact (h.eq_of_name mem' mem (Token.quoted.inj token).2).symm

/-- The columns that a text assigns can be read from it, whatever the parameters are called. -/
theorem eq_of_setList {columns columns' : List Column} (hc : ∀ c ∈ columns, c ∈ t.columns)
    (hc' : ∀ c ∈ columns', c ∈ t.columns) {rest rest' : String}
    (same : t.setList columns ++ ("\nWHERE\n    " ++ rest) =
      t.setList columns' ++ ("\nWHERE\n    " ++ rest')) : columns = columns' := by
  have assigns (c : Column) (u u' : String) :
      "\nWHERE\n    " ++ u ≠ "    " ++ c.quoted ++ " = " ++ u' := by
    rw [String.append_assoc, String.append_assoc]
    exact append_ne_of_head? rfl rfl (by decide) _ _
  have goesOn (u u' : String) : "\nWHERE\n    " ++ u ≠ ",\n" ++ u' :=
    append_ne_of_head? rfl rfl (by decide) u u'
  have start : t.setList [] = "" := rfl
  -- A name can be read whatever follows it. Then the same parameter follows on both sides, and
  -- the first character after it tells whether the list goes on.
  induction columns generalizing columns' with
  | nil =>
    cases columns' with
    | nil => rfl
    | cons c' columns' =>
      rw [t.setList_cons_append, start, String.empty_append] at same
      exact absurd same (assigns c' _ _)
  | cons c columns ih =>
    cases columns' with
    | nil =>
      rw [t.setList_cons_append, start, String.empty_append] at same
      exact absurd same.symm (assigns c _ _)
    | cons c' columns' =>
      rw [t.setList_cons_append, t.setList_cons_append] at same
      obtain rfl := eq_of_assignment h (hc c List.mem_cons_self) (hc' c' List.mem_cons_self) same
      have next := (String.append_right_inj _).mp ((String.append_right_inj _).mp same)
      congr 1
      cases columns with
      | nil =>
        cases columns' with
        | nil => rfl
        | cons d' columns' => exact absurd next (goesOn _ _)
      | cons d columns =>
        cases columns' with
        | nil => exact absurd next.symm (goesOn _ _)
        | cons d' columns' =>
          exact ih (fun b hb => hc b (List.mem_cons_of_mem _ hb))
            (fun b hb => hc' b (List.mem_cons_of_mem _ hb)) ((String.append_right_inj _).mp next)

theorem Table.Sets.unique {columns columns' : List Column} {text : String}
    (first : t.Sets columns text) (second : t.Sets columns' text) : columns = columns' := by
  obtain ⟨hc, condition, rfl⟩ := first
  obtain ⟨hc', condition', same⟩ := second
  simp only [String.append_assoc] at same
  iterate 3 replace same := (String.append_right_inj _).mp same
  exact eq_of_setList h hc hc' same

/-- With words as parameters, the columns are read as the names before the condition. -/
theorem Table.Sets.assignedNames_eq {columns : List Column} {text : String}
    (sets : t.Sets columns text) (fields : ∀ c ∈ columns, IsWord c.field) :
    assignedNames text = columns.map (·.name) := by
  obtain ⟨hc, condition, rfl⟩ := sets
  let assignments := listTokens (fun c => [c.token, .sign "=", t.parameterToken c]) columns
  have begins : Begins ("UPDATE " ++ t.quotedName ++ "\nSET\n" ++ t.setList columns ++
      "\nWHERE\n    " ++ condition ++ ";")
      ([.word "UPDATE", t.token] ++ .word "SET" :: assignments ++ [.word "WHERE"]) :=
    (opens_updateHead h hc fields).begins.append.append
  have wordless : wordsOf assignments = [] := wordsOf_list columns fun _ => rfl
  have before : "SET" ∉ wordsOf [.word "UPDATE", t.token] := by simp [token]
  rw [begins.assignedNames_eq before (by simp [wordless])]
  exact namesOf_list columns fun _ => rfl

end

theorem Table.IsUpdate.exists_columns {t : Table} (generates : t.dialect.updatesIdentity = false)
    {text : String} (h : t.IsUpdate text) :
    ∃ columns condition, (∀ c ∈ columns, c ∈ t.columns ∧ c.identity = false) ∧
      text = t.dialect.update t.quotedName columns condition := by
  have data : ∀ c ∈ t.dataColumns, c ∈ t.columns ∧ c.identity = false := by
    intro c mem
    simpa [dataColumns] using mem
  have same : t.updatableColumns = t.dataColumns := by
    simp only [updatableColumns, generates, Bool.false_or, dataColumns]
  cases h with
  | byIdentity present =>
    obtain ⟨identity, -, rfl⟩ := updateByIdentityTemplate?_eq_some present
    exact ⟨t.dataColumns, _, data, rfl⟩
  | all present =>
    obtain ⟨-, rfl⟩ := updateAllTemplate?_eq_some present
    exact ⟨t.updatableColumns, _, same ▸ data, rfl⟩
  | spliced present spliced =>
    rw [t.splice_updateAllTemplate? _ present] at spliced
    cases spliced
    exact ⟨t.updatableColumns, _, same ▸ data, rfl⟩
  | @payload p f s updated =>
    obtain ⟨assignments, compiled, assigned, -, rfl⟩ := p.update_ok updated
    refine ⟨assignedColumns assignments, _, fun c mem => ⟨p.assignedColumns_mem assigned c mem, ?_⟩,
      rfl⟩
    rw [p.update_eq assigned] at updated
    split at updated
    · cases updated
    · rename_i accepted
      have unmarked : (assignedColumns assignments).any (·.identity) = false := by
        simpa [refusesUpdate, generates] using accepted
      simpa using List.any_eq_false.mp unmarked c mem

/-! ## Inserts -/

/-- The texts of inserts: of templates and of payloads. -/
inductive Table.IsInsert (t : Table) : String → Prop where
  | generated : t.IsInsert t.insertTemplate.text
  | all : t.IsInsert t.insertAllTemplate.text
  | payload {p : Payload} {s : Statement} : p.insert t = .ok s → t.IsInsert s.text

/-- The insert stands between statements that allow explicit identities in the table and
forbid them again. -/
def Table.Encloses (t : Table) (insert text : String) : Prop :=
  text = "SET IDENTITY_INSERT " ++ t.quotedName ++ " ON;\n" ++ insert ++
    "\nSET IDENTITY_INSERT " ++ t.quotedName ++ " OFF;"

/-- The insert stores the identity that is generated in a variable of the column's type, which
is declared before and selected from afterwards. -/
structure Table.ReadsBack (t : Table) (identity : Column) (text : String) : Prop where
  around : ∃ values, text =
    "DECLARE " ++ insertedIds ++ " TABLE (" ++ identity.quoted ++ " " ++ identity.native ++
      ");\n" ++ "INSERT INTO " ++ t.quotedName ++ values ++
      "\nSELECT " ++ identity.quoted ++ " AS " ++ identity.field ++ " FROM " ++ insertedIds ++ ";"
  output : outputClause text =
    [.word "Inserted", .punctuation '.', identity.token, .word "INTO", .parameter insertedIds]

theorem Table.IsInsert.exists_columns {t : Table} {text : String} (h : t.IsInsert text) :
    ∃ columns, (∀ c ∈ columns, c ∈ t.columns) ∧ text = t.insertOf columns := by
  cases h with
  | generated => exact ⟨_, fun _ => t.mem_of_dataColumns, t.insertOf_dataColumns.symm⟩
  | all => exact ⟨_, fun _ mem => mem, t.insertOf_columns.symm⟩
  | @payload p s inserted =>
    obtain ⟨assignments, assigned, rfl⟩ := p.insert_ok inserted
    exact ⟨_, p.assignedColumns_mem assigned, rfl⟩

section
variable {t : Table} (h : t.WellFormed) {columns : List Column}
  (hc : ∀ c ∈ columns, c ∈ t.columns)
include h hc

/-- An insert begins with its table and its columns. -/
theorem begins_insert : ∃ stop ∈ ["DEFAULT", "VALUES"],
    Begins (t.dialect.insert t.quotedName columns)
      (.word "INSERT" :: .word "INTO" :: t.token :: targetTokens columns ++ [.word stop]) := by
  have target := opens_insertInto.append h.lexes_quotedName
  unfold Dialect.insert targetTokens
  split
  · have all : Begins ("INSERT INTO " ++ t.quotedName ++ " DEFAULT VALUES;")
        ([.word "INSERT", .word "INTO", t.token, .word "DEFAULT"] ++
          [.word "VALUES", .punctuation ';']) := (target.join joins_defaults).begins
    exact ⟨"DEFAULT", by decide, all.of_append⟩
  · have named := (target.join joins_space).append (h.opens_columnList hc).lexes
    have all : Begins ("INSERT INTO " ++ t.quotedName ++ " " ++ columnList columns ++ "\nVALUES " ++
        t.dialect.valueList columns ++ ";") _ := (named.join joins_values).begins.append.append
    refine ⟨"VALUES", by decide, ?_⟩
    simpa only [List.append_assoc, List.cons_append, List.nil_append] using all

/-- An insert that stores the generated identity begins with the declaration of its variable,
its table and its columns and what it outputs. -/
theorem begins_insertThroughVariable {identity : Column} (mem : identity ∈ t.columns)
    (marked : identity.identity = true) : ∃ stop ∈ ["DEFAULT", "VALUES"],
    Begins (t.dialect.insertThroughVariable t.quotedName columns identity)
      ([.word "DECLARE", .parameter insertedIds, .word "TABLE", .punctuation '(', identity.token,
        .word identity.native, .punctuation ')', .punctuation ';'] ++
        .word "INSERT" :: .word "INTO" :: t.token :: (targetTokens columns ++
          [.word "OUTPUT", .word "Inserted", .punctuation '.', identity.token, .word "INTO",
            .parameter insertedIds]) ++ [.word stop]) := by
  have values : ∃ stop ∈ ["DEFAULT", "VALUES"], Begins (if columns.isEmpty then "DEFAULT VALUES;"
      else "VALUES " ++ t.dialect.valueList columns ++ ";") [.word stop] := by
    split
    · have all : Begins "DEFAULT VALUES;"
          ([.word "DEFAULT"] ++ [.word "VALUES", .punctuation ';']) := opens_defaults.begins
      exact ⟨"DEFAULT", by decide, all.of_append⟩
    · exact ⟨"VALUES", by decide, opens_valuesWord.begins.append.append⟩
  obtain ⟨stop, stops, begins⟩ := values
  have all := (begins.prepend (opens_report h hc mem marked)).append (u := "\nSELECT " ++
    identity.quoted ++ " AS " ++ identity.field ++ " FROM " ++ insertedIds ++ ";")
  refine ⟨stop, stops, ?_⟩
  delta Dialect.insertThroughVariable targetTokens
  simpa only [String.append_assoc, List.append_assoc, List.cons_append, List.nil_append] using all

/-- An insert whose identity is supplied lists its columns and outputs nothing. -/
theorem insertClauses_enclosed {text : String}
    (encloses : t.Encloses (t.dialect.insert t.quotedName columns) text) :
    insertClauses text = targetTokens columns := by
  obtain ⟨stop, stops, begins⟩ := begins_insert h hc
  have all := ((begins.prepend (opens_allowance h)).append (u := "\nSET IDENTITY_INSERT " ++
    t.quotedName ++ " OFF;"))
  rw [Table.Encloses] at encloses
  simp only [String.append_assoc] at encloses all
  rw [← encloses, ← List.append_assoc] at all
  refine Begins.insertClauses_eq all ?_ stops ?_
  · simp [Table.token]
  · simp [wordsOf_target]

theorem insertClauses_insertThroughVariable {identity : Column} (mem : identity ∈ t.columns)
    (marked : identity.identity = true) :
    insertClauses (t.dialect.insertThroughVariable t.quotedName columns identity) =
      targetTokens columns ++ [.word "OUTPUT", .word "Inserted", .punctuation '.', identity.token,
        .word "INTO", .parameter insertedIds] := by
  obtain ⟨stop, stops, begins⟩ := begins_insertThroughVariable h hc mem marked
  have native : "INSERT" ≠ identity.native := by
    intro same
    have known := h.mem_integerTypes mem marked
    rw [← same] at known
    exact absurd known (by decide)
  refine begins.insertClauses_eq ?_ stops ?_
  · simpa [Column.token] using native
  · simp [wordsOf_target, Column.token]

end

/-! ## Built tables -/

section
variable {m : Model} {override : Option String} {settings : Settings} {t : Table}
  (built : m.build .sqlServer override settings = .ok t) {identity : Column}
  (generated : t.identity? = some identity) {columns : List Column}
  (hc : ∀ c ∈ columns, c ∈ t.columns)
include built generated hc

theorem Model.any_identity_iff : columns.any (·.identity) = true ↔ identity ∈ columns := by
  rw [List.any_eq_true]
  constructor
  · rintro ⟨c, mem, marked⟩
    have own := m.build_identity_of_flag built (hc c mem) marked
    rw [generated, Option.some_inj] at own
    rwa [own]
  · exact fun mem => ⟨identity, mem, (t.mem_of_identity? generated).2⟩

theorem Model.name_mem_iff : identity.name ∈ columns.map (·.name) ↔ identity ∈ columns := by
  constructor
  · intro named
    obtain ⟨c, mem, same⟩ := List.mem_map.mp named
    have own := (t.mem_of_identity? generated).1
    rwa [← (m.build_wellFormed built).eq_of_name (hc c mem) own same]
  · exact fun mem => List.mem_map.mpr ⟨identity, mem, rfl⟩

/-- An insert that supplies the identity is allowed to. -/
theorem Model.insert_supplied (supplied : identity ∈ columns) :
    t.Encloses (t.dialect.insert t.quotedName columns) (t.insertOf columns) := by
  have guards : t.dialect.guardsExplicitIdentity = true := by
    rw [Table.dialect, m.build_engine built]
    rfl
  have marked := (m.any_identity_iff built generated hc).mpr supplied
  simp only [Table.Encloses, Table.insertOf, generated, marked, if_true,
    Dialect.insertExplicitIdentity, guards]

/-- Any other insert stores the identity that is generated. -/
theorem Model.insert_generated (other : identity ∉ columns) :
    t.insertOf columns = t.dialect.insertThroughVariable t.quotedName columns identity := by
  have engine : t.dialect.engine = .sqlServer := by
    rw [Table.dialect, m.build_engine built, Engine.dialect_engine]
  have unmarked : columns.any (·.identity) = false :=
    Bool.eq_false_iff.mpr (mt (m.any_identity_iff built generated hc).mp other)
  simp only [Table.insertOf, generated, unmarked, Bool.false_eq_true, if_false,
    Dialect.insertReturningIdentity, engine]

theorem Model.listedNames_insertOf : listedNames (t.insertOf columns) = columns.map (·.name) := by
  have wellFormed := m.build_wellFormed built
  obtain ⟨mem, marked⟩ := t.mem_of_identity? generated
  have clauses :
      upToWord ["OUTPUT"] (insertClauses (t.insertOf columns)) = targetTokens columns := by
    by_cases supplied : identity ∈ columns
    · have encloses := m.insert_supplied built generated hc supplied
      rw [insertClauses_enclosed wellFormed hc encloses]
      exact upToWord_of_absent (by simp [wordsOf_target])
    · rw [m.insert_generated built generated hc supplied,
        insertClauses_insertThroughVariable wellFormed hc mem marked]
      exact upToWord_append (by simp [wordsOf_target]) List.mem_cons_self
  rw [listedNames, clauses, namesOf_target]

theorem Model.not_encloses (other : identity ∉ columns) (insert : String) :
    ¬ t.Encloses insert (t.insertOf columns) := by
  have starts (u u' : String) : "DECLARE " ++ u ≠ "SET IDENTITY_INSERT " ++ u' :=
    append_ne_of_head? rfl rfl (by decide) u u'
  intro encloses
  rw [m.insert_generated built generated hc other, Table.Encloses] at encloses
  delta Dialect.insertThroughVariable at encloses
  simp only [String.append_assoc] at encloses
  exact starts _ _ encloses

theorem Model.readsBack (other : identity ∉ columns) :
    t.ReadsBack identity (t.insertOf columns) := by
  obtain ⟨mem, marked⟩ := t.mem_of_identity? generated
  have clauses := insertClauses_insertThroughVariable (m.build_wellFormed built) hc mem marked
  rw [m.insert_generated built generated hc other]
  constructor
  case around =>
    refine ⟨(if columns.isEmpty then "" else " " ++ columnList columns) ++
      "\nOUTPUT Inserted." ++ identity.quoted ++ " INTO " ++ insertedIds ++ "\n" ++
      (if columns.isEmpty then "DEFAULT VALUES;"
        else "VALUES " ++ t.dialect.valueList columns ++ ";"), ?_⟩
    delta Dialect.insertThroughVariable
    simp only [String.append_assoc]
  case output =>
    rw [outputClause, clauses, afterWord_append (by simp [wordsOf_target])]

end

/-- On SQL Server no update assigns the identity. An insert that lists the identity stands
between the statements that allow it, and outputs nothing. Any other insert does not, and
reads the generated identity back. A payload with a key for the identity makes no update. -/
theorem Model.identity_discipline {m : Model} {override : Option String} {settings : Settings}
    {t : Table} (built : m.build .sqlServer override settings = .ok t) {identity : Column}
    (generated : t.identity? = some identity) :
    (∀ text, t.IsUpdate text → (∃ columns, t.Sets columns text) ∧
      ∀ columns, t.Sets columns text → identity.name ∉ columns.map (·.name) ∧
        ((∀ c ∈ columns, IsWord c.field) → assignedNames text = columns.map (·.name))) ∧
    (∀ text, t.IsInsert text → ∃ columns, (∀ c ∈ columns, c ∈ t.columns) ∧
      listedNames text = columns.map (·.name) ∧
      (identity.name ∈ listedNames text →
        t.Encloses (t.dialect.insert t.quotedName columns) text ∧
        "OUTPUT" ∉ wordsOf (insertClauses text)) ∧
      (identity.name ∉ listedNames text →
        (∀ insert, ¬ t.Encloses insert text) ∧ t.ReadsBack identity text)) ∧
    ∀ (p : Payload) (assignments : List Assignment) (f : Filter),
      p.assignments t = .ok assignments → (∃ entry ∈ p.entries, t.Denotes entry.1 identity) →
      p.update t f = .error (.unsupported .sqlServer .identityUpdate) := by
  have wellFormed := m.build_wellFormed built
  obtain ⟨mem, marked⟩ := t.mem_of_identity? generated
  have dialect : t.dialect = Engine.sqlServer.dialect := by rw [Table.dialect, m.build_engine built]
  refine ⟨fun text update => ?_, fun text insert => ?_, ?_⟩
  · have generates : t.dialect.updatesIdentity = false := by rw [dialect]; rfl
    obtain ⟨own, condition, data, rfl⟩ := update.exists_columns generates
    have hc : ∀ c ∈ own, c ∈ t.columns := fun c hc => (data c hc).1
    have sets := t.sets_update hc condition
    refine ⟨⟨own, sets⟩, fun columns other => ?_⟩
    obtain rfl := sets.unique wellFormed other
    refine ⟨fun named => ?_, sets.assignedNames_eq wellFormed⟩
    have assigned := (m.name_mem_iff built generated hc).mp named
    rw [(data identity assigned).2] at marked
    cases marked
  · obtain ⟨columns, hc, rfl⟩ := insert.exists_columns
    have listed := m.listedNames_insertOf built generated hc
    refine ⟨columns, hc, listed, ?_⟩
    rw [listed, m.name_mem_iff built generated hc]
    refine ⟨fun supplied => ?_, fun other => ?_⟩
    · have encloses := m.insert_supplied built generated hc supplied
      refine ⟨encloses, ?_⟩
      rw [insertClauses_enclosed wellFormed hc encloses, wordsOf_target]
      exact List.not_mem_nil
    · exact ⟨m.not_encloses built generated hc other, m.readsBack built generated hc other⟩
  · rintro p assignments f assigned ⟨entry, hentry, denotes⟩
    obtain ⟨each, -, -⟩ := assignEntries_ok (p.assignments_ok assigned)
    obtain ⟨a, ha, resolved, -⟩ := exists_right_of_mem each hentry
    have own : a.column = identity := by
      rw [(m.build_resolve_iff built).mpr denotes] at resolved
      exact (Except.ok.inj resolved).symm
    have supplied : identity ∈ assignedColumns assignments := own ▸ List.mem_map_of_mem ha
    have any := (m.any_identity_iff built generated (p.assignedColumns_mem assigned)).mpr supplied
    have refused : t.refusesUpdate (assignedColumns assignments) = true := by
      rw [Table.refusesUpdate, any, dialect]
      rfl
    rw [p.update_eq assigned, if_pos refused, dialect]
    rfl

theorem Model.identity_discipline_invoice :
    let identity : Column :=
      { field := "Id", name := "Id", quoted := "[Id]", type := .long, native := "BIGINT"
        nullable := false, identity := true }
    let p : Payload := .ofList [("ID", Value.int 7)]
    invoiceModel.build .sqlServer = .ok invoiceTable ∧
    invoiceTable.identity? = some identity ∧
    (∃ insert, invoiceTable.Encloses insert invoiceTable.insertAllTemplate.text) ∧
    invoiceTable.ReadsBack identity invoiceTable.insertTemplate.text ∧
    p.update invoiceTable .empty = .error (.unsupported .sqlServer .identityUpdate) := by
  intro identity p
  have generated : invoiceTable.identity? = some identity := rfl
  obtain ⟨-, inserts, refuses⟩ := identity_discipline build_invoice generated
  obtain ⟨_, -, -, supplied, -⟩ := inserts _ .all
  obtain ⟨_, -, -, -, other⟩ := inserts _ .generated
  have listed : identity.name ∈ listedNames invoiceTable.insertAllTemplate.text := by
    rw [← invoiceTable.insertOf_columns,
      listedNames_insertOf build_invoice generated fun _ mem => mem]
    decide
  have unlisted : identity.name ∉ listedNames invoiceTable.insertTemplate.text := by
    rw [← invoiceTable.insertOf_dataColumns,
      listedNames_insertOf build_invoice generated fun _ => invoiceTable.mem_of_dataColumns]
    decide
  have anyCase : invoiceTable.Denotes "ID" identity :=
    ⟨List.mem_cons_self, .inr ⟨by decide, toLower_eq_of_chars (by decide)⟩⟩
  have covers : p.Covers invoiceTable [identity] :=
    .cons ((build_resolve_iff build_invoice).mpr anyCase) .nil
  obtain ⟨assignments, assigned, -⟩ := p.assignments_of_covers covers (by decide) (by decide)
  exact ⟨build_invoice, generated, ⟨_, (supplied listed).1⟩, (other unlisted).2,
    refuses p _ .empty assigned ⟨_, List.mem_cons_self, anyCase⟩⟩

end ModelSql
