import ModelSql.Proofs.Schema.ScriptReading
import ModelSql.Proofs.Statement.Slot
/-!
# What the script of an index is about

The script of a full-text index is read, whatever the names in it are, as one virtual table and
the triggers of its mode. The table, the mode, the columns and the key of its rows are given
back by what is read, so a script is the script of one subject only.

* `IndexScript.subject?`: the subject of a script;
* `IndexScript.Realizes`: the script is one index of a subject and the triggers that it needs;
* `Table.subject?_indexScript`, `Table.realizes_indexScript`: the script over columns of a table;
* `Model.fullTextScript_determines`: the scripts of built tables.
-/

namespace ModelSql

open Sql

namespace Sql

/-- What an index is made for. -/
structure IndexSubject where
  table : String
  mode : FullTextMode
  /-- The names of the indexed columns. -/
  columns : List String
  /-- The column by which the rows of external content are known, if one is named. -/
  rowKey : Option String
deriving DecidableEq, Repr

/-! ## Reading -/

def IndexItem.option? : IndexItem → Option (String × String)
  | column _ => none
  | option key value => some (key, value)

/-- The options of an index, in the order of its definition. -/
def IndexDefinition.options (d : IndexDefinition) : List (String × String) :=
  d.items.filterMap IndexItem.option?

/-- The table that the name of an index is derived from. -/
def indexedTable? (name : String) : Option String :=
  match Text.splitAtLast? "_fts" name with
  | some (table, "") => some table
  | _ => none

namespace IndexScript

/-- The mode, and the key of the rows of external content. An empty name of a table is no
different from no content, so it takes the triggers to tell. -/
def modeAndKey? (s : IndexScript) : Option (FullTextMode × Option String) :=
  match s.triggers, s.index.options with
  | [], [] => some (.content, none)
  | [], [("content", "")] => some (.contentLess, none)
  | _ :: _, [("content", _)] => some (.externalContent, none)
  | _ :: _, [("content", _), ("content_rowid", key)] => some (.externalContent, some key)
  | _, _ => none

def subject? (s : IndexScript) : Option IndexSubject := do
  let table ← indexedTable? s.index.name
  let (mode, rowKey) ← s.modeAndKey?
  return { table, mode, columns := s.index.columns, rowKey }

end IndexScript

/-! ## Parts of a script -/

namespace IndexAction

/-- The index that the action is on. -/
def index : IndexAction → String
  | remove index _ => index
  | add index _ _ _ => index

/-- The columns and the values of the entry that the action adds, if it adds one. -/
def entry? : IndexAction → Option (List String × List Operand)
  | remove _ _ => none
  | add _ columns _ values => some (columns, values)

end IndexAction

namespace IndexSubject

variable (subject : IndexSubject)

def indexName : String := subject.table ++ "_fts"

/-- What each of the triggers is called and when it acts. -/
def triggers : List (String × Timing × RowEvent) :=
  match subject.mode with
  | .content | .contentLess => []
  | .externalContent => [
    (subject.table ++ "_bu", .before, .update),
    (subject.table ++ "_bd", .before, .delete),
    (subject.table ++ "_au", .after, .update),
    (subject.table ++ "_ai", .after, .insert)]

/-- What each of the triggers adds to the index, if it does. -/
def entries : List (Option (List String × List Operand)) :=
  match subject.mode with
  | .content | .contentLess => []
  | .externalContent =>
    let entry := some (subject.columns, subject.columns.map fun name => ⟨.new, .quoted name⟩)
    [none, none, entry, entry]

end IndexSubject

/-- The script is one index of the subject and the triggers that its mode needs, all of them on
the table and for the index. -/
structure IndexScript.Realizes (s : IndexScript) (subject : IndexSubject) : Prop where
  index : s.index.name = subject.indexName
  columns : s.index.columns = subject.columns
  triggers : s.triggers.map (fun t => (t.name, t.timing, t.event)) = subject.triggers
  table : ∀ t ∈ s.triggers, t.table = subject.table
  acts : ∀ t ∈ s.triggers, t.action.index = subject.indexName
  entries : s.triggers.map (·.action.entry?) = subject.entries

/-- A script has the sentence of the index, and two for each trigger. -/
theorem IndexScript.count_tokens (s : IndexScript) :
    s.tokens.count (.punctuation ';') = 1 + 2 * s.triggers.length := by
  have once {ts : List Token} (absent : .punctuation ';' ∉ ts) :
      (sentence ts).count (.punctuation ';') = 1 := by
    rw [sentence, List.count_append, List.count_eq_zero.mpr absent]
    rfl
  have both (triggers : List Trigger) :
      (triggers.flatMap fun t => sentence t.tokens ++ sentence [.word "END"]).count
        (.punctuation ';') = 2 * triggers.length := by
    induction triggers with
    | nil => rfl
    | cons t triggers ih =>
      rw [List.flatMap_cons, List.count_append, List.count_append, once t.notMem_tokens,
        once (by simp), ih, List.length_cons]
      omega
  rw [tokens, List.count_append, once s.index.notMem_tokens, both]

end Sql

/-! ## Scripts over columns of a table -/

namespace Table

variable (t : Table) (columns : List Column) (mode : FullTextMode)

/-- The subject of the index over the columns. -/
def subject : IndexSubject where
  table := t.name
  mode := mode
  columns := columns.map (·.name)
  rowKey := if mode = .externalContent then t.identity?.map (·.name) else none

theorem indexedTable?_indexName : indexedTable? t.indexName = some t.name := by
  have split := Text.splitAtLast?_append (by rfl : Text.splitAtLast? "_fts" "_fts" = some ("", ""))
    t.name
  rw [String.append_empty] at split
  rw [indexedTable?, indexName, split]
  rfl

theorem indexDefinition_options :
    (t.indexDefinition columns mode).options =
      (t.indexOptions mode).filterMap IndexItem.option? := by
  have names : (columns.map fun c => IndexItem.column c.name).filterMap IndexItem.option? = [] := by
    rw [List.filterMap_map]
    exact List.filterMap_eq_nil_iff.mpr fun _ _ => rfl
  rw [IndexDefinition.options, indexDefinition, List.filterMap_append, names, List.nil_append]

theorem modeAndKey?_indexScript :
    (t.indexScript columns mode).modeAndKey? =
      some (mode, if mode = .externalContent then t.identity?.map (·.name) else none) := by
  unfold IndexScript.modeAndKey?
  rw [indexScript, t.indexDefinition_options columns mode]
  cases mode with
  | content | contentLess => rfl
  | externalContent =>
    unfold indexOptions
    cases t.identity? <;> rfl

/-- The subject of a script is the one that it is for. -/
theorem subject?_indexScript :
    (t.indexScript columns mode).subject? = some (t.subject columns mode) := by
  have name : (t.indexScript columns mode).index.name = t.indexName := rfl
  have indexed : (t.indexScript columns mode).index.columns = columns.map (·.name) :=
    t.indexDefinition_columns columns mode
  rw [IndexScript.subject?, name, t.indexedTable?_indexName, t.modeAndKey?_indexScript, indexed]
  rfl

theorem realizes_indexScript :
    (t.indexScript columns mode).Realizes (t.subject columns mode) := by
  have kinds : ∀ trigger ∈ (t.indexScript columns mode).triggers,
      ∃ kind, trigger = t.syncTrigger columns kind := by
    intro trigger mem
    obtain ⟨kind, -, rfl⟩ := List.mem_map.mp mem
    exact ⟨kind, rfl⟩
  constructor
  case index => rfl
  case columns => exact t.indexDefinition_columns columns mode
  case triggers =>
    have called (suffix : String) : t.name ++ "_" ++ suffix = t.name ++ ("_" ++ suffix) :=
      String.append_assoc
    cases mode with
    | content | contentLess => rfl
    | externalContent =>
      simp only [indexScript, syncTriggers, List.map_cons, List.map_nil, syncTrigger, called]
      rfl
  case table =>
    intro trigger mem
    obtain ⟨kind, rfl⟩ := kinds trigger mem
    rfl
  case acts =>
    intro trigger mem
    obtain ⟨kind, rfl⟩ := kinds trigger mem
    cases kind <;> rfl
  case entries =>
    have values : (columns.map fun c => (⟨.new, .quoted c.name⟩ : Operand)) =
        (columns.map (·.name)).map fun name => ⟨.new, .quoted name⟩ := by
      rw [List.map_map]
      rfl
    have added (kind : SyncTrigger) : (t.syncTrigger columns kind).action.entry? =
        if kind.removes then none
        else some (columns.map (·.name),
          (columns.map (·.name)).map fun name => ⟨.new, .quoted name⟩) := by
      rw [← values]
      cases kind <;> rfl
    rw [indexScript, List.map_map]
    simp only [Function.comp_def, added]
    cases mode <;> rfl

end Table

/-- The text of a script of a built table is read as one script and has no other tokens: one
sentence for the index, and two for each of four triggers in the mode of external content. The
script gives back the table, the mode, the columns that the names stand for and the key of the
rows. All triggers are on the table and act on the index, and two of them add entries, with the
same columns as targets and as values. So the same text is the script of no other table, columns
or mode. -/
theorem Model.fullTextScript_determines {m : Model} {engine : Engine} {override : Option String}
    {settings : Settings} {t : Table} (built : m.build engine override settings = .ok t)
    {names : List String} {mode : FullTextMode} {text : String}
    (created : t.fullTextScript names mode = .ok text) :
    (∃ columns script, t.Selects names columns ∧ IndexScript.parse? text = some script ∧
      tokens text = script.tokens ∧
      (tokens text).count (.punctuation ';') = (if mode = .externalContent then 9 else 1) ∧
      script.subject? = some (t.subject columns mode) ∧
      script.Realizes (t.subject columns mode)) ∧
    ∀ (m' : Model) (engine' : Engine) (override' : Option String) (settings' : Settings)
      (t' : Table) (names' : List String) (mode' : FullTextMode) (columns columns' : List Column),
      m'.build engine' override' settings' = .ok t' →
        t'.fullTextScript names' mode' = .ok text → t.Selects names columns →
          t'.Selects names' columns' → t'.subject columns' mode' = t.subject columns mode := by
  constructor
  · obtain ⟨-, -, columns, selects, -⟩ := Table.fullTextScript_eq_ok_iff.mp created
    obtain ⟨parses, whole⟩ := parse?_fullTextScript (m.build_wellFormed built) created selects
    refine ⟨columns, t.indexScript columns mode, selects, parses, whole, ?_,
      t.subject?_indexScript columns mode, t.realizes_indexScript columns mode⟩
    rw [whole, IndexScript.count_tokens]
    cases mode <;> rfl
  · intro m' engine' override' settings' t' names' mode' columns columns' built' created' selects
      selects'
    have parses := (parse?_fullTextScript (m.build_wellFormed built) created selects).1
    have parses' := (parse?_fullTextScript (m'.build_wellFormed built') created' selects').1
    have subjects := congrArg IndexScript.subject? (Option.some.inj (parses'.symm.trans parses))
    rw [t.subject?_indexScript, t'.subject?_indexScript] at subjects
    exact Option.some.inj subjects

/-- A model whose names look like ends of statements, options and other derived names. -/
def memoModel : Model where
  name := "Memo"
  table := some "m_fts; END;"
  fields := [
    { name := "Id", type := .long, identity := true, column := some "rowid'" },
    { name := "Title", type := .string, column := some "t], content = ''" },
    { name := "Body", type := .string, column := some "b);\n\nCREATE" }]

def memoTable : Table where
  model := "Memo"
  name := "m_fts; END;"
  quotedName := "[m_fts; END;]"
  engine := .sqlite
  columns := [
    { field := "Id", name := "rowid'", quoted := "[rowid']", type := .long, native := "INTEGER"
      nullable := false, identity := true },
    { field := "Title", name := "t], content = ''", quoted := "[t]], content = '']"
      type := .string, native := "TEXT", nullable := false, identity := false },
    { field := "Body", name := "b);\n\nCREATE", quoted := "[b);\n\nCREATE]", type := .string
      native := "TEXT", nullable := false, identity := false }]
  ignored := []

theorem Model.fullTextScript_determines_memo :
    memoModel.build .sqlite = .ok memoTable ∧
    ∃ text script, memoTable.fullTextScript ["Body", "Title"] .externalContent = .ok text ∧
      IndexScript.parse? text = some script ∧
      script.triggers.map (·.name) =
        ["m_fts; END;_bu", "m_fts; END;_bd", "m_fts; END;_au", "m_fts; END;_ai"] ∧
      script.subject? = some {
        table := "m_fts; END;"
        mode := .externalContent
        columns := ["b);\n\nCREATE", "t], content = ''"]
        rowKey := some "rowid'" } := by
  have built : memoModel.build .sqlite = .ok memoTable := ok_of_toOption (by decide +kernel)
  have present : (memoTable.fullTextScript ["Body", "Title"] .externalContent).toOption.isSome =
      true := by decide +kernel
  obtain ⟨text, created⟩ := Option.isSome_iff_exists.mp present
  have created := ok_of_toOption created
  obtain ⟨⟨columns, script, selects, parses, -, -, subject, realizes⟩, -⟩ :=
    fullTextScript_determines built created
  have known : indexColumns memoTable [] ["Body", "Title"] =
      .ok [memoTable.columns[2], memoTable.columns[1]] := ok_of_toOption (by decide +kernel)
  obtain rfl : columns = [memoTable.columns[2], memoTable.columns[1]] :=
    Except.ok.inj ((indexColumns_eq_ok_iff.mpr selects).symm.trans known)
  have names := congrArg (List.map Prod.fst) realizes.triggers
  rw [List.map_map] at names
  exact ⟨built, text, script, created, parses, names.trans (by decide +kernel),
    subject.trans (by decide +kernel)⟩

end ModelSql
