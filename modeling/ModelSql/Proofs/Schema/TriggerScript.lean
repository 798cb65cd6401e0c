import ModelSql.Proofs.Statement.TokenLists
/-!
# Scripts of full-text indexes, as trees

A script defines a virtual table and the triggers that act on it. A trigger takes
one action on the index: it removes an entry by its key or adds one.

Names are read as they are written, with two closing brackets for one of the name. This
is not how SQLite reads a name that contains one: for that, see `Sql.bracketed?`.

* `IndexScript.read?`: the script that a list of tokens spells;
* `IndexScript.tokens`: the tokens of a script;
* `IndexScript.read?_tokens`: a script is read from its tokens, whatever its names are.
-/

namespace ModelSql.Sql

/-- The row that a change finds, or the one that it leaves. -/
inductive RowVersion where
  | old
  | new
deriving DecidableEq, Repr

/-- A column, as it is spelt. -/
inductive ColumnName where
  | bare (text : String)
  | quoted (text : String)
deriving DecidableEq, Repr

/-- A column of a version of the changed row. -/
structure Operand where
  version : RowVersion
  column : ColumnName
deriving DecidableEq, Repr

/-- What a trigger does to an index. -/
inductive IndexAction where
  /-- Removes the entries with a key. -/
  | remove (index : String) (key : Operand)
  /-- Adds an entry with a key and values of the named columns. -/
  | add (index : String) (columns : List String) (key : Operand) (values : List Operand)
deriving DecidableEq, Repr

inductive Timing where
  | before
  | after
deriving DecidableEq, Repr

/-- What a row undergoes. -/
inductive RowEvent where
  | insert
  | update
  | delete
deriving DecidableEq, Repr

structure Trigger where
  name : String
  timing : Timing
  event : RowEvent
  table : String
  action : IndexAction
deriving DecidableEq, Repr

/-- A part of the definition of an index. -/
inductive IndexItem where
  | column (name : String)
  | option (key value : String)
deriving DecidableEq, Repr

/-- The virtual table of an index. -/
structure IndexDefinition where
  name : String
  items : List IndexItem
deriving DecidableEq, Repr

def IndexItem.column? : IndexItem → Option String
  | column name => some name
  | option _ _ => none

/-- The columns of an index, in the order of its definition. -/
def IndexDefinition.columns (d : IndexDefinition) : List String :=
  d.items.filterMap IndexItem.column?

structure IndexScript where
  index : IndexDefinition
  triggers : List Trigger
deriving DecidableEq, Repr

open Token

/-! ## Reading -/

def RowVersion.read? : String → Option RowVersion
  | "old" => some old
  | "new" => some new
  | _ => none

def ColumnName.read? : Token → Option ColumnName
  | word text => some (bare text)
  | .quoted .bracket text => some (quoted text)
  | _ => none

def Operand.read? : List Token → Option Operand
  | [word version, punctuation '.', column] => do
    return { version := ← RowVersion.read? version, column := ← ColumnName.read? column }
  | _ => none

def Timing.read? : String → Option Timing
  | "BEFORE" => some before
  | "AFTER" => some after
  | _ => none

def RowEvent.read? : String → Option RowEvent
  | "INSERT" => some insert
  | "UPDATE" => some update
  | "DELETE" => some delete
  | _ => none

/-- A name in brackets. -/
def quotedName? : List Token → Option String
  | [.quoted .bracket name] => some name
  | _ => none

def IndexAction.read? : List Token → Option IndexAction
  | word "DELETE" :: word "FROM" :: .quoted .bracket index :: word "WHERE" :: word "rowid" ::
      sign "=" :: key => (Operand.read? key).map (remove index)
  | word "INSERT" :: word "INTO" :: .quoted .bracket index :: punctuation '(' :: word "rowid" ::
      punctuation ',' :: rest =>
    match rest.splitOn (punctuation ')') with
    | [columns, word "VALUES" :: punctuation '(' :: values, []] => do
      match ← readList? Operand.read? values with
      | key :: values => return add index (← readList? quotedName? columns) key values
      | [] => none
    | _ => none
  | _ => none

/-- A trigger up to its end. -/
def Trigger.read? : List Token → Option Trigger
  | word "CREATE" :: word "TRIGGER" :: word "IF" :: word "NOT" :: word "EXISTS" ::
      .quoted .bracket name :: word timing :: word event :: word "ON" :: .quoted .bracket table ::
      word "BEGIN" :: action => do
    return {
      name := name
      timing := ← Timing.read? timing
      event := ← RowEvent.read? event
      table := table
      action := ← IndexAction.read? action }
  | _ => none

def IndexItem.read? : List Token → Option IndexItem
  | [.quoted .bracket name] => some (column name)
  | [word key, sign "=", .quoted .apostrophe value] => some (option key value)
  | _ => none

def IndexDefinition.read? : List Token → Option IndexDefinition
  | word "CREATE" :: word "VIRTUAL" :: word "TABLE" :: word "IF" :: word "NOT" :: word "EXISTS" ::
      .quoted .bracket name :: word "USING" :: word "fts5" :: punctuation '(' :: rest =>
    match rest.splitOn (punctuation ')') with
    | [items, []] => do return { name := name, items := ← readList? IndexItem.read? items }
    | _ => none
  | _ => none

/-- Triggers, each with its end, up to the last semicolon. -/
def readTriggers? : List (List Token) → Option (List Trigger)
  | [[]] => some []
  | head :: [word "END"] :: rest => do return (← Trigger.read? head) :: (← readTriggers? rest)
  | _ => none

/-- The definition of the index and the triggers after it. Every sentence ends in a semicolon. -/
def IndexScript.read? (ts : List Token) : Option IndexScript :=
  match ts.splitOn (punctuation ';') with
  | index :: triggers => do
    return { index := ← IndexDefinition.read? index, triggers := ← readTriggers? triggers }
  | [] => none

/-- The script that a text spells, with doubled closing brackets as one in names. -/
def IndexScript.parse? (text : String) : Option IndexScript := read? (tokens text)

/-! ## Writing -/

def RowVersion.text : RowVersion → String
  | old => "old"
  | new => "new"

def ColumnName.token : ColumnName → Token
  | bare text => word text
  | quoted text => .quoted .bracket text

def Operand.tokens (o : Operand) : List Token :=
  [word o.version.text, punctuation '.', o.column.token]

def Timing.text : Timing → String
  | before => "BEFORE"
  | after => "AFTER"

def RowEvent.text : RowEvent → String
  | insert => "INSERT"
  | update => "UPDATE"
  | delete => "DELETE"

def nameTokens (name : String) : List Token := [.quoted .bracket name]

def IndexAction.tokens : IndexAction → List Token
  | remove index key =>
    [word "DELETE", word "FROM", .quoted .bracket index, word "WHERE", word "rowid", sign "="] ++
      key.tokens
  | add index columns key values =>
    [word "INSERT", word "INTO", .quoted .bracket index, punctuation '(', word "rowid",
      punctuation ','] ++
      (listTokens nameTokens columns ++ punctuation ')' :: word "VALUES" :: punctuation '(' ::
        listTokens Operand.tokens (key :: values) ++ [punctuation ')'])

def Trigger.tokens (t : Trigger) : List Token :=
  [word "CREATE", word "TRIGGER", word "IF", word "NOT", word "EXISTS", .quoted .bracket t.name,
    word t.timing.text, word t.event.text, word "ON", .quoted .bracket t.table, word "BEGIN"] ++
    t.action.tokens

def IndexItem.tokens : IndexItem → List Token
  | column name => nameTokens name
  | option key value => [word key, sign "=", .quoted .apostrophe value]

def IndexDefinition.tokens (d : IndexDefinition) : List Token :=
  [word "CREATE", word "VIRTUAL", word "TABLE", word "IF", word "NOT", word "EXISTS",
    .quoted .bracket d.name, word "USING", word "fts5", punctuation '('] ++
    (listTokens IndexItem.tokens d.items ++ [punctuation ')'])

/-- A sentence with its end. -/
def sentence (ts : List Token) : List Token := ts ++ [punctuation ';']

def IndexScript.tokens (s : IndexScript) : List Token :=
  sentence s.index.tokens ++
    s.triggers.flatMap fun t => sentence t.tokens ++ sentence [word "END"]

/-- Lists of columns and of the parts of a definition are not empty. -/
def IndexAction.Proper : IndexAction → Prop
  | remove _ _ => True
  | add _ columns _ _ => columns ≠ []

structure IndexScript.Proper (s : IndexScript) : Prop where
  items : s.index.items ≠ []
  action : ∀ t ∈ s.triggers, t.action.Proper

/-! ## Reading what is written -/

theorem ColumnName.token_ne (c : ColumnName) (p : Char) : c.token ≠ punctuation p := by
  cases c <;> simp [token]

theorem Operand.read?_tokens (o : Operand) : read? o.tokens = some o := by
  obtain ⟨version, column⟩ := o
  cases version <;> cases column <;> rfl

theorem Operand.notMem_tokens (o : Operand) {p : Char} (other : p ≠ '.') :
    punctuation p ∉ o.tokens := by
  simp [tokens, (o.column.token_ne p).symm, other]

theorem quotedName?_nameTokens (name : String) : quotedName? (nameTokens name) = some name := rfl

theorem IndexItem.read?_tokens (i : IndexItem) : read? i.tokens = some i := by
  cases i <;> rfl

theorem IndexItem.notMem_tokens (i : IndexItem) (p : Char) : punctuation p ∉ i.tokens := by
  cases i <;> simp [tokens, nameTokens]

theorem notMem_nameTokens (name : String) (p : Char) : punctuation p ∉ nameTokens name := by
  simp [nameTokens]

theorem IndexAction.read?_tokens {a : IndexAction} (proper : a.Proper) :
    read? a.tokens = some a := by
  cases a with
  | remove index key =>
    have key := key.read?_tokens
    simp only [tokens, List.cons_append, List.nil_append, read?, key, Option.map_some]
  | add index columns key values =>
    have names : punctuation ')' ∉ listTokens nameTokens columns :=
      notMem_listTokens (by decide) fun name => notMem_nameTokens name _
    have operands : punctuation ')' ∉ word "VALUES" :: punctuation '(' ::
        listTokens Operand.tokens (key :: values) := by
      simp only [List.mem_cons, reduceCtorEq, false_or]
      rintro (same | inside)
      · cases same
      · exact notMem_listTokens (by decide) (fun o => o.notMem_tokens (by decide)) inside
    have parts : (listTokens nameTokens columns ++ punctuation ')' :: word "VALUES" ::
        punctuation '(' :: listTokens Operand.tokens (key :: values) ++
          [punctuation ')']).splitOn (punctuation ')') =
        [listTokens nameTokens columns, word "VALUES" :: punctuation '(' ::
          listTokens Operand.tokens (key :: values), []] := by
      rw [List.append_assoc, List.cons_append, splitOn_append_cons names,
        splitOn_append_cons operands]
      rfl
    have columnList := readList?_listTokens quotedName?_nameTokens
      (fun name => notMem_nameTokens name ',') proper
    have valueList := readList?_listTokens Operand.read?_tokens
      (fun o => o.notMem_tokens (by decide)) (List.cons_ne_nil key values)
    simp only [tokens, List.cons_append, List.nil_append, read?, parts, columnList, valueList]
    rfl

theorem IndexAction.notMem_tokens (a : IndexAction) : punctuation ';' ∉ a.tokens := by
  cases a with
  | remove index key =>
    simpa [tokens] using key.notMem_tokens (p := ';') (by decide)
  | add index columns key values =>
    have names : punctuation ';' ∉ listTokens nameTokens columns :=
      notMem_listTokens (by decide) fun name => notMem_nameTokens name _
    have operands : punctuation ';' ∉ listTokens Operand.tokens (key :: values) :=
      notMem_listTokens (by decide) fun o => o.notMem_tokens (by decide)
    simp [tokens, names, operands]

theorem Trigger.read?_tokens {t : Trigger} (proper : t.action.Proper) :
    read? t.tokens = some t := by
  obtain ⟨name, timing, event, table, action⟩ := t
  have action := IndexAction.read?_tokens proper
  have timing : Timing.read? timing.text = some timing := by cases timing <;> rfl
  have event : RowEvent.read? event.text = some event := by cases event <;> rfl
  simp only [tokens, List.cons_append, List.nil_append, read?, timing, event, action]
  rfl

theorem IndexDefinition.read?_tokens {d : IndexDefinition} (nonempty : d.items ≠ []) :
    read? d.tokens = some d := by
  have closed : punctuation ')' ∉ listTokens IndexItem.tokens d.items :=
    notMem_listTokens (by decide) fun i => i.notMem_tokens _
  have parts : (listTokens IndexItem.tokens d.items ++ [punctuation ')']).splitOn
      (punctuation ')') = [listTokens IndexItem.tokens d.items, []] := by
    rw [splitOn_append_cons closed]
    rfl
  have items := readList?_listTokens IndexItem.read?_tokens (fun i => i.notMem_tokens ',') nonempty
  simp only [tokens, List.cons_append, List.nil_append, read?, parts, items]
  rfl

theorem splitOn_sentence {ts : List Token} (h : punctuation ';' ∉ ts) (rest : List Token) :
    (sentence ts ++ rest).splitOn (punctuation ';') = ts :: rest.splitOn (punctuation ';') := by
  rw [sentence, List.append_assoc]
  exact splitOn_append_cons h rest

theorem Trigger.notMem_tokens (t : Trigger) : punctuation ';' ∉ t.tokens := by
  simpa [tokens] using t.action.notMem_tokens

theorem IndexDefinition.notMem_tokens (d : IndexDefinition) : punctuation ';' ∉ d.tokens := by
  have items : punctuation ';' ∉ listTokens IndexItem.tokens d.items :=
    notMem_listTokens (by decide) fun i => i.notMem_tokens _
  simp [tokens, items]

theorem readTriggers?_tokens {triggers : List Trigger}
    (proper : ∀ t ∈ triggers, t.action.Proper) :
    readTriggers? ((triggers.flatMap fun t => sentence t.tokens ++ sentence [word "END"]).splitOn
      (punctuation ';')) = some triggers := by
  induction triggers with
  | nil => rfl
  | cons t triggers ih =>
    obtain ⟨first, later⟩ := List.forall_mem_cons.mp proper
    rw [List.flatMap_cons, List.append_assoc, splitOn_sentence t.notMem_tokens,
      splitOn_sentence (by simp), readTriggers?, Trigger.read?_tokens first, ih later]
    rfl

/-- A script is read from its tokens. -/
theorem IndexScript.read?_tokens {s : IndexScript} (h : s.Proper) : read? s.tokens = some s := by
  obtain ⟨index, triggers⟩ := s
  rw [tokens, read?, splitOn_sentence index.notMem_tokens]
  simp only [IndexDefinition.read?_tokens h.items, readTriggers?_tokens h.action]
  rfl

end ModelSql.Sql
