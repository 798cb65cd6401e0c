import ModelSql.Proofs.Schema.ScriptReading
import ModelSql.Value.Basic
/-!
# Reading delimited texts back

A delimited text ends at the first closing mark that is not doubled. A reader that knows the
two marks and nothing else gets back what was written, unless a closing mark follows it right
away. Nothing that a text contains ends it early, runs of closing marks included.

* `delimited?`: the delimited text at the beginning of a text, and the rest;
* `delimited?_eq_some_iff`: what is read is what was written;
* `Dialect.quoting_reversible`: names, labels, text values and the literals of scripts.
-/

namespace ModelSql

namespace Text

/-- The text up to the first closing mark that is not doubled, with doubled ones read as one,
and what follows that mark. -/
def upToClosing? (closing : Char) : List Char → Option (List Char × List Char)
  | [] => none
  | [c] => if c = closing then some ([], []) else none
  | c :: d :: more =>
    if c = closing then
      if d = closing then (upToClosing? closing more).map fun (text, rest) => (c :: text, rest)
      else some ([], d :: more)
    else (upToClosing? closing (d :: more)).map fun (text, rest) => (c :: text, rest)

/-- The delimited text that a text begins with, and what follows it. -/
def delimited? (opening closing : Char) (text : String) : Option (String × String) :=
  match text.toList with
  | [] => none
  | c :: inside =>
    if c = opening then
      (upToClosing? closing inside).map fun (text, rest) => (String.ofList text, String.ofList rest)
    else none

/-- What `render` writes is delimited, and is read back. -/
structure Reversible (opening closing : Char) (render : String → String) : Prop where
  reads : ∀ text rest, delimited? opening closing (render text ++ rest) = some (text, rest) ↔
    rest.toList.head? ≠ some closing
  /-- A text begins with one of these texts at most. -/
  determined : ∀ text text' rest rest', rest.toList.head? ≠ some closing →
    rest'.toList.head? ≠ some closing → render text ++ rest = render text' ++ rest' →
    text = text' ∧ rest = rest'
  injective : Function.Injective render

/-! ## After the opening mark -/

section
variable {closing : Char}

theorem upToClosing?_cons {c : Char} (other : c ≠ closing) (text : List Char) :
    upToClosing? closing (c :: text) =
      (upToClosing? closing text).map fun (text, rest) => (c :: text, rest) := by
  cases text with
  | nil => simp [upToClosing?, other]
  | cons d text => simp [upToClosing?, other]

theorem upToClosing?_doubled (text : List Char) :
    upToClosing? closing (closing :: closing :: text) =
      (upToClosing? closing text).map fun (text, rest) => (closing :: text, rest) := by
  simp [upToClosing?]

theorem upToClosing?_single {rest : List Char} (ends : rest.head? ≠ some closing) :
    upToClosing? closing (closing :: rest) = some ([], rest) := by
  cases rest with
  | nil => simp [upToClosing?]
  | cons d rest =>
    have other : d ≠ closing := fun same => ends (congrArg some same)
    simp [upToClosing?, other]

theorem upToClosing?_doubling (text : List Char) {rest : List Char}
    (ends : rest.head? ≠ some closing) :
    upToClosing? closing (doubling closing text ++ closing :: rest) = some (text, rest) := by
  induction text with
  | nil => exact upToClosing?_single ends
  | cons c text ih =>
    by_cases own : c = closing
    · subst own
      rw [doubling, if_pos rfl, List.cons_append, List.cons_append, upToClosing?_doubled, ih]
      rfl
    · rw [doubling, if_neg own, List.cons_append, upToClosing?_cons own, ih]
      rfl

theorem eq_of_upToClosing? {text inside rest : List Char}
    (read : upToClosing? closing text = some (inside, rest)) :
    text = doubling closing inside ++ closing :: rest ∧ rest.head? ≠ some closing := by
  induction text using upToClosing?.induct closing generalizing inside with
  | case1 => cases read
  | case2 =>
    rw [upToClosing?_single (by simp)] at read
    cases read
    exact ⟨rfl, by simp⟩
  | case3 c other => simp [upToClosing?, other] at read
  | case4 more ih =>
    rw [upToClosing?_doubled] at read
    obtain ⟨⟨text, left⟩, later, own⟩ := Option.map_eq_some_iff.mp read
    cases own
    obtain ⟨rfl, ends⟩ := ih later
    exact ⟨by simp [doubling], ends⟩
  | case5 d more other =>
    have ends : (d :: more).head? ≠ some closing := fun same => other (Option.some.inj same)
    rw [upToClosing?_single ends] at read
    cases read
    exact ⟨rfl, ends⟩
  | case6 c d more other ih =>
    rw [upToClosing?_cons other] at read
    obtain ⟨⟨text, left⟩, later, own⟩ := Option.map_eq_some_iff.mp read
    cases own
    obtain ⟨same, ends⟩ := ih later
    exact ⟨by simp [doubling, other, same], ends⟩

end

/-! ## Delimited texts -/

section
variable {opening closing : Char}

/-- What is read from the beginning of a text is what was written there. -/
theorem delimited?_eq_some_iff {text inside rest : String} :
    delimited? opening closing text = some (inside, rest) ↔
      text = enclose opening closing inside ++ rest ∧ rest.toList.head? ≠ some closing := by
  have written : (enclose opening closing inside ++ rest).toList =
      opening :: (doubling closing inside.toList ++ closing :: rest.toList) := by
    simp [enclose]
  constructor
  · intro read
    unfold delimited? at read
    split at read
    · cases read
    · rename_i c more chars
      split at read
      · rename_i own
        obtain ⟨⟨inner, left⟩, found, same⟩ := Option.map_eq_some_iff.mp read
        cases same
        obtain ⟨rfl, ends⟩ := eq_of_upToClosing? found
        simp only [String.toList_ofList] at written ⊢
        exact ⟨String.toList_inj.mp (by rw [chars, own, written]), ends⟩
      · cases read
  · rintro ⟨rfl, ends⟩
    simp only [delimited?, written, if_true, upToClosing?_doubling inside.toList ends,
      Option.map_some, String.ofList_toList]

example : delimited? '[' ']' "[a]]b]]] = 1" = some ("a]b]", " = 1") := by decide +kernel

theorem reversible_enclose : Reversible opening closing (enclose opening closing) := by
  have reads (text : String) {rest : String} (ends : rest.toList.head? ≠ some closing) :
      delimited? opening closing (enclose opening closing text ++ rest) = some (text, rest) :=
    delimited?_eq_some_iff.mpr ⟨rfl, ends⟩
  have determined (text text' rest rest' : String) (ends : rest.toList.head? ≠ some closing)
      (ends' : rest'.toList.head? ≠ some closing)
      (same : enclose opening closing text ++ rest = enclose opening closing text' ++ rest') :
      text = text' ∧ rest = rest' := by
    have read := reads text ends
    rw [same, reads text' ends'] at read
    cases read
    exact ⟨rfl, rfl⟩
  constructor
  case reads => exact fun text rest => ⟨fun read => (delimited?_eq_some_iff.mp read).2, reads text⟩
  case determined => exact determined
  case injective =>
    intro text text' same
    exact (determined text text' "" "" (by simp) (by simp) (congrArg (· ++ "") same)).1

end

end Text

/-! ## Options of indexes -/

/-- After an item of a list there is nothing, or a separator. -/
theorem intercalate_of_mem (separator : String) {item : String} {items : List String}
    (mem : item ∈ items) :
    ∃ before after, separator.intercalate items = before ++ item ++ after ∧
      (after = "" ∨ ∃ more, after = separator ++ more) := by
  induction items with
  | nil => cases mem
  | cons first items ih =>
    cases items with
    | nil =>
      obtain rfl := List.mem_singleton.mp mem
      exact ⟨"", "", by simp, .inl rfl⟩
    | cons second items =>
      rw [String.intercalate_cons_cons]
      obtain rfl | mem := List.mem_cons.mp mem
      · exact ⟨"", _, by rw [String.empty_append, String.append_assoc], .inr ⟨_, rfl⟩⟩
      · obtain ⟨before, after, split, ends⟩ := ih mem
        refine ⟨first ++ separator ++ before, after, ?_, ends⟩
        rw [split]
        simp only [String.append_assoc]

/-- The items of an index end before a line break or a comma, never before a quote. -/
theorem head?_after_item {after : String} (ends : after = "" ∨ ∃ more, after = ",\n    " ++ more)
    (later : String) : (after ++ ("\n);" ++ later)).toList.head? ≠ some '\'' := by
  have line : "\n);".toList.head? = some '\n' := by decide
  have comma : ",\n    ".toList.head? = some ',' := by decide
  obtain rfl | ⟨more, rfl⟩ := ends
  · rw [String.empty_append, String.toList_append, List.head?_append, line]
    simp
  · rw [String.append_assoc, String.toList_append, List.head?_append, comma]
    simp

/-- The value of an option is read back where it stands in a script. -/
theorem Table.reads_option {t : Table} {names : List String} {mode : FullTextMode}
    {script : String} (made : t.fullTextScript names mode = .ok script) {key value : String}
    (mem : Sql.IndexItem.option key value ∈ t.indexOptions mode) :
    ∃ before text rest, script = before ++ key ++ " = " ++ text ∧
      Text.delimited? '\'' '\'' text = some (value, rest) := by
  obtain ⟨-, -, columns, -, rfl⟩ := t.fullTextScript_eq_ok_iff.mp made
  have option : key ++ " = " ++ Text.literal value ∈ t.fullTextOptions mode := by
    rw [t.fullTextOptions_eq]
    exact List.mem_map.mpr ⟨_, mem, rfl⟩
  obtain ⟨before, after, split, ends⟩ := intercalate_of_mem ",\n    "
    (List.mem_append_right (columns.map (·.quoted)) option)
  rw [Table.scriptOf]
  generalize String.join ((Table.syncTriggers mode).map (t.triggerDefinition columns)) = triggers
  refine ⟨"CREATE VIRTUAL TABLE IF NOT EXISTS " ++ t.fullTextName ++ " USING fts5(\n    " ++ before,
    Text.literal value ++ (after ++ ("\n);" ++ triggers)), after ++ ("\n);" ++ triggers), ?_,
    (Text.reversible_enclose.reads value _).mpr (head?_after_item ends triggers)⟩
  delta Table.fullTextDefinition
  rw [split]
  simp only [String.append_assoc]

/-- Each text in quotes is read back whole, whatever it contains and whatever follows it, as
long as that does not begin with the closing quote: names and labels in every dialect, values
that are texts, and literals, of which the options of an index are made. -/
theorem Dialect.quoting_reversible :
    (∀ d : Dialect, Text.Reversible d.openingQuote d.closingQuote d.quoteIdentifier ∧
      Text.Reversible '\'' '\'' d.quoteAlias) ∧
    (∀ engine : Engine, engine.dialect.openingQuote = '[' ∧ engine.dialect.closingQuote = ']') ∧
    (∀ (engine : Engine) (nativeType : SemanticType → Option String) (identityClause : String),
      let d : Dialect := { engine, nativeType, identityClause }
      d.openingQuote = '"' ∧ d.closingQuote = '"') ∧
    Text.Reversible '\'' '\'' (fun text => (Value.text text).toLiteral) ∧
    Text.Reversible '\'' '\'' Text.literal ∧
    ∀ (t : Table) (names : List String) (mode : FullTextMode) (script key value : String),
      t.fullTextScript names mode = .ok script →
      Sql.IndexItem.option key value ∈ t.indexOptions mode →
      ∃ before text rest, script = before ++ key ++ " = " ++ text ∧
        Text.delimited? '\'' '\'' text = some (value, rest) := by
  refine ⟨fun d => ⟨Text.reversible_enclose, Text.reversible_enclose⟩, ?_, ?_,
    Text.reversible_enclose, Text.reversible_enclose, ?_⟩
  · intro engine
    cases engine <;> exact ⟨rfl, rfl⟩
  · intro engine nativeType identityClause
    exact ⟨rfl, rfl⟩
  · intro t names mode script key value made mem
    exact t.reads_option made mem

/-- A table with an apostrophe in its name. -/
def noteTable : Table where
  model := "Note"
  name := "the author's"
  quotedName := "[the author's]"
  engine := .sqlite
  columns := [
    { field := "Page", name := "Page", quoted := "[Page]", type := .string, native := "TEXT"
      nullable := false, identity := false }]
  ignored := []

/-- Texts that end in closing marks, with others after them, and the option of an index that
names its table. -/
theorem Dialect.quoting_reversible_note :
    Text.delimited? '[' ']' (Engine.sqlServer.dialect.quoteIdentifier "a]b]]" ++ ", [c]") =
      some ("a]b]]", ", [c]") ∧
    Text.delimited? '\'' '\'' ((Value.text "it's '").toLiteral ++ " OR 'x' = 'x'") =
      some ("it's '", " OR 'x' = 'x'") ∧
    ∃ script before text rest, noteTable.fullTextScript ["Page"] .externalContent = .ok script ∧
      script = before ++ "content" ++ " = " ++ text ∧
      Text.delimited? '\'' '\'' text = some ("the author's", rest) := by
  obtain ⟨names, marks, -, values, -, options⟩ := quoting_reversible
  have present : (noteTable.fullTextScript ["Page"] .externalContent).toOption.isSome = true := by
    decide +kernel
  obtain ⟨script, created⟩ := Option.isSome_iff_exists.mp present
  have made := ok_of_toOption created
  have own : Sql.IndexItem.option "content" "the author's" ∈
      noteTable.indexOptions .externalContent := List.mem_cons_self
  obtain ⟨before, text, rest, split, read⟩ :=
    options noteTable ["Page"] .externalContent script _ _ made own
  have name := ((names Engine.sqlServer.dialect).1.reads "a]b]]" ", [c]").mpr (by decide)
  have value := (values.reads "it's '" " OR 'x' = 'x'").mpr (by decide)
  exact ⟨name, value, script, before, text, rest, made, split, read⟩

end ModelSql
