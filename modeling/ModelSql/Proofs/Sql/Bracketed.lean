import Mathlib.Data.List.TakeWhile
import ModelSql.Proofs.Table.WellFormed
/-!
# Names in brackets, as SQLite reads them

Names are quoted for SQLite in brackets, with closing brackets doubled. SQLite takes a name
to end at the first closing bracket, doubled or not, so a name that contains one is cut.

* `bracketed?`: the name that SQLite reads, and what it leaves;
* `readsAs_quoteIdentifier`: a quoted name is read up to its first closing bracket;
* `Model.sqlite_reads_names`: the names of built tables.
-/

namespace ModelSql

namespace Sql

/-- What stands before and after the first closing bracket. -/
def splitAtBracket? : List Char → Option (List Char × List Char)
  | [] => none
  | c :: text =>
    if c = ']' then some ([], text)
    else (splitAtBracket? text).map fun (before, after) => (c :: before, after)

/-- The name in brackets that a text begins with, as SQLite reads it, and the rest of the text.
There is no escape, so the name ends at the first closing bracket. -/
def bracketed? (text : String) : Option (String × String) :=
  match text.toList with
  | '[' :: inside =>
    (splitAtBracket? inside).map fun (name, rest) => (String.ofList name, String.ofList rest)
  | _ => none

/-- SQLite reads a name at the beginning of `text`, of which it leaves `left` over. -/
def ReadsAs (text name left : String) : Prop :=
  ∀ rest, bracketed? (text ++ rest) = some (name, left ++ rest)

/-- The part of a name before its first closing bracket. -/
def upToBracket (name : String) : String := String.ofList (name.toList.takeWhile (· ≠ ']'))

/-- What stands after the first closing bracket where a name is quoted. -/
def pastBracket : List Char → List Char
  | [] => []
  | c :: name => if c = ']' then c :: (Text.doubling ']' name ++ [']']) else pastBracket name

def leftover (name : String) : String := String.ofList (pastBracket name.toList)

/-! ## One name -/

theorem splitAtBracket?_doubling (name rest : List Char) :
    splitAtBracket? (Text.doubling ']' name ++ ']' :: rest) =
      some (name.takeWhile (· ≠ ']'), pastBracket name ++ rest) := by
  induction name with
  | nil => rfl
  | cons c name ih =>
    by_cases closing : c = ']'
    · subst closing
      simp [Text.doubling, splitAtBracket?, pastBracket]
    · simp [Text.doubling, splitAtBracket?, pastBracket, closing, ih]

theorem pastBracket_of_mem {name : List Char} (mem : ']' ∈ name) :
    ∃ more, pastBracket name = ']' :: more := by
  induction name with
  | nil => cases mem
  | cons c name ih =>
    unfold pastBracket
    split
    · rename_i closing
      exact ⟨_, congrArg (· :: _) closing⟩
    · rename_i other
      obtain same | mem := List.mem_cons.mp mem
      · exact absurd same.symm other
      · exact ih mem

theorem pastBracket_of_not_mem {name : List Char} (absent : ']' ∉ name) :
    pastBracket name = [] := by
  induction name with
  | nil => rfl
  | cons c name ih =>
    obtain ⟨other, absent⟩ := List.ne_and_not_mem_of_not_mem_cons absent
    rw [pastBracket, if_neg other.symm, ih absent]

theorem upToBracket_of_not_mem {name : String} (absent : ']' ∉ name.toList) :
    upToBracket name = name := by
  have whole : name.toList.takeWhile (· ≠ ']') = name.toList := by
    refine List.takeWhile_eq_self_iff.mpr fun c mem => decide_eq_true ?_
    rintro rfl
    exact absent mem
  rw [upToBracket, whole, String.ofList_toList]

theorem leftover_of_mem {name : String} (mem : ']' ∈ name.toList) :
    ∃ more, leftover name = "]" ++ more := by
  obtain ⟨more, past⟩ := pastBracket_of_mem mem
  refine ⟨String.ofList more, ?_⟩
  rw [leftover, past, ← List.singleton_append, String.ofList_append]

theorem ReadsAs.unique {text name name' left left' : String} (first : ReadsAs text name left)
    (second : ReadsAs text name' left') : name = name' ∧ left = left' := by
  have same := Option.some.inj ((first "").symm.trans (second ""))
  rw [String.append_empty, String.append_empty] at same
  exact ⟨congrArg Prod.fst same, congrArg Prod.snd same⟩

/-- A quoted name is read up to its first closing bracket. -/
theorem readsAs_quoteIdentifier (name : String) :
    ReadsAs (Engine.sqlite.dialect.quoteIdentifier name) (upToBracket name) (leftover name) := by
  intro rest
  have text : (Engine.sqlite.dialect.quoteIdentifier name ++ rest).toList =
      '[' :: (Text.doubling ']' name.toList ++ ']' :: rest.toList) := by
    rw [Dialect.quoteIdentifier, Text.enclose, String.toList_append, String.toList_ofList,
      List.cons_append, List.append_assoc]
    rfl
  simp only [bracketed?, text, splitAtBracket?_doubling, Option.map_some, String.ofList_append,
    String.ofList_toList]
  rfl

/-- Just the names without a closing bracket are read whole, with nothing left over. -/
theorem readsAs_self_iff {name : String} :
    ReadsAs (Engine.sqlite.dialect.quoteIdentifier name) name "" ↔ ']' ∉ name.toList := by
  constructor
  · intro whole mem
    obtain ⟨more, left⟩ := leftover_of_mem mem
    have none := ((readsAs_quoteIdentifier name).unique whole).2
    rw [left] at none
    simp at none
  · intro absent
    have read := readsAs_quoteIdentifier name
    rwa [upToBracket_of_not_mem absent, leftover, pastBracket_of_not_mem absent] at read

end Sql

/-! ## Tables -/

open Sql

/-- The names of a table and its columns, each with its quoted form. -/
def Table.identifiers (t : Table) : List (String × String) :=
  (t.name, t.quotedName) :: t.columns.map fun c => (c.name, c.quoted)

theorem Table.WellFormed.quoted_of_identifiers {t : Table} (h : t.WellFormed)
    {name quoted : String} (mem : (name, quoted) ∈ t.identifiers) :
    quoted = t.dialect.quoteIdentifier name := by
  obtain own | mem := List.mem_cons.mp mem
  · cases own
    exact h.quotedName_eq
  · obtain ⟨c, hc, own⟩ := List.mem_map.mp mem
    cases own
    exact (h.column c hc).quoted_eq

theorem Model.sqlite_reads_identifier {m : Model} {override : Option String}
    {settings : Settings} {t : Table} (built : m.build .sqlite override settings = .ok t)
    {name quoted : String} (mem : (name, quoted) ∈ t.identifiers) :
    (bracketed? quoted).map (·.1) = some (upToBracket name) := by
  have own := (m.build_wellFormed built).quoted_of_identifiers mem
  rw [Table.dialect, m.build_engine built] at own
  have whole := readsAs_quoteIdentifier name ""
  rw [String.append_empty] at whole
  rw [own, whole]
  rfl

/-- SQLite reads a quoted name up to its first closing bracket: all of a name that has none,
with nothing left over, and else a part of it, with a closing bracket left over. So it takes
two names of tables and columns for one if they agree up to there. -/
theorem Model.sqlite_reads_names {m m' : Model} {override override' : Option String}
    {settings settings' : Settings} {t t' : Table}
    (built : m.build .sqlite override settings = .ok t)
    (built' : m'.build .sqlite override' settings' = .ok t') :
    (∀ name, ReadsAs (Engine.sqlite.dialect.quoteIdentifier name) (upToBracket name)
      (leftover name)) ∧
    (∀ name, ReadsAs (Engine.sqlite.dialect.quoteIdentifier name) name "" ↔ ']' ∉ name.toList) ∧
    (∀ name, ']' ∈ name.toList → ∃ more, leftover name = "]" ++ more) ∧
    ∀ name quoted name' quoted', (name, quoted) ∈ t.identifiers →
      (name', quoted') ∈ t'.identifiers →
      ((bracketed? quoted).map (·.1) = (bracketed? quoted').map (·.1) ↔
        upToBracket name = upToBracket name') ∧
      (']' ∉ name.toList → ']' ∉ name'.toList → name ≠ name' →
        (bracketed? quoted).map (·.1) ≠ (bracketed? quoted').map (·.1)) := by
  refine ⟨readsAs_quoteIdentifier, fun _ => readsAs_self_iff, fun _ => leftover_of_mem, ?_⟩
  intro name quoted name' quoted' mem mem'
  rw [m.sqlite_reads_identifier built mem, m'.sqlite_reads_identifier built' mem', Option.some_inj]
  refine ⟨Iff.rfl, fun absent absent' other => ?_⟩
  rw [upToBracket_of_not_mem absent, upToBracket_of_not_mem absent']
  exact fun same => other (Option.some.inj same)

/-- A model with two names that agree up to their closing brackets. -/
def bracketModel : Model where
  name := "odd]name"
  fields := [{ name := "a]b", type := .int }, { name := "a]c", type := .string }]

def bracketTable : Table where
  model := "odd]name"
  name := "odd]name"
  quotedName := "[odd]]name]"
  engine := .sqlite
  columns := [
    { field := "a]b", name := "a]b", quoted := "[a]]b]", type := .int, native := "INTEGER"
      nullable := false, identity := false },
    { field := "a]c", name := "a]c", quoted := "[a]]c]", type := .string, native := "TEXT"
      nullable := false, identity := false }]
  ignored := []

theorem Model.sqlite_reads_names_brackets :
    bracketModel.build .sqlite = .ok bracketTable ∧
    ReadsAs "[Person]" "Person" "" ∧
    (bracketed? "[a]]b]").map (·.1) = (bracketed? "[a]]c]").map (·.1) := by
  have built : bracketModel.build .sqlite = .ok bracketTable := ok_of_toOption (by decide +kernel)
  obtain ⟨-, whole, -, read⟩ := sqlite_reads_names built built
  have alike := (read "a]b" "[a]]b]" "a]c" "[a]]c]" (by decide) (by decide)).1
  exact ⟨built, (whole "Person").mpr (by decide), alike.mpr (by decide)⟩

/-- The quoted form of a name with a closing bracket is not one name, and names that differ
may be read alike. -/
theorem Engine.sqlite_cuts_names :
    bracketed? (sqlite.dialect.quoteIdentifier "odd]name") = some ("odd", "]name]") ∧
    (bracketModel.build .sqlite).toOption = some bracketTable ∧
    bracketTable.columns.map (·.name) = ["a]b", "a]c"] ∧
    bracketTable.columns.map (fun c => bracketed? c.quoted) =
      [some ("a", "]b]"), some ("a", "]c]")] := by
  decide +kernel

end ModelSql
