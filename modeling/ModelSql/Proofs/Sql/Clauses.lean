import Mathlib.Data.List.TakeWhile
import ModelSql.Proofs.Sql.Token
/-!
# Clauses of statements

The names that an insert lists, what it outputs and the names that an update assigns are
read from the tokens of the text, between the keywords around them. What stands after the
keyword that ends a clause has no influence on it.

* `insertClauses`, `listedNames`, `outputClause`, `assignedNames`: the readers;
* `Begins text ts`: the tokens of `text` begin with `ts`;
* `Begins.insertClauses_eq`, `Begins.assignedNames_eq`: a beginning of a statement determines
  its clauses.
-/

namespace ModelSql.Sql

namespace Token

@[simp]
def word? : Token → Option String
  | word text => some text
  | _ => none

/-- The name in brackets. -/
@[simp]
def name? : Token → Option String
  | quoted .bracket name => some name
  | _ => none

end Token

def wordsOf (ts : List Token) : List String := ts.filterMap Token.word?

def namesOf (ts : List Token) : List String := ts.filterMap Token.name?

section
variable (t : Token) (ts us : List Token)

@[simp]
theorem wordsOf_nil : wordsOf [] = [] := rfl

@[simp]
theorem wordsOf_cons : wordsOf (t :: ts) = t.word?.toList ++ wordsOf ts :=
  filterMap_cons_toList t ts Token.word?

@[simp]
theorem wordsOf_append : wordsOf (ts ++ us) = wordsOf ts ++ wordsOf us := List.filterMap_append

@[simp]
theorem namesOf_nil : namesOf [] = [] := rfl

@[simp]
theorem namesOf_cons : namesOf (t :: ts) = t.name?.toList ++ namesOf ts :=
  filterMap_cons_toList t ts Token.name?

@[simp]
theorem namesOf_append : namesOf (ts ++ us) = namesOf ts ++ namesOf us := List.filterMap_append

end

/-- The tokens after the first occurrence of a word. -/
def afterWord (word : String) (ts : List Token) : List Token :=
  (ts.dropWhile (·.word? ≠ some word)).tail

/-- The tokens before the first occurrence of one of the words. -/
def upToWord (words : List String) (ts : List Token) : List Token :=
  ts.takeWhile fun t => ∀ word ∈ words, t.word? ≠ some word

/-- What an insert says between its table and its values. -/
def insertClauses (text : String) : List Token :=
  upToWord ["DEFAULT", "VALUES"] (afterWord "INTO" (afterWord "INSERT" (tokens text))).tail

/-- The names of the columns that an insert lists. -/
def listedNames (text : String) : List String :=
  namesOf (upToWord ["OUTPUT"] (insertClauses text))

/-- What an insert outputs. -/
def outputClause (text : String) : List Token := afterWord "OUTPUT" (insertClauses text)

/-- The names of the columns that an update assigns. -/
def assignedNames (text : String) : List String :=
  namesOf (upToWord ["WHERE"] (afterWord "SET" (tokens text)))

section
variable {ts more : List Token} {word : String} {words : List String}

theorem word?_ne_of_not_mem (absent : word ∉ wordsOf ts) {t : Token} (mem : t ∈ ts) :
    t.word? ≠ some word :=
  fun own => absent (List.mem_filterMap.mpr ⟨t, mem, own⟩)

theorem afterWord_append (absent : word ∉ wordsOf ts) :
    afterWord word (ts ++ .word word :: more) = more := by
  have before : ∀ t ∈ ts, decide (t.word? ≠ some word) = true :=
    fun t mem => decide_eq_true (word?_ne_of_not_mem absent mem)
  rw [afterWord, List.dropWhile_append_of_pos before, List.dropWhile_cons_of_neg (by simp),
    List.tail_cons]

theorem upToWord_append (absent : ∀ word ∈ words, word ∉ wordsOf ts) (mem : word ∈ words) :
    upToWord words (ts ++ .word word :: more) = ts := by
  have before : ∀ t ∈ ts, decide (∀ word ∈ words, t.word? ≠ some word) = true :=
    fun t ht => decide_eq_true fun w hw => word?_ne_of_not_mem (absent w hw) ht
  have stops : ¬ ∀ w ∈ words, (Token.word word).word? ≠ some w := fun h => h word mem rfl
  rw [upToWord, List.takeWhile_append_of_pos before,
    List.takeWhile_cons_of_neg (by simpa using stops), List.append_nil]

theorem upToWord_of_absent (absent : ∀ word ∈ words, word ∉ wordsOf ts) :
    upToWord words ts = ts := by
  refine List.takeWhile_eq_self_iff.mpr fun t ht => decide_eq_true fun w hw => ?_
  exact word?_ne_of_not_mem (absent w hw) ht

end

/-- The tokens of the text begin with `ts`, whatever stands after some beginning of it. -/
def Begins (text : String) (ts : List Token) : Prop :=
  ∃ front rest more, text = front ++ rest ∧ Opens front (ts ++ more)

section
variable {s u text : String} {ts us : List Token}

theorem Opens.begins (h : Opens s ts) : Begins s ts := by
  refine ⟨s, "", [], String.append_empty.symm, ?_⟩
  rwa [List.append_nil]

theorem Begins.append (h : Begins s ts) : Begins (s ++ u) ts := by
  obtain ⟨front, rest, more, rfl, opens⟩ := h
  exact ⟨front, rest ++ u, more, String.append_assoc, opens⟩

theorem Begins.prepend (hs : Opens s ts) (h : Begins u us) : Begins (s ++ u) (ts ++ us) := by
  obtain ⟨front, rest, more, rfl, opens⟩ := h
  refine ⟨s ++ front, rest, more, String.append_assoc.symm, ?_⟩
  rw [List.append_assoc]
  exact hs.trans opens

theorem Begins.of_append (h : Begins text (ts ++ us)) : Begins text ts := by
  obtain ⟨front, rest, more, same, opens⟩ := h
  exact ⟨front, rest, us ++ more, same, by rwa [← List.append_assoc]⟩

theorem Begins.tokens (h : Begins text ts) : ∃ more, Sql.tokens text = ts ++ more := by
  obtain ⟨front, rest, more, rfl, opens⟩ := h
  refine ⟨more ++ Mode.between.tokens rest.toList, ?_⟩
  rw [Sql.tokens, String.toList_append, opens, List.append_assoc]

theorem Begins.insertClauses_eq {before clauses : List Token} {target : Token} {stop : String}
    (h : Begins text (before ++ .word "INSERT" :: .word "INTO" :: target :: clauses ++
      [.word stop]))
    (inserts : "INSERT" ∉ wordsOf before) (stops : stop ∈ ["DEFAULT", "VALUES"])
    (goesOn : ∀ word ∈ ["DEFAULT", "VALUES"], word ∉ wordsOf clauses) :
    insertClauses text = clauses := by
  obtain ⟨more, whole⟩ := h.tokens
  have into : afterWord "INTO" ([] ++ .word "INTO" :: (target :: clauses ++ .word stop :: more)) =
      target :: clauses ++ .word stop :: more := afterWord_append List.not_mem_nil
  have split : Sql.tokens text = before ++ .word "INSERT" ::
      ([] ++ .word "INTO" :: (target :: clauses ++ .word stop :: more)) := by
    rw [whole]
    simp only [List.append_assoc, List.cons_append, List.nil_append]
  rw [insertClauses, split, afterWord_append inserts, into]
  exact upToWord_append goesOn stops

example : outputClause "INSERT INTO [T] ([a])\nOUTPUT Inserted.[b] INTO @c\nVALUES (@a);" =
    [.word "Inserted", .punctuation '.', .quoted .bracket "b", .word "INTO", .parameter "@c"] := by
  decide +kernel

theorem Begins.assignedNames_eq {before assignments : List Token}
    (h : Begins text (before ++ .word "SET" :: assignments ++ [.word "WHERE"]))
    (sets : "SET" ∉ wordsOf before) (goesOn : "WHERE" ∉ wordsOf assignments) :
    assignedNames text = namesOf assignments := by
  obtain ⟨more, whole⟩ := h.tokens
  have split : Sql.tokens text = before ++ .word "SET" ::
      (assignments ++ .word "WHERE" :: more) := by
    rw [whole]
    simp only [List.append_assoc, List.cons_append, List.nil_append]
  have ends : ∀ word ∈ ["WHERE"], word ∉ wordsOf assignments :=
    List.forall_mem_singleton.mpr goesOn
  rw [assignedNames, split, afterWord_append sets, upToWord_append ends List.mem_cons_self]

end

end ModelSql.Sql
