import ModelSql.Declaration.Naming
/-!
# Words of identifiers

A field is named in one pass over its identifier, which carries a flag. The name is also what the
words of the identifier make: the parts between underscores, each with a capital, without the
marks in front of the first.

* `Declaration.Unmarked`: a text without the marks in front of it;
* `Declaration.joinWords_of_parts`: the pass from either flag, by the parts of the text;
* `Declaration.pascalCase_joins_words`: names of fields, word by word.
-/

namespace ModelSql.Declaration

/-- A text is as many marks `r#` as stand in front of it, and the rest. -/
def Unmarked (text rest : List Char) : Prop :=
  (∃ marks, text = (List.replicate marks ['r', '#']).flatten ++ rest) ∧ ¬ ['r', '#'] <+: rest

/-- The parts of a text between its underscores, without empty ones. -/
def words (text : List Char) : List (List Char) :=
  (text.splitOn '_').filter fun part => !part.isEmpty

/-- A word in which the first character is upper case if it is a letter of ASCII. -/
def capitalized (word : List Char) : List Char := word.modifyHead Char.toUpper

variable {text rest : List Char}

/-! ## Marks -/

theorem dropRawMarks_of_bare (bare : ¬ ['r', '#'] <+: text) : dropRawMarks text = text := by
  unfold dropRawMarks
  split
  · rename_i rest
    exact absurd ⟨rest, rfl⟩ bare
  · rfl

theorem unmarked_dropRawMarks (text : List Char) : Unmarked text (dropRawMarks text) := by
  induction text using dropRawMarks.induct with
  | case1 rest ih =>
    obtain ⟨⟨marks, own⟩, bare⟩ := ih
    refine ⟨⟨marks + 1, ?_⟩, bare⟩
    rw [List.replicate_succ, List.flatten_cons, List.append_assoc, dropRawMarks, ← own]
    rfl
  | case2 text other =>
    have bare : ¬ ['r', '#'] <+: text := fun ⟨rest, own⟩ => other rest own.symm
    rw [dropRawMarks_of_bare bare]
    exact ⟨⟨0, rfl⟩, bare⟩

theorem dropRawMarks_eq_iff : dropRawMarks text = rest ↔ Unmarked text rest := by
  constructor
  · rintro rfl
    exact unmarked_dropRawMarks text
  · rintro ⟨⟨marks, rfl⟩, bare⟩
    induction marks with
    | zero => exact dropRawMarks_of_bare bare
    | succ marks ih => exact ih

theorem Unmarked.suffix (h : Unmarked text rest) : rest <:+ text := by
  obtain ⟨⟨marks, own⟩, -⟩ := h
  exact ⟨_, own.symm⟩

/-- No mark reaches over an underscore. -/
theorem Unmarked.append_underscore (h : Unmarked text rest) (later : List Char) :
    Unmarked (text ++ '_' :: later) (rest ++ '_' :: later) := by
  obtain ⟨⟨marks, own⟩, bare⟩ := h
  refine ⟨⟨marks, by rw [own, List.append_assoc]⟩, ?_⟩
  intro marked
  -- A mark is two characters: it lies in the rest, unless the rest is shorter than that.
  obtain _ | ⟨c, _ | ⟨d, rest⟩⟩ := rest
  · simp at marked
  · simp at marked
  · exact bare (by simpa using marked)

/-! ## Words -/

/-- The first part goes on with a word or starts one, as the flag says, and every later part
starts one. -/
theorem joinWords_of_parts {part : List Char} {parts : List (List Char)}
    (cut : text.splitOn '_' = part :: parts) (starts : Bool) :
    joinWords starts text =
      (if starts then capitalized part else part) ++ parts.flatMap capitalized := by
  induction text generalizing part parts starts with
  | nil =>
    cases cut
    cases starts <;> rfl
  | cons c text ih =>
    obtain ⟨next, later, inner⟩ := List.exists_cons_of_ne_nil (List.splitOn_ne_nil '_' text)
    rw [List.splitOn_cons_eq_if_modifyHead, inner] at cut
    by_cases separates : c = '_'
    · -- The first part is empty, and the flag goes up for the next one.
      rw [if_pos (beq_iff_eq.mpr separates)] at cut
      cases cut
      rw [joinWords, if_pos separates, ih inner true]
      cases starts <;> rfl
    · rw [if_neg (mt beq_iff_eq.mp separates)] at cut
      cases cut
      rw [joinWords, if_neg separates, ih inner false]
      cases starts <;> rfl

/-- An empty part adds nothing to a name. -/
theorem flatMap_words (text : List Char) :
    (words text).flatMap capitalized = (text.splitOn '_').flatMap capitalized := by
  rw [words]
  induction text.splitOn '_' with
  | nil => rfl
  | cons part parts ih =>
    cases part with
    | nil => exact ih
    | cons c part => exact congrArg (capitalized (c :: part) ++ ·) ih

theorem joinWords_eq_words (text : List Char) :
    joinWords true text = (words text).flatMap capitalized := by
  obtain ⟨part, parts, cut⟩ := List.exists_cons_of_ne_nil (List.splitOn_ne_nil '_' text)
  rw [joinWords_of_parts cut true, flatMap_words, cut]
  rfl

theorem words_append_underscore (text later : List Char) :
    words (text ++ '_' :: later) = words text ++ words later := by
  rw [words, List.splitOn_append_cons_self, List.filter_append]
  rfl

/-! ## Names -/

/-- A character is its own capital, or its capital is a capital letter. -/
theorem toUpper_eq_or_isUpper (c : Char) : c.toUpper = c ∨ c.toUpper.isUpper := by
  unfold Char.toUpper
  split
  · rename_i lower
    right
    unfold Char.isUpper
    simp only [decide_eq_true_eq, ge_iff_le, UInt32.le_iff_toNat_le, UInt32.toNat_add] at lower ⊢
    have : 'a'.val.toNat = 97 := rfl
    have : 'z'.val.toNat = 122 := rfl
    have : 'A'.val.toNat = 65 := rfl
    have : 'Z'.val.toNat = 90 := rfl
    have : ('A'.val - 'a'.val).toNat = 2 ^ 32 - 32 := rfl
    omega
  · exact .inl rfl

theorem toUpper_of_isUpper {c : Char} (upper : c.isUpper) : c.toUpper = c := by
  unfold Char.toUpper
  split
  · rename_i lower
    unfold Char.isUpper at upper
    simp only [decide_eq_true_eq, ge_iff_le, UInt32.le_iff_toNat_le] at upper lower
    have : 'a'.val.toNat = 97 := rfl
    have : 'Z'.val.toNat = 90 := rfl
    omega
  · rfl

theorem toUpper_toUpper (c : Char) : c.toUpper.toUpper = c.toUpper := by
  obtain same | upper := toUpper_eq_or_isUpper c
  · rw [same, same]
  · exact toUpper_of_isUpper upper

theorem toUpper_ne_underscore {c : Char} (other : c ≠ '_') : c.toUpper ≠ '_' := by
  obtain same | upper := toUpper_eq_or_isUpper c
  · rwa [same]
  · intro own
    rw [own] at upper
    exact absurd upper (by decide)

theorem underscore_not_mem_joinWords (starts : Bool) (text : List Char) :
    '_' ∉ joinWords starts text := by
  induction text generalizing starts with
  | nil => exact List.not_mem_nil
  | cons c text ih =>
    rw [joinWords]
    split
    · exact ih true
    · rename_i other
      refine List.not_mem_cons_of_ne_of_not_mem ?_ (ih false)
      cases starts with
      | true => exact (toUpper_ne_underscore other).symm
      | false => exact Ne.symm other

theorem capitalized_joinWords (text : List Char) :
    capitalized (joinWords true text) = joinWords true text := by
  induction text with
  | nil => rfl
  | cons c text ih =>
    rw [joinWords]
    split
    · exact ih
    · exact congrArg (· :: joinWords false text) (toUpper_toUpper c)

/-- A name starts with no mark: its first character is no small letter. -/
theorem joinWords_bare (text : List Char) : ¬ ['r', '#'] <+: joinWords true text := by
  rintro ⟨rest, own⟩
  have same := capitalized_joinWords text
  rw [← own] at same
  simp [capitalized] at same

theorem joinWords_joinWords (text : List Char) :
    joinWords true (joinWords true text) = joinWords true text := by
  have cut := List.splitOn_eq_singleton (underscore_not_mem_joinWords true text)
  rw [joinWords_of_parts cut true]
  simpa using capitalized_joinWords text

theorem length_joinWords (starts : Bool) (text : List Char) :
    (joinWords starts text).length = text.countP (· ≠ '_') := by
  induction text generalizing starts with
  | nil => rfl
  | cons c text ih =>
    rw [joinWords]
    split
    · rename_i separates
      simp [ih, separates]
    · rename_i other
      simp [ih, other]

/-- Every mark that is dropped is two characters that the name would have. -/
theorem joinWords_dropRawMarks_iff :
    joinWords true text = joinWords true (dropRawMarks text) ↔ ¬ ['r', '#'] <+: text := by
  constructor
  · rintro same ⟨rest, rfl⟩
    have kept : (dropRawMarks rest).countP (· ≠ '_') ≤ rest.countP (· ≠ '_') :=
      (unmarked_dropRawMarks rest).suffix.sublist.countP_le
    have lengths : rest.countP (· ≠ '_') + 2 = (dropRawMarks rest).countP (· ≠ '_') := by
      simpa [length_joinWords, dropRawMarks] using congrArg List.length same
    omega
  · intro bare
    rw [dropRawMarks_of_bare bare]

theorem pascalCase_append_underscore (s t : String) :
    pascalCase (s ++ "_" ++ t) = pascalCase s ++ String.ofList (joinWords true t.toList) := by
  have text : (s ++ "_" ++ t).toList = s.toList ++ '_' :: t.toList := by simp
  have dropped := dropRawMarks_eq_iff.mpr
    ((unmarked_dropRawMarks s.toList).append_underscore t.toList)
  rw [pascalCase, text, dropped, joinWords_eq_words, words_append_underscore, List.flatMap_append,
    String.ofList_append, ← joinWords_eq_words, ← joinWords_eq_words, pascalCase]

/-- The name of a field is made of the words of its identifier. It has no underscore and names
the same field again. Identifiers joined by an underscore name what their names make together,
unless the second starts with a mark, which is dropped in front only. -/
theorem pascalCase_joins_words (s : String) :
    (∃ rest, Unmarked s.toList rest ∧
      pascalCase s = String.ofList ((words rest).flatMap capitalized)) ∧
    '_' ∉ (pascalCase s).toList ∧
    pascalCase (pascalCase s) = pascalCase s ∧
    ∀ t : String, pascalCase (s ++ "_" ++ t) = pascalCase s ++ pascalCase t ↔
      ¬ ['r', '#'] <+: t.toList := by
  have name : (pascalCase s).toList = joinWords true (dropRawMarks s.toList) := by
    rw [pascalCase, String.toList_ofList]
  refine ⟨⟨dropRawMarks s.toList, unmarked_dropRawMarks _, ?_⟩, ?_, ?_, ?_⟩
  · rw [pascalCase, joinWords_eq_words]
  · rw [name]
    exact underscore_not_mem_joinWords true _
  · rw [pascalCase, name, dropRawMarks_of_bare (joinWords_bare _), joinWords_joinWords, pascalCase]
  · intro t
    rw [pascalCase_append_underscore, String.append_right_inj, pascalCase, String.ofList_inj]
    exact joinWords_dropRawMarks_iff

example : pascalCase "r#_über__2nd_name" = "über2ndName" := by decide +kernel

end ModelSql.Declaration
