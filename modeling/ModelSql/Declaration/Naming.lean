/-!
# Field names from identifiers

A declared identifier in snake case names a field in Pascal case: underscores
separate words, and each word starts with a capital. Letters beyond ASCII keep
their case.
-/

namespace ModelSql.Declaration

/-- An identifier without the marks `r#` in front of it. -/
def dropRawMarks : List Char → List Char
  | 'r' :: '#' :: rest => dropRawMarks rest
  | text => text

/-- The words of a text run together, each with a capital. The flag says whether a
word starts here. -/
def joinWords : Bool → List Char → List Char
  | _, [] => []
  | starts, c :: rest =>
    if c = '_' then joinWords true rest
    else (if starts then c.toUpper else c) :: joinWords false rest

/-- The name of the field that an identifier declares. -/
def pascalCase (identifier : String) : String :=
  String.ofList (joinWords true (dropRawMarks identifier.toList))

end ModelSql.Declaration
