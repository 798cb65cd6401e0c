/-!
# Delimited text

A delimited text stands between an opening and a closing mark. A closing mark
that belongs to the text is written twice, so the text ends at the first
closing mark that stands alone. Quoted identifiers, aliases and string literals
are all written this way and differ in their marks only.
-/

namespace ModelSql.Text

/-- Writes every `mark` of a text twice and all else once. -/
def doubling (mark : Char) : List Char → List Char
  | [] => []
  | c :: rest => if c = mark then mark :: mark :: doubling mark rest else c :: doubling mark rest

/-- The text with every `mark` in it written twice. -/
def double (mark : Char) (text : String) : String :=
  String.ofList (doubling mark text.toList)

/-- The text between `opening` and `closing`, with every `closing` in it written twice. -/
def enclose (opening closing : Char) (text : String) : String :=
  String.ofList (opening :: (doubling closing text.toList ++ [closing]))

/-- A text in single quotes: string literals and column aliases. -/
def literal (text : String) : String := enclose '\'' '\'' text

end ModelSql.Text
