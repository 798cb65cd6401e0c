/-!
# Occurrences of one text in another

`splitAtLast pattern` cuts a text around the last place where `pattern` occurs
in it. `splitOn mark` cuts a text at every `mark`, and the pieces that come out
hold no `mark`.
-/

namespace ModelSql.Text

/-- The rest of a text after `pattern`, if the text begins with it. -/
def dropPattern? : List Char → List Char → Option (List Char)
  | [], text => some text
  | _ :: _, [] => none
  | p :: pattern, c :: text => if p = c then dropPattern? pattern text else none

/-- What stands before and after the last occurrence of `pattern` in a text. -/
def splitLast? (pattern : List Char) : List Char → Option (List Char × List Char)
  | [] => (dropPattern? pattern []).map fun rest => ([], rest)
  | c :: text =>
    match splitLast? pattern text with
    | some (before, after) => some (c :: before, after)
    | none => (dropPattern? pattern (c :: text)).map fun rest => ([], rest)

def splitAtLast? (pattern text : String) : Option (String × String) :=
  (splitLast? pattern.toList text.toList).map fun (before, after) =>
    (String.ofList before, String.ofList after)

/-- The pieces of a text between the occurrences of `mark`. There is one piece
more than there are marks, and pieces may be empty. -/
def pieces (mark : Char) : List Char → List (List Char)
  | [] => [[]]
  | c :: text =>
    if c = mark then [] :: pieces mark text
    else
      match pieces mark text with
      | [] => [[c]]
      | piece :: more => (c :: piece) :: more

def splitOn (mark : Char) (text : String) : List String :=
  (pieces mark text.toList).map String.ofList

end ModelSql.Text
