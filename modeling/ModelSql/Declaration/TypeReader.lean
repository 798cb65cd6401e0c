import ModelSql.Declaration.TypeExpr
/-!
# Reading declared types

The text of a type is cut into tokens, and the tokens are read as a path, a
reference or some other type. Tokens that make no type are kept as a type of
another form.
-/

namespace ModelSql.TypeReader

def isBlank (c : Char) : Bool :=
  c = ' ' || c = '\t' || c = '\n' || c = '\r' || c = '\x0b' || c = '\x0c'

/-- Letters, digits, underscores, and everything beyond ASCII. -/
def isWordChar (c : Char) : Bool := c.isAlphanum || c = '_' || c.toNat ≥ 128

/-- The rest of a quoted literal up to its closing quote, and what follows it. -/
def quoted (mark : Char) : List Char → List Char × List Char
  | [] => ([], [])
  | '\\' :: c :: rest =>
    let (inside, rest) := quoted mark rest
    ('\\' :: c :: inside, rest)
  | c :: rest =>
    if c = mark then ([c], rest)
    else
      let (inside, rest) := quoted mark rest
      (c :: inside, rest)

/-- The next token of a text without blanks in front, and the rest of the text. -/
def nextToken : List Char → List Char × List Char
  | [] => ([], [])
  | ':' :: ':' :: rest => ([':', ':'], rest)
  | '-' :: '>' :: rest => (['-', '>'], rest)
  | 'r' :: '#' :: rest => ('r' :: '#' :: rest.takeWhile isWordChar, rest.dropWhile isWordChar)
  | '\'' :: '\\' :: rest =>
    let (inside, rest) := quoted '\'' ('\\' :: rest)
    ('\'' :: inside, rest)
  | '\'' :: c :: '\'' :: rest => (['\'', c, '\''], rest)
  | '\'' :: rest => ('\'' :: rest.takeWhile isWordChar, rest.dropWhile isWordChar)
  | '"' :: rest =>
    let (inside, rest) := quoted '"' rest
    ('"' :: inside, rest)
  | c :: rest =>
    if isWordChar c then (c :: rest.takeWhile isWordChar, rest.dropWhile isWordChar)
    else ([c], rest)

/-- The tokens of a text. The first argument bounds their number. -/
def tokensOf : Nat → List Char → List String
  | 0, _ => []
  | count + 1, text =>
    match text.dropWhile isBlank with
    | [] => []
    | text =>
      let (token, rest) := nextToken text
      String.ofList token :: tokensOf count rest

/-- The tokens of a text, of which there are at most as many as characters. -/
def tokens (text : String) : List String := tokensOf text.length text.toList

def isOpening (token : String) : Bool := token = "(" || token = "[" || token = "\x7b"

def isClosing (token : String) : Bool := token = ")" || token = "]" || token = "\x7d"

/-- The tokens up to a comma or closing bracket that belongs to what is around them.
Angle brackets are counted outside other brackets only, where they enclose arguments. -/
def takeRun (brackets angles : Nat) : List String → List String × List String
  | [] => ([], [])
  | token :: rest =>
    if brackets = 0 ∧ angles = 0 ∧ (token = "," ∨ token = ">" ∨ isClosing token) then
      ([], token :: rest)
    else
      let brackets' := if isOpening token then brackets + 1
        else if isClosing token then brackets - 1 else brackets
      let angles' := if brackets ≠ 0 then angles
        else if token = "<" then angles + 1
        else if token = ">" then angles - 1 else angles
      let (run, rest) := takeRun brackets' angles' rest
      (token :: run, rest)

/-- The tokens through the bracket that closes `depth` open ones. -/
def takeClosed (opening closing : String) (depth : Nat) : List String → List String × List String
  | [] => ([], [])
  | token :: rest =>
    if token = closing ∧ depth ≤ 1 then ([token], rest)
    else
      let depth' := if token = opening then depth + 1 else if token = closing then depth - 1 else depth
      let (run, rest) := takeClosed opening closing depth' rest
      (token :: run, rest)

/-- Whether a token is an identifier or a keyword. -/
def isWord (token : String) : Bool :=
  match token.toList with
  | c :: _ => isWordChar c && !c.isDigit
  | [] => false

/-- The words that begin types other than paths. -/
def otherKeywords : List String := ["dyn", "impl", "fn", "unsafe", "extern", "for", "_"]

def startsPath (token : String) : Bool :=
  token = "::" || token = "<" || (isWord token && !otherKeywords.contains token)

def isLifetime (token : String) : Bool :=
  match token.toList with
  | '\'' :: rest => rest.getLast? ≠ some '\''
  | _ => false

def startsConstant (token : String) : Bool :=
  token = "true" || token = "false" || token = "-" || token = "\x7b" ||
    match token.toList with
    | c :: _ => c.isDigit || c = '"' || c = '\''
    | [] => false

def referenceMarks : List String → List String × List String
  | [] => ([], [])
  | token :: rest =>
    if token = "mut" then ([token], rest)
    else if isLifetime token then
      match rest with
      | "mut" :: rest => ([token, "mut"], rest)
      | rest => ([token], rest)
    else ([], token :: rest)

/-- The arguments of a function trait after its opening parenthesis, with the result type. -/
def readParenthesized (tokens : List String) : List String × List String :=
  let (inside, rest) := takeClosed "(" ")" 1 tokens
  match rest with
  | "->" :: rest =>
    let (result, rest) := takeRun 0 0 rest
    ("(" :: inside ++ "->" :: result, rest)
  | rest => ("(" :: inside, rest)

mutual

/-- A type and the tokens after it. The first argument bounds the depth of the calls. -/
def readType : Nat → List String → TypeExpr × List String
  | 0, tokens => (.other tokens, [])
  | _, [] => (.other [], [])
  | fuel + 1, "&" :: rest =>
    let (marks, rest) := referenceMarks rest
    let (target, rest) := readType fuel rest
    (.reference ("&" :: marks) target, rest)
  | fuel + 1, token :: rest =>
    let run := takeRun 0 0 (token :: rest)
    if startsPath token then
      match readPath fuel (token :: rest) with
      | (_, "!" :: _) | (_, "+" :: _) => (.other run.1, run.2)
      | path => path
    else (.other run.1, run.2)

/-- A path. It may open with a type in angle brackets or with a double colon. -/
def readPath : Nat → List String → TypeExpr × List String
  | 0, tokens => (.other tokens, [])
  | fuel + 1, "<" :: rest =>
    match takeClosed "<" ">" 1 rest with
    | (inside, "::" :: rest) => readSegments fuel ("<" :: inside ++ ["::"]) rest
    | (inside, rest) => (.other ("<" :: inside), rest)
  | fuel + 1, "::" :: rest => readSegments fuel ["::"] rest
  | fuel + 1, tokens => readSegments fuel [] tokens

/-- The names of a path after the tokens `qualifier`. -/
def readSegments : Nat → List String → List String → TypeExpr × List String
  | 0, qualifier, tokens => (.other (qualifier ++ tokens), [])
  | _, qualifier, [] => (.other qualifier, [])
  | fuel + 1, qualifier, name :: rest =>
    let (arguments, rest) := readPathArguments fuel rest
    match rest with
    | "::" :: rest => readSegments fuel (qualifier ++ name :: arguments.tokens ++ ["::"]) rest
    | rest => (.path qualifier name arguments, rest)

def readPathArguments : Nat → List String → PathArguments × List String
  | 0, tokens => (.absent, tokens)
  | fuel + 1, "<" :: rest =>
    let (arguments, trailingComma, rest) := readArguments fuel rest
    (.angled [] arguments trailingComma, rest)
  | fuel + 1, "::" :: "<" :: rest =>
    let (arguments, trailingComma, rest) := readArguments fuel rest
    (.angled ["::"] arguments trailingComma, rest)
  | _ + 1, "(" :: rest =>
    let (tokens, rest) := readParenthesized rest
    (.parenthesized tokens, rest)
  | _ + 1, "::" :: "(" :: rest =>
    let (tokens, rest) := readParenthesized rest
    (.parenthesized ("::" :: tokens), rest)
  | _ + 1, tokens => (.absent, tokens)

/-- The arguments up to the closing angle bracket, and whether a comma stands before it. -/
def readArguments : Nat → List String → List PathArgument × Bool × List String
  | 0, tokens => ([], false, tokens)
  | _ + 1, ">" :: rest => ([], false, rest)
  | fuel + 1, tokens =>
    let (argument, rest) := readArgument fuel tokens
    match rest with
    | "," :: ">" :: rest => ([argument], true, rest)
    | "," :: rest =>
      let (arguments, trailingComma, rest) := readArguments fuel rest
      (argument :: arguments, trailingComma, rest)
    | ">" :: rest => ([argument], false, rest)
    | rest => ([argument], false, rest)

/-- An argument. A type before an equals sign or a colon is the name of an associated type. -/
def readArgument : Nat → List String → PathArgument × List String
  | 0, tokens => (.other tokens, [])
  | _, [] => (.other [], [])
  | fuel + 1, token :: rest =>
    let run := takeRun 0 0 (token :: rest)
    if isLifetime token then (.lifetime token, rest)
    else if startsConstant token then (.other run.1, run.2)
    else
      match readType fuel (token :: rest) with
      | (_, "=" :: _) | (_, ":" :: _) => (.other run.1, run.2)
      | (type, rest) => (.type type, rest)

end

end TypeReader

/-- The type that a text declares. Five calls at most separate two tokens. -/
def TypeExpr.ofText (text : String) : TypeExpr :=
  let tokens := TypeReader.tokens text
  match TypeReader.readType (5 * tokens.length + 5) tokens with
  | (type, []) => type
  | _ => .other tokens

end ModelSql
