import ModelSql.Model.Basic
/-!
# Declared types

The type of a declared field is a path with arguments, a reference, or a type of
some other form, of which only the tokens matter. `TypeExpr.semantics` finds the
semantic type that it stands for and whether it admits null: an `Option` stands
for its content and admits null, and every type that is not known by the last
name of its path is a custom type named by its tokens.
-/

namespace ModelSql

mutual

/-- A type as it is declared. -/
inductive TypeExpr where
  /-- A path: the tokens before its last name, that name, and its arguments. -/
  | path (qualifier : List String) (name : String) (arguments : PathArguments)
  /-- A reference: its ampersand, lifetime and mutability, and its target. -/
  | reference (marks : List String) (target : TypeExpr)
  /-- A tuple, slice, array, pointer, function, trait object or the like. -/
  | other (tokens : List String)

/-- What follows the last name of a path. -/
inductive PathArguments where
  | absent
  /-- Arguments in angle brackets; `opening` is what stands before the bracket. -/
  | angled (opening : List String) (arguments : List PathArgument) (trailingComma : Bool)
  /-- Arguments in parentheses with the result type, as a function trait has them. -/
  | parenthesized (tokens : List String)

/-- An argument in angle brackets. -/
inductive PathArgument where
  | lifetime (token : String)
  | type (t : TypeExpr)
  /-- A constant, or a binding or bound of an associated type. -/
  | other (tokens : List String)

end

/-- The tokens of arguments, lifetimes first, each with the comma that follows it. An
argument that was the last one gets a comma only if something comes after it now. -/
def argumentTokens (arguments : List (Bool × List String)) (trailingComma : Bool) : List String :=
  let marked := arguments.mapIdx fun i (isLifetime, tokens) =>
    (isLifetime, tokens, i + 1 < arguments.length || trailingComma)
  let ordered := marked.filter (·.1) ++ marked.filter (!·.1)
  (ordered.mapIdx fun i (_, tokens, comma) =>
    if comma || i + 1 < ordered.length then tokens ++ [","] else tokens).flatten

mutual

def TypeExpr.tokens : TypeExpr → List String
  | .path qualifier name arguments => qualifier ++ name :: arguments.tokens
  | .reference marks target => marks ++ target.tokens
  | .other tokens => tokens

def PathArguments.tokens : PathArguments → List String
  | .absent => []
  | .angled opening arguments trailingComma =>
    opening ++ "<" :: (argumentTokens (PathArgument.listTokens arguments) trailingComma ++ [">"])
  | .parenthesized tokens => tokens

/-- The tokens of each argument, and whether it is a lifetime. -/
def PathArgument.listTokens : List PathArgument → List (Bool × List String)
  | [] => []
  | argument :: rest => argument.markedTokens :: PathArgument.listTokens rest

def PathArgument.markedTokens : PathArgument → Bool × List String
  | .lifetime token => (true, [token])
  | .type t => (false, t.tokens)
  | .other tokens => (false, tokens)

end

def PathArgument.type? : PathArgument → Option TypeExpr
  | .type t => some t
  | _ => none

/-- The first type among the arguments in angle brackets. -/
def PathArguments.firstType? : PathArguments → Option TypeExpr
  | .angled _ arguments _ => arguments.findSome? PathArgument.type?
  | _ => none

namespace TypeExpr

/-- The tokens of the type without any blanks. -/
def text (t : TypeExpr) : String :=
  String.ofList ((t.tokens.flatMap String.toList).filter (· ≠ ' '))

def isName (name : String) : TypeExpr → Bool
  | path [] n .absent => n = name
  | _ => false

/-- What a type whose path ends in `wrapper` wraps. -/
def content? (wrapper : String) : TypeExpr → Option TypeExpr
  | path _ name arguments => if name = wrapper then arguments.firstType? else none
  | _ => none

/-- The semantic types that are known by the last name of a path. -/
def known : List (String × SemanticType) :=
  [("bool", .bool), ("u8", .byte), ("i8", .byte), ("i16", .short), ("u16", .short),
    ("i32", .int), ("u32", .int), ("i64", .long), ("u64", .long), ("isize", .long),
    ("usize", .long), ("f32", .float), ("f64", .double), ("String", .string),
    ("Uuid", .guid), ("NaiveDateTime", .dateTime), ("DateTime", .dateTimeOffset),
    ("Decimal", .decimal)]

/-- The semantic type of a type by the last name of its path, or else a custom one. -/
def byName : TypeExpr → SemanticType
  | t@(path _ name _) => (known.lookup name).getD (.custom t.text)
  | t => .custom t.text

def isTextReference : TypeExpr → Bool
  | reference _ target => target.isName "str"
  | _ => false

def isByteVector (t : TypeExpr) : Bool :=
  match t.content? "Vec" with
  | some element => element.isName "u8"
  | none => false

/-- The semantic type of a type that is no `Option`. -/
def plainSemantics (t : TypeExpr) : SemanticType :=
  if t.isTextReference then .string
  else if t.isByteVector then .bytes
  else t.byName

theorem sizeOf_lt_of_findSome?_type? {arguments : List PathArgument} {t : TypeExpr}
    (h : arguments.findSome? PathArgument.type? = some t) : sizeOf t < sizeOf arguments := by
  induction arguments with
  | nil => simp at h
  | cons argument rest ih =>
    cases argument with
    | type t' =>
      simp only [List.findSome?_cons, PathArgument.type?, Option.some.injEq] at h
      subst h
      simp only [List.cons.sizeOf_spec, PathArgument.type.sizeOf_spec]
      omega
    | lifetime token =>
      have := ih (by simpa only [List.findSome?_cons, PathArgument.type?] using h)
      simp only [List.cons.sizeOf_spec]
      omega
    | other tokens =>
      have := ih (by simpa only [List.findSome?_cons, PathArgument.type?] using h)
      simp only [List.cons.sizeOf_spec]
      omega

theorem sizeOf_lt_of_content? {wrapper : String} {t content : TypeExpr}
    (h : t.content? wrapper = some content) : sizeOf content < sizeOf t := by
  cases t with
  | path qualifier name arguments =>
    simp only [content?] at h
    split at h
    · cases arguments with
      | angled opening arguments trailingComma =>
        have := sizeOf_lt_of_findSome?_type? h
        simp only [path.sizeOf_spec, PathArguments.angled.sizeOf_spec]
        omega
      | absent => simp [PathArguments.firstType?] at h
      | parenthesized tokens => simp [PathArguments.firstType?] at h
    · simp at h
  | reference marks target => simp [content?] at h
  | other tokens => simp [content?] at h

/-- The semantic type of a declared type, and whether it admits null. -/
def semantics (t : TypeExpr) : SemanticType × Bool :=
  match _h : t.content? "Option" with
  | some content => (content.semantics.1, true)
  | none => (t.plainSemantics, false)
termination_by sizeOf t
decreasing_by exact sizeOf_lt_of_content? _h

end TypeExpr

end ModelSql
