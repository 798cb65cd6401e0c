import ModelSql.Declaration.TypeExpr
/-!
# Declarations

The declaration of a record type as its author writes it: its fields with their
types, and attributes with settings on the type and on the fields.
-/

namespace ModelSql

/-- What an attribute's argument is set to. -/
inductive AttributeValue where
  | text (s : String)
  /-- Any other expression. -/
  | expression
deriving DecidableEq, Repr

/-- An argument of an attribute: a name, or a name with a value. -/
structure AttributeArgument where
  name : String
  value : Option AttributeValue := none
deriving DecidableEq, Repr

/-- An attribute, with the arguments in its parentheses if it has parentheses. One that is
itself set to a value has no counterpart here: it is refused wherever it is read. -/
structure Attribute where
  path : String
  arguments : Option (List AttributeArgument) := none
deriving DecidableEq, Repr

structure DeclaredField where
  identifier : String
  type : TypeExpr
  attributes : List Attribute := []

inductive DeclarationShape where
  /-- A struct with named fields. -/
  | struct
  | tuple
  | unit
  | enum
  | union
deriving DecidableEq, Repr

structure Declaration where
  name : String
  shape : DeclarationShape := .struct
  attributes : List Attribute := []
  fields : List DeclaredField := []

/-- The contents of a raw string literal after its hash marks, up to the quote that as
many hash marks follow. Nothing may come after them. -/
def rawContents? (hashes : List Char) : List Char → Option (List Char)
  | [] => none
  | '"' :: rest =>
    if rest = hashes then some []
    else if hashes.isPrefixOf rest then none
    else (rawContents? hashes rest).map ('"' :: ·)
  | c :: rest => (rawContents? hashes rest).map (c :: ·)

/-- The contents of a text that is one raw string literal. -/
def rawLiteral? (expression : List Char) : Option (List Char) :=
  match expression with
  | 'r' :: rest =>
    match rest.dropWhile (· = '#') with
    | '"' :: inside => rawContents? (rest.takeWhile (· = '#')) inside
    | _ => none
  | _ => none

/-- The value of an expression that is no plain string literal: raw ones are literals too. -/
def AttributeValue.ofExpression (expression : String) : AttributeValue :=
  match rawLiteral? expression.toList with
  | some contents => text (String.ofList contents)
  | none => .expression

end ModelSql
