/-!
# Build settings

A model need not mark its identity. By convention the field of a certain name
is the identity of a model without a mark, unless the convention is disabled.
-/

namespace ModelSql

/-- How the identity of a model without a marked field is chosen. -/
inductive IdentityConvention where
  /-- Only a marked field is the identity. -/
  | disabled
  /-- A field of exactly this name is the identity if it is an integer and not nullable. -/
  | fieldNamed (name : String)
deriving DecidableEq, Repr

/-- The conventional name of the identity. -/
def IdentityConvention.fieldName? : IdentityConvention → Option String
  | disabled => none
  | fieldNamed name => some name

/-- What all tables of one cache have in common. -/
structure Settings where
  identityConvention : IdentityConvention := .fieldNamed "Id"
deriving DecidableEq, Repr

end ModelSql
