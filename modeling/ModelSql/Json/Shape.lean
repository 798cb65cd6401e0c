import ModelSql.Json.Basic
/-!
# Records and variants in JSON

A record is an object, or the list of its members in order with members missing
at the end. An object may hold further members, which are ignored, but none of
the record's own twice. A variant is its name, or an object whose only member is
the variant's name with its content; a variant without content has null there.
-/

namespace ModelSql.Json

def text? : Json → Option String
  | string text => text
  | _ => none

def bool? : Json → Option Bool
  | bool b => some b
  | _ => none

/-- The items of an array, each read by `read?`. -/
def list? {α : Type} (read? : Json → Option α) : Json → Option (List α)
  | array items => items.mapM read?
  | _ => none

/-- Null, or a value read by `read?`. -/
def nullable? {α : Type} (read? : Json → Option α) : Json → Option (Option α)
  | null => some none
  | value => (read? value).map some

/-- The members of a record with the given names, each absent or present. -/
def members? (names : List String) : Json → Option (List (Option Json))
  | array items =>
    if items.length ≤ names.length then
      some (items.map some ++ List.replicate (names.length - items.length) none)
    else none
  | object members =>
    if members.all (·.1.isSome) && names.all fun name => members.countP (·.1 = some name) ≤ 1 then
      some (names.map fun name => members.lookup (some name))
    else none
  | _ => none

/-- A member that has to be present. -/
def required? {α : Type} (read? : Json → Option α) : Option Json → Option α
  | some value => read? value
  | none => none

/-- A member that stands for `default` when it is absent. -/
def optional? {α : Type} (default : α) (read? : Json → Option α) : Option Json → Option α
  | some value => read? value
  | none => some default

/-- The name of a variant, and its content if it is written with one. -/
def variant? : Json → Option (String × Option Json)
  | string (some name) => some (name, none)
  | object [(some name, content)] => some (name, some content)
  | _ => none

/-- The value of a variant without content, chosen by name. -/
def choice? {α : Type} (values : List (String × α)) (value : Json) : Option α :=
  match value.variant? with
  | some (name, none) | some (name, some null) => values.lookup name
  | _ => none

end ModelSql.Json
