/-!
# JSON values

Objects keep their members in order, with repetitions, and numbers keep their
spelling. A string with an escaped surrogate that has no partner denotes no
text; such a string is a value, and whoever needs its text refuses it.
-/

namespace ModelSql

inductive Json where
  | null
  | bool (b : Bool)
  /-- A number, as it is spelt. -/
  | number (literal : String)
  /-- A string, or `none` if its escapes are no text. -/
  | string (text : Option String)
  | array (items : List Json)
  | object (members : List (Option String × Json))
deriving Repr

namespace Json

def ofText (text : String) : Json := string (some text)

/-- A string if there is one, and null otherwise. -/
def ofText? : Option String → Json
  | some text => ofText text
  | none => null

def ofMembers (members : List (String × Json)) : Json :=
  object (members.map fun (name, value) => (some name, value))

end Json

end ModelSql
