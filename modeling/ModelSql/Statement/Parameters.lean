import ModelSql.Value.Conversion
/-!
# Parameters

Named values in the order in which they are bound. A name looks up its first
value.
-/

namespace ModelSql

/-- Named values, in binding order. -/
structure Parameters where
  entries : List (String × Value)
deriving DecidableEq, Repr

namespace Parameters

def empty : Parameters := ⟨[]⟩

def isEmpty (p : Parameters) : Bool := p.entries.isEmpty

def size (p : Parameters) : Nat := p.entries.length

def names (p : Parameters) : List String := p.entries.map (·.1)

def values (p : Parameters) : List Value := p.entries.map (·.2)

def push (p : Parameters) (name : String) (value : Value) : Parameters :=
  ⟨p.entries ++ [(name, value)]⟩

instance : Append Parameters := ⟨fun p q => ⟨p.entries ++ q.entries⟩⟩

/-- The first value of a name. -/
def get? (p : Parameters) (name : String) : Option Value := p.entries.lookup name

end Parameters

/-- A statement ready to run. -/
structure Statement where
  text : String
  /-- The placeholders bound from the fields of a record, in order. -/
  parameterNames : List String := []
  /-- The placeholders bound from given values. -/
  parameters : Parameters := .empty
deriving DecidableEq, Repr

end ModelSql
