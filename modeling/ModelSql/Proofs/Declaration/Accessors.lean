import ModelSql.Declaration.Description
import ModelSql.Proofs.Table.Representation
/-!
# Accessors of declared records

A declaration is described field by field, and its table has a column for each field that is
kept. An accessor carries the name of its own field, and names of fields are looked up first,
so it finds the column of that field whatever the other columns are called.

* `DeclaredField.Describes`, `DeclaredField.Stores`: the field and the column of a declared field;
* `Declaration.describe_ok`: a description has one field for each declared field, in order;
* `Declaration.accessors_find_columns`: accessors and the columns of the table.
-/

namespace ModelSql

/-! ## Attributes -/

/-- What the last argument of a name is set to. -/
def lastText (name : String) : List AttributeArgument → Option String
  | [] => none
  | a :: rest => (lastText name rest).or (if a.name = name then a.text.toOption else none)

namespace DeclaredField

open Declaration (pascalCase replacements)

/-- The arguments of all attributes on a field that are meant for it. -/
def arguments (f : DeclaredField) : List AttributeArgument :=
  (f.attributes.filter (·.path = "field")).flatMap fun a => a.arguments.getD []

def isMarked (f : DeclaredField) (name : String) : Bool := f.arguments.any (·.name = name)

/-- The type is the one that replaces the field's own, or else the one that is inferred. -/
def HasType (f : DeclaredField) (type : SemanticType) : Prop :=
  match lastText "ty" f.arguments with
  | some name => type ∈ replacements ∧ type.toText = name
  | none => type = f.type.semantics.1

/-- What a declared field says of the field. -/
structure Describes (f : DeclaredField) (field : Field) : Prop where
  name : field.name = pascalCase f.identifier
  type : f.HasType field.type
  nullable : field.nullable = f.type.semantics.2
  identity : field.identity = f.isMarked "identity"
  ignored : field.ignored = f.isMarked "ignore"
  column : field.column = lastText "column" f.arguments

/-- The column that a declared field is stored in. -/
structure Stores (d : Dialect) (f : DeclaredField) (c : Column) : Prop where
  field : c.field = pascalCase f.identifier
  name : c.name = (lastText "column" f.arguments).getD (pascalCase f.identifier)
  quoted : c.quoted = d.quoteIdentifier c.name
  type : f.HasType c.type
  native : d.nativeType c.type = some c.native
  nullable : c.nullable = f.type.semantics.2

end DeclaredField

namespace Declaration

/-- The declared fields that are not left out. -/
def kept (d : Declaration) : List DeclaredField := d.fields.filter fun f => !f.isMarked "ignore"

namespace FieldSettings

variable {s s' : FieldSettings}

/-- An argument changes the one setting of its name. -/
theorem add_ok {a : AttributeArgument} (h : s.add a = .ok s') :
    s'.identity = (s.identity || decide (a.name = "identity")) ∧
    s'.ignored = (s.ignored || decide (a.name = "ignore")) ∧
    s'.column = (if a.name = "column" then a.text.toOption else none).or s.column ∧
    s'.typeName = (if a.name = "ty" then a.text.toOption else none).or s.typeName := by
  unfold add at h
  split at h
  · rename_i own
    obtain ⟨-, -, h⟩ := steps_of_ok h
    cases h
    simp [own]
  · rename_i notIdentity
    split at h
    · rename_i own
      obtain ⟨-, -, h⟩ := steps_of_ok h
      cases h
      simp [own]
    · rename_i notIgnore
      split at h
      · rename_i own
        obtain ⟨text, given, h⟩ := steps_of_ok h
        cases h
        simp [own, given, Except.toOption]
      · rename_i notColumn
        split at h
        · rename_i own
          obtain ⟨text, given, h⟩ := steps_of_ok h
          cases h
          simp [own, given, Except.toOption]
        · cases h

/-- Marks add up, and the last text of a name counts. -/
theorem addAll_ok {arguments : List AttributeArgument} (h : arguments.foldlM add s = .ok s') :
    s'.identity = (s.identity || arguments.any (·.name = "identity")) ∧
    s'.ignored = (s.ignored || arguments.any (·.name = "ignore")) ∧
    s'.column = (lastText "column" arguments).or s.column ∧
    s'.typeName = (lastText "ty" arguments).or s.typeName := by
  induction arguments generalizing s with
  | nil =>
    cases h
    simp [lastText]
  | cons a arguments ih =>
    rw [List.foldlM_cons] at h
    obtain ⟨middle, first, rest⟩ := steps_of_ok h
    obtain ⟨identity, ignored, column, typeName⟩ := ih rest
    obtain ⟨identity', ignored', column', typeName'⟩ := add_ok first
    rw [identity, ignored, column, typeName, identity', ignored', column', typeName']
    simp only [List.any_cons, lastText, Bool.or_assoc, Option.or_assoc, and_self]

end FieldSettings

/-! ## Fields -/

theorem replacement_ok {name : String} {type : SemanticType} (h : replacement name = .ok type) :
    type ∈ replacements ∧ type.toText = name := by
  unfold replacement at h
  split at h
  · rename_i found
    cases h
    exact ⟨List.mem_of_find?_eq_some found, by simpa using List.find?_some found⟩
  · cases h

theorem fieldOf_ok {f : DeclaredField} {field : Field} (h : fieldOf f = .ok field) :
    f.Describes field := by
  obtain ⟨settings, given, h⟩ := steps_of_ok h
  obtain ⟨identity, ignored, column, typeName⟩ := FieldSettings.addAll_ok given
  rw [Option.or_none] at column typeName
  have replaced : settings.typeName = lastText "ty" f.arguments := typeName
  cases chosen : settings.typeName with
  | some name =>
    simp only [chosen] at h
    obtain ⟨type, known, h⟩ := steps_of_ok h
    cases h
    have own : f.HasType type := by
      rw [DeclaredField.HasType, ← replaced, chosen]
      exact replacement_ok known
    exact ⟨rfl, own, rfl, identity, ignored, column⟩
  | none =>
    simp only [chosen] at h
    cases h
    have own : f.HasType f.type.semantics.1 := by
      rw [DeclaredField.HasType, ← replaced, chosen]
    exact ⟨rfl, own, rfl, identity, ignored, column⟩

theorem fieldsOf_ok {declared : List DeclaredField} {fields : List Field}
    (h : declared.mapM fieldOf = .ok fields) :
    List.Forall₂ DeclaredField.Describes declared fields := by
  induction declared generalizing fields with
  | nil =>
    cases h
    exact .nil
  | cons f declared ih =>
    rw [List.mapM_cons] at h
    obtain ⟨field, first, h⟩ := steps_of_ok h
    obtain ⟨rest, others, h⟩ := steps_of_ok h
    cases h
    exact .cons (fieldOf_ok first) (ih others)

/-- Accessors are made for the fields that are kept. -/
theorem accessors_eq {declared : List DeclaredField} {fields : List Field}
    (h : List.Forall₂ DeclaredField.Describes declared fields) :
    (((declared.zip fields).filter fun (_, field) => !field.ignored).map fun (f, field) =>
      (f.identifier, field.name)) =
    (declared.filter fun f => !f.isMarked "ignore").map fun f =>
      (f.identifier, pascalCase f.identifier) := by
  induction h with
  | nil => rfl
  | @cons f field declared fields first _ ih =>
    simp only [List.zip_cons_cons, List.filter_cons, first.ignored]
    cases f.isMarked "ignore" with
    | true => simpa using ih
    | false => simpa [first.name] using ih

/-- A description has a field for each declared field and an accessor for each that is kept. -/
theorem describe_ok {d : Declaration} {modulePath : String} {description : Description}
    (h : d.describe modulePath = .ok description) :
    List.Forall₂ DeclaredField.Describes d.fields description.model.fields ∧
    description.accessors = d.kept.map fun f => (f.identifier, pascalCase f.identifier) := by
  obtain ⟨table, -, h⟩ := steps_of_ok h
  obtain ⟨-, -, h⟩ := steps_of_ok h
  obtain ⟨fields, described, h⟩ := steps_of_ok h
  cases h
  exact ⟨fieldsOf_ok described, accessors_eq (fieldsOf_ok described)⟩

theorem persisted_of_describes {declared : List DeclaredField} {fields : List Field}
    (h : List.Forall₂ DeclaredField.Describes declared fields) :
    List.Forall₂ DeclaredField.Describes (declared.filter fun f => !f.isMarked "ignore")
      (persisted fields) := by
  refine List.rel_filter (fun f field describes => ?_) h
  simp only [describes.ignored]

end Declaration

/-! ## Columns -/

theorem DeclaredField.Describes.stores {f : DeclaredField} {field : Field} {d : Dialect}
    {c : Column} (describes : f.Describes field) (made : field.Becomes d c) : f.Stores d c := by
  have name : c.name = field.column.getD field.name := made.columnName
  constructor
  case field => rw [made.field, describes.name]
  case name => rw [name, describes.column, describes.name]
  case quoted => rw [made.columnName]; exact congrArg Column.quoted made.2
  case type => rw [made.type]; exact describes.type
  case native => rw [made.type]; exact made.1
  case nullable => rw [made.nullable, describes.nullable]

theorem stores_of_become {declared : List DeclaredField} {fields : List Field} {d : Dialect}
    {columns : List Column} (described : List.Forall₂ DeclaredField.Describes declared fields)
    (become : List.Forall₂ (Field.Becomes · d ·) fields columns) :
    List.Forall₂ (DeclaredField.Stores d) declared columns := by
  induction described generalizing columns with
  | nil =>
    cases become
    exact .nil
  | cons describes _ ih =>
    cases become with
    | cons made rest => exact .cons (describes.stores made) (ih rest)

/-- The model of a declaration has a field for each declared field, its table has a column for
each that is kept, both in order, and the accessor of such a field finds its column. -/
theorem Declaration.accessors_find_columns {d : Declaration} {modulePath : String}
    {description : Description} (described : d.describe modulePath = .ok description)
    {engine : Engine} {override : Option String} {settings : Settings} {t : Table}
    (built : description.model.build engine override settings = .ok t) :
    List.Forall₂ DeclaredField.Describes d.fields description.model.fields ∧
    List.Forall₂ (DeclaredField.Stores t.dialect) d.kept t.columns ∧
    description.accessors = d.kept.map (fun f => (f.identifier, pascalCase f.identifier)) ∧
    List.Forall₂ (fun accessor c => t.resolve accessor.2 = .ok c) description.accessors
      t.columns := by
  obtain ⟨fields, accessors⟩ := describe_ok described
  have stored : List.Forall₂ (DeclaredField.Stores t.dialect) d.kept t.columns :=
    stores_of_become (persisted_of_describes fields) (description.model.build_columns built)
  have names : description.accessors.map (·.2) = t.columns.map (·.field) := by
    have own : List.Forall₂ (fun f c => pascalCase f.identifier = c.field) d.kept t.columns :=
      stored.imp fun f c stores => stores.field.symm
    rw [accessors, List.map_map, ← List.forall₂_eq_eq_eq]
    exact List.forall₂_map_left_iff.mpr (List.forall₂_map_right_iff.mpr own)
  refine ⟨fields, stored, accessors, ?_⟩
  rw [← List.forall₂_map_left_iff (f := fun accessor : String × String => accessor.2)
    (R := fun name c => t.resolve name = .ok c), names, List.forall₂_map_left_iff,
    List.forall₂_same]
  intro c mem
  exact t.resolve_ok.mpr (.inl ((description.model.build_columnByField? built).mpr ⟨mem, rfl⟩))

def columnAttribute (name : String) : Attribute where
  path := "field"
  arguments := some [{ name := "column", value := some (.text name) }]

/-- A record in which the column of one field is called as another field is. -/
def entryDeclaration : Declaration where
  name := "Entry"
  fields := [
    { identifier := "title", type := .path [] "String" .absent
      attributes := [columnAttribute "UserName"] },
    { identifier := "user_name"
      type := .path [] "Option" (.angled [] [.type (.path [] "String" .absent)] false)
      attributes := [columnAttribute "Name"] },
    { identifier := "scratch", type := .path [] "Store" .absent
      attributes := [{ path := "field", arguments := some [{ name := "ignore" }] }] }]

def entryDescription : Declaration.Description where
  model := {
    key := some "records::Entry"
    name := "Entry"
    fields := [
      { name := "Title", type := .string, column := some "UserName" },
      { name := "UserName", type := .string, nullable := true, column := some "Name" },
      { name := "Scratch", type := .custom "Store", ignored := true }] }
  accessors := [("title", "Title"), ("user_name", "UserName")]

def entryTable : Table where
  model := "Entry"
  name := "Entry"
  quotedName := "[Entry]"
  engine := .sqlite
  columns := [
    { field := "Title", name := "UserName", quoted := "[UserName]", type := .string
      native := "TEXT", nullable := false, identity := false },
    { field := "UserName", name := "Name", quoted := "[Name]", type := .string
      native := "TEXT", nullable := true, identity := false }]
  ignored := ["Scratch"]

theorem Declaration.accessors_find_columns_entry :
    entryDeclaration.describe "records" = .ok entryDescription ∧
    entryDescription.model.build .sqlite = .ok entryTable ∧
    (entryTable.resolve "UserName").map (·.name) = .ok "Name" := by
  have described : entryDeclaration.describe "records" = .ok entryDescription :=
    ok_of_toOption (by decide +kernel)
  have built : entryDescription.model.build .sqlite = .ok entryTable :=
    ok_of_toOption (by decide +kernel)
  obtain ⟨-, -, -, found⟩ := accessors_find_columns described built
  have userName := (List.forall₂_cons.mp (List.forall₂_cons.mp found).2).1
  exact ⟨described, built, congrArg (Except.map (·.name)) userName⟩

end ModelSql
