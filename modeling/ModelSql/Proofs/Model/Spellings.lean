import ModelSql.Proofs.Json.Spelling
import ModelSql.Proofs.Model.RoundTrip
/-!
# Descriptions in any spelling

Models, fields and settings are records. However they and the records in them are spelt, they
are read as the same value, and none is read that lacks a member or gives one twice.

* `Model.members`, `Field.members`, `Settings.members`: the members with their defaults;
* `Json.ReadInAnySpelling`: what that means of texts;
* `Model.descriptions_in_any_spelling`: models, fields and settings.
-/

namespace ModelSql

namespace Json

/-- What is written is read back in any spelling. Texts are read alike if their values differ in
the spelling only, and a text of a spoilt value is not read. -/
structure ReadInAnySpelling {α : Type} (write : α → Json) (read? : Json → Option α)
    (form : Form) : Prop where
  spelt {text : String} {v : Json} {a : α} : parse? text = some v →
    Relation.ReflTransGen (Within Respelling form) (write a) v → described? read? text = some a
  respelt {text text' : String} {v v' : Json} {a : α} : parse? text = some v →
    parse? text' = some v' → Relation.ReflTransGen (Within Respelling form) v v' →
    described? read? text = some a → described? read? text' = some a
  spoilt {text : String} {v v' : Json} : parse? text = some v' → Within Spoiling form v v' →
    described? read? text = none

theorem Understands.respelt_many {α : Type} {read? : Json → Option α} {form : Form}
    (understands : Understands read? form) {v v' : Json} {a : α}
    (changes : Relation.ReflTransGen (Within Respelling form) v v') (read : read? v = some a) :
    read? v' = some a := by
  induction changes with
  | refl => exact read
  | tail _ change ih => exact understands.respelt change ih

theorem Understands.readInAnySpelling {α : Type} {write : α → Json} {read? : Json → Option α}
    {form : Form} (understands : Understands read? form)
    (read_write : ∀ a, read? (write a) = some a) : ReadInAnySpelling write read? form where
  spelt {text v a} parsed changes := by
    rw [described?, parsed, Option.bind_some]
    exact understands.respelt_many changes (read_write a)
  respelt {text text' v v' a} parsed parsed' changes read := by
    rw [described?, parsed, Option.bind_some] at read
    rw [described?, parsed', Option.bind_some]
    exact understands.respelt_many changes read
  spoilt {text v v'} parsed change := by
    rw [described?, parsed, Option.bind_some]
    exact understands.spoilt change

end Json

open Json

/-! ### The members of descriptions -/

def Field.members : List (Member Form) := [
  { name := "name", default := none, form := .plain },
  { name := "type", default := none, form := .variant },
  { name := "nullable", default := some (.bool false), form := .plain },
  { name := "identity", default := some (.bool false), form := .plain },
  { name := "ignored", default := some (.bool false), form := .plain },
  { name := "column", default := some .null, form := .plain }]

def Model.members : List (Member Form) := [
  { name := "key", default := some .null, form := .plain },
  { name := "name", default := none, form := .plain },
  { name := "table", default := some .null, form := .plain },
  { name := "fields", default := some (.array []), form := .list (.record Field.members) }]

def Settings.members : List (Member Form) := [
  { name := "identity_convention", default := some (IdentityConvention.toJson (.fieldNamed "Id"))
    form := .variant }]

/-! ### Variants -/

theorem SemanticType.understands : Understands ofJson? .variant := by
  refine @understands_choice _ ofJson? named (fun name => by simp [ofJson?, choice?, variant?]) ?_
  intro name present
  have other : name ≠ "custom" := by
    rintro rfl
    cases present
  simp [ofJson?, choice?, variant?, other]

theorem IdentityConvention.understands : Understands ofJson? .variant := by
  refine @understands_choice _ ofJson? [("disabled", disabled)]
    (fun name => by simp [ofJson?, choice?, variant?]) ?_
  intro name present
  have other : name ≠ "field_named" := by
    rintro rfl
    cases present
  simp [ofJson?, choice?, variant?, other]

/-! ### Records -/

namespace Field

/-- What the entries of a field have to be read as. -/
def tests (f : Field) : List (Option Json → Prop) := [
  (required? text? · = some f.name),
  (required? SemanticType.ofJson? · = some f.type),
  (optional? false bool? · = some f.nullable),
  (optional? false bool? · = some f.identity),
  (optional? false bool? · = some f.ignored),
  (optional? none (nullable? text?) · = some f.column)]

theorem ofJson?_iff (v : Json) (f : Field) : ofJson? v = some f ↔
    ∃ entries, v.members? (namesOf members) = some entries ∧ Pass f.tests entries := by
  constructor
  · intro read
    obtain ⟨entries, found, read⟩ := Option.bind_eq_some_iff.mp read
    refine ⟨entries, found, ?_⟩
    split at read
    · simp only [bind, pure, Option.bind_eq_some_iff, Option.some.injEq] at read
      obtain ⟨_, name, _, type, _, nullable, _, identity, _, ignored, _, column, rfl⟩ := read
      exact .cons name (.cons type (.cons nullable (.cons identity (.cons ignored
        (.cons column .nil)))))
    · cases read
  · rintro ⟨entries, found, pass⟩
    obtain _ | ⟨name, pass⟩ := pass
    obtain _ | ⟨type, pass⟩ := pass
    obtain _ | ⟨nullable, pass⟩ := pass
    obtain _ | ⟨identity, pass⟩ := pass
    obtain _ | ⟨ignored, pass⟩ := pass
    obtain _ | ⟨column, ⟨⟩⟩ := pass
    have found : v.members? memberNames = _ := found
    simp [ofJson?, found, name, type, nullable, identity, ignored, column]

theorem judges (f : Field) : List.Forall₂ Member.Judges members f.tests :=
  .cons (judges_required understands_plain _ rfl) <|
  .cons (judges_required SemanticType.understands _ rfl) <|
  .cons (judges_optional understands_plain _ rfl rfl) <|
  .cons (judges_optional understands_plain _ rfl rfl) <|
  .cons (judges_optional understands_plain _ rfl rfl) <|
  .cons (judges_optional understands_plain _ rfl rfl) .nil

theorem understands : Understands ofJson? (.record members) :=
  understands_record (by decide) judges ofJson?_iff

end Field

namespace Model

/-- What the entries of a model have to be read as. -/
def tests (m : Model) : List (Option Json → Prop) := [
  (optional? none (nullable? text?) · = some m.key),
  (required? text? · = some m.name),
  (optional? none (nullable? text?) · = some m.table),
  (optional? [] (list? Field.ofJson?) · = some m.fields)]

theorem ofJson?_iff (v : Json) (m : Model) : ofJson? v = some m ↔
    ∃ entries, v.members? (namesOf members) = some entries ∧ Pass m.tests entries := by
  constructor
  · intro read
    obtain ⟨entries, found, read⟩ := Option.bind_eq_some_iff.mp read
    refine ⟨entries, found, ?_⟩
    split at read
    · simp only [bind, pure, Option.bind_eq_some_iff, Option.some.injEq] at read
      obtain ⟨_, key, _, name, _, table, _, fields, rfl⟩ := read
      exact .cons key (.cons name (.cons table (.cons fields .nil)))
    · cases read
  · rintro ⟨entries, found, pass⟩
    obtain _ | ⟨key, pass⟩ := pass
    obtain _ | ⟨name, pass⟩ := pass
    obtain _ | ⟨table, pass⟩ := pass
    obtain _ | ⟨fields, ⟨⟩⟩ := pass
    have found : v.members? memberNames = _ := found
    simp [ofJson?, found, key, name, table, fields]

theorem judges (m : Model) : List.Forall₂ Member.Judges members m.tests :=
  .cons (judges_optional understands_plain _ rfl rfl) <|
  .cons (judges_required understands_plain _ rfl) <|
  .cons (judges_optional understands_plain _ rfl rfl) <|
  .cons (judges_optional (understands_list Field.understands) _ rfl rfl) .nil

theorem understands : Understands ofJson? (.record members) :=
  understands_record (by decide) judges ofJson?_iff

end Model

namespace Settings

/-- What the entry of the settings has to be read as. -/
def tests (s : Settings) : List (Option Json → Prop) := [
  (optional? ({} : Settings).identityConvention IdentityConvention.ofJson? · =
    some s.identityConvention)]

theorem ofJson?_iff (v : Json) (s : Settings) : ofJson? v = some s ↔
    ∃ entries, v.members? (namesOf members) = some entries ∧ Pass s.tests entries := by
  constructor
  · intro read
    obtain ⟨entries, found, read⟩ := Option.bind_eq_some_iff.mp read
    refine ⟨entries, found, ?_⟩
    split at read
    · simp only [bind, pure, Option.bind_eq_some_iff, Option.some.injEq] at read
      obtain ⟨_, convention, rfl⟩ := read
      exact .cons convention .nil
    · cases read
  · rintro ⟨entries, found, pass⟩
    obtain _ | ⟨convention, ⟨⟩⟩ := pass
    have found : v.members? memberNames = _ := found
    simp [ofJson?, found, convention]

theorem judges (s : Settings) : List.Forall₂ Member.Judges members s.tests :=
  .cons (judges_optional IdentityConvention.understands _ rfl rfl) .nil

theorem understands : Understands ofJson? (.record members) :=
  understands_record (by decide) judges ofJson?_iff

end Settings

/-- Models, fields and settings are read as the same value in any spelling of theirs and of the
records and variants in them. No text is read with a record that lacks a member, or that gives
one twice. -/
theorem Model.descriptions_in_any_spelling :
    ReadInAnySpelling Model.toJson Model.ofJson? (.record Model.members) ∧
      ReadInAnySpelling Field.toJson Field.ofJson? (.record Field.members) ∧
      ReadInAnySpelling Settings.toJson Settings.ofJson? (.record Settings.members) :=
  ⟨Model.understands.readInAnySpelling Model.ofJson?_toJson,
    Field.understands.readInAnySpelling Field.ofJson?_toJson,
    Settings.understands.readInAnySpelling Settings.ofJson?_toJson⟩

/-! A model with one field, of which one member has its default. -/

def coinModel : Model where
  name := "Coin"
  fields := [{ name := "Id", type := .int }]

def coinWith (field : Json) : Json := ofMembers [("name", ofText "Coin"), ("fields", .array [field])]

def coinField : Json :=
  ofMembers [("name", ofText "Id"), ("type", ofText "int"), ("nullable", .bool false)]

/-- The field without the names of its members and without the default. -/
def coinFieldListed : Json := .array [ofText "Id", ofMembers [("int", .null)]]

/-- The field with another name beside its own. -/
def coinFieldRenamed : Json :=
  ofMembers [("name", ofText "No"), ("name", ofText "Id"), ("type", ofText "int"),
    ("nullable", .bool false)]

theorem within_coinWith {change : Form → Json → Json → Prop} {field field' : Json}
    (inner : Within change (.record Field.members) field field') :
    Within change (.record Model.members) (coinWith field) (coinWith field') :=
  @Within.member _ Model.members
    { name := "fields", default := some (.array []), form := .list (.record Field.members) }
    [(some "name", ofText "Coin")] [] _ _ (by simp [Model.members]) (@Within.item _ _ [] [] _ _ inner)

theorem coinField_respelt :
    Relation.ReflTransGen (Within Respelling (.record Field.members)) coinField coinFieldListed := by
  have listed : Within Respelling (.record Field.members) coinField
      (.array [ofText "Id", ofText "int"]) := by
    refine .here (.list (.next ?_ (.next ?_ (.done ?_)))) <;> simp
  have content : Within Respelling (.record Field.members) (.array [ofText "Id", ofText "int"])
      coinFieldListed :=
    @Within.listed _ (Field.members.take 1) (Field.members.drop 2)
      { name := "type", default := none, form := .variant } [ofText "Id"] [] _ _ rfl (.here .content)
  exact (Relation.ReflTransGen.single listed).tail content

theorem coinField_spoilt : Within Spoiling (.record Field.members) coinField coinFieldRenamed :=
  .here (@Spoiling.twice _ { name := "name", default := none, form := .plain } (ofText "Id") _ [] _
    (by simp [Field.members]) (by simp))

theorem numberless_coinWith {field : Json} (numberless : Numberless field) :
    Numberless (coinWith field) := by
  have fields : Numberless (.array [field]) := .array (by simpa using numberless)
  exact numberless_ofMembers (by simp [numberless_ofText, fields])

theorem Model.descriptions_in_any_spelling_coin :
    described? Model.ofJson? (coinWith coinFieldListed).render = some coinModel ∧
      described? Model.ofJson? (coinWith coinFieldRenamed).render = none := by
  have read : described? Model.ofJson? (coinWith coinField).render = some coinModel := by
    decide +kernel
  have field : Numberless coinField :=
    numberless_ofMembers (by simp [numberless_ofText, Numberless.bool])
  have listed : Numberless coinFieldListed :=
    .array (by simp [numberless_ofText, numberless_ofMembers, Numberless.null])
  have renamed : Numberless coinFieldRenamed :=
    numberless_ofMembers (by simp [numberless_ofText, Numberless.bool])
  have changes := coinField_respelt.lift coinWith fun _ _ => within_coinWith
  have models := descriptions_in_any_spelling.1
  exact ⟨models.respelt (parse?_render (numberless_coinWith field))
      (parse?_render (numberless_coinWith listed)) changes read,
    models.spoilt (parse?_render (numberless_coinWith renamed)) (within_coinWith coinField_spoilt)⟩

end ModelSql
