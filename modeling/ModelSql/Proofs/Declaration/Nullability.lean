import ModelSql.Proofs.Declaration.Accessors
/-!
# Nullable fields

A type inside any number of options stands for the same semantic type as it does alone, and
admits null if there is at least one. Attributes can replace the semantic type of a field, but
whether it admits null follows from its declared type alone.

* `TypeExpr.Wraps`: a type inside options, however their paths are written;
* `TypeExpr.semantics_of_wraps`: the options around a type only make it admit null;
* `Declaration.options_only_admit_null`: the fields that are described.
-/

namespace ModelSql

namespace TypeExpr

/-- A path that ends in `Option` and has a type among its arguments. -/
def IsOption (t : TypeExpr) : Prop :=
  ∃ qualifier arguments content, t = .path qualifier "Option" arguments ∧
    arguments.firstType? = some content

/-- A type that consists of `core` and as many options around it. -/
inductive Wraps (core : TypeExpr) : Nat → TypeExpr → Prop
  | core : Wraps core 0 core
  | option (qualifier : List String) {arguments : PathArguments} {content : TypeExpr} {count : Nat}
      (first : arguments.firstType? = some content) (inside : Wraps core count content) :
      Wraps core (count + 1) (.path qualifier "Option" arguments)

section
variable {t core content : TypeExpr} {count : Nat}

theorem content?_option {qualifier : List String} {arguments : PathArguments} :
    (TypeExpr.path qualifier "Option" arguments).content? "Option" = arguments.firstType? := by
  rw [content?, if_pos rfl]

theorem content?_eq_some_iff :
    t.content? "Option" = some content ↔
      ∃ qualifier arguments, t = .path qualifier "Option" arguments ∧
        arguments.firstType? = some content := by
  constructor
  · intro found
    cases t with
    | path qualifier name arguments =>
      rw [content?] at found
      split at found
      · rename_i own
        exact ⟨qualifier, arguments, by rw [own], found⟩
      · cases found
    | reference marks target => cases found
    | other tokens => cases found
  · rintro ⟨qualifier, arguments, rfl, first⟩
    rw [content?_option, first]

theorem content?_eq_none_iff : t.content? "Option" = none ↔ ¬ t.IsOption := by
  rw [Option.eq_none_iff_forall_ne_some]
  constructor
  · rintro absent ⟨qualifier, arguments, content, own, first⟩
    exact absent content (content?_eq_some_iff.mpr ⟨qualifier, arguments, own, first⟩)
  · intro plain content found
    obtain ⟨qualifier, arguments, own, first⟩ := content?_eq_some_iff.mp found
    exact plain ⟨qualifier, arguments, content, own, first⟩

theorem semantics_of_content (found : t.content? "Option" = some content) :
    t.semantics = (content.semantics.1, true) := by
  rw [semantics]
  split
  · rename_i content' found'
    obtain rfl := Option.some.inj (found.symm.trans found')
    rfl
  · rename_i absent
    cases found.symm.trans absent

theorem semantics_of_plain (plain : ¬ t.IsOption) : t.semantics = (t.plainSemantics, false) := by
  have absent := content?_eq_none_iff.mpr plain
  rw [semantics]
  split
  · rename_i content found
    cases found.symm.trans absent
  · rfl

theorem Wraps.isOption_iff (plain : ¬ core.IsOption) (wraps : Wraps core count t) :
    t.IsOption ↔ 0 < count := by
  cases wraps with
  | core => exact iff_of_false plain (Nat.lt_irrefl 0)
  | option qualifier first inside =>
    exact iff_of_true ⟨qualifier, _, _, rfl, first⟩ (Nat.succ_pos _)

/-- The options around a type only make it admit null. -/
theorem semantics_of_wraps (plain : ¬ core.IsOption) (wraps : Wraps core count t) :
    t.semantics = (core.semantics.1, decide (0 < count)) := by
  induction wraps with
  | core => rw [semantics_of_plain plain]; rfl
  | @option qualifier arguments content count first inside ih =>
    have found : (TypeExpr.path qualifier "Option" arguments).content? "Option" = some content := by
      rw [content?_option, first]
    rw [semantics_of_content found, ih]
    simp

/-- Every type is inside options, if only none. -/
theorem exists_core (t : TypeExpr) : ∃ core count, ¬ core.IsOption ∧ Wraps core count t := by
  induction t using semantics.induct with
  | case1 t content found ih =>
    obtain ⟨core, count, plain, inside⟩ := ih
    obtain ⟨qualifier, arguments, rfl, first⟩ := content?_eq_some_iff.mp found
    exact ⟨core, count + 1, plain, .option qualifier first inside⟩
  | case2 t absent => exact ⟨t, 0, content?_eq_none_iff.mp absent, .core⟩

theorem admits_null_iff (t : TypeExpr) : t.semantics.2 = true ↔ t.IsOption := by
  obtain ⟨core, count, plain, wraps⟩ := t.exists_core
  rw [semantics_of_wraps plain wraps, wraps.isOption_iff plain, decide_eq_true_iff]

end

end TypeExpr

/-! ## Fields -/

/-- A field with one more attribute, which replaces its type by the one of the name. -/
def DeclaredField.replacingType (f : DeclaredField) (name : String) : DeclaredField :=
  { f with
    attributes := f.attributes ++
      [{ path := "field", arguments := some [{ name := "ty", value := some (.text name) }] }] }

namespace Declaration

/-- The type that replaces the inferred one, if the settings name one. -/
def FieldSettings.typeOr (s : FieldSettings) (inferred : SemanticType) :
    Except DeclarationFault SemanticType :=
  match s.typeName with
  | some name => replacement name
  | none => .ok inferred

theorem fieldOf_eq (f : DeclaredField) :
    fieldOf f = (FieldSettings.ofAttributes f.attributes).bind fun settings =>
      (settings.typeOr f.type.semantics.1).map fun type =>
        { name := pascalCase f.identifier
          type := type
          nullable := f.type.semantics.2
          identity := settings.identity
          ignored := settings.ignored
          column := settings.column } := by
  unfold fieldOf
  cases FieldSettings.ofAttributes f.attributes with
  | error fault => rfl
  | ok settings =>
    simp only [bind, Except.bind, FieldSettings.typeOr]
    cases settings.typeName with
    | none => rfl
    | some name => cases replacement name <;> rfl

/-- Of its declared type, a field keeps the semantic type that it stands for, unless an attribute
replaces it, and whether it admits null. -/
theorem fieldOf_retype (f : DeclaredField) {t t' : TypeExpr}
    (same : t.semantics.1 = t'.semantics.1) :
    fieldOf { f with type := t } =
      (fieldOf { f with type := t' }).map fun field =>
        { field with nullable := t.semantics.2 } := by
  rw [fieldOf_eq, fieldOf_eq, same]
  cases FieldSettings.ofAttributes f.attributes with
  | error fault => rfl
  | ok settings =>
    simp only [Except.bind]
    cases settings.typeOr t'.semantics.1 <;> rfl

theorem settings_replacingType {f : DeclaredField} {settings : FieldSettings}
    (given : FieldSettings.ofAttributes f.attributes = .ok settings) (name : String) :
    FieldSettings.ofAttributes (f.replacingType name).attributes =
      .ok { settings with typeName := some name } := by
  rw [FieldSettings.ofAttributes] at given ⊢
  rw [DeclaredField.replacingType, List.filter_append, List.flatMap_append, List.foldlM_append,
    given]
  rfl

/-- An attribute that replaces the type of a field changes nothing else about it. -/
theorem fieldOf_replacingType {f : DeclaredField} {field : Field}
    (described : fieldOf f = .ok field) (name : String) :
    fieldOf (f.replacingType name) = (replacement name).map fun type => { field with type } := by
  rw [fieldOf_eq] at described ⊢
  cases given : FieldSettings.ofAttributes f.attributes with
  | error fault =>
    rw [given] at described
    cases described
  | ok settings =>
    rw [given] at described
    rw [settings_replacingType given name]
    simp only [Except.bind] at described ⊢
    cases own : settings.typeOr f.type.semantics.1 with
    | error fault =>
      rw [own] at described
      cases described
    | ok type =>
      rw [own] at described
      cases described
      rfl

/-- A type inside options stands for what it stands for alone, and a field of that type differs
from one of the bare type in that it admits null. An attribute that replaces the type changes
the semantic type only. So a field admits null exactly if its declared type is an option. -/
theorem options_only_admit_null {core t : TypeExpr} {count : Nat} (plain : ¬ core.IsOption)
    (wraps : TypeExpr.Wraps core count t) :
    t.semantics = (core.semantics.1, decide (0 < count)) ∧
    core.semantics = (core.plainSemantics, false) ∧
    (∀ f : DeclaredField, fieldOf { f with type := t } =
      (fieldOf { f with type := core }).map fun field =>
        { field with nullable := decide (0 < count) }) ∧
    (∀ (f : DeclaredField) (field : Field) (name : String), fieldOf f = .ok field →
      fieldOf (f.replacingType name) = (replacement name).map fun type => { field with type }) ∧
    ∀ (d : Declaration) (modulePath : String) (description : Description),
      d.describe modulePath = .ok description →
      List.Forall₂ (fun f field => field.nullable = true ↔ f.type.IsOption) d.fields
        description.model.fields := by
  have inside := TypeExpr.semantics_of_wraps plain wraps
  refine ⟨inside, TypeExpr.semantics_of_plain plain, ?_, ?_, ?_⟩
  · intro f
    have same : t.semantics.1 = core.semantics.1 := by rw [inside]
    rw [fieldOf_retype f same, inside]
  · intro f field name described
    exact fieldOf_replacingType described name
  · intro d modulePath description described
    refine (describe_ok described).1.imp fun f field describes => ?_
    rw [describes.nullable, f.type.admits_null_iff]

/-- A path whose only argument is a type. -/
def pathOf (qualifier : List String) (name : String) (content : TypeExpr) : TypeExpr :=
  .path qualifier name (.angled [] [.type content] false)

theorem options_only_admit_null_bytes :
    let bytes := pathOf [] "Vec" (.path [] "u8" .absent)
    let wrapped := pathOf ["std", "::", "option", "::"] "Option" (pathOf [] "Option" bytes)
    ¬ bytes.IsOption ∧ TypeExpr.Wraps bytes 2 wrapped ∧ wrapped.semantics = (.bytes, true) := by
  intro bytes wrapped
  have plain : ¬ bytes.IsOption := by
    rintro ⟨qualifier, arguments, content, own, -⟩
    simp [bytes, pathOf] at own
  have wraps : TypeExpr.Wraps bytes 2 wrapped := .option _ rfl (.option _ rfl .core)
  obtain ⟨inside, alone, -⟩ := options_only_admit_null plain wraps
  have known : bytes.plainSemantics = .bytes := by decide
  exact ⟨plain, wraps, by rw [inside, alone, known]; rfl⟩

end Declaration

end ModelSql
