import ModelSql.Declaration.Description
import ModelSql.Proofs.Table.WellFormed
/-!
# Attributes that name the table

The attributes on a type may only name its table. They are read in order, and the first that
names it ends the reading, so what comes after is not looked at. An attribute that is not in
order is refused if it comes first and passes if it comes last.

* `Attribute.Proper`, `Attribute.Refused`: attributes in order, and the faults of the others;
* `Declaration.tableAlias_eq_error_iff`: the fault of the first attribute that is not in order;
* `Declaration.improper_attribute_refused_iff`: which declarations are refused for an attribute,
  and for which of them the order of the attributes matters.
-/

namespace ModelSql

/-- The items are gone through up to the first that does not pass, which is refused. -/
def StopsWith {α ε : Type} (passes : α → Prop) (refused : α → ε → Prop) (items : List α)
    (fault : ε) : Prop :=
  ∃ before x after, items = before ++ x :: after ∧ (∀ y ∈ before, passes y) ∧ refused x fault

/-- The argument is `table`, set to a text. -/
def AttributeArgument.NamesTable (x : AttributeArgument) : Prop :=
  x.name = "table" ∧ ∃ name, x.value = some (.text name)

/-- Why an argument that does not name the table is refused. -/
inductive AttributeArgument.Refused (x : AttributeArgument) : DeclarationFault → Prop
  | unknown (other : x.name ≠ "table") : Refused x .unknownModelArgument
  | missing (own : x.name = "table") (absent : x.value = none) : Refused x .missingValue
  | notText (own : x.name = "table") (given : x.value = some .expression) : Refused x .notText

namespace Attribute

/-- An attribute in order has parentheses, and all that stands in them names the table. -/
def Proper (a : Attribute) : Prop :=
  ∃ arguments, a.arguments = some arguments ∧ ∀ x ∈ arguments, x.NamesTable

/-- An attribute in order that does name the table. -/
def NamesTable (a : Attribute) : Prop := a.Proper ∧ a.arguments ≠ some []

/-- Why an attribute that is not in order is refused. -/
inductive Refused (a : Attribute) : DeclarationFault → Prop
  | bare (absent : a.arguments = none) : Refused a .missingArguments
  | argument {arguments : List AttributeArgument} {fault : DeclarationFault}
      (given : a.arguments = some arguments)
      (first : StopsWith AttributeArgument.NamesTable AttributeArgument.Refused
        arguments fault) :
      Refused a fault

end Attribute

namespace Declaration

/-- The attributes on a type that are meant for its model. -/
def modelAttributes (attributes : List Attribute) : List Attribute :=
  attributes.filter (·.path = "model")

/-- Every attribute that is not in order comes after one that names the table. -/
def NamesTableFirst (attributes : List Attribute) : Prop :=
  ∀ before a after, attributes = before ++ a :: after → ¬ a.Proper → ∃ b ∈ before, b.NamesTable

def Describable (d : Declaration) (modulePath : String) : Prop :=
  ∃ description, d.describe modulePath = .ok description

/-- The declaration is describable in every order of its attributes, or in none. -/
def OrderFree (d : Declaration) (modulePath : String) : Prop :=
  ∀ attributes, attributes.Perm d.attributes →
    ({ d with attributes }.Describable modulePath ↔ d.Describable modulePath)

end Declaration

theorem stopsWith_nil {α ε : Type} {passes : α → Prop} {refused : α → ε → Prop} {fault : ε} :
    ¬ StopsWith passes refused [] fault := by
  rintro ⟨before, x, after, split, -⟩
  cases before <;> cases split

theorem stopsWith_cons {α ε : Type} {passes : α → Prop} {refused : α → ε → Prop} {x : α}
    {items : List α} {fault : ε} :
    StopsWith passes refused (x :: items) fault ↔
      refused x fault ∨ passes x ∧ StopsWith passes refused items fault := by
  constructor
  · rintro ⟨before, y, after, split, pass, refuses⟩
    cases before with
    | nil =>
      cases split
      exact .inl refuses
    | cons z before =>
      cases split
      obtain ⟨own, others⟩ := List.forall_mem_cons.mp pass
      exact .inr ⟨own, before, y, after, rfl, others, refuses⟩
  · rintro (refuses | ⟨own, before, y, after, rfl, pass, refuses⟩)
    · exact ⟨[], x, items, rfl, fun y mem => (List.not_mem_nil mem).elim, refuses⟩
    · exact ⟨x :: before, y, after, rfl, List.forall_mem_cons.mpr ⟨own, pass⟩, refuses⟩

/-! ## Arguments -/

section
variable {x : AttributeArgument} {arguments : List AttributeArgument} {fault : DeclarationFault}

theorem AttributeArgument.namesTable_or_refused (x : AttributeArgument) :
    x.NamesTable ∨ ∃ fault, x.Refused fault := by
  by_cases own : x.name = "table"
  · cases given : x.value with
    | none => exact .inr ⟨_, .missing own given⟩
    | some value =>
      cases value with
      | text name => exact .inl ⟨own, name, given⟩
      | expression => exact .inr ⟨_, .notText own given⟩
  · exact .inr ⟨_, .unknown own⟩

theorem AttributeArgument.Refused.not_namesTable (refused : x.Refused fault) :
    ¬ x.NamesTable := by
  rintro ⟨own, name, given⟩
  cases refused with
  | unknown other => exact other own
  | missing _ absent => cases absent.symm.trans given
  | notText _ expression => cases expression.symm.trans given

namespace Declaration

theorem tableOf_of_namesTable (names : x.NamesTable) (table : Option String)
    (arguments : List AttributeArgument) :
    ∃ name, tableOf table (x :: arguments) = tableOf (some name) arguments := by
  obtain ⟨own, name, given⟩ := names
  refine ⟨name, ?_⟩
  rw [tableOf, if_pos own, AttributeArgument.text, given]
  rfl

theorem tableOf_of_refused (refused : x.Refused fault) (table : Option String) :
    tableOf table (x :: arguments) = .error fault := by
  cases refused with
  | unknown other => rw [tableOf, if_neg other]
  | missing own absent =>
    rw [tableOf, if_pos own, AttributeArgument.text, absent]
    rfl
  | notText own given =>
    rw [tableOf, if_pos own, AttributeArgument.text, given]
    rfl

/-- A fault is that of the first argument which does not name the table. -/
theorem tableOf_eq_error_iff {table : Option String} :
    tableOf table arguments = .error fault ↔
      StopsWith AttributeArgument.NamesTable AttributeArgument.Refused arguments fault := by
  induction arguments generalizing table with
  | nil => exact ⟨(nomatch ·), fun first => (stopsWith_nil first).elim⟩
  | cons x arguments ih =>
    rw [stopsWith_cons]
    obtain names | ⟨own, refused⟩ := x.namesTable_or_refused
    · obtain ⟨name, step⟩ := tableOf_of_namesTable names table arguments
      rw [step, ih]
      have passes : ¬ x.Refused fault := fun refused => refused.not_namesTable names
      exact ⟨fun later => .inr ⟨names, later⟩, fun either => (either.resolve_left passes).2⟩
    · constructor
      · intro read
        rw [tableOf_of_refused refused] at read
        cases read
        exact .inl refused
      · rintro (other | ⟨names, -⟩)
        · exact tableOf_of_refused other table
        · exact absurd names refused.not_namesTable

/-- Arguments that are read all name the table, and the last of them has its name. -/
theorem tableOf_ok {table last : Option String} (read : tableOf table arguments = .ok last) :
    (∀ x ∈ arguments, x.NamesTable) ∧ (last = none → table = none ∧ arguments = []) := by
  induction arguments generalizing table with
  | nil =>
    cases read
    exact ⟨fun x mem => (List.not_mem_nil mem).elim, fun absent => ⟨absent, rfl⟩⟩
  | cons x arguments ih =>
    obtain names | ⟨fault, refused⟩ := x.namesTable_or_refused
    · obtain ⟨name, step⟩ := tableOf_of_namesTable names table arguments
      rw [step] at read
      obtain ⟨others, known⟩ := ih read
      exact ⟨List.forall_mem_cons.mpr ⟨names, others⟩, fun absent => nomatch (known absent).1⟩
    · cases (tableOf_of_refused refused table).symm.trans read

end Declaration

end

/-! ## Attributes -/

section
variable {a : Attribute} {attributes : List Attribute} {fault : DeclarationFault}

namespace Attribute

theorem proper_of_empty (empty : a.arguments = some []) : a.Proper :=
  ⟨[], empty, fun _ mem => (List.not_mem_nil mem).elim⟩

theorem Refused.not_proper (refused : a.Refused fault) : ¬ a.Proper := by
  rintro ⟨arguments, given, names⟩
  cases refused with
  | bare absent => cases absent.symm.trans given
  | argument given' first =>
    obtain rfl := Option.some.inj (given.symm.trans given')
    obtain ⟨before, x, after, rfl, -, refused⟩ := first
    exact refused.not_namesTable (names x (by simp))

/-- An attribute is empty, or it names the table, or it is refused. -/
theorem trichotomy (a : Attribute) :
    a.arguments = some [] ∨ a.NamesTable ∨ ∃ fault, a.Refused fault := by
  cases given : a.arguments with
  | none => exact .inr (.inr ⟨_, .bare given⟩)
  | some arguments =>
    cases read : Declaration.tableOf none arguments with
    | error fault =>
      exact .inr (.inr ⟨fault, .argument given (Declaration.tableOf_eq_error_iff.mp read)⟩)
    | ok last =>
      by_cases empty : arguments = []
      · exact .inl (by rw [empty])
      · exact .inr (.inl ⟨⟨arguments, given, (Declaration.tableOf_ok read).1⟩, by simpa [given]⟩)

end Attribute

namespace Declaration

theorem modelAttributes_of_own (own : a.path = "model") :
    modelAttributes (a :: attributes) = a :: modelAttributes attributes :=
  List.filter_cons_of_pos (by simpa using own)

theorem modelAttributes_of_other (other : a.path ≠ "model") :
    modelAttributes (a :: attributes) = modelAttributes attributes :=
  List.filter_cons_of_neg (by simpa using other)

theorem tableAlias_of_other (other : a.path ≠ "model") :
    tableAlias (a :: attributes) = tableAlias attributes := by
  rw [tableAlias, if_neg other]

theorem tableAlias_of_empty (own : a.path = "model") (empty : a.arguments = some []) :
    tableAlias (a :: attributes) = tableAlias attributes := by
  rw [tableAlias, if_pos own, empty]
  rfl

theorem tableAlias_of_refused (own : a.path = "model") (refused : a.Refused fault) :
    tableAlias (a :: attributes) = .error fault := by
  cases refused with
  | bare absent => rw [tableAlias, if_pos own, absent]
  | argument given first =>
    rw [tableAlias, if_pos own, given]
    simp only [tableOf_eq_error_iff.mpr first]
    rfl

/-- What comes after an attribute that names the table is not looked at. -/
theorem tableAlias_of_namesTable (own : a.path = "model") (names : a.NamesTable)
    (attributes : List Attribute) :
    ∃ name, tableAlias (a :: attributes) = .ok (some name) := by
  obtain ⟨proper, nonempty⟩ := names
  obtain ⟨arguments, given, -⟩ := id proper
  cases read : tableOf none arguments with
  | error fault =>
    exact absurd proper (Attribute.Refused.argument given (tableOf_eq_error_iff.mp read)).not_proper
  | ok last =>
    cases last with
    | none => exact absurd (by rw [given, ((tableOf_ok read).2 rfl).2]) nonempty
    | some name =>
      refine ⟨name, ?_⟩
      rw [tableAlias, if_pos own, given]
      simp only [read]
      rfl

/-- A fault is that of the first attribute which is not in order, if none before it names the
table. -/
theorem tableAlias_eq_error_iff :
    tableAlias attributes = .error fault ↔
      StopsWith (fun a => a.arguments = some []) Attribute.Refused (modelAttributes attributes)
        fault := by
  induction attributes with
  | nil => exact ⟨(nomatch ·), fun first => (stopsWith_nil first).elim⟩
  | cons a attributes ih =>
    by_cases own : a.path = "model"
    · rw [modelAttributes_of_own own, stopsWith_cons]
      obtain empty | names | ⟨fault', refused⟩ := a.trichotomy
      · have passes : ¬ a.Refused fault := fun refused =>
          refused.not_proper (Attribute.proper_of_empty empty)
        rw [tableAlias_of_empty own empty, ih]
        exact ⟨fun later => .inr ⟨empty, later⟩, fun either => (either.resolve_left passes).2⟩
      · obtain ⟨name, read⟩ := tableAlias_of_namesTable own names attributes
        rw [read]
        constructor
        · exact (nomatch ·)
        · rintro (refused | ⟨empty, -⟩)
          · exact absurd names.1 refused.not_proper
          · exact absurd empty names.2
      · constructor
        · intro read
          rw [tableAlias_of_refused own refused] at read
          cases read
          exact .inl refused
        · rintro (other | ⟨empty, -⟩)
          · exact tableAlias_of_refused own other
          · exact absurd (Attribute.proper_of_empty empty) refused.not_proper
    · rw [tableAlias_of_other own, modelAttributes_of_other own, ih]

theorem namesTableFirst_cons :
    NamesTableFirst (a :: attributes) ↔ a.NamesTable ∨ a.Proper ∧ NamesTableFirst attributes := by
  constructor
  · intro first
    by_cases names : a.NamesTable
    · exact .inl names
    · refine .inr ⟨?_, ?_⟩
      · by_contra improper
        obtain ⟨b, mem, -⟩ := first [] a attributes rfl improper
        cases mem
      · rintro before bad after rfl improper
        obtain ⟨b, mem, own⟩ := first (a :: before) bad after rfl improper
        obtain rfl | mem := List.mem_cons.mp mem
        · exact absurd own names
        · exact ⟨b, mem, own⟩
  · intro either before bad after split improper
    cases before with
    | nil =>
      cases split
      exact absurd (either.elim (·.1) (·.1)) improper
    | cons b before =>
      cases split
      obtain names | ⟨-, first⟩ := either
      · exact ⟨a, List.mem_cons_self, names⟩
      · obtain ⟨b, mem, own⟩ := first before bad after rfl improper
        exact ⟨b, List.mem_cons_of_mem _ mem, own⟩

/-- The attributes are read unless one that is not in order is reached. -/
theorem exists_tableAlias_iff :
    (∃ table, tableAlias attributes = .ok table) ↔
      NamesTableFirst (modelAttributes attributes) := by
  induction attributes with
  | nil =>
    refine ⟨fun _ before a after split => ?_, fun _ => ⟨none, rfl⟩⟩
    cases before <;> cases split
  | cons a attributes ih =>
    by_cases own : a.path = "model"
    · rw [modelAttributes_of_own own, namesTableFirst_cons]
      obtain empty | names | ⟨fault, refused⟩ := a.trichotomy
      · rw [tableAlias_of_empty own empty, ih]
        have unnamed : ¬ a.NamesTable := fun names => names.2 empty
        exact ⟨fun first => .inr ⟨Attribute.proper_of_empty empty, first⟩,
          fun either => (either.resolve_left unnamed).2⟩
      · obtain ⟨name, read⟩ := tableAlias_of_namesTable own names attributes
        exact ⟨fun _ => .inl names, fun _ => ⟨some name, read⟩⟩
      · constructor
        · rintro ⟨table, read⟩
          cases (tableAlias_of_refused own refused).symm.trans read
        · exact fun either => absurd (either.elim (·.1) (·.1)) refused.not_proper
    · rw [tableAlias_of_other own, modelAttributes_of_other own, ih]

end Declaration

end

/-! ## Declarations -/

namespace Declaration

section
variable {d : Declaration} {modulePath : String}

theorem describe_error {fault : DeclarationFault}
    (refused : tableAlias d.attributes = .error fault) :
    d.describe modulePath = .error fault := by
  rw [describe, refused]
  rfl

theorem describable_iff (named : d.shape = .struct) :
    d.Describable modulePath ↔
      NamesTableFirst (modelAttributes d.attributes) ∧
        ∃ fields, d.fields.mapM fieldOf = .ok fields := by
  rw [← exists_tableAlias_iff]
  constructor
  · rintro ⟨description, described⟩
    obtain ⟨table, read, described⟩ := steps_of_ok described
    obtain ⟨-, -, described⟩ := steps_of_ok described
    obtain ⟨fields, made, -⟩ := steps_of_ok described
    exact ⟨⟨table, read⟩, fields, made⟩
  · rintro ⟨⟨table, read⟩, fields, made⟩
    exact ⟨_, by rw [describe, read, named, made]; rfl⟩

/-- Any attribute can come first. -/
theorem exists_modelAttributes_cons {a : Attribute} {attributes : List Attribute}
    (mem : a ∈ modelAttributes attributes) :
    ∃ others, (a :: others).Perm attributes ∧
      modelAttributes (a :: others) = a :: modelAttributes others := by
  obtain ⟨inside, own⟩ := List.mem_filter.mp mem
  exact ⟨attributes.erase a, (List.perm_cons_erase inside).symm,
    modelAttributes_of_own (of_decide_eq_true own)⟩

theorem namesTableFirst_of_proper {attributes : List Attribute}
    (proper : ∀ a ∈ attributes, a.Proper) : NamesTableFirst attributes := by
  rintro before a after rfl improper
  exact absurd (proper a (by simp)) improper

/-- As long as no attribute names the table, every one is looked at. -/
theorem namesTableFirst_iff_of_unnamed {attributes : List Attribute}
    (unnamed : ∀ a ∈ attributes, ¬ a.NamesTable) :
    NamesTableFirst attributes ↔ ∀ a ∈ attributes, a.Proper := by
  refine ⟨fun first a mem => ?_, namesTableFirst_of_proper⟩
  by_contra improper
  obtain ⟨before, after, rfl⟩ := List.append_of_mem mem
  obtain ⟨b, earlier, names⟩ := first before a after rfl improper
  exact unnamed b (List.mem_append_left _ earlier) names

/-- The order matters if one attribute names the table and another is not in order. -/
theorem orderFree_iff (named : d.shape = .struct)
    (made : ∃ fields, d.fields.mapM fieldOf = .ok fields) :
    d.OrderFree modulePath ↔
      (∀ a ∈ modelAttributes d.attributes, a.Proper) ∨
        ∀ a ∈ modelAttributes d.attributes, ¬ a.NamesTable := by
  have describable (attributes : List Attribute) :
      ({ d with attributes }.Describable modulePath ↔
        NamesTableFirst (modelAttributes attributes)) := by
    rw [describable_iff (d := { d with attributes }) named]
    exact and_iff_left made
  have whole : d.Describable modulePath ↔ NamesTableFirst (modelAttributes d.attributes) :=
    describable d.attributes
  constructor
  · intro free
    by_contra mixed
    push Not at mixed
    obtain ⟨⟨bad, badIn, improper⟩, good, goodIn, names⟩ := mixed
    obtain ⟨afterGood, goodOrder, goodFirst⟩ := exists_modelAttributes_cons goodIn
    obtain ⟨afterBad, badOrder, badFirst⟩ := exists_modelAttributes_cons badIn
    have accepted : { d with attributes := good :: afterGood }.Describable modulePath := by
      rw [describable, goodFirst, namesTableFirst_cons]
      exact .inl names
    have refused : ¬ { d with attributes := bad :: afterBad }.Describable modulePath := by
      rw [describable, badFirst, namesTableFirst_cons]
      exact fun either => improper (either.elim (·.1) (·.1))
    exact refused ((free _ badOrder).mpr ((free _ goodOrder).mp accepted))
  · intro either attributes order
    have same : (modelAttributes attributes).Perm (modelAttributes d.attributes) :=
      order.filter _
    rw [describable, whole]
    obtain proper | unnamed := either
    · have proper' : ∀ a ∈ modelAttributes attributes, a.Proper :=
        fun a mem => proper a (same.mem_iff.mp mem)
      exact iff_of_true (namesTableFirst_of_proper proper') (namesTableFirst_of_proper proper)
    · have unnamed' : ∀ a ∈ modelAttributes attributes, ¬ a.NamesTable :=
        fun a mem => unnamed a (same.mem_iff.mp mem)
      rw [namesTableFirst_iff_of_unnamed unnamed', namesTableFirst_iff_of_unnamed unnamed]
      exact forall_congr' fun a => by rw [same.mem_iff]

end

/-- An attribute that is not in order is refused, with the fault of the first such, exactly if
none before it names the table. So the order of the attributes matters to a declaration whose
fields are described exactly if one of them names the table and another is not in order. -/
theorem improper_attribute_refused_iff {d : Declaration} (named : d.shape = .struct)
    (modulePath : String) :
    (d.Describable modulePath ↔
      NamesTableFirst (modelAttributes d.attributes) ∧
        ∃ fields, d.fields.mapM fieldOf = .ok fields) ∧
    (¬ NamesTableFirst (modelAttributes d.attributes) →
      ∃ fault, d.describe modulePath = .error fault ∧
        StopsWith (fun a => a.arguments = some []) Attribute.Refused
          (modelAttributes d.attributes) fault) ∧
    ((∃ fields, d.fields.mapM fieldOf = .ok fields) →
      (d.OrderFree modulePath ↔
        (∀ a ∈ modelAttributes d.attributes, a.Proper) ∨
          ∀ a ∈ modelAttributes d.attributes, ¬ a.NamesTable)) := by
  refine ⟨describable_iff named, ?_, orderFree_iff named⟩
  intro reached
  rw [← exists_tableAlias_iff] at reached
  cases read : tableAlias d.attributes with
  | ok table => exact absurd ⟨table, read⟩ reached
  | error fault => exact ⟨fault, describe_error read, tableAlias_eq_error_iff.mp read⟩

def modelAttribute (argument : String) (table : String) : Attribute where
  path := "model"
  arguments := some [{ name := argument, value := some (.text table) }]

/-- A record whose second attribute is misspelt. -/
def memberDeclaration : Declaration where
  name := "Member"
  attributes := [modelAttribute "table" "members", modelAttribute "tabel" "people"]
  fields := [{ identifier := "id", type := .path [] "i64" .absent }]

def memberDescription : Description where
  model := {
    key := some "records::Member"
    name := "Member"
    table := some "members"
    fields := [{ name := "Id", type := .long }] }
  accessors := [("id", "Id")]

theorem modelAttribute_namesTable (table : String) :
    (modelAttribute "table" table).NamesTable := by
  refine ⟨⟨_, rfl, ?_⟩, by simp [modelAttribute]⟩
  intro x mem
  obtain rfl := List.mem_singleton.mp mem
  exact ⟨rfl, table, rfl⟩

theorem modelAttribute_not_proper {argument : String} (other : argument ≠ "table")
    (table : String) : ¬ (modelAttribute argument table).Proper := by
  rintro ⟨arguments, given, names⟩
  cases given
  exact other (names _ List.mem_cons_self).1

theorem improper_attribute_refused_iff_member :
    memberDeclaration.shape = .struct ∧ memberDeclaration.Describable "records" ∧
      ¬ memberDeclaration.OrderFree "records" := by
  have made : ∃ fields, memberDeclaration.fields.mapM fieldOf = .ok fields :=
    ⟨memberDescription.model.fields, ok_of_toOption (by decide +kernel)⟩
  obtain ⟨describable, -, order⟩ :=
    improper_attribute_refused_iff (d := memberDeclaration) rfl "records"
  refine ⟨rfl, describable.mpr ⟨?_, made⟩, fun free => ?_⟩
  · exact namesTableFirst_cons.mpr (.inl (modelAttribute_namesTable "members"))
  · have misspelt : ¬ (modelAttribute "tabel" "people").Proper :=
      modelAttribute_not_proper (by decide) "people"
    obtain proper | unnamed := (order made).mp free
    · exact misspelt (proper _ (by decide))
    · exact unnamed _ (by decide) (modelAttribute_namesTable "members")

/-- A misspelt attribute passes where it comes last, and is refused where it comes first. -/
theorem misspelt_attribute_passes :
    memberDeclaration.shape = .struct ∧
    modelAttribute "tabel" "people" ∈ memberDeclaration.attributes ∧
    memberDeclaration.describe "records" = .ok memberDescription ∧
    { memberDeclaration with attributes := memberDeclaration.attributes.reverse }.describe
      "records" = .error .unknownModelArgument :=
  ⟨rfl, by decide, ok_of_toOption (by decide +kernel), rfl⟩

end Declaration

end ModelSql
