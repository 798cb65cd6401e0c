import ModelSql.Proofs.Table.Layout
/-!
# The identity by convention

The convention is a short way to mark a field. A model is built as the one that marks the first
persisted field of the conventional name, where no persisted field is marked and that field is
an integer and not nullable; any other model is built as if there were no convention.

* `Model.withConvention`: the model with the mark that the convention stands for;
* `acceptedColumns_congr`: marks matter to the acceptance of fields only where two of them meet;
* `Model.build_withConvention`: both models are built alike, whatever the faults are.
-/

namespace ModelSql

/-- The field with the mark of the identity. -/
def Field.marked (f : Field) : Field := { f with identity := true }

/-- The field with another mark, if it is ignored. -/
def Field.remarked (mark : Field → Bool) (f : Field) : Field :=
  if f.ignored then { f with identity := mark f } else f

/-- Whether the convention takes the field, if it has the right name. -/
def Field.isEligible (f : Field) : Bool := f.type.isInteger && !f.nullable

/-- Marks the first persisted field of a name as the identity. -/
def markIdentity (name : String) : List Field → List Field
  | [] => []
  | f :: rest =>
    if f.ignored = false ∧ f.name = name then f.marked :: rest
    else f :: markIdentity name rest

/-- No identity is chosen by convention. -/
def Settings.unconventional : Settings := { identityConvention := .disabled }

namespace Model

/-- The first persisted field of the conventional name. -/
def conventionalField? (m : Model) (settings : Settings) : Option Field :=
  settings.identityConvention.fieldName?.bind fun name => (persisted m.fields).find? (·.name = name)

/-- The model with the mark that the convention stands for. -/
def withConvention (m : Model) (settings : Settings) : Model :=
  if (persisted m.fields).any (·.identity) then m
  else
    match m.conventionalField? settings with
    | none => m
    | some f =>
      if f.isEligible then { m with fields := markIdentity f.name m.fields } else m

/-- The model with other marks on its ignored fields. -/
def remarkIgnored (m : Model) (mark : Field → Bool) : Model :=
  { m with fields := m.fields.map (·.remarked mark) }

end Model

/-! ### Fields that differ in their marks -/

/-- The fields differ at most in the mark of the identity. -/
def Field.SameButMark (f g : Field) : Prop := ∃ mark, g = { f with identity := mark }

theorem Field.SameButMark.refl (f : Field) : f.SameButMark f := ⟨f.identity, rfl⟩

theorem Field.SameButMark.name {f g : Field} (same : f.SameButMark g) : f.name = g.name := by
  obtain ⟨mark, rfl⟩ := same
  rfl

theorem Field.SameButMark.columnName {f g : Field} (same : f.SameButMark g) :
    f.columnName = g.columnName := by
  obtain ⟨mark, rfl⟩ := same
  rfl

theorem Field.SameButMark.ignored {f g : Field} (same : f.SameButMark g) :
    f.ignored = g.ignored := by
  obtain ⟨mark, rfl⟩ := same
  rfl

section
variable {fields fields' : List Field} (same : List.Forall₂ Field.SameButMark fields fields')
include same

theorem names_of_sameButMark : fields.map (·.name) = fields'.map (·.name) := by
  induction same with
  | nil => rfl
  | cons first _ ih => rw [List.map_cons, List.map_cons, first.name, ih]

theorem persisted_of_sameButMark :
    List.Forall₂ Field.SameButMark (persisted fields) (persisted fields') := by
  induction same with
  | nil => exact .nil
  | @cons f g _ _ first _ ih =>
    have alike := first.ignored
    cases ignored : g.ignored with
    | true =>
      rw [ignored] at alike
      rwa [persisted_cons_of_ignored alike, persisted_cons_of_ignored ignored]
    | false =>
      rw [ignored] at alike
      rw [persisted_cons alike, persisted_cons ignored]
      exact .cons first ih

theorem ignored_of_sameButMark :
    (fields.filter (·.ignored)).map (·.name) = (fields'.filter (·.ignored)).map (·.name) := by
  induction same with
  | nil => rfl
  | @cons f g _ _ first _ ih =>
    have alike := first.ignored
    cases ignored : g.ignored with
    | true => simpa [ignored, alike, first.name] using ih
    | false => simpa [ignored, alike] using ih

end

/-- The marked field before a field, if that has the mark too. -/
def earlierMark? (earlier : List Field) (field : Field) : Option Field :=
  if field.identity then (persisted earlier).find? (·.identity) else none

/-- Searches that find one name find fields of that name, or nothing, both of them. -/
theorem both_none_or_named_alike {first first' : Option Field}
    (same : first.map (·.name) = first'.map (·.name)) :
    (first = none ∧ first' = none) ∨
    ∃ f g : Field, first = some f ∧ first' = some g ∧ f.name = g.name := by
  cases first with
  | none => exact .inl ⟨rfl, Option.map_eq_none_iff.mp same.symm⟩
  | some f =>
    obtain ⟨g, found, named⟩ := Option.map_eq_some_iff.mp same.symm
    exact .inr ⟨f, g, rfl, found, named.symm⟩

/-- A field is judged alike after fields that differ in their marks, if it meets the same mark
there or none in either case. -/
theorem acceptedColumn?_congr {d : Dialect} {model : String} {earlier earlier' : List Field}
    {f g : Field} (before : List.Forall₂ Field.SameButMark earlier earlier')
    (same : f.SameButMark g)
    (meets : f.ignored = false →
      (earlierMark? earlier f).map (·.name) = (earlierMark? earlier' g).map (·.name)) :
    acceptedColumn? d model earlier f = acceptedColumn? d model earlier' g := by
  have taken : earlier.any (·.name = f.name) = earlier'.any (·.name = f.name) := by
    have any (fields : List Field) :
        fields.any (·.name = f.name) = (fields.map (·.name)).any (· = f.name) := by
      rw [List.any_map]
      rfl
    rw [any, any, names_of_sameButMark before]
  have column : ((persisted earlier).find? (·.columnName.toLower = f.columnName.toLower)).map
      (·.name) = ((persisted earlier').find? (·.columnName.toLower = f.columnName.toLower)).map
        (·.name) :=
    map_find?_eq (persisted_of_sameButMark before) (fun a b alike => by rw [alike.columnName])
      fun a b alike => alike.name
  obtain ⟨mark, rfl⟩ := same
  have own : ({ f with identity := mark } : Field).columnName = f.columnName := rfl
  unfold acceptedColumn?
  simp only [taken, own]
  by_cases clash : earlier'.any (·.name = f.name) = true
  · rw [if_pos clash, if_pos clash]
  rw [if_neg clash, if_neg clash]
  by_cases ignored : f.ignored = true
  · rw [if_pos ignored, if_pos ignored]
  rw [if_neg ignored, if_neg ignored]
  have meets := meets (by simpa using ignored)
  unfold earlierMark? at meets
  cases d.nativeType f.type with
  | none => rfl
  | some native =>
    obtain ⟨none, none'⟩ | ⟨a, b, found, found', named⟩ := both_none_or_named_alike column
    · obtain ⟨single, single'⟩ | ⟨a, b, second, second', named⟩ := both_none_or_named_alike meets
      · simp only [none, none', single, single']
        rfl
      · simp only [none, none', second, second', named]
    · simp only [found, found', named]

/-! ### One mark at most -/

/-- No two persisted fields are marked. -/
def MarkedOnce (fields : List Field) : Prop :=
  ((persisted fields).filter (·.identity)).length ≤ 1

theorem MarkedOnce.earlierMark?_eq_none {earlier rest : List Field} {f : Field}
    (once : MarkedOnce (earlier ++ f :: rest)) (persists : f.ignored = false) :
    earlierMark? earlier f = none := by
  unfold earlierMark?
  by_cases marked : f.identity = true
  · rw [if_pos marked, List.find?_eq_none]
    intro first mem isMarked
    have split : (persisted (earlier ++ f :: rest)).filter (·.identity) =
        (persisted earlier).filter (·.identity) ++ f :: (persisted rest).filter (·.identity) := by
      simp [persisted, persists, marked]
    have inside : 0 < ((persisted earlier).filter (·.identity)).length :=
      List.length_pos_of_mem (List.mem_filter.mpr ⟨mem, isMarked⟩)
    rw [MarkedOnce, split, List.length_append, List.length_cons] at once
    omega
  · rw [if_neg marked]

/-- Fields without two marks among them are judged alike, whichever of them is marked. -/
theorem acceptedColumns_congr {d : Dialect} {model : String}
    {earlier earlier' fields fields' : List Field}
    (before : List.Forall₂ Field.SameButMark earlier earlier')
    (same : List.Forall₂ Field.SameButMark fields fields')
    (once : MarkedOnce (earlier ++ fields)) (once' : MarkedOnce (earlier' ++ fields')) :
    acceptedColumns d model earlier fields = acceptedColumns d model earlier' fields' := by
  induction same generalizing earlier earlier' with
  | nil => rfl
  | @cons f g fields fields' first _ ih =>
    have head : acceptedColumn? d model earlier f = acceptedColumn? d model earlier' g := by
      refine acceptedColumn?_congr before first fun persists => ?_
      rw [once.earlierMark?_eq_none persists,
        once'.earlierMark?_eq_none (first.ignored.symm.trans persists)]
    rw [List.append_cons] at once once'
    have next := List.rel_append before (.cons first .nil)
    rw [acceptedColumns, acceptedColumns, head, ih next once once']

/-! ### The mark that the convention stands for -/

section
variable {name : String}

theorem markIdentity_sameButMark (fields : List Field) :
    List.Forall₂ Field.SameButMark fields (markIdentity name fields) := by
  induction fields with
  | nil => exact .nil
  | cons f rest ih =>
    unfold markIdentity
    split
    · exact .cons ⟨true, rfl⟩ (List.forall₂_same.mpr fun g _ => .refl g)
    · exact .cons (.refl f) ih

/-- The marked field is the first of the name, and the only one if no other is marked. -/
theorem filter_markIdentity {fields : List Field}
    (unmarked : ∀ f ∈ persisted fields, f.identity = false) :
    (persisted (markIdentity name fields)).filter (·.identity) =
      (((persisted fields).find? (·.name = name)).map Field.marked).toList := by
  induction fields with
  | nil => rfl
  | cons f rest ih =>
    unfold markIdentity
    cases ignored : f.ignored with
    | true =>
      rw [persisted_cons_of_ignored ignored] at unmarked
      rw [if_neg (by simp), persisted_cons_of_ignored ignored, persisted_cons_of_ignored ignored,
        ih unmarked]
    | false =>
      rw [persisted_cons ignored] at unmarked ⊢
      obtain ⟨first, others⟩ := List.forall_mem_cons.mp unmarked
      by_cases own : f.name = name
      · have none : (persisted rest).filter (·.identity) = [] :=
          List.filter_eq_nil_iff.mpr fun g mem => by simp [others g mem]
        have persists : f.marked.ignored = false := ignored
        rw [if_pos ⟨rfl, own⟩, persisted_cons persists, List.filter_cons_of_pos rfl, none,
          List.find?_cons_of_pos (by simpa using own)]
        rfl
      · rw [if_neg fun both => own both.2, persisted_cons ignored,
          List.filter_cons_of_neg (by simp [first]), List.find?_cons_of_neg (by simpa using own),
          ih others]

end

namespace Model

variable (m : Model) (settings : Settings)

theorem withConvention_sameButMark :
    List.Forall₂ Field.SameButMark m.fields (m.withConvention settings).fields := by
  have same : List.Forall₂ Field.SameButMark m.fields m.fields :=
    List.forall₂_same.mpr fun f _ => .refl f
  unfold withConvention
  split
  · exact same
  split
  · exact same
  split
  · exact markIdentity_sameButMark m.fields
  · exact same

variable {m settings}

theorem withConvention_of_marked (marked : ∃ f ∈ persisted m.fields, f.identity = true) :
    m.withConvention settings = m := by
  have any : (persisted m.fields).any (·.identity) = true := List.any_eq_true.mpr marked
  rw [withConvention, if_pos any]

/-- If no field is marked, the convention marks the first of its name or none. -/
theorem filter_withConvention (unmarked : ∀ f ∈ persisted m.fields, f.identity = false) :
    (persisted (m.withConvention settings).fields).filter (·.identity) =
      (((m.conventionalField? settings).filter Field.isEligible).map Field.marked).toList := by
  have none : (persisted m.fields).filter (·.identity) = [] :=
    List.filter_eq_nil_iff.mpr fun f mem => by simp [unmarked f mem]
  have any : ¬ (persisted m.fields).any (·.identity) = true := by
    simpa [List.any_eq_true] using unmarked
  rw [withConvention, if_neg any]
  cases conventional : m.conventionalField? settings with
  | none => exact none
  | some f =>
    obtain ⟨name, -, found⟩ := Option.bind_eq_some_iff.mp conventional
    have named : f.name = name := by simpa using List.find?_some found
    cases eligible : f.isEligible with
    | true => simp only [eligible, if_true, filter_markIdentity unmarked, named, found,
        Option.filter_some_pos eligible]
    | false => simp only [eligible, Bool.false_eq_true, if_false, none,
        Option.filter_some_neg eligible, Option.map_none, Option.toList_none]

theorem markedOnce_withConvention (unmarked : ∀ f ∈ persisted m.fields, f.identity = false) :
    MarkedOnce (m.withConvention settings).fields := by
  rw [MarkedOnce, filter_withConvention unmarked]
  exact Option.length_toList_le

end Model

/-! ### The identity -/

/-- Where keys are distinct, a further test is one of the item that has the key. -/
theorem find?_key_and {α β : Type} [DecidableEq β] {key : α → β} {items : List α}
    (distinct : (items.map key).Nodup) (k : β) (test : α → Bool) :
    (items.find? fun a => key a = k && test a) = (items.find? (key · = k)).filter test := by
  induction items with
  | nil => rfl
  | cons a items ih =>
    obtain ⟨fresh, distinct⟩ := List.nodup_cons.mp distinct
    by_cases own : key a = k
    · have later : (items.find? fun b => key b = k && test b) = none := by
        refine List.find?_eq_none.mpr fun b mem => ?_
        have other : key b ≠ k := fun same => fresh (List.mem_map.mpr ⟨b, mem, same.trans own.symm⟩)
        simp [other]
      cases eligible : test a with
      | true => simp [own, eligible, Option.filter_some_pos]
      | false => simp [own, eligible, later, Option.filter_some_neg]
    · simp [own, ih distinct]

namespace Model

variable {m : Model} {settings : Settings}

theorem identityField?_of_unmarked (unmarked : ∀ f ∈ persisted m.fields, f.identity = false)
    (distinct : (m.fields.map (·.name)).Nodup) {d : Dialect} {columns : List Column}
    (become : List.Forall₂ (Field.Becomes · d ·) (persisted m.fields) columns) :
    identityField? settings m.fields columns =
      ((m.conventionalField? settings).filter Field.isEligible).map (·.name) := by
  have none : (persisted m.fields).find? (·.identity) = none :=
    List.find?_eq_none.mpr fun f mem => by simp [unmarked f mem]
  have persists : (persisted m.fields).Sublist m.fields := List.filter_sublist
  have distinct := distinct.sublist (persists.map (·.name))
  simp only [identityField?, none]
  unfold conventionalField?
  cases convention : settings.identityConvention.fieldName? with
  | none => simp [Column.isConventionalIdentity, convention]
  | some name =>
    rw [Option.bind_some, ← find?_key_and distinct name Field.isEligible]
    refine find?_of_become become fun f c made => ?_
    rw [Column.isConventionalIdentity, convention, made.field, made.type, made.nullable,
      Field.isEligible, Bool.and_assoc]
    simp [eq_comm]

theorem identityField?_withConvention (distinct : (m.fields.map (·.name)).Nodup) {d : Dialect}
    {columns : List Column}
    (become : List.Forall₂ (Field.Becomes · d ·) (persisted m.fields) columns) :
    identityField? .unconventional (m.withConvention settings).fields columns =
      identityField? settings m.fields columns := by
  cases marked : (persisted m.fields).find? (·.identity) with
  | some f =>
    have mark : ∃ f ∈ persisted m.fields, f.identity = true :=
      ⟨f, List.mem_of_find?_eq_some marked, List.find?_some marked⟩
    simp only [withConvention_of_marked mark, identityField?, marked]
  | none =>
    have unmarked : ∀ f ∈ persisted m.fields, f.identity = false :=
      fun f mem => by simpa using List.find?_eq_none.mp marked f mem
    rw [identityField?_of_unmarked unmarked distinct become, identityField?, ← List.head?_filter,
      filter_withConvention unmarked]
    cases (m.conventionalField? settings).filter Field.isEligible with
    | some f => rfl
    | none =>
      have no : ∀ c ∈ columns, ¬ c.isConventionalIdentity .unconventional = true := by
        intro c _
        simp [Column.isConventionalIdentity, Settings.unconventional, IdentityConvention.fieldName?]
      simp only [Option.map_none, Option.toList_none, List.head?_nil, List.find?_eq_none.mpr no]

end Model

/-! ### Builds -/

namespace Model

variable {m : Model} {settings : Settings}

theorem acceptedColumns_withConvention (d : Dialect) :
    acceptedColumns d m.name [] (m.withConvention settings).fields =
      acceptedColumns d m.name [] m.fields := by
  by_cases marked : ∃ f ∈ persisted m.fields, f.identity = true
  · rw [withConvention_of_marked marked]
  · have unmarked : ∀ f ∈ persisted m.fields, f.identity = false := by simpa using marked
    have once : MarkedOnce m.fields := by
      rw [MarkedOnce, List.filter_eq_nil_iff.mpr fun f mem => by simp [unmarked f mem]]
      exact Nat.zero_le _
    exact (acceptedColumns_congr .nil (m.withConvention_sameButMark settings) once
      (markedOnce_withConvention unmarked)).symm

theorem withConvention_eq (m : Model) (settings : Settings) :
    m.withConvention settings = { m with fields := (m.withConvention settings).fields } := by
  unfold withConvention
  repeat' split
  all_goals rfl

theorem settleIdentity_withConvention {engine : Engine} {columns : List Column}
    (accepted : acceptedColumns engine.dialect m.name [] m.fields = .ok columns) :
    (m.withConvention settings).settleIdentity .unconventional columns =
      m.settleIdentity settings columns := by
  have configured := fieldsConfigured_of_accepted accepted
  have name : (m.withConvention settings).name = m.name := by rw [withConvention_eq]
  rw [settleIdentity, settleIdentity, name,
    identityField?_withConvention configured.distinctNames (acceptedColumns_become accepted)]

theorem tableOf_withConvention (engine : Engine) (override : Option String)
    (columns : List Column) :
    (m.withConvention settings).tableOf engine override columns =
      m.tableOf engine override columns := by
  have ignored := ignored_of_sameButMark (m.withConvention_sameButMark settings)
  rw [tableOf, tableOf, ignored, withConvention_eq]
  rfl

theorem build_withConvention_eq (m : Model) (engine : Engine) (override : Option String)
    (settings : Settings) :
    (m.withConvention settings).build engine override .unconventional =
      m.build engine override settings := by
  have name : (m.withConvention settings).name = m.name := by rw [withConvention_eq]
  rw [build_eq, build_eq, name, acceptedColumns_withConvention]
  cases accepted : acceptedColumns engine.dialect m.name [] m.fields with
  | error fault => rfl
  | ok columns =>
    simp only [Except.bind, settleIdentity_withConvention accepted]
    by_cases empty : columns = []
    · rw [if_pos empty, if_pos empty]
    · rw [if_neg empty, if_neg empty]
      congr 1
      funext settled
      exact tableOf_withConvention engine override settled

/-- The settings do not matter to a model that marks its identity. -/
theorem build_of_marked (marked : ∃ f ∈ persisted m.fields, f.identity = true) (engine : Engine)
    (override : Option String) (settings : Settings) :
    m.build engine override settings = m.build engine override .unconventional := by
  rw [← build_withConvention_eq, withConvention_of_marked marked]

end Model

/-! ### Marks on ignored fields -/

section
variable (mark : Field → Bool)

theorem remarked_sameButMark (fields : List Field) :
    List.Forall₂ Field.SameButMark fields (fields.map (·.remarked mark)) := by
  refine List.forall₂_map_right_iff.mpr (List.forall₂_same.mpr fun f _ => ?_)
  by_cases ignored : f.ignored = true
  · exact ⟨mark f, if_pos ignored⟩
  · exact ⟨f.identity, if_neg ignored⟩

theorem persisted_remarked (fields : List Field) :
    persisted (fields.map (·.remarked mark)) = persisted fields := by
  induction fields with
  | nil => rfl
  | cons f rest ih =>
    cases ignored : f.ignored with
    | true =>
      have alike : (f.remarked mark).ignored = true := by simp [Field.remarked, ignored]
      rw [List.map_cons, persisted_cons_of_ignored alike, persisted_cons_of_ignored ignored, ih]
    | false =>
      have same : f.remarked mark = f := by simp [Field.remarked, ignored]
      rw [List.map_cons, same, persisted_cons ignored, persisted_cons ignored, ih]

theorem acceptedColumns_remarked (d : Dialect) (model : String) (earlier fields : List Field) :
    acceptedColumns d model (earlier.map (·.remarked mark)) (fields.map (·.remarked mark)) =
      acceptedColumns d model earlier fields := by
  induction fields generalizing earlier with
  | nil => rfl
  | cons f rest ih =>
    have head : acceptedColumn? d model earlier f =
        acceptedColumn? d model (earlier.map (·.remarked mark)) (f.remarked mark) := by
      refine acceptedColumn?_congr (remarked_sameButMark mark earlier) ?_ fun persists => ?_
      · exact (List.forall₂_cons.mp (remarked_sameButMark mark [f])).1
      · have same : f.remarked mark = f := by simp [Field.remarked, persists]
        rw [earlierMark?, earlierMark?, persisted_remarked, same]
    have later := ih (earlier ++ [f])
    rw [List.map_append, List.map_singleton] at later
    rw [List.map_cons, acceptedColumns, acceptedColumns, head, later]

theorem Model.build_remarkIgnored (m : Model) (engine : Engine) (override : Option String)
    (settings : Settings) :
    (m.remarkIgnored mark).build engine override settings = m.build engine override settings := by
  have fields : (m.remarkIgnored mark).fields = m.fields.map (·.remarked mark) := rfl
  have accepted : acceptedColumns engine.dialect m.name [] (m.remarkIgnored mark).fields =
      acceptedColumns engine.dialect m.name [] m.fields :=
    acceptedColumns_remarked mark engine.dialect m.name [] m.fields
  have settle (columns : List Column) : (m.remarkIgnored mark).settleIdentity settings columns =
      m.settleIdentity settings columns := by
    simp only [settleIdentity, identityField?, fields, persisted_remarked]
    rfl
  have table (columns : List Column) : (m.remarkIgnored mark).tableOf engine override columns =
      m.tableOf engine override columns := by
    rw [tableOf, fields, ← ignored_of_sameButMark (remarked_sameButMark mark m.fields)]
    rfl
  have name : (m.remarkIgnored mark).name = m.name := rfl
  rw [build_eq, build_eq, name, accepted]
  simp only [settle, funext table]

end

/-- A model is built as the one that has the mark that the convention stands for. The settings have
no influence where a persisted field is marked, and marks on ignored fields have none at all. -/
theorem Model.build_withConvention (m : Model) (engine : Engine) (override : Option String)
    (settings : Settings) :
    m.build engine override settings =
        (m.withConvention settings).build engine override .unconventional ∧
      ((∃ f ∈ persisted m.fields, f.identity = true) → ∀ others : Settings,
        m.build engine override others = m.build engine override settings) ∧
      ∀ mark, (m.remarkIgnored mark).build engine override settings =
        m.build engine override settings := by
  refine ⟨(m.build_withConvention_eq engine override settings).symm, ?_, ?_⟩
  · intro marked others
    rw [build_of_marked marked engine override others,
      build_of_marked marked engine override settings]
  · intro mark
    exact build_remarkIgnored mark m engine override settings

/-- A model whose only mark is on an ignored field. -/
def ticketModel : Model where
  name := "Ticket"
  fields := [
    { name := "Draft", type := .string, identity := true, ignored := true },
    { name := "Seat", type := .string },
    { name := "Number", type := .long }]

/-- The model with the mark that its convention stands for. -/
def markedTicketModel : Model where
  name := "Ticket"
  fields := [
    { name := "Draft", type := .string, identity := true, ignored := true },
    { name := "Seat", type := .string },
    { name := "Number", type := .long, identity := true }]

def ticketTable : Table where
  model := "Ticket"
  name := "Ticket"
  quotedName := "[Ticket]"
  engine := .sqlite
  columns := [
    { field := "Seat", name := "Seat", quoted := "[Seat]", type := .string, native := "TEXT"
      nullable := false, identity := false },
    { field := "Number", name := "Number", quoted := "[Number]", type := .long, native := "INTEGER"
      nullable := false, identity := true }]
  ignored := ["Draft"]

theorem Model.build_withConvention_ticket :
    ticketModel.build .sqlite none { identityConvention := .fieldNamed "Number" } =
      .ok ticketTable ∧
    ∀ settings : Settings, markedTicketModel.build .sqlite none settings = .ok ticketTable := by
  have marked : ticketModel.withConvention { identityConvention := .fieldNamed "Number" } =
      markedTicketModel := by decide
  have built : markedTicketModel.build .sqlite none .unconventional = .ok ticketTable :=
    ok_of_toOption (by decide +kernel)
  have mark : ∃ f ∈ persisted markedTicketModel.fields, f.identity = true := by decide
  have short := (build_withConvention ticketModel .sqlite none
    { identityConvention := .fieldNamed "Number" }).1
  have always := (build_withConvention markedTicketModel .sqlite none .unconventional).2.1 mark
  rw [marked, built] at short
  exact ⟨short, fun settings => (always settings).trans built⟩

end ModelSql
