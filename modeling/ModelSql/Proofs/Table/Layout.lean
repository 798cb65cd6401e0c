import ModelSql.Proofs.Table.Misconfiguration
import ModelSql.Proofs.Table.Places
/-!
# Layouts of tables

A table can be laid out in one pass over the fields of its model, which keeps the places of
the columns so far under the names of their fields and under their own names, and the place
of the identity. A field is judged by the maps instead of a look at all fields before it.

* `Layout.add_follows`, `Layout.addAll_follows`: the pass takes and refuses the same fields;
* `Layout.Follows.settle`: the identity is settled for the same column;
* `Model.build_eq_layout`: a build gives the table that the pass lays out, or its fault.
-/

namespace ModelSql

/-- Columns with their places, while a table is laid out or afterwards. -/
structure Layout where
  columns : List Column
  byField : Places (·.field) columns
  byName : Places (·.name.toLower) columns
  /-- The place of the identity. Until it is settled, that of the marked field. -/
  identity : Option (Fin columns.length)
  /-- The fields without a column. -/
  ignored : List String

namespace Layout

def empty : Layout where
  columns := []
  byField := .empty
  byName := .empty
  identity := none
  ignored := []

def identity? (l : Layout) : Option Column := l.identity.map l.columns.get

/-- One more column, whose field and name are new. -/
def push (l : Layout) (c : Column) (marked : Bool) (newField : l.byField.column? c.field = none)
    (newName : l.byName.column? c.name.toLower = none) : Layout where
  columns := l.columns ++ [c]
  byField := l.byField.push c newField
  byName := l.byName.push c newName
  identity :=
    if marked then some ⟨l.columns.length, by simp⟩
    else l.identity.map (Fin.castLE (by simp))
  ignored := l.ignored

/-- Takes a field, or reports the first rule that it breaks. -/
def add (d : Dialect) (model : String) (l : Layout) (field : Field) : Except Fault Layout :=
  if taken : (l.byField.column? field.name).isSome ∨ field.name ∈ l.ignored then
    .error (.duplicateField model field.name)
  else if field.ignored then .ok { l with ignored := l.ignored ++ [field.name] }
  else
    match d.nativeType field.type with
    | none => .error (.unmappedType d.engine model field.name field.type)
    | some native =>
      let c := field.toColumn d native
      if named : (l.byName.column? c.name.toLower).isSome then
        let first := (l.byName.column? c.name.toLower).get named
        .error (.columnCollision model c.name first.field field.name)
      else
        match if field.identity then l.identity? else none with
        | some first => .error (.duplicateIdentity model first.field field.name)
        | none =>
          have newField : l.byField.column? c.field = none :=
            Option.not_isSome_iff_eq_none.mp (not_or.mp taken).1
          .ok (l.push c field.identity newField (Option.not_isSome_iff_eq_none.mp named))

/-- The place of the conventional identity. -/
def conventionalPlace? (l : Layout) (settings : Settings) : Option (Fin l.columns.length) :=
  match settings.identityConvention.fieldName? with
  | none => none
  | some name =>
    (l.byField.place? name).filter fun place =>
      (l.columns.get place).type.isInteger && !(l.columns.get place).nullable

/-- The place of the identity: that of the marked field, or else of the conventional one. -/
def identityPlace? (l : Layout) (settings : Settings) : Option (Fin l.columns.length) :=
  l.identity.or (l.conventionalPlace? settings)

/-- Marks the column at a place as the identity. -/
def mark (l : Layout) (place : Fin l.columns.length) : Layout :=
  let c := { l.columns.get place with identity := true }
  { columns := l.columns.set place c
    byField := l.byField.transfer (map_set_of_key rfl)
    byName := l.byName.transfer (map_set_of_key rfl)
    identity := some (place.cast (by simp))
    ignored := l.ignored }

/-- Settles the identity, which has to be an integer. -/
def settle (l : Layout) (model : String) (settings : Settings) : Except Fault Layout :=
  match l.identityPlace? settings with
  | none => .ok l
  | some place =>
    let c := l.columns.get place
    if c.type.isInteger then .ok (l.mark place)
    else .error (.invalidIdentityType model c.field c.type)

def toTable (l : Layout) (m : Model) (engine : Engine) (override : Option String) : Table where
  model := m.name
  name := m.tableName override
  quotedName := engine.dialect.quoteIdentifier (m.tableName override)
  engine := engine
  columns := l.columns
  ignored := l.ignored

end Layout

/-- The layout of a model's fields, taken one after the other. -/
def Model.layout (m : Model) (engine : Engine) (settings : Settings) : Except Fault Layout := do
  let l ← m.fields.foldlM (Layout.add engine.dialect m.name) .empty
  if l.columns.isEmpty then throw (.noColumns m.name)
  l.settle m.name settings

/-! ## The pass -/

/-- Two computations fail with one fault, or their results are related. -/
inductive SameOutcome {α β : Type} (R : α → β → Prop) : Except Fault α → Except Fault β → Prop
  where
  | ok {a : α} {b : β} : R a b → SameOutcome R (.ok a) (.ok b)
  | error {fault : Fault} : SameOutcome R (.error fault) (.error fault)

/-- A search through fields finds the field of the column that a search through the columns
finds. -/
theorem find?_of_become {d : Dialect} {fields : List Field} {columns : List Column}
    (become : List.Forall₂ (Field.Becomes · d ·) fields columns) {ofField : Field → Bool}
    {ofColumn : Column → Bool} (same : ∀ f c, f.Becomes d c → ofField f = ofColumn c) :
    (columns.find? ofColumn).map (·.field) = (fields.find? ofField).map (·.name) :=
  (map_find?_eq become same fun _ _ made => made.field.symm).symm

/-- The layout is that of the fields, before the identity is settled. -/
structure Layout.Follows (l : Layout) (d : Dialect) (fields : List Field) : Prop where
  become : List.Forall₂ (Field.Becomes · d ·) (persisted fields) l.columns
  unmarked : ∀ c ∈ l.columns, c.identity = false
  identity : l.identity?.map (·.field) = ((persisted fields).find? (·.identity)).map (·.name)
  ignored : l.ignored = (fields.filter (·.ignored)).map (·.name)

namespace Layout

section
variable {l : Layout} {d : Dialect} {fields : List Field} (follows : l.Follows d fields)
include follows

theorem Follows.taken_iff {name : String} :
    (l.byField.column? name).isSome ∨ name ∈ l.ignored ↔
      fields.any (·.name = name) = true := by
  have persists : (l.byField.column? name).isSome ↔ name ∈ (persisted fields).map (·.name) := by
    rw [← fields_of_become follows.become, l.byField.column?_eq, List.find?_isSome]
    simp
  rw [persists, follows.ignored]
  simp only [List.mem_map, persisted, List.mem_filter, Bool.not_eq_true', List.any_eq_true,
    decide_eq_true_eq]
  constructor
  · rintro (⟨f, ⟨mem, -⟩, same⟩ | ⟨f, ⟨mem, -⟩, same⟩) <;> exact ⟨f, mem, same⟩
  · rintro ⟨f, mem, same⟩
    cases ignored : f.ignored with
    | true => exact .inr ⟨f, ⟨mem, ignored⟩, same⟩
    | false => exact .inl ⟨f, ⟨mem, ignored⟩, same⟩

theorem Follows.named (name : String) :
    (l.byName.column? name).map (·.field) =
      ((persisted fields).find? (·.columnName.toLower = name)).map (·.name) := by
  rw [l.byName.column?_eq]
  exact find?_of_become follows.become fun f c made => by rw [made.columnName]

end

theorem Follows.ignore {l : Layout} {d : Dialect} {fields : List Field} {field : Field}
    (follows : l.Follows d fields) (ignored : field.ignored = true) :
    ({ l with ignored := l.ignored ++ [field.name] } : Layout).Follows d (fields ++ [field]) where
  become := by
    rw [persisted_concat_of_ignored ignored]
    exact follows.become
  unmarked := follows.unmarked
  identity := by
    rw [persisted_concat_of_ignored ignored]
    exact follows.identity
  ignored := by simp [follows.ignored, ignored]

theorem push_identity? (l : Layout) (c : Column) (marked : Bool)
    (newField : l.byField.column? c.field = none)
    (newName : l.byName.column? c.name.toLower = none) :
    (l.push c marked newField newName).identity? = if marked then some c else l.identity? := by
  cases marked with
  | true => simp [identity?, push]
  | false =>
    simp only [identity?, push, Bool.false_eq_true, if_false, Option.map_map]
    congr 1
    funext place
    simp

theorem Follows.push {l : Layout} {d : Dialect} {fields : List Field} {field : Field}
    (follows : l.Follows d fields) (persists : field.ignored = false) {c : Column}
    (made : field.Becomes d c) (unmarked : c.identity = false)
    (first : field.identity = true → (persisted fields).find? (·.identity) = none)
    (newField : l.byField.column? c.field = none)
    (newName : l.byName.column? c.name.toLower = none) :
    (l.push c field.identity newField newName).Follows d (fields ++ [field]) where
  become := by
    rw [persisted_concat persists]
    exact List.rel_append follows.become (.cons made .nil)
  unmarked := by
    intro other mem
    obtain mem | mem := List.mem_append.mp mem
    · exact follows.unmarked other mem
    · obtain rfl := List.mem_singleton.mp mem
      exact unmarked
  identity := by
    rw [push_identity?, persisted_concat persists, List.find?_append]
    cases marked : field.identity with
    | true => simp [first marked, marked, made.field]
    | false => simp [marked, follows.identity]
  ignored := by simp [Layout.push, follows.ignored, persists]

theorem empty_follows (d : Dialect) : empty.Follows d [] where
  become := .nil
  unmarked := nofun
  identity := rfl
  ignored := rfl

/-- A field is taken, or refused, as in view of all fields before it. -/
theorem add_follows {l : Layout} {engine : Engine} {earlier : List Field}
    (follows : l.Follows engine.dialect earlier) (model : String) (field : Field) :
    SameOutcome (fun column? l' => l'.columns = l.columns ++ column?.toList ∧
        l'.Follows engine.dialect (earlier ++ [field]))
      (acceptedColumn? engine.dialect model earlier field) (l.add engine.dialect model field) := by
  unfold acceptedColumn? add
  by_cases taken : (l.byField.column? field.name).isSome ∨ field.name ∈ l.ignored
  · rw [dif_pos taken, if_pos (follows.taken_iff.mp taken)]
    exact .error
  rw [dif_neg taken, if_neg (mt follows.taken_iff.mpr taken)]
  cases ignored : field.ignored with
  | true => exact .ok ⟨by simp, follows.ignore ignored⟩
  | false =>
    simp only [Bool.false_eq_true, if_false]
    cases known : engine.dialect.nativeType field.type with
    | none => exact .error
    | some native =>
      have made : field.Becomes engine.dialect (field.toColumn engine.dialect native) :=
        ⟨known, rfl⟩
      let name := (field.toColumn engine.dialect native).name
      have same : (l.byName.column? name.toLower).map (·.field) =
          ((persisted earlier).find? (·.columnName.toLower = field.columnName.toLower)).map
            (·.name) := follows.named name.toLower
      simp only
      by_cases named : (l.byName.column? name.toLower).isSome
      · obtain ⟨prior, there⟩ := Option.isSome_iff_exists.mp named
        rw [there] at same
        obtain ⟨first, found, own⟩ := Option.map_eq_some_iff.mp same.symm
        have collides : (l.byName.column? name.toLower).get named = prior := by
          simp only [there, Option.get_some]
        rw [dif_pos named, found, collides]
        simp only [own]
        exact .error
      · rw [Option.not_isSome_iff_eq_none.mp named] at same
        rw [dif_neg named, Option.map_eq_none_iff.mp same.symm]
        have marked := follows.identity
        cases second : if field.identity then (persisted earlier).find? (·.identity) else none with
        | some first =>
          obtain ⟨isMarked, found⟩ : field.identity = true ∧
              (persisted earlier).find? (·.identity) = some first := by simpa using second
          rw [found] at marked
          obtain ⟨prior, there, own⟩ := Option.map_eq_some_iff.mp marked
          simp only [isMarked, if_true, there, own]
          exact .error
        | none =>
          have free : field.identity = true → (persisted earlier).find? (·.identity) = none := by
            intro isMarked
            rwa [if_pos isMarked] at second
          have none : (if field.identity then l.identity? else none) = none := by
            split
            · rename_i isMarked
              rw [free isMarked] at marked
              exact Option.map_eq_none_iff.mp marked
            · rfl
          simp only [none]
          exact .ok ⟨rfl, follows.push ignored made rfl free _ _⟩

theorem addAll_follows {l : Layout} {engine : Engine} {earlier : List Field}
    (follows : l.Follows engine.dialect earlier) (model : String) (fields : List Field) :
    SameOutcome (fun columns l' => l'.columns = l.columns ++ columns ∧
        l'.Follows engine.dialect (earlier ++ fields))
      (acceptedColumns engine.dialect model earlier fields)
      (fields.foldlM (add engine.dialect model) l) := by
  induction fields generalizing l earlier with
  | nil => exact .ok ⟨by simp, by simpa using follows⟩
  | cons field fields ih =>
    rw [acceptedColumns, List.foldlM_cons]
    have first := add_follows follows model field
    generalize acceptedColumn? engine.dialect model earlier field = column? at first ⊢
    generalize l.add engine.dialect model field = l' at first ⊢
    cases first with
    | error => exact .error
    | @ok column? l' related =>
      obtain ⟨columns, follows'⟩ := related
      have others := ih follows'
      simp only [bind, Except.bind]
      generalize acceptedColumns engine.dialect model (earlier ++ [field]) fields = more at others ⊢
      generalize fields.foldlM (add engine.dialect model) l' = l'' at others ⊢
      cases others with
      | error => exact .error
      | ok related =>
        obtain ⟨all, follows''⟩ := related
        refine .ok ⟨?_, ?_⟩
        · rw [all, columns, List.append_assoc]
        · rw [List.append_cons]
          exact follows''

/-! ## The identity -/

theorem conventionalPlace?_get (l : Layout) (settings : Settings) :
    (l.conventionalPlace? settings).map l.columns.get =
      l.columns.find? (·.isConventionalIdentity settings) := by
  unfold conventionalPlace?
  cases conventional : settings.identityConvention.fieldName? with
  | none =>
    refine (List.find?_eq_none.mpr fun c _ => ?_).symm
    simp [Column.isConventionalIdentity, conventional]
  | some name =>
    simp only [Column.isConventionalIdentity, conventional, Option.some_inj]
    cases found :
      l.columns.find? fun c => decide (name = c.field) && c.type.isInteger && !c.nullable with
    | some c =>
      obtain ⟨place, rfl⟩ := List.get_of_mem (List.mem_of_find?_eq_some found)
      have eligible := List.find?_some found
      simp only [Bool.and_eq_true, decide_eq_true_eq] at eligible
      obtain ⟨⟨own, integer⟩, required⟩ := eligible
      rw [l.byField.place?_eq_some_iff.mpr own.symm]
      simp only [Option.filter_some, integer, required, Bool.and_self, if_true, Option.map_some]
    | none =>
      rw [Option.map_eq_none_iff, Option.filter_eq_none_iff]
      intro place there eligible
      have own := l.byField.place?_eq_some_iff.mp there
      refine List.find?_eq_none.mp found _ (l.columns.get_mem place) ?_
      rw [Bool.and_assoc, eligible, Bool.and_true]
      exact decide_eq_true own.symm

theorem Follows.identityPlace?_field {l : Layout} {d : Dialect} {fields : List Field}
    (follows : l.Follows d fields) (settings : Settings) :
    (l.identityPlace? settings).map (fun place => (l.columns.get place).field) =
      identityField? settings fields l.columns := by
  have marked := follows.identity
  unfold identityPlace? identityField?
  unfold identity? at marked
  cases hplace : l.identity with
  | some place =>
    rw [hplace] at marked
    obtain ⟨f, found, own⟩ := Option.map_eq_some_iff.mp marked.symm
    simp only [found, own]
    rfl
  | none =>
    rw [hplace] at marked
    simp only [Option.map_eq_none_iff.mp marked.symm, Option.none_or, ← l.conventionalPlace?_get,
      Option.map_map]
    rfl

end Layout

/-- Settling the identity replaces the column at its place. -/
theorem withIdentity_eq_set (model : String) {columns : List Column}
    (distinct : (columns.map (·.field)).Nodup) {place : Nat} {c : Column}
    (there : columns[place]? = some c) :
    withIdentity model c.field columns =
      if c.type.isInteger then .ok (columns.set place { c with identity := true })
      else .error (.invalidIdentityType model c.field c.type) := by
  induction columns generalizing place with
  | nil => cases there
  | cons first columns ih =>
    obtain ⟨fresh, distinct⟩ := List.nodup_cons.mp distinct
    cases place with
    | zero =>
      cases there
      rw [withIdentity, if_pos rfl]
      rfl
    | succ place =>
      have inside : columns[place]? = some c := there
      have other : first.field ≠ c.field := by
        intro same
        exact fresh (List.mem_map.mpr ⟨c, List.mem_of_getElem? inside, same.symm⟩)
      rw [withIdentity, if_neg other, ih distinct inside]
      split <;> rfl

/-- The new column is the only one that is marked. -/
theorem filter_identity_set {columns : List Column}
    (unmarked : ∀ c ∈ columns, c.identity = false) {c : Column} (marked : c.identity = true)
    {place : Nat} (inside : place < columns.length) :
    (columns.set place c).filter (·.identity) = [c] := by
  induction columns generalizing place with
  | nil => cases inside
  | cons first columns ih =>
    have others : ∀ c ∈ columns, c.identity = false :=
      fun c mem => unmarked c (List.mem_cons_of_mem _ mem)
    cases place with
    | zero =>
      rw [List.set_cons_zero, List.filter_cons_of_pos marked, List.filter_eq_nil_iff.mpr]
      intro c mem
      simp [others c mem]
    | succ place =>
      have none : ¬ first.identity = true := by simp [unmarked first List.mem_cons_self]
      rw [List.set_cons_succ, List.filter_cons_of_neg none]
      exact ih others (Nat.lt_of_succ_lt_succ inside)

namespace Layout

theorem Follows.settle {l : Layout} {d : Dialect} {m : Model} (follows : l.Follows d m.fields)
    (settings : Settings) :
    SameOutcome (fun columns l' => l'.columns = columns ∧ l'.ignored = l.ignored ∧
        l'.identity? = columns.find? (·.identity))
      (m.settleIdentity settings l.columns) (l.settle m.name settings) := by
  have places := follows.identityPlace?_field settings
  unfold Model.settleIdentity Layout.settle
  cases hplace : l.identityPlace? settings with
  | none =>
    rw [hplace] at places
    simp only [← places, Option.map_none]
    have none : l.identity = none := (Option.or_eq_none_iff.mp hplace).1
    have unmarked : l.columns.find? (·.identity) = Option.none :=
      List.find?_eq_none.mpr fun c mem => by simp [follows.unmarked c mem]
    refine .ok ⟨rfl, rfl, ?_⟩
    rw [identity?, none, unmarked]
    rfl
  | some place =>
    rw [hplace] at places
    simp only [← places, Option.map_some]
    have there : l.columns[place.val]? = some (l.columns.get place) :=
      List.getElem?_eq_getElem place.isLt
    rw [withIdentity_eq_set m.name l.byField.keys_nodup there]
    split
    · refine .ok ⟨rfl, rfl, ?_⟩
      rw [← List.head?_filter, filter_identity_set follows.unmarked rfl place.isLt]
      simp [identity?, mark]
    · exact .error

end Layout

/-- A build gives the table that the pass over the fields lays out, with the identity at its
place, or else the same fault. -/
theorem Model.build_eq_layout (m : Model) (engine : Engine) (override : Option String)
    (settings : Settings) :
    SameOutcome (fun t l => t = l.toTable m engine override ∧ t.identity? = l.identity?)
      (m.build engine override settings) (m.layout engine settings) := by
  have taken := Layout.addAll_follows (Layout.empty_follows engine.dialect) m.name m.fields
  unfold layout
  cases accepted : acceptedColumns engine.dialect m.name [] m.fields with
  | error fault =>
    rw [accepted] at taken
    generalize m.fields.foldlM (Layout.add engine.dialect m.name) .empty = l at taken ⊢
    cases taken
    simp only [build, accepted, bind, Except.bind]
    exact .error
  | ok columns =>
    rw [accepted] at taken
    generalize m.fields.foldlM (Layout.add engine.dialect m.name) .empty = l at taken ⊢
    cases taken with
    | @ok _ l related =>
      obtain ⟨rfl, follows⟩ : l.columns = columns ∧ l.Follows engine.dialect m.fields := related
      simp only [bind, Except.bind]
      by_cases nonempty : l.columns = []
      · simp only [build, accepted, bind, Except.bind, nonempty, List.isEmpty_nil, if_true]
        exact .error
      · rw [m.build_of_accepted accepted nonempty]
        have some : l.columns.isEmpty = false := by simpa using nonempty
        have settled := follows.settle settings
        simp only [some, Bool.false_eq_true, if_false]
        generalize m.settleIdentity settings l.columns = columns at settled ⊢
        generalize l.settle m.name settings = l' at settled ⊢
        cases settled with
        | error => exact .error
        | ok related =>
          obtain ⟨rfl, ignored, identity⟩ := related
          refine .ok ⟨?_, identity.symm⟩
          rw [Layout.toTable, ignored, follows.ignored, tableOf]

end ModelSql
