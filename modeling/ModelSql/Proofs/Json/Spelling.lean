import Mathlib.Data.List.Forall2
import Mathlib.Data.List.Nodup
import Mathlib.Logic.Relation
import ModelSql.Json.Shape
/-!
# Spellings of records

A record can be spelt in many ways: its members stand in any order, with others among them,
those with their default are given or not, and all of them may be listed without names. A
record that lacks a member or gives one twice is no spelling of anything.

* `Respelling`, `Spoiling`: one change of a record or a variant;
* `Within`: one change somewhere inside of a value;
* `Understands`: a reader gives the same result after the former, and none after the latter;
* `understands_record`: a reader of records does so if readers of their members do.
-/

namespace ModelSql.Json

/-! ### Forms -/

/-- A member of a record. One without a default has to be given. -/
structure Member (form : Type) where
  name : String
  default : Option Json
  form : form

/-- Where in a value there are records and variants. -/
inductive Form where
  | plain
  | variant
  | list (item : Form)
  | record (members : List (Member Form))

/-- A change of a value somewhere in it, of a part with a form. -/
inductive Within (change : Form → Json → Json → Prop) : Form → Json → Json → Prop where
  | here {form : Form} {v v' : Json} : change form v v' → Within change form v v'
  | item {form : Form} {before after : List Json} {v v' : Json} : Within change form v v' →
      Within change (.list form) (.array (before ++ v :: after)) (.array (before ++ v' :: after))
  | member {members : List (Member Form)} {m : Member Form}
      {before after : List (Option String × Json)} {v v' : Json} : m ∈ members →
      Within change m.form v v' →
      Within change (.record members) (.object (before ++ (some m.name, v) :: after))
        (.object (before ++ (some m.name, v') :: after))
  /-- A member of a record without names is known by its position. -/
  | listed {earlier later : List (Member Form)} {m : Member Form} {before after : List Json}
      {v v' : Json} : before.length = earlier.length → Within change m.form v v' →
      Within change (.record (earlier ++ m :: later)) (.array (before ++ v :: after))
        (.array (before ++ v' :: after))

/-- The items are the values of the members, one for each as long as there are items. A member
without an item has its default. -/
inductive Listing (given : List (Option String × Json)) :
    List (Member Form) → List Json → Prop where
  | done {rest : List (Member Form)} :
      (∀ m ∈ rest, ∃ d, m.default = some d ∧ ∀ v, (some m.name, v) ∈ given → v = d) →
      Listing given rest []
  | next {m : Member Form} {rest : List (Member Form)} {v : Json} {items : List Json} :
      (some m.name, v) ∈ given → Listing given rest items → Listing given (m :: rest) (v :: items)

/-- A change of the spelling only. -/
inductive Respelling : Form → Json → Json → Prop where
  | reorder {members : List (Member Form)} {given given' : List (Option String × Json)} :
      given.Perm given' → Respelling (.record members) (.object given) (.object given')
  | unknown {members : List (Member Form)} {name : String} {v : Json}
      {before after : List (Option String × Json)} : (∀ m ∈ members, m.name ≠ name) →
      Respelling (.record members) (.object (before ++ after))
        (.object (before ++ (some name, v) :: after))
  | drop {members : List (Member Form)} {m : Member Form} {d : Json}
      {before after : List (Option String × Json)} : m ∈ members → m.default = some d →
      Respelling (.record members) (.object (before ++ (some m.name, d) :: after))
        (.object (before ++ after))
  | add {members : List (Member Form)} {m : Member Form} {d : Json}
      {before after : List (Option String × Json)} : m ∈ members → m.default = some d →
      (∀ v, (some m.name, v) ∉ before ++ after) →
      Respelling (.record members) (.object (before ++ after))
        (.object (before ++ (some m.name, d) :: after))
  | list {members : List (Member Form)} {given : List (Option String × Json)}
      {items : List Json} : Listing given members items →
      Respelling (.record members) (.object given) (.array items)
  /-- A variant without content is written with it. -/
  | content {name : String} :
      Respelling .variant (.string (some name)) (.object [(some name, .null)])

/-- A change that no spelling survives. -/
inductive Spoiling : Form → Json → Json → Prop where
  | drop {members : List (Member Form)} {m : Member Form}
      {given : List (Option String × Json)} : m ∈ members → m.default = none →
      Spoiling (.record members) (.object given) (.object (given.filter (·.1 ≠ some m.name)))
  | twice {members : List (Member Form)} {m : Member Form} {v v' : Json}
      {before after : List (Option String × Json)} : m ∈ members →
      (some m.name, v) ∈ before ++ after →
      Spoiling (.record members) (.object (before ++ after))
        (.object (before ++ (some m.name, v') :: after))

/-- The reader gives the same result however a value is spelt, and none for a spoilt one. -/
structure Understands {α : Type} (read? : Json → Option α) (form : Form) : Prop where
  respelt {v v' : Json} {a : α} : Within Respelling form v v' → read? v = some a →
    read? v' = some a
  spoilt {v v' : Json} : Within Spoiling form v v' → read? v' = none

/-! ### The members of an object -/

/-- The values that an object gives under a name. -/
def valuesOf (members : List (Option String × Json)) (name : String) : List Json :=
  (members.filter (·.1 = some name)).map (·.2)

theorem valuesOf_append (before after : List (Option String × Json)) (name : String) :
    valuesOf (before ++ after) name = valuesOf before name ++ valuesOf after name := by
  simp [valuesOf]

theorem valuesOf_cons (key name : String) (v : Json) (members : List (Option String × Json)) :
    valuesOf ((some key, v) :: members) name =
      if key = name then v :: valuesOf members name else valuesOf members name := by
  by_cases same : key = name <;> simp [valuesOf, same]

theorem mem_valuesOf {members : List (Option String × Json)} {name : String} {v : Json} :
    v ∈ valuesOf members name ↔ (some name, v) ∈ members := by
  simp [valuesOf]

theorem lookup_eq_valuesOf (members : List (Option String × Json)) (name : String) :
    members.lookup (some name) = (valuesOf members name).head? := by
  induction members with
  | nil => rfl
  | cons member members ih =>
    obtain ⟨key, v⟩ := member
    by_cases same : some name = key
    · subst same
      simp [valuesOf]
    · have other : (some name == key) = false := by simpa using same
      have skipped : valuesOf ((key, v) :: members) name = valuesOf members name := by
        simp [valuesOf, Ne.symm same]
      rw [List.lookup_cons, other, skipped, ih]

theorem members?_object {names : List String} {members : List (Option String × Json)}
    {entries : List (Option Json)} :
    (object members).members? names = some entries ↔
      (∀ member ∈ members, member.1.isSome = true) ∧
      (∀ name ∈ names, (valuesOf members name).length ≤ 1) ∧
      names.map (fun name => (valuesOf members name).head?) = entries := by
  have count (name : String) :
      members.countP (·.1 = some name) = (valuesOf members name).length := by
    rw [valuesOf, List.length_map, List.countP_eq_length_filter]
  simp only [members?, count, lookup_eq_valuesOf, Option.ite_none_right_eq_some,
    Bool.and_eq_true, List.all_eq_true, decide_eq_true_eq, Option.some.injEq, and_assoc]

/-- The entries of a record that is listed. -/
def padded (size : Nat) (items : List Json) : List (Option Json) :=
  items.map some ++ List.replicate (size - items.length) none

theorem padded_append {before : List Json} {size : Nat} (length : before.length = size)
    (rest : Nat) (items : List Json) :
    padded (size + rest) (before ++ items) = before.map some ++ padded rest items := by
  subst length
  have left : before.length + rest - (before.length + items.length) = rest - items.length := by
    omega
  simp only [padded, List.map_append, List.append_assoc, List.length_append, left]

theorem padded_cons (size : Nat) (v : Json) (items : List Json) :
    padded (size + 1) (v :: items) = some v :: padded size items := by
  simp [padded]

theorem length_padded {size : Nat} {items : List Json} (short : items.length ≤ size) :
    (padded size items).length = size := by
  rw [padded, List.length_append, List.length_map, List.length_replicate]
  omega

theorem members?_array {names : List String} {items : List Json} {entries : List (Option Json)} :
    (array items).members? names = some entries ↔
      items.length ≤ names.length ∧ padded names.length items = entries := by
  simp only [members?, padded, Option.ite_none_right_eq_some, Option.some.injEq]

/-! ### Entries -/

/-- The entry of a member after a change of the spelling. -/
inductive Member.Respelt (m : Member Form) : Option Json → Option Json → Prop where
  | same (entry : Option Json) : m.Respelt entry entry
  | drop {d : Json} : m.default = some d → m.Respelt (some d) none
  | add {d : Json} : m.default = some d → m.Respelt none (some d)
  | within {v v' : Json} : Within Respelling m.form v v' → m.Respelt (some v) (some v')

/-- An entry that no reader of the member accepts. -/
inductive Member.Spoilt (m : Member Form) : Option Json → Prop where
  | missing : m.default = none → m.Spoilt none
  | within {v v' : Json} : Within Spoiling m.form v v' → m.Spoilt (some v')

/-- The entries of members before and after a change of the spelling. -/
inductive EntriesRespelt : List (Member Form) → List (Option Json) → List (Option Json) → Prop where
  | nil : EntriesRespelt [] [] []
  | cons {m : Member Form} {members : List (Member Form)} {e e' : Option Json}
      {es es' : List (Option Json)} : m.Respelt e e' → EntriesRespelt members es es' →
      EntriesRespelt (m :: members) (e :: es) (e' :: es')

theorem EntriesRespelt.refl {members : List (Member Form)} {es : List (Option Json)}
    (length : members.length = es.length) : EntriesRespelt members es es := by
  induction members generalizing es with
  | nil =>
    rw [List.length_eq_zero_iff.mp length.symm]
    exact .nil
  | cons m members ih =>
    obtain ⟨e, es, rfl⟩ := List.exists_cons_of_length_eq_add_one length.symm
    exact .cons (.same e) (ih (Nat.succ.inj length))

theorem EntriesRespelt.append {members later : List (Member Form)}
    {es es' ls ls' : List (Option Json)} (first : EntriesRespelt members es es')
    (second : EntriesRespelt later ls ls') :
    EntriesRespelt (members ++ later) (es ++ ls) (es' ++ ls') := by
  induction first with
  | nil => exact second
  | cons head _ ih => exact .cons head ih

theorem EntriesRespelt.of_forall {members : List (Member Form)} {f g : Member Form → Option Json}
    (each : ∀ m ∈ members, m.Respelt (f m) (g m)) :
    EntriesRespelt members (members.map f) (members.map g) := by
  induction members with
  | nil => exact .nil
  | cons m members ih =>
    obtain ⟨head, later⟩ := List.forall_mem_cons.mp each
    exact .cons head (ih later)

/-- The names of a record's members. -/
def namesOf (members : List (Member Form)) : List String := members.map (·.name)

/-- What an object gives for members after a change of it. -/
theorem object_respelt {members : List (Member Form)} {given given' : List (Option String × Json)}
    {entries : List (Option Json)} (read : (object given).members? (namesOf members) = some entries)
    (texts : ∀ member ∈ given', member.1.isSome = true)
    (each : ∀ m ∈ members, (valuesOf given' m.name).length ≤ 1 ∧
      m.Respelt (valuesOf given m.name).head? (valuesOf given' m.name).head?) :
    ∃ entries', (object given').members? (namesOf members) = some entries' ∧
      EntriesRespelt members entries entries' := by
  obtain ⟨-, -, rfl⟩ := members?_object.mp read
  refine ⟨_, members?_object.mpr ⟨texts, ?_, rfl⟩, ?_⟩
  · intro name named
    obtain ⟨m, mem, rfl⟩ := List.mem_map.mp named
    exact (each m mem).1
  · simp only [namesOf, List.map_map]
    exact .of_forall fun m mem => (each m mem).2

/-- What a listed record gives for members of an object, if each item is the value of its member. -/
theorem listing_respelt {given : List (Option String × Json)} {members : List (Member Form)}
    {items : List Json} (listing : Listing given members items)
    (once : ∀ m ∈ members, (valuesOf given m.name).length ≤ 1) :
    items.length ≤ members.length ∧
      EntriesRespelt members (members.map fun m => (valuesOf given m.name).head?)
        (padded members.length items) := by
  induction listing with
  | @done rest defaults =>
    refine ⟨Nat.zero_le _, ?_⟩
    have absent : padded rest.length [] = rest.map fun _ => none := by
      simp [padded]
    rw [absent]
    refine .of_forall fun m mem => ?_
    obtain ⟨d, hasDefault, isDefault⟩ := defaults m mem
    cases found : valuesOf given m.name with
    | nil => exact .same none
    | cons v others =>
      have first : v ∈ valuesOf given m.name := by simp [found]
      rw [isDefault v (mem_valuesOf.mp first)]
      exact .drop hasDefault
  | @next m rest v items mem _ ih =>
    obtain ⟨first, later⟩ := List.forall_mem_cons.mp once
    obtain ⟨short, respelt⟩ := ih later
    have value : valuesOf given m.name = [v] := by
      have inside := mem_valuesOf.mpr mem
      obtain ⟨w, only⟩ : ∃ w, valuesOf given m.name = [w] :=
        List.length_eq_one_iff.mp (Nat.le_antisymm first (List.length_pos_of_mem inside))
      rw [only] at inside ⊢
      rw [List.mem_singleton.mp inside]
    refine ⟨Nat.succ_le_succ short, ?_⟩
    rw [List.length_cons, padded_cons, List.map_cons, value]
    exact .cons (.same (some v)) respelt

/-! ### One more member -/

section
variable {before after : List (Option String × Json)} {key name : String} {v : Json}

theorem valuesOf_insert_other (other : key ≠ name) :
    valuesOf (before ++ (some key, v) :: after) name = valuesOf (before ++ after) name := by
  simp only [valuesOf_append, valuesOf_cons, if_neg other]

theorem valuesOf_insert_own (absent : valuesOf (before ++ after) name = []) :
    valuesOf (before ++ (some name, v) :: after) name = [v] := by
  rw [valuesOf_append, List.append_eq_nil_iff] at absent
  rw [valuesOf_append, valuesOf_cons, if_pos rfl, absent.1, absent.2]
  rfl

theorem valuesOf_remove_own
    (once : (valuesOf (before ++ (some name, v) :: after) name).length ≤ 1) :
    valuesOf (before ++ after) name = [] := by
  simp only [valuesOf_append, valuesOf_cons, if_true, List.length_append, List.length_cons] at once
  apply List.length_eq_zero_iff.mp
  rw [valuesOf_append, List.length_append]
  omega

end

theorem forall_mem_insert {α : Type} {p : α → Prop} {before after : List α} {a : α} :
    (∀ b ∈ before ++ a :: after, p b) ↔ p a ∧ ∀ b ∈ before ++ after, p b := by
  rw [← List.forall_mem_cons]
  exact forall_congr' fun b => by rw [List.perm_middle.mem_iff]

theorem head?_eq_of_perm {α : Type} {items items' : List α} (perm : items.Perm items')
    (short : items.length ≤ 1) : items.head? = items'.head? := by
  match items, short with
  | [], _ => rw [List.nil_perm.mp perm]
  | [a], _ => rw [List.singleton_perm.mp perm]

/-! ### Records -/

section
variable {members : List (Member Form)} (distinct : (namesOf members).Nodup)
include distinct

theorem eq_of_name {m m' : Member Form} (mem : m ∈ members) (mem' : m' ∈ members)
    (same : m.name = m'.name) : m = m' :=
  List.inj_on_of_nodup_map distinct mem mem' same

/-- After a change of a record, its entries are those before it, apart from defaults. -/
theorem members?_respelling {v v' : Json} (change : Respelling (.record members) v v')
    {entries : List (Option Json)} (read : v.members? (namesOf members) = some entries) :
    ∃ entries', v'.members? (namesOf members) = some entries' ∧
      EntriesRespelt members entries entries' := by
  cases change with
  | @reorder _ given given' perm =>
    obtain ⟨texts, once, -⟩ := members?_object.mp read
    refine object_respelt read (fun member mem => texts member (perm.mem_iff.mpr mem)) ?_
    intro m mem
    have short := once m.name (List.mem_map_of_mem mem)
    have values : (valuesOf given m.name).Perm (valuesOf given' m.name) :=
      (perm.filter _).map _
    rw [head?_eq_of_perm values short, ← values.length_eq]
    exact ⟨short, .same _⟩
  | @unknown _ name v before after unknown =>
    obtain ⟨texts, once, -⟩ := members?_object.mp read
    refine object_respelt read ?_ ?_
    · exact forall_mem_insert.mpr ⟨rfl, texts⟩
    · intro m mem
      rw [valuesOf_insert_other (Ne.symm (unknown m mem))]
      exact ⟨once m.name (List.mem_map_of_mem mem), .same _⟩
  | @drop _ m₀ d before after mem₀ hasDefault =>
    obtain ⟨texts, once, -⟩ := members?_object.mp read
    refine object_respelt read (forall_mem_insert.mp texts).2 ?_
    intro m mem
    have short := once m.name (List.mem_map_of_mem mem)
    by_cases own : m₀.name = m.name
    · obtain rfl := eq_of_name distinct mem₀ mem own
      have absent := valuesOf_remove_own short
      rw [valuesOf_insert_own absent, absent]
      exact ⟨Nat.zero_le 1, .drop hasDefault⟩
    · rw [valuesOf_insert_other own] at short ⊢
      exact ⟨short, .same _⟩
  | @add _ m₀ d before after mem₀ hasDefault absent =>
    obtain ⟨texts, once, -⟩ := members?_object.mp read
    refine object_respelt read (forall_mem_insert.mpr ⟨rfl, texts⟩) ?_
    intro m mem
    by_cases own : m₀.name = m.name
    · obtain rfl := eq_of_name distinct mem₀ mem own
      have none : valuesOf (before ++ after) m₀.name = [] :=
        List.eq_nil_iff_forall_not_mem.mpr fun v inside => absent v (mem_valuesOf.mp inside)
      rw [valuesOf_insert_own none, none]
      exact ⟨Nat.le_refl 1, .add hasDefault⟩
    · rw [valuesOf_insert_other own]
      exact ⟨once m.name (List.mem_map_of_mem mem), .same _⟩
  | @list _ given items listing =>
    obtain ⟨-, once, rfl⟩ := members?_object.mp read
    obtain ⟨short, respelt⟩ := listing_respelt listing fun m mem =>
      once m.name (List.mem_map_of_mem mem)
    have size : (namesOf members).length = members.length := List.length_map _
    refine ⟨_, members?_array.mpr ⟨by rwa [size], rfl⟩, ?_⟩
    simp only [namesOf, List.map_map, List.length_map]
    exact respelt

/-- So are they after a change inside of one of its members. -/
theorem members?_respelt {v v' : Json} (change : Within Respelling (.record members) v v')
    {entries : List (Option Json)} (read : v.members? (namesOf members) = some entries) :
    ∃ entries', v'.members? (namesOf members) = some entries' ∧
      EntriesRespelt members entries entries' := by
  cases change with
  | here change => exact members?_respelling distinct change read
  | @member _ m₀ before after v v' mem₀ inner =>
    obtain ⟨texts, once, -⟩ := members?_object.mp read
    have others := (forall_mem_insert.mp texts).2
    refine object_respelt read (forall_mem_insert.mpr ⟨rfl, others⟩) ?_
    intro m mem
    have short := once m.name (List.mem_map_of_mem mem)
    by_cases own : m₀.name = m.name
    · obtain rfl := eq_of_name distinct mem₀ mem own
      have absent := valuesOf_remove_own short
      rw [valuesOf_insert_own absent, valuesOf_insert_own absent]
      exact ⟨Nat.le_refl 1, .within inner⟩
    · rw [valuesOf_insert_other own] at short
      rw [valuesOf_insert_other own, valuesOf_insert_other own]
      exact ⟨short, .same _⟩
  | @listed earlier later m before after v v' place inner =>
    obtain ⟨short, rfl⟩ := members?_array.mp read
    have size : (namesOf (earlier ++ m :: later)).length = earlier.length + (later.length + 1) := by
      simp [namesOf]
    refine ⟨_, members?_array.mpr ⟨by simpa using short, rfl⟩, ?_⟩
    rw [size, padded_append place, padded_append place, padded_cons, padded_cons]
    refine .append (.refl ?_) (.cons (.within inner) (.refl ?_))
    · rw [List.length_map, place]
    · rw [size, List.length_append, List.length_cons] at short
      exact (length_padded (by omega)).symm

end

/-- A spoilt record is not read, or it has an entry that no reader of the member accepts. -/
theorem members?_spoilt {members : List (Member Form)} {v v' : Json}
    (change : Within Spoiling (.record members) v v') {entries : List (Option Json)}
    (read : v'.members? (namesOf members) = some entries) :
    ¬ List.Forall₂ (fun m entry => ¬ m.Spoilt entry) members entries := by
  intro sound
  cases change with
  | here change =>
    cases change with
    | @drop _ m given mem required =>
      obtain ⟨-, -, rfl⟩ := members?_object.mp read
      rw [namesOf, List.map_map, List.forall₂_map_right_iff, List.forall₂_same] at sound
      have absent : valuesOf (given.filter (·.1 ≠ some m.name)) m.name = [] := by
        simp [valuesOf, List.filter_filter]
      apply sound m mem
      rw [Function.comp_apply, absent]
      exact .missing required
    | @twice _ m v v' before after mem already =>
      obtain ⟨-, once, -⟩ := members?_object.mp read
      have absent := valuesOf_remove_own (once m.name (List.mem_map_of_mem mem))
      have inside := mem_valuesOf.mpr already
      rw [absent] at inside
      cases inside
  | @member _ m before after v v' mem inner =>
    obtain ⟨-, once, rfl⟩ := members?_object.mp read
    rw [namesOf, List.map_map, List.forall₂_map_right_iff, List.forall₂_same] at sound
    have absent := valuesOf_remove_own (once m.name (List.mem_map_of_mem mem))
    apply sound m mem
    rw [Function.comp_apply, valuesOf_insert_own absent]
    exact .within inner
  | @listed earlier later m before after v v' place inner =>
    obtain ⟨-, rfl⟩ := members?_array.mp read
    have size : (namesOf (earlier ++ m :: later)).length = earlier.length + (later.length + 1) := by
      simp [namesOf]
    rw [size, padded_append place, padded_cons] at sound
    have rest := List.forall₂_drop_append _ _ _ sound
    rw [List.length_map, place, List.drop_left] at rest
    obtain _ | ⟨unspoilt, -⟩ := rest
    exact unspoilt (.within inner)

/-! ### Readers -/

/-- Whether a member's entry passes a test depends on what it is spelt for only. -/
structure Member.Judges (m : Member Form) (test : Option Json → Prop) : Prop where
  respelt {entry entry' : Option Json} : m.Respelt entry entry' → test entry → test entry'
  spoilt {entry : Option Json} : m.Spoilt entry → ¬ test entry

/-- Entries pass their tests. -/
def Pass (tests : List (Option Json → Prop)) (entries : List (Option Json)) : Prop :=
  List.Forall₂ (fun test entry => test entry) tests entries

theorem Pass.respelt {members : List (Member Form)} {tests : List (Option Json → Prop)}
    (judges : List.Forall₂ Member.Judges members tests) {entries entries' : List (Option Json)}
    (change : EntriesRespelt members entries entries') (pass : Pass tests entries) :
    Pass tests entries' := by
  induction change generalizing tests with
  | nil => exact pass
  | cons head _ ih =>
    obtain _ | ⟨judge, judges⟩ := judges
    obtain _ | ⟨first, pass⟩ := pass
    exact .cons (judge.respelt head first) (ih judges pass)

theorem Pass.not_spoilt {members : List (Member Form)} {tests : List (Option Json → Prop)}
    (judges : List.Forall₂ Member.Judges members tests) {entries : List (Option Json)}
    (pass : Pass tests entries) :
    List.Forall₂ (fun m entry => ¬ m.Spoilt entry) members entries := by
  induction judges generalizing entries with
  | nil =>
    obtain _ | _ := pass
    exact .nil
  | cons judge _ ih =>
    obtain _ | ⟨first, pass⟩ := pass
    exact .cons (fun spoilt => judge.spoilt spoilt first) (ih pass)

section
variable {α : Type} {read? : Json → Option α}

theorem understands_plain : Understands read? .plain where
  respelt change := by
    obtain ⟨⟨⟩⟩ := change
  spoilt change := by
    obtain ⟨⟨⟩⟩ := change

/-- A reader of variants, of which those with content have names of their own. -/
theorem understands_choice {values : List (String × α)}
    (chosen : ∀ name, read? (.string (some name)) = values.lookup name)
    (written : ∀ name, (values.lookup name).isSome = true →
      read? (.object [(some name, .null)]) = values.lookup name) : Understands read? .variant where
  respelt change read := by
    obtain ⟨⟨⟩⟩ := change
    rw [chosen] at read
    rw [written _ (by rw [read]; rfl), read]
  spoilt change := by
    obtain ⟨⟨⟩⟩ := change

theorem understands_list {form : Form} (understands : Understands read? form) :
    Understands (list? read?) (.list form) where
  respelt change read := by
    obtain ⟨⟨⟩⟩ | @⟨_, before, after, v, v', inner⟩ := change
    simp only [list?, List.mapM_append, List.mapM_cons, bind, pure, Option.bind_eq_some_iff,
      Option.some.injEq] at read ⊢
    obtain ⟨as, first, _, ⟨a, item, bs, later, rfl⟩, rfl⟩ := read
    exact ⟨as, first, _, ⟨a, understands.respelt inner item, bs, later, rfl⟩, rfl⟩
  spoilt change := by
    obtain ⟨⟨⟩⟩ | @⟨_, before, after, v, v', inner⟩ := change
    have refused := understands.spoilt inner
    cases first : before.mapM read? <;> simp [list?, first, refused]

/-- A reader of records that judges them by their entries. -/
theorem understands_record {members : List (Member Form)} (distinct : (namesOf members).Nodup)
    {tests : α → List (Option Json → Prop)}
    (judges : ∀ a, List.Forall₂ Member.Judges members (tests a))
    (reads : ∀ v a, read? v = some a ↔
      ∃ entries, v.members? (namesOf members) = some entries ∧ Pass (tests a) entries) :
    Understands read? (.record members) where
  respelt {v v' a} change read := by
    obtain ⟨entries, found, pass⟩ := (reads v a).mp read
    obtain ⟨entries', found', respelt⟩ := members?_respelt distinct change found
    exact (reads v' a).mpr ⟨entries', found', pass.respelt (judges a) respelt⟩
  spoilt {v v'} change := by
    apply Option.eq_none_iff_forall_ne_some.mpr
    intro a read
    obtain ⟨entries, found, pass⟩ := (reads v' a).mp read
    exact members?_spoilt change found (pass.not_spoilt (judges a))

/-! ### Members -/

variable {m : Member Form} (understands : Understands read? m.form) (a : α)
include understands

theorem judges_required (required : m.default = none) :
    m.Judges fun entry => required? read? entry = some a where
  respelt change read := by
    cases change with
    | same => exact read
    | drop hasDefault | add hasDefault =>
      rw [required] at hasDefault
      cases hasDefault
    | within inner => exact understands.respelt inner read
  spoilt spoilt read := by
    cases spoilt with
    | missing => cases read
    | within inner =>
      have refused := understands.spoilt inner
      rw [required?, refused] at read
      cases read

theorem judges_optional {d : Json} {default : α} (hasDefault : m.default = some d)
    (value : read? d = some default) :
    m.Judges fun entry => optional? default read? entry = some a where
  respelt change read := by
    cases change with
    | same => exact read
    | drop isDefault =>
      rw [hasDefault] at isDefault
      cases isDefault
      rwa [optional?, ← value]
    | add isDefault =>
      rw [hasDefault] at isDefault
      cases isDefault
      rwa [optional?, value]
    | within inner => exact understands.respelt inner read
  spoilt spoilt read := by
    cases spoilt with
    | missing required =>
      rw [hasDefault] at required
      cases required
    | within inner =>
      have refused := understands.spoilt inner
      rw [optional?, refused] at read
      cases read

end

end ModelSql.Json
