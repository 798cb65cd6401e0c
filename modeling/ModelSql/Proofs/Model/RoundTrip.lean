import ModelSql.Model.JsonForm
import ModelSql.Proofs.Json.Reading
import ModelSql.Proofs.Lists
/-!
# Descriptions survive being written and read

A description is written in one spelling and read in many: members may be left
out, stand in any order or be listed without names, and variants without content
may be written with it. Whatever spelling is read, the one that is written is
read as the same value.

* `Json.RoundTrips`: what is written is read back, and what is read is written in
  a spelling that stays as it is;
* `Json.members?_ofMembers`: the members of a record are found by their names;
* `Model.descriptions_round_trip`: models, settings, field types and fields.
-/

namespace ModelSql

namespace Json

/-! ### Texts -/

/-- The value that a text describes. -/
def described? {α : Type} (read? : Json → Option α) (text : String) : Option α :=
  (parse? text).bind read?

/-- A description as it is written once it is read. -/
def rewritten? {α : Type} (write : α → Json) (read? : Json → Option α) (text : String) :
    Option String :=
  (described? read? text).map fun a => (write a).render

/-- Values are read back from what is written for them. A description that is read is rewritten
as one of the same value, which is rewritten as itself. -/
structure RoundTrips {α : Type} (write : α → Json) (read? : Json → Option α) : Prop where
  read_written (a : α) : described? read? (write a).render = some a
  rewritten {text text' : String} : rewritten? write read? text = some text' →
    described? read? text' = described? read? text ∧ rewritten? write read? text' = some text'

/-- It is enough that values of JSON are read back, if no number stands in them. -/
theorem RoundTrips.of_values {α : Type} {write : α → Json} {read? : Json → Option α}
    (numberless : ∀ a, Numberless (write a)) (read_write : ∀ a, read? (write a) = some a) :
    RoundTrips write read? := by
  have read_written (a : α) : described? read? (write a).render = some a := by
    rw [described?, parse?_render (numberless a), Option.bind_some, read_write]
  refine ⟨read_written, ?_⟩
  intro text text' rewrites
  obtain ⟨a, value, rfl⟩ := Option.map_eq_some_iff.mp rewrites
  exact ⟨by rw [read_written, value], by rw [rewritten?, read_written, Option.map_some]⟩

/-! ### Records and variants -/

theorem numberless_ofText (text : String) : Numberless (ofText text) := .string _

theorem numberless_ofText? (text : Option String) : Numberless (ofText? text) := by
  cases text with
  | none => exact .null
  | some text => exact numberless_ofText text

/-- Members whose names are texts. -/
def keyed (members : List (String × Json)) : List (Option String × Json) :=
  members.map fun m => (some m.1, m.2)

theorem ofMembers_eq (members : List (String × Json)) :
    ofMembers members = .object (keyed members) := rfl

theorem numberless_ofMembers {members : List (String × Json)}
    (h : ∀ member ∈ members, Numberless member.2) : Numberless (ofMembers members) := by
  rw [ofMembers_eq]
  refine .object ?_
  intro member inside
  obtain ⟨named, mem, rfl⟩ := List.mem_map.mp inside
  exact h named mem

theorem keyed_nodup {members : List (String × Json)} (distinct : (members.map (·.1)).Nodup) :
    ((keyed members).map (·.1)).Nodup := by
  have names := distinct.map (f := some) fun _ _ same => Option.some.inj same
  simpa only [keyed, List.map_map, Function.comp_def] using names

/-- A record that is written with all its members is read member by member. -/
theorem members?_ofMembers {names : List String} {members : List (String × Json)}
    (named : members.map (·.1) = names) (distinct : names.Nodup) :
    (ofMembers members).members? names = some (members.map fun m => some m.2) := by
  subst named
  have keys := keyed_nodup distinct
  have texts : (keyed members).all (·.1.isSome) = true := by simp [keyed]
  have once (name : String) : (keyed members).countP (·.1 = some name) ≤ 1 := by
    have count := List.nodup_iff_count_le_one.mp keys (some name)
    rw [List.count, List.countP_map] at count
    simpa only [Function.comp_def, beq_eq_decide] using count
  have found : (members.map (·.1)).map (fun name => (keyed members).lookup (some name)) =
      members.map fun m => some m.2 := by
    rw [List.map_map]
    refine List.map_congr_left ?_
    intro m inside
    exact lookup_eq_some_of_mem keys (List.mem_map.mpr ⟨m, inside, rfl⟩)
  rw [ofMembers_eq, members?, found, if_pos]
  simp [texts, once]

theorem text?_ofText (text : String) : (ofText text).text? = some text := rfl

theorem nullable?_ofText? (text : Option String) : nullable? text? (ofText? text) = some text := by
  cases text <;> rfl

/-- A list that is written item by item is read back as the same list. -/
theorem list?_array {α : Type} {write : α → Json} {read? : Json → Option α}
    (read_write : ∀ a, read? (write a) = some a) (items : List α) :
    list? read? (.array (items.map write)) = some items :=
  mapM_map_eq_some read_write items

end Json

open Json

/-! ### The descriptions -/

namespace SemanticType

theorem ofJson?_toJson (type : SemanticType) : ofJson? type.toJson = some type := by
  cases type with
  | custom name => rfl
  | _ => rfl

theorem numberless_toJson (type : SemanticType) : Numberless type.toJson := by
  cases type with
  | custom name => exact numberless_ofMembers (by simp [numberless_ofText])
  | _ => exact numberless_ofText _

end SemanticType

namespace Field

theorem members?_toJson (f : Field) : f.toJson.members? memberNames =
    some [some (ofText f.name), some f.type.toJson, some (.bool f.nullable),
      some (.bool f.identity), some (.bool f.ignored), some (ofText? f.column)] :=
  members?_ofMembers rfl (by decide)

theorem ofJson?_toJson (f : Field) : ofJson? f.toJson = some f := by
  simp [ofJson?, members?_toJson, required?, optional?, text?_ofText, bool?,
    SemanticType.ofJson?_toJson, nullable?_ofText?]

theorem numberless_toJson (f : Field) : Numberless f.toJson := by
  refine numberless_ofMembers ?_
  simp [numberless_ofText, numberless_ofText?, SemanticType.numberless_toJson, Numberless.bool]

end Field

namespace Model

theorem members?_toJson (m : Model) : m.toJson.members? memberNames =
    some [some (ofText? m.key), some (ofText m.name), some (ofText? m.table),
      some (.array (m.fields.map Field.toJson))] :=
  members?_ofMembers rfl (by decide)

theorem ofJson?_toJson (m : Model) : ofJson? m.toJson = some m := by
  simp [ofJson?, members?_toJson, required?, optional?, text?_ofText, nullable?_ofText?,
    list?_array Field.ofJson?_toJson]

theorem numberless_toJson (m : Model) : Numberless m.toJson := by
  have fields : Numberless (.array (m.fields.map Field.toJson)) := by
    refine .array ?_
    simp [Field.numberless_toJson]
  refine numberless_ofMembers ?_
  simp [numberless_ofText, numberless_ofText?, fields]

end Model

namespace IdentityConvention

theorem ofJson?_toJson (c : IdentityConvention) : ofJson? c.toJson = some c := by
  cases c with
  | disabled => rfl
  | fieldNamed name => rfl

theorem numberless_toJson (c : IdentityConvention) : Numberless c.toJson := by
  cases c with
  | disabled => exact numberless_ofText _
  | fieldNamed name => exact numberless_ofMembers (by simp [numberless_ofText])

end IdentityConvention

namespace Settings

theorem members?_toJson (s : Settings) :
    s.toJson.members? memberNames = some [some s.identityConvention.toJson] :=
  members?_ofMembers rfl (by decide)

theorem ofJson?_toJson (s : Settings) : ofJson? s.toJson = some s := by
  simp [ofJson?, members?_toJson, optional?, IdentityConvention.ofJson?_toJson]

theorem numberless_toJson (s : Settings) : Numberless s.toJson := by
  refine numberless_ofMembers ?_
  simp [IdentityConvention.numberless_toJson]

end Settings

/-- Models, settings, field types and fields are read back from their texts. Every text that is
accepted as one of them has the text in which it is written once read: accepted again, of the
same value, and written as itself. -/
theorem Model.descriptions_round_trip :
    RoundTrips Model.toJson Model.ofJson? ∧
      RoundTrips Settings.toJson Settings.ofJson? ∧
      RoundTrips SemanticType.toJson SemanticType.ofJson? ∧
      RoundTrips Field.toJson Field.ofJson? :=
  ⟨.of_values Model.numberless_toJson Model.ofJson?_toJson,
    .of_values Settings.numberless_toJson Settings.ofJson?_toJson,
    .of_values SemanticType.numberless_toJson SemanticType.ofJson?_toJson,
    .of_values Field.numberless_toJson Field.ofJson?_toJson⟩

example :
    rewritten? SemanticType.toJson SemanticType.ofJson? " \x7b \"int\" : null \x7d" =
      some "\"int\"" := by decide +kernel

end ModelSql
