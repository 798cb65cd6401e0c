import Mathlib.Data.List.Forall2
import Mathlib.Data.List.Nodup
/-!
# Lists of named items

What holds of lists with one item a name, and of lists that are written item by item.
-/

namespace ModelSql

section
variable {α β : Type}

/-- An entry of a list with one entry a name is found under its name. -/
theorem lookup_eq_some_of_mem [BEq α] [LawfulBEq α] {entries : List (α × β)}
    (distinct : (entries.map (·.1)).Nodup) {name : α} {b : β} (h : (name, b) ∈ entries) :
    entries.lookup name = some b := by
  obtain ⟨before, after, rfl⟩ := List.append_of_mem h
  rw [List.map_append, List.map_cons] at distinct
  refine List.lookup_eq_some_iff.mpr ⟨before, after, rfl, ?_⟩
  intro entry earlier
  have other : entry.1 ≠ name := by
    rintro rfl
    exact List.disjoint_of_nodup_append distinct (List.mem_map_of_mem earlier) (by simp)
  exact bne_iff_ne.mpr other.symm

/-- Values that are paired with names are found under them, in order. -/
theorem map_lookup_zip [BEq α] [LawfulBEq α] {names : List α} {values : List β}
    (distinct : names.Nodup) (same : names.length = values.length) :
    names.map ((names.zip values).lookup ·) = values.map some := by
  have distinctKeys : ((names.zip values).map (·.1)).Nodup := by
    rw [List.map_fst_zip (Nat.le_of_eq same)]
    exact distinct
  refine List.ext_getElem (by simpa using same) ?_
  intro i left right
  have nameBound : i < names.length := by simpa using left
  have valueBound : i < values.length := by simpa using right
  have bound : i < (names.zip values).length := by simpa [← same] using nameBound
  have mem : (names[i], values[i]) ∈ names.zip values := by
    rw [← List.getElem_zip (h := bound)]
    exact List.getElem_mem bound
  simpa using lookup_eq_some_of_mem distinctKeys mem

/-- The items of a longer list are those it had, at their places, and the one at its end. -/
theorem getElem?_concat_eq_some_iff {items : List α} {a b : α} {place : Nat} :
    (items ++ [a])[place]? = some b ↔
      items[place]? = some b ∨ place = items.length ∧ b = a := by
  rw [List.getElem?_append]
  split
  · rename_i inside
    simp [Nat.ne_of_lt inside]
  · rename_i outside
    have absent : items[place]? = none := List.getElem?_eq_none (by omega)
    rw [absent, List.getElem?_singleton]
    split
    · rename_i last
      have same : place = items.length := by omega
      simp [same, eq_comm]
    · rename_i beyond
      have other : place ≠ items.length := by omega
      simp [other]

/-- Searches by tests that agree find values that agree. -/
theorem map_find?_eq {γ : Type} {R : α → β → Prop} {as : List α} {bs : List β}
    (related : List.Forall₂ R as bs) {p : α → Bool} {q : β → Bool} {f : α → γ} {g : β → γ}
    (test : ∀ a b, R a b → p a = q b) (value : ∀ a b, R a b → f a = g b) :
    (as.find? p).map f = (bs.find? q).map g := by
  induction related with
  | nil => rfl
  | @cons a b as bs first _ ih =>
    rw [List.find?_cons, List.find?_cons, test a b first]
    cases q b with
    | true => exact congrArg some (value a b first)
    | false => exact ih

theorem mapM_eq_some_map {f : α → Option β} {g : α → β} {items : List α}
    (h : ∀ a ∈ items, f a = some (g a)) : items.mapM f = some (items.map g) := by
  induction items with
  | nil => rfl
  | cons a items ih =>
    obtain ⟨first, later⟩ := List.forall_mem_cons.mp h
    rw [List.mapM_cons, first, ih later]
    rfl

/-- What is written item by item is read item by item. -/
theorem mapM_map_eq_some {write : α → β} {read? : β → Option α}
    (read_write : ∀ a, read? (write a) = some a) (items : List α) :
    (items.map write).mapM read? = some items := by
  have read : items.mapM (read? ∘ write) = some (items.map id) :=
    mapM_eq_some_map fun a _ => read_write a
  rw [List.mapM_map, read, List.map_id]

end

end ModelSql
