import ModelSql.Proofs.Lists
import ModelSql.Proofs.Table.WellFormed
/-!
# Places of columns

A map from the keys of columns, such as their names, to their places. It is exact: each
column has a key of its own, under which its place stands, and no place is beyond the
columns. It grows by one column at the end at a time.

* `Places`: maps that are exact;
* `Places.column?_eq`: a key looks up what a search through the columns finds.
-/

namespace ModelSql

/-- The keys of columns are those before one column is replaced by one of the same key. -/
theorem map_set_of_key {α β : Type} {key : α → β} {items : List α} {place : Fin items.length}
    {a : α} (same : key a = key (items.get place)) :
    (items.set place a).map key = items.map key := by
  have inside : place < (items.map key).length := by simp
  rw [List.map_set, same, List.get_eq_getElem, ← List.getElem_map key (h := inside),
    List.set_getElem_self]

/-- The places of columns under their keys. Each column has a key of its own, and only the
keys of columns have places. -/
structure Places (key : Column → String) (columns : List Column) where
  map : Std.HashMap String Nat
  map_iff {name : String} {place : Nat} :
    map[name]? = some place ↔ ∃ c, columns[place]? = some c ∧ key c = name

namespace Places

variable {key : Column → String} {columns : List Column}

theorem lt_length (p : Places key columns) {name : String} {place : Nat}
    (h : p.map[name]? = some place) : place < columns.length := by
  obtain ⟨c, there, -⟩ := p.map_iff.mp h
  exact (List.getElem?_eq_some_iff.mp there).1

/-- The place of a name, which is that of a column. -/
def place? (p : Places key columns) (name : String) : Option (Fin columns.length) :=
  match h : p.map[name]? with
  | none => none
  | some place => some ⟨place, p.lt_length h⟩

def column? (p : Places key columns) (name : String) : Option Column :=
  (p.place? name).map columns.get

theorem place?_eq_some_iff (p : Places key columns) {name : String}
    {place : Fin columns.length} :
    p.place? name = some place ↔ key (columns.get place) = name := by
  have own : p.map[name]? = some place.val ↔ key (columns.get place) = name := by
    rw [p.map_iff, List.getElem?_eq_getElem place.isLt]
    constructor
    · rintro ⟨c, there, same⟩
      cases there
      exact same
    · intro same
      exact ⟨_, rfl, same⟩
  rw [← own, place?]
  split <;> rename_i found <;> simp [found, Fin.ext_iff]

/-- No two columns have one key. -/
theorem keys_nodup (p : Places key columns) : (columns.map key).Nodup := by
  rw [List.Nodup, List.pairwise_map, List.pairwise_iff_getElem]
  intro i j hi hj before same
  have first : p.place? (key columns[j]) = some ⟨i, hi⟩ := p.place?_eq_some_iff.mpr same
  have second : p.place? (key columns[j]) = some ⟨j, hj⟩ := p.place?_eq_some_iff.mpr rfl
  rw [first] at second
  have equal : i = j := congrArg Fin.val (Option.some.inj second)
  omega

theorem column?_eq_some_iff (p : Places key columns) {name : String} {c : Column} :
    p.column? name = some c ↔ c ∈ columns ∧ key c = name := by
  rw [column?, Option.map_eq_some_iff]
  constructor
  · rintro ⟨place, found, rfl⟩
    exact ⟨columns.get_mem place, p.place?_eq_some_iff.mp found⟩
  · rintro ⟨mem, same⟩
    obtain ⟨place, rfl⟩ := List.get_of_mem mem
    exact ⟨place, p.place?_eq_some_iff.mpr same, rfl⟩

/-- Looking up a key finds what a search through the columns finds. -/
theorem column?_eq (p : Places key columns) (name : String) :
    p.column? name = columns.find? (key · = name) := by
  cases found : p.column? name with
  | some c =>
    obtain ⟨mem, rfl⟩ := p.column?_eq_some_iff.mp found
    exact (find?_key p.keys_nodup mem).symm
  | none =>
    refine (List.find?_eq_none.mpr fun c mem same => ?_).symm
    have there := p.column?_eq_some_iff.mpr ⟨mem, of_decide_eq_true same⟩
    rw [found] at there
    cases there

theorem column?_eq_none_iff (p : Places key columns) {name : String} :
    p.column? name = none ↔ ∀ c ∈ columns, key c ≠ name := by
  rw [p.column?_eq, List.find?_eq_none]
  simp only [decide_eq_true_eq, ne_eq]

def empty : Places key [] where
  map := ∅
  map_iff := by simp

/-- The places with one more column at the end, whose key is new. -/
def push (p : Places key columns) (c : Column) (fresh : p.column? (key c) = none) :
    Places key (columns ++ [c]) where
  map := p.map.insert (key c) columns.length
  map_iff {name place} := by
    have apart := p.column?_eq_none_iff.mp fresh
    rw [Std.HashMap.getElem?_insert]
    constructor
    · intro found
      split at found
      · rename_i own
        cases found
        exact ⟨c, List.getElem?_concat_length, eq_of_beq own⟩
      · obtain ⟨other, there, same⟩ := p.map_iff.mp found
        exact ⟨other, getElem?_concat_eq_some_iff.mpr (.inl there), same⟩
    · rintro ⟨other, there, rfl⟩
      obtain inside | ⟨rfl, rfl⟩ := getElem?_concat_eq_some_iff.mp there
      · have other_ne : key c ≠ key other :=
          (apart other (List.mem_of_getElem? inside)).symm
        rw [if_neg (by simpa using other_ne)]
        exact p.map_iff.mpr ⟨other, inside, rfl⟩
      · rw [if_pos (beq_self_eq_true _)]

/-- The places of columns that have the same keys in the same order. -/
def transfer (p : Places key columns) {others : List Column}
    (same : others.map key = columns.map key) : Places key others where
  map := p.map
  map_iff {name place} := by
    have there : (others[place]?).map key = (columns[place]?).map key := by
      rw [← List.getElem?_map, ← List.getElem?_map, same]
    rw [p.map_iff, ← Option.map_eq_some_iff, ← Option.map_eq_some_iff, there]

end Places

end ModelSql
