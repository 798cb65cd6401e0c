import ModelSql.Proofs.Filter.Resolved
/-!
# The fields of a filter

Every predicate of a filter has its field looked up, also where it is written as a constant or
as a null test. So a filter is refused just if one of its fields stands for no column, and the
fault is that of the first such field.

* `Filter.compile_error_of_fields`: the first field without a column is the fault;
* `Table.firstUnresolved_or`: there is a first one, or none;
* `Filter.compile_refused_iff`: which filters are refused, and for what.
-/

namespace ModelSql

/-- The fields that a filter names, in order. -/
def Filter.fields (f : Filter) : List String := f.predicates.map (·.field)

/-- The fault is that of the first of the names that stands for no column. -/
def Table.FirstUnresolved (t : Table) (names : List String) (fault : Fault) : Prop :=
  ∃ before name after, names = before ++ name :: after ∧
    (∀ earlier ∈ before, ∃ c, t.resolve earlier = .ok c) ∧ t.resolve name = .error fault

section
variable {t : Table}

theorem Table.firstUnresolved_or (t : Table) (names : List String) :
    (∀ name ∈ names, ∃ c, t.resolve name = .ok c) ∨ ∃ fault, t.FirstUnresolved names fault := by
  induction names with
  | nil => exact .inl fun _ mem => (List.not_mem_nil mem).elim
  | cons name names ih =>
    cases resolved : t.resolve name with
    | error fault => exact .inr ⟨fault, [], name, names, rfl, by simp, resolved⟩
    | ok c =>
      obtain all | ⟨fault, before, bad, after, rfl, earlier, refused⟩ := ih
      · exact .inl (List.forall_mem_cons.mpr ⟨⟨c, resolved⟩, all⟩)
      · exact .inr ⟨fault, name :: before, bad, after, rfl,
          List.forall_mem_cons.mpr ⟨⟨c, resolved⟩, earlier⟩, refused⟩

/-- Names that follow do not change which name is the first without a column. -/
theorem Table.FirstUnresolved.mono {names more : List String} {fault : Fault}
    (h : t.FirstUnresolved names fault) (longer : names <+: more) :
    t.FirstUnresolved more fault := by
  obtain ⟨before, name, after, rfl, earlier, refused⟩ := h
  obtain ⟨rest, rfl⟩ := longer
  exact ⟨before, name, after ++ rest, by simp, earlier, refused⟩

/-- A filter all of whose fields stand for columns is compiled. -/
theorem Filter.compile_of_fields {f : Filter} (h : ∀ name ∈ f.fields, ∃ c, t.resolve name = .ok c) :
    ∃ compiled, f.compile t = .ok compiled := by
  suffices resolved : ∃ r, f.resolve t = .ok r by
    obtain ⟨r, resolved⟩ := resolved
    exact ⟨_, compile_of_resolve resolved⟩
  cases f with
  | empty => exact ⟨.empty, rfl⟩
  | chain first links =>
    rw [fields, predicates_chain, List.map_cons, List.map_map, List.forall_mem_cons] at h
    obtain ⟨⟨column, found⟩, later⟩ := h
    have tests := resolveLinks_of_fields fun link mem => later _ (List.mem_map_of_mem mem)
    obtain ⟨tests, htests⟩ := tests
    refine ⟨.chain ⟨column, first.condition⟩ tests, ?_⟩
    rw [resolve, Predicate.resolve_of_field found, htests]
    rfl

theorem Filter.compile_error_of_fields {name : String} {fault : Fault}
    (refused : t.resolve name = .error fault) {f : Filter} {before after : List String}
    (split : f.fields = before ++ name :: after)
    (earlier : ∀ key ∈ before, ∃ c, t.resolve key = .ok c) : f.compile t = .error fault := by
  obtain ⟨first, rest, predicates, rfl, later⟩ := List.map_eq_append_iff.mp split
  obtain ⟨p, last, rfl, rfl, -⟩ := List.map_eq_cons_iff.mp later
  exact Filter.compile_error predicates
    (fun q mem => earlier q.field (List.mem_map.mpr ⟨q, mem, rfl⟩)) refused

theorem Filter.compile_eq_error_iff {f : Filter} {fault : Fault} :
    f.compile t = .error fault ↔ t.FirstUnresolved f.fields fault := by
  constructor
  · intro failed
    obtain all | ⟨first, bad⟩ := t.firstUnresolved_or f.fields
    · obtain ⟨compiled, ok⟩ := compile_of_fields all
      rw [ok] at failed
      cases failed
    · obtain ⟨before, name, after, split, earlier, refused⟩ := id bad
      rw [compile_error_of_fields refused split earlier] at failed
      cases failed
      exact bad
  · rintro ⟨before, name, after, split, earlier, refused⟩
    exact compile_error_of_fields refused split earlier

/-- A filter that names a field without a column is refused. -/
theorem Filter.compile_fails {name : String} {fault : Fault}
    (refused : t.resolve name = .error fault) {f : Filter} (mem : name ∈ f.fields) :
    ∃ first, f.compile t = .error first := by
  obtain all | ⟨first, bad⟩ := t.firstUnresolved_or f.fields
  · obtain ⟨c, resolved⟩ := all name mem
    rw [refused] at resolved
    cases resolved
  · exact ⟨first, compile_eq_error_iff.mpr bad⟩

end

/-- A filter is refused just if a field of it stands for no column, and then for the first such
field. Nothing else of its predicates matters, and nothing that follows that field: every
filter whose fields begin with the same ones is refused alike. -/
theorem Filter.compile_refused_iff (t : Table) (f : Filter) :
    ((∃ fault, f.compile t = .error fault) ↔
      ∃ p ∈ f.predicates, ∃ fault, t.resolve p.field = .error fault) ∧
    (∀ fault, f.compile t = .error fault ↔ t.FirstUnresolved f.fields fault) ∧
    ∀ (g : Filter) (fault : Fault), f.fields <+: g.fields → f.compile t = .error fault →
      g.compile t = .error fault := by
  refine ⟨⟨?_, ?_⟩, fun fault => compile_eq_error_iff, ?_⟩
  · rintro ⟨fault, failed⟩
    obtain ⟨before, name, after, split, -, refused⟩ := compile_eq_error_iff.mp failed
    have mem : name ∈ f.fields := by simp [split]
    obtain ⟨p, hp, rfl⟩ := List.mem_map.mp mem
    exact ⟨p, hp, fault, refused⟩
  · rintro ⟨p, hp, fault, refused⟩
    exact compile_fails refused (List.mem_map_of_mem hp)
  · intro g fault longer failed
    exact compile_eq_error_iff.mpr ((compile_eq_error_iff.mp failed).mono longer)

/-- The bad field is that of an empty set, between a constant and a null test. -/
theorem Filter.compile_refused_iff_invoice :
    let f : Filter := .chain ⟨"Total", .membership .isIn []⟩
      [(.or, ⟨"Due", .membership .notIn []⟩), (.and, ⟨"Paid", .comparison .equal .null⟩)]
    let g : Filter := .chain ⟨"Total", .comparison .lessThan (.int 9)⟩
      [(.and, ⟨"Due", .comparison .notEqual .null⟩), (.and, ⟨"Paid", .comparison .equal .null⟩),
        (.or, ⟨"Note", .membership .isIn [.text "x"]⟩)]
    f.compile invoiceTable = .error (.unknownField "Invoice" "Due") ∧
      g.compile invoiceTable = .error (.unknownField "Invoice" "Due") := by
  intro f g
  obtain ⟨-, refused, alike⟩ := compile_refused_iff invoiceTable f
  have first : f.compile invoiceTable = .error (.unknownField "Invoice" "Due") := by
    refine (refused _).mpr ⟨["Total"], "Due", ["Paid"], rfl, ?_, by decide +kernel⟩
    simp only [List.mem_singleton, forall_eq]
    exact ⟨_, rfl⟩
  exact ⟨first, alike g _ ⟨["Note"], rfl⟩ first⟩

end ModelSql
