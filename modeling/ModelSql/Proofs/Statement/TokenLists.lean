import ModelSql.Proofs.Lists
import ModelSql.Proofs.Statement.Tokens
/-!
# Lists of tokens

Items with commas between them are read back from their tokens. Where items hold no commas,
every comma separates two of them. Where items hold lists in parentheses of their own, a comma
does so only if all inner parentheses are closed.

* `readList?`: the items between commas;
* `listItems?`: the items of a list in parentheses, and what follows the list;
* `Passes`: tokens that belong to one item of a list in parentheses.
-/

namespace ModelSql.Sql

open Token

/-! ## Items without commas -/

/-- The items between commas, each read by `item?`. -/
def readList? {α : Type} (item? : List Token → Option α) (ts : List Token) : Option (List α) :=
  (ts.splitOn (punctuation ',')).mapM item?

theorem splitOn_append_cons {mark : Token} {before : List Token} (h : mark ∉ before)
    (after : List Token) :
    (before ++ mark :: after).splitOn mark = before :: after.splitOn mark := by
  rw [List.splitOn_eq_splitOnP, List.splitOn_eq_splitOnP]
  refine List.splitOnP_append_cons_of_forall_mem (p := (· == mark)) ?_ mark (beq_self_eq_true mark)
    after
  intro a mem
  refine beq_false_of_ne ?_
  rintro rfl
  exact h mem

theorem notMem_listTokens {α : Type} {item : α → List Token} {p : Char} (other : p ≠ ',')
    {items : List α} (absent : ∀ a, punctuation p ∉ item a) :
    punctuation p ∉ listTokens item items := by
  rw [listTokens]
  induction items with
  | nil => simp
  | cons a items ih =>
    cases items with
    | nil => simpa using absent a
    | cons b items =>
      rw [List.map_cons, List.map_cons, List.intercalate_cons_cons, ← List.map_cons]
      simp only [List.mem_append, List.mem_singleton, Token.punctuation.injEq, not_or]
      exact ⟨⟨absent a, other⟩, ih⟩

/-- A list is read item by item, if no item has a comma. -/
theorem readList?_listTokens {α : Type} {item : α → List Token} {item? : List Token → Option α}
    (read : ∀ a, item? (item a) = some a) (separate : ∀ a, punctuation ',' ∉ item a)
    {items : List α} (nonempty : items ≠ []) :
    readList? item? (listTokens item items) = some items := by
  have parts : (listTokens item items).splitOn (punctuation ',') = items.map item := by
    refine List.splitOn_intercalate _ ?_ (by simpa using nonempty)
    intro part mem
    obtain ⟨a, -, rfl⟩ := List.mem_map.mp mem
    exact separate a
  rw [readList?, parts, mapM_map_eq_some read]

/-! ## Lists in parentheses -/

/-- The items of a list whose opening parenthesis has been read, and what follows the list.
`depth` inner parentheses are open, and `seen` is what there is of the first item. -/
def listItems? (depth : Nat) (seen : List Token) :
    List Token → Option (List (List Token) × List Token)
  | [] => none
  | t :: ts =>
    if t = punctuation '(' then listItems? (depth + 1) (seen ++ [t]) ts
    else if t = punctuation ')' then
      match depth with
      | 0 => some ([seen], ts)
      | depth + 1 => listItems? depth (seen ++ [t]) ts
    else if t = punctuation ',' ∧ depth = 0 then
      (listItems? 0 [] ts).map fun (items, rest) => (seen :: items, rest)
    else listItems? depth (seen ++ [t]) ts

/-- A list in parentheses with its items read by `item?`, and what follows the list. -/
def readTuple? {α : Type} (item? : List Token → Option α) (ts : List Token) :
    Option (List α × List Token) := do
  let (items, rest) ← listItems? 0 [] ts
  return (← items.mapM item?, rest)

/-- In a list with `least` inner parentheses open, or more, the tokens belong to one item. -/
def Passes (least : Nat) (ts : List Token) : Prop :=
  ∀ depth, least ≤ depth → ∀ seen rest,
    listItems? depth seen (ts ++ rest) = listItems? depth (seen ++ ts) rest

/-- Neither a comma nor a parenthesis. -/
def Token.isPlain : Token → Bool
  | punctuation c => c ≠ '(' && c ≠ ')' && c ≠ ','
  | _ => true

section
variable {least : Nat} {ts us : List Token}

theorem passes_nil : Passes least [] := by
  intro depth _ seen rest
  rw [List.nil_append, List.append_nil]

theorem Passes.append (ht : Passes least ts) (hu : Passes least us) : Passes least (ts ++ us) := by
  intro depth enough seen rest
  rw [List.append_assoc, ht depth enough, hu depth enough, List.append_assoc]

theorem Passes.mono (h : Passes 0 ts) : Passes least ts :=
  fun depth _ => h depth (Nat.zero_le depth)

theorem passes_plain {t : Token} (plain : t.isPlain = true) : Passes 0 [t] := by
  intro depth _ seen rest
  have other : t ≠ punctuation '(' ∧ t ≠ punctuation ')' ∧ t ≠ punctuation ',' := by
    refine ⟨?_, ?_, ?_⟩ <;> (rintro rfl; exact absurd plain (by decide))
  simp only [List.singleton_append, listItems?, other, false_and, if_false]

/-- Inner parentheses keep commas apart from the list. -/
theorem passes_comma : Passes 1 [punctuation ','] := by
  intro depth inside seen rest
  have nested : depth ≠ 0 := Nat.ne_of_gt inside
  simp [listItems?, nested]

theorem Passes.parentheses (h : Passes 1 ts) :
    Passes 0 (punctuation '(' :: ts ++ [punctuation ')']) := by
  intro depth _ seen rest
  have inner := h (depth + 1) (Nat.le_add_left 1 depth) (seen ++ [punctuation '('])
    (punctuation ')' :: rest)
  have opens : listItems? depth seen (punctuation '(' :: (ts ++ punctuation ')' :: rest)) =
      listItems? (depth + 1) (seen ++ [punctuation '(']) (ts ++ punctuation ')' :: rest) := by
    simp only [listItems?, if_true]
  have closes (seen : List Token) : listItems? (depth + 1) seen (punctuation ')' :: rest) =
      listItems? depth (seen ++ [punctuation ')']) rest := by
    simp [listItems?]
  rw [List.append_assoc, List.cons_append, List.singleton_append, opens, inner, closes]
  simp only [List.append_assoc, List.cons_append, List.nil_append]

end

section
variable {α : Type} {item : α → List Token} {items : List α}

/-- A list within parentheses of its own belongs to one item. -/
theorem passes_listTokens (whole : ∀ a ∈ items, Passes 1 (item a)) :
    Passes 1 (listTokens item items) := by
  unfold listTokens
  induction items with
  | nil => exact passes_nil
  | cons a items ih =>
    obtain ⟨first, later⟩ := List.forall_mem_cons.mp whole
    cases items with
    | nil => simpa using first
    | cons b items =>
      rw [List.map_cons, List.map_cons, List.intercalate_cons_cons, ← List.map_cons]
      exact (first.append passes_comma).append (ih later)

theorem passes_tupleTokens {token : α → Token} (plain : ∀ a ∈ items, (token a).isPlain = true) :
    Passes 0 (tupleTokens token items) :=
  (passes_listTokens fun a mem => (passes_plain (plain a mem)).mono).parentheses

/-- The items of a list are those that it was written of. -/
theorem listItems?_listTokens (whole : ∀ a ∈ items, Passes 0 (item a)) (nonempty : items ≠ [])
    (rest : List Token) :
    listItems? 0 [] (listTokens item items ++ punctuation ')' :: rest) =
      some (items.map item, rest) := by
  unfold listTokens
  -- The closing parenthesis ends the last item. A comma ends the others, as no item leaves an
  -- inner parenthesis open.
  induction items with
  | nil => exact absurd rfl nonempty
  | cons a items ih =>
    obtain ⟨first, later⟩ := List.forall_mem_cons.mp whole
    cases items with
    | nil =>
      have closes : listItems? 0 (item a) (punctuation ')' :: rest) = some ([item a], rest) := by
        simp [listItems?]
      simp only [List.map_cons, List.map_nil, List.intercalate_singleton]
      rw [first 0 (Nat.le_refl 0), List.nil_append, closes]
    | cons b items =>
      have more := ih later (List.cons_ne_nil b items)
      have separates (ts : List Token) : listItems? 0 (item a) (punctuation ',' :: ts) =
          (listItems? 0 [] ts).map fun (items, rest) => (item a :: items, rest) := by
        simp [listItems?]
      rw [List.map_cons, List.map_cons, List.intercalate_cons_cons, ← List.map_cons]
      rw [List.append_assoc, List.append_assoc, first 0 (Nat.le_refl 0), List.nil_append,
        List.singleton_append, separates, more]
      rfl

theorem readTuple?_listTokens {item? : List Token → Option α}
    (read : ∀ a, item? (item a) = some a) (whole : ∀ a ∈ items, Passes 0 (item a))
    (nonempty : items ≠ []) (rest : List Token) :
    readTuple? item? (listTokens item items ++ punctuation ')' :: rest) = some (items, rest) := by
  simp only [readTuple?, listItems?_listTokens whole nonempty, mapM_map_eq_some read,
    Option.bind_eq_bind, Option.bind_some]
  rfl

end

end ModelSql.Sql
