import ModelSql.Json.Printer
import ModelSql.Json.Reader
/-!
# What is printed is read

The reader takes the characters of a printed value from the front of a text, and
leaves what comes after them. Numbers are left out: a number keeps any spelling,
and no model, field, type or setting is written with one.

* `Json.readString?_quote`: a string is read as it was, whatever its characters;
* `Json.IsRead`, `Json.Numberless.isRead`: a value is read as it was, with calls no
  deeper than twice the length of its characters;
* `Json.parse?_render`: the text of a value is a text of that value.
-/

namespace ModelSql.Json

theorem skipBlanks_cons {c : Char} (visible : isBlank c = false) (rest : List Char) :
    skipBlanks (c :: rest) = c :: rest := by
  simp [skipBlanks, visible]

/-! ### Strings -/

theorem hexValue?_hexDigit {n : Nat} (small : n < 16) :
    Text.hexValue? (Text.hexDigit n) = some n := by
  revert n
  decide

theorem readPieces?_hexDigits {n : Nat} (small : n < 65536) (rest : List Char) :
    readPieces? ('\\' :: 'u' :: (Text.hexDigits 4 n ++ rest)) =
      (readPieces? rest).map fun (pieces, rest) => (.unit n :: pieces, rest) := by
  have digit (m : Nat) : Text.hexValue? (Text.hexDigit (m % 16)) = some (m % 16) :=
    hexValue?_hexDigit (Nat.mod_lt m (by decide))
  have value : ((n / 16 / 16 / 16 % 16 * 16 + n / 16 / 16 % 16) * 16 + n / 16 % 16) * 16 + n % 16
      = n := by omega
  simp only [Text.hexDigits, List.nil_append, List.cons_append, readPieces?, digit,
    Option.bind_eq_bind, Option.bind_some, value]
  cases readPieces? rest <;> rfl

/-- How a character of a string is read once it is printed. -/
def Piece.printed (c : Char) : Piece :=
  if escapeLetter? c = none ∧ c < ' ' then .unit c.toNat else .char c

theorem toNat_lt_of_control {c : Char} (control : c < ' ') : c.toNat < 32 := control

/-- One letter after a backslash stands for one character. -/
theorem readPieces?_escaped {letter c : Char} (h : escaped? letter = some c) (rest : List Char) :
    readPieces? ('\\' :: letter :: rest) =
      (readPieces? rest).map fun (pieces, rest) => (.char c :: pieces, rest) := by
  have notUnit : letter ≠ 'u' := by
    rintro rfl
    simp [escaped?] at h
  have step : readPieces? ('\\' :: letter :: rest) =
      (readPieces? rest).bind fun (pieces, rest) => some (.char c :: pieces, rest) := by
    simp [readPieces?, notUnit, h]
  rw [step]
  cases readPieces? rest <;> rfl

theorem escaped?_escapeLetter {c letter : Char} (h : escapeLetter? c = some letter) :
    escaped? letter = some c := by
  unfold escapeLetter? at h
  split at h <;> cases h <;> rfl

theorem readPieces?_escape (c : Char) (rest : List Char) :
    readPieces? (escape c ++ rest) =
      (readPieces? rest).map fun (pieces, rest) => (.printed c :: pieces, rest) := by
  unfold escape Piece.printed
  cases short : escapeLetter? c with
  | some letter =>
    simp only [reduceCtorEq, false_and, if_false]
    exact readPieces?_escaped (escaped?_escapeLetter short) rest
  | none =>
    simp only [true_and]
    by_cases control : c < ' '
    · rw [if_pos control, if_pos control]
      have small : c.toNat < 65536 := by
        have := toNat_lt_of_control control
        omega
      exact readPieces?_hexDigits small rest
    · have notBackslash : c ≠ '\\' := by
        rintro rfl
        cases short
      have notQuote : c ≠ '"' := by
        rintro rfl
        cases short
      rw [if_neg control, if_neg control, List.singleton_append, readPieces?, if_neg control]
      · exact notQuote
      · exact fun _ _ _ _ _ own _ => notBackslash own
      · exact fun _ _ own _ => notBackslash own

theorem readPieces?_flatMap (text rest : List Char) :
    readPieces? (text.flatMap escape ++ '"' :: rest) = some (text.map .printed, rest) := by
  induction text with
  | nil => rfl
  | cons c text ih =>
    rw [List.flatMap_cons, List.append_assoc, readPieces?_escape, ih]
    rfl

theorem charactersOf?_printed (text : List Char) :
    charactersOf? (text.map .printed) = some text := by
  induction text with
  | nil => rfl
  | cons c text ih =>
    rw [List.map_cons, Piece.printed]
    split
    case isTrue control =>
      have small := toNat_lt_of_control control.2
      have high : isHighSurrogate c.toNat = false := by simp [isHighSurrogate]; omega
      have low : isLowSurrogate c.toNat = false := by simp [isLowSurrogate]; omega
      rw [charactersOf?.eq_def]
      simp [high, low, ih, Char.ofNat_toNat]
    case isFalse =>
      simp [charactersOf?, ih]

theorem quote_eq_cons (text : Option String) : quote text = '"' :: (quote text).tail := by
  cases text <;> rfl

theorem readString?_quote (text : Option String) (rest : List Char) :
    readString? ((quote text).tail ++ rest) = some (text, rest) := by
  unfold readString?
  cases text with
  | some text =>
    have body : (quote (some text)).tail ++ rest = text.toList.flatMap escape ++ '"' :: rest := by
      simp [quote]
    rw [body, readPieces?_flatMap]
    simp [charactersOf?_printed]
  | none =>
    have body : (quote none).tail ++ rest =
        '\\' :: 'u' :: (Text.hexDigits 4 0xD800 ++ '"' :: rest) := by simp [quote]
    rw [body, readPieces?_hexDigits (by decide)]
    rfl

theorem readName?_quote (name : Option String) (rest : List Char) :
    readName? (quote name ++ ':' :: rest) = some (name, rest) := by
  rw [quote_eq_cons]
  simp [readName?, skipBlanks, isBlank, readString?_quote]

/-! ### Values -/

/-- A value without a number anywhere in it. -/
inductive Numberless : Json → Prop
  | null : Numberless .null
  | bool (b : Bool) : Numberless (.bool b)
  | string (text : Option String) : Numberless (.string text)
  | array {items : List Json} : (∀ item ∈ items, Numberless item) → Numberless (.array items)
  | object {members : List (Option String × Json)} :
      (∀ member ∈ members, Numberless member.2) → Numberless (.object members)

/-- A value starts with a character that is neither blank nor a closing bracket. -/
theorem Numberless.characters_eq_cons {v : Json} (h : Numberless v) :
    ∃ c rest, v.characters = c :: rest ∧ isBlank c = false ∧ c ≠ ']' := by
  cases h with
  | null => exact ⟨'n', "ull".toList, by rw [characters]; rfl, by decide, by decide⟩
  | bool b =>
    cases b with
    | true => exact ⟨'t', "rue".toList, by rw [characters]; rfl, by decide, by decide⟩
    | false => exact ⟨'f', "alse".toList, by rw [characters]; rfl, by decide, by decide⟩
  | array => exact ⟨'[', _, by rw [characters], by decide, by decide⟩
  | object => exact ⟨'\x7b', _, by rw [characters], by decide, by decide⟩
  | string text =>
    exact ⟨'"', (quote text).tail, by rw [characters, ← quote_eq_cons], by decide, by decide⟩

/-- The reader takes the value from the front of every text that starts with its characters. -/
def IsRead (v : Json) : Prop :=
  ∀ fuel rest, 2 * v.characters.length ≤ fuel →
    readValue? (fuel + 1) (v.characters ++ rest) = some (v, rest)

theorem readItems?_itemCharacters {items : List Json} (some_item : items ≠ [])
    (read : ∀ item ∈ items, IsRead item) (fuel : Nat) (rest : List Char)
    (enough : 2 * (itemCharacters items).length ≤ fuel) :
    readItems? fuel (itemCharacters items ++ rest) = some (items, rest) := by
  induction items generalizing fuel with
  | nil => exact absurd rfl some_item
  | cons item items ih =>
    obtain ⟨first, later⟩ := List.forall_mem_cons.mp read
    cases items with
    | nil =>
      simp only [itemCharacters, List.length_append, List.length_singleton] at enough
      obtain ⟨fuel, rfl⟩ : ∃ n, fuel = n + 2 := ⟨fuel - 2, by omega⟩
      have value := first fuel (']' :: rest) (by omega)
      simp [itemCharacters, readItems?, value, skipBlanks, isBlank]
    | cons next items =>
      simp only [itemCharacters, List.length_append, List.length_cons] at enough
      obtain ⟨fuel, rfl⟩ : ∃ n, fuel = n + 2 := ⟨fuel - 2, by omega⟩
      have value := first fuel (',' :: (itemCharacters (next :: items) ++ rest)) (by omega)
      have others := ih (List.cons_ne_nil _ _) later (fuel + 1) (by omega)
      rw [itemCharacters, List.append_assoc, List.cons_append, readItems?, value]
      · simp [skipBlanks, isBlank, others]
      · simp

theorem readMembers?_memberCharacters {members : List (Option String × Json)}
    (some_member : members ≠ []) (read : ∀ member ∈ members, IsRead member.2) (fuel : Nat)
    (rest : List Char) (enough : 2 * (memberCharacters members).length ≤ fuel) :
    readMembers? fuel (memberCharacters members ++ rest) = some (members, rest) := by
  induction members generalizing fuel with
  | nil => exact absurd rfl some_member
  | cons member members ih =>
    obtain ⟨name, v⟩ := member
    obtain ⟨first, later⟩ := List.forall_mem_cons.mp read
    change IsRead v at first
    cases members with
    | nil =>
      simp only [memberCharacters, List.length_append, List.length_cons] at enough
      obtain ⟨fuel, rfl⟩ : ∃ n, fuel = n + 2 := ⟨fuel - 2, by omega⟩
      have value := first fuel ('\x7d' :: rest) (by omega)
      simp [memberCharacters, readMembers?, readName?_quote, value, skipBlanks, isBlank]
    | cons next members =>
      simp only [memberCharacters, List.length_append, List.length_cons] at enough
      obtain ⟨fuel, rfl⟩ : ∃ n, fuel = n + 2 := ⟨fuel - 2, by omega⟩
      have value := first fuel (',' :: (memberCharacters (next :: members) ++ rest)) (by omega)
      have others := ih (List.cons_ne_nil _ _) later (fuel + 1) (by omega)
      rw [memberCharacters, List.append_assoc, List.cons_append, List.append_assoc,
        List.cons_append, readMembers?, readName?_quote]
      · simp [value, skipBlanks, isBlank, others]
      · simp

theorem isRead_array {items : List Json} (numberless : ∀ item ∈ items, Numberless item)
    (read : ∀ item ∈ items, IsRead item) : IsRead (.array items) := by
  intro fuel rest enough
  simp only [characters, List.length_cons] at enough
  cases items with
  | nil => simp [characters, itemCharacters, readValue?, skipBlanks, isBlank]
  | cons item items =>
    have inner := readItems?_itemCharacters (List.cons_ne_nil item items) read fuel rest (by omega)
    -- An item follows the bracket, so the array is not taken for the empty one.
    obtain ⟨c, others, starts, visible, notClosing⟩ := (numberless item (by simp)).characters_eq_cons
    obtain ⟨later, begins⟩ : ∃ later, itemCharacters (item :: items) = c :: later := by
      cases items <;> simp [itemCharacters, starts]
    rw [begins, List.cons_append] at inner
    rw [characters, begins, List.cons_append, List.cons_append]
    simp only [readValue?, skipBlanks_cons (c := '[') rfl, skipBlanks_cons visible, inner,
      Option.map_some]
    split
    case h_1 closed => exact absurd (List.cons.inj closed).1 notClosing
    case h_2 => rfl

theorem isRead_object {members : List (Option String × Json)}
    (read : ∀ member ∈ members, IsRead member.2) : IsRead (.object members) := by
  intro fuel rest enough
  simp only [characters, List.length_cons] at enough
  cases members with
  | nil => simp [characters, memberCharacters, readValue?, skipBlanks, isBlank]
  | cons member members =>
    have inner :=
      readMembers?_memberCharacters (List.cons_ne_nil member members) read fuel rest (by omega)
    -- The name of a member follows the brace, so the object is not taken for the empty one.
    obtain ⟨later, begins⟩ : ∃ later, memberCharacters (member :: members) = '"' :: later := by
      cases members with
      | nil => exact ⟨_, by rw [memberCharacters, quote_eq_cons, List.cons_append]⟩
      | cons => exact ⟨_, by rw [memberCharacters, quote_eq_cons, List.cons_append]; simp⟩
    rw [begins, List.cons_append] at inner
    rw [characters, begins, List.cons_append, List.cons_append]
    simp only [readValue?, skipBlanks_cons (c := '\x7b') rfl, skipBlanks_cons (c := '"') rfl, inner,
      Option.map_some]
    split
    case h_1 closed => exact absurd (List.cons.inj closed).1 (by decide)
    case h_2 => rfl

theorem Numberless.isRead {v : Json} (h : Numberless v) : IsRead v := by
  induction h with
  | null =>
    intro fuel rest _
    simp [characters, readValue?, skipBlanks, isBlank]
  | bool b =>
    intro fuel rest _
    cases b <;> simp [characters, readValue?, skipBlanks, isBlank]
  | string text =>
    intro fuel rest _
    rw [characters, quote_eq_cons, List.cons_append]
    simp [readValue?, skipBlanks_cons (c := '"') rfl, readString?_quote]
  | array numberless read => exact isRead_array numberless read
  | object _ read => exact isRead_object read

theorem parse?_render {v : Json} (h : Numberless v) : parse? v.render = some v := by
  have read := h.isRead (2 * v.characters.length + 1) [] (by omega)
  rw [List.append_nil] at read
  simp [parse?, render, read, skipBlanks]

end ModelSql.Json
