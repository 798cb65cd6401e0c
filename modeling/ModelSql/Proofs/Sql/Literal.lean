import ModelSql.Proofs.Sql.Quotation
import ModelSql.Proofs.Sql.SearchCondition
/-!
# Reading literals back

The literals that values are shown as have no tags: a text is told from a number, a keyword or
a run of bytes by its first characters alone. A reader of literals gets every value back that is
not a floating-point number, and takes no more of a text than was written for the value.

* `Sql.readLiteral?`: the literal at the beginning of a text, and the rest;
* `Value.literals_read_back`: what is read is what was shown.
-/

namespace ModelSql

namespace Sql

/-- The integer that digits and a sign stand for, if 64 bits hold it. -/
def integer? (negative : Bool) (digits : List Char) : Option Value :=
  let magnitude : Int := Nat.ofDigitChars 10 digits 0
  let n := if negative then -magnitude else magnitude
  if digits ≠ [] ∧ digits.all Char.isDigit ∧
      Int64.minValue.toInt ≤ n ∧ n ≤ Int64.maxValue.toInt then
    some (.int (Int64.ofInt n))
  else none

/-- The bytes up to the closing quote, two hexadecimal digits each, and what follows it. -/
def bytesUpToQuote? : List Char → Option (List UInt8 × List Char)
  | [] => none
  | [c] => if c = '\'' then some ([], []) else none
  | c :: d :: text =>
    if c = '\'' then some ([], d :: text)
    else
      match Text.hexValue? c, Text.hexValue? d with
      | some high, some low =>
        (bytesUpToQuote? text).map fun (bytes, rest) =>
          (UInt8.ofNat (16 * high + low) :: bytes, rest)
      | _, _ => none

/-- The bytes in quotes that some characters begin with. -/
def blob? : List Char → Option (Value × List Char)
  | [] => none
  | c :: text =>
    if c = '\'' then (bytesUpToQuote? text).map fun (bytes, rest) => (.blob bytes, rest) else none

/-- The literal that begins with a word: a number, a keyword or the mark of bytes. -/
def wordLiteral? (word rest : List Char) : Option (Value × List Char) :=
  if word.all Char.isDigit then (integer? false word).map (·, rest)
  else if isKeyword "NULL" (String.ofList word) then some (.null, rest)
  else if isKeyword "TRUE" (String.ofList word) then some (.bool true, rest)
  else if isKeyword "FALSE" (String.ofList word) then some (.bool false, rest)
  else if isKeyword "X" (String.ofList word) then blob? rest
  else none

/-- The literal that some characters begin with. A word goes on as long as there are letters and
digits. -/
def literal? : List Char → Option (Value × List Char)
  | [] => none
  | c :: text =>
    if c = '\'' then
      (Text.upToClosing? '\'' text).map fun (inside, rest) => (.text (String.ofList inside), rest)
    else if c = '-' then
      (integer? true (text.takeWhile Char.isAlphanum)).map (·, text.dropWhile Char.isAlphanum)
    else if c = '+' then
      (integer? false (text.takeWhile Char.isAlphanum)).map (·, text.dropWhile Char.isAlphanum)
    else
      wordLiteral? ((c :: text).takeWhile Char.isAlphanum) ((c :: text).dropWhile Char.isAlphanum)

/-- The value of the literal that a text begins with, and what follows it. -/
def readLiteral? (text : String) : Option (Value × String) :=
  (literal? text.toList).map fun (v, rest) => (v, String.ofList rest)

/-- Neither a letter nor a digit goes on with a word. -/
def EndsWord (rest : List Char) : Prop := ∀ c, rest.head? = some c → c.isAlphanum = false

/-- A literal ends where its word does, and its closing quote stands alone. -/
def EndsLiteral (rest : List Char) : Prop := EndsWord rest ∧ rest.head? ≠ some '\''

/-! ## Words and numbers -/

section
variable {rest : List Char}

theorem takeWhile_word {word : List Char} (inside : word.all Char.isAlphanum = true)
    (ends : EndsWord rest) :
    (word ++ rest).takeWhile Char.isAlphanum = word ∧
      (word ++ rest).dropWhile Char.isAlphanum = rest := by
  rw [List.all_eq_true] at inside
  rw [List.takeWhile_append_of_pos inside, List.dropWhile_append_of_pos inside]
  cases rest with
  | nil => simp
  | cons c rest =>
    have stops := ends c rfl
    simp [stops]

/-- A word is read as far as it goes. -/
theorem literal?_word {c : Char} {word : List Char}
    (inside : (c :: word).all Char.isAlphanum = true) (ends : EndsWord rest) :
    literal? (c :: word ++ rest) = wordLiteral? (c :: word) rest := by
  obtain ⟨taken, left⟩ := takeWhile_word inside ends
  have visible : c ≠ '\'' ∧ c ≠ '-' ∧ c ≠ '+' := by
    have own := List.all_eq_true.mp inside c List.mem_cons_self
    refine ⟨?_, ?_, ?_⟩ <;> rintro rfl <;> revert own <;> decide
  rw [List.cons_append] at taken left ⊢
  rw [literal?, if_neg visible.1, if_neg visible.2.1, if_neg visible.2.2, taken, left]

theorem all_isDigit_toDigits (n : Nat) : (Nat.toDigits 10 n).all Char.isDigit = true :=
  List.all_eq_true.mpr fun _ mem => Nat.isDigit_of_mem_toDigits (by decide) (by decide) mem

theorem all_isAlphanum_toDigits (n : Nat) : (Nat.toDigits 10 n).all Char.isAlphanum = true := by
  rw [List.all_eq_true]
  intro c mem
  have digit := List.all_eq_true.mp (all_isDigit_toDigits n) c mem
  rw [Char.isAlphanum, digit, Bool.or_true]

theorem integer?_toDigits {negative : Bool} {n : Int64} (sign : negative = decide (n.toInt < 0)) :
    integer? negative (Nat.toDigits 10 n.toInt.natAbs) = some (.int n) := by
  have signed : (if negative then -(n.toInt.natAbs : Int) else n.toInt.natAbs) = n.toInt := by
    rw [sign]
    by_cases below : n.toInt < 0
    · rw [if_pos (decide_eq_true below)]
      omega
    · rw [if_neg (by simpa using below)]
      omega
  rw [integer?, Nat.ofDigitChars_ten_toDigits]
  simp only [signed]
  rw [if_pos ⟨Nat.toDigits_ne_nil, all_isDigit_toDigits _, n.minValue_le_toInt, n.toInt_le⟩, Int64.ofInt_toInt]

/-- The characters of an integer: its sign, if it is negative, and its digits. -/
theorem toList_toString (n : Int) :
    (toString n).toList =
      if n < 0 then '-' :: Nat.toDigits 10 n.natAbs else Nat.toDigits 10 n.natAbs := by
  rw [Int.toString_eq_repr, Int.repr_eq_if]
  by_cases negative : n < 0
  · have magnitude : (-n).toNat = n.natAbs := by omega
    rw [if_neg (by omega), if_pos negative, magnitude, String.toList_append, Nat.toList_repr]
    rfl
  · have magnitude : n.toNat = n.natAbs := by omega
    rw [if_pos (by omega), if_neg negative, magnitude, Nat.toList_repr]

theorem literal?_int (n : Int64) (ends : EndsWord rest) :
    literal? ((toString n.toInt).toList ++ rest) = some (.int n, rest) := by
  have inside := all_isAlphanum_toDigits n.toInt.natAbs
  rw [toList_toString]
  split
  · rename_i negative
    obtain ⟨taken, left⟩ := takeWhile_word inside ends
    rw [List.cons_append, literal?, if_neg (by decide), if_pos rfl, taken, left,
      integer?_toDigits (by simp [negative])]
    rfl
  · rename_i positive
    have read : integer? false (Nat.toDigits 10 n.toInt.natAbs) = some (.int n) :=
      integer?_toDigits (by simp [positive])
    have digits := all_isDigit_toDigits n.toInt.natAbs
    cases written : Nat.toDigits 10 n.toInt.natAbs with
    | nil => exact absurd written Nat.toDigits_ne_nil
    | cons c word =>
      rw [written] at inside read digits
      rw [literal?_word inside ends, wordLiteral?, if_pos digits, read]
      rfl

/-! ## Bytes -/

theorem hexValue?_upper {n : Nat} (small : n < 16) :
    Text.hexValue? (Text.hexDigit n).toUpper = some n ∧ (Text.hexDigit n).toUpper ≠ '\'' := by
  revert n
  decide

theorem bytesUpToQuote?_upperHex (bytes : List UInt8) (rest : List Char) :
    bytesUpToQuote? ((bytes.flatMap fun b => (Text.hexDigits 2 b.toNat).map Char.toUpper) ++
      '\'' :: rest) = some (bytes, rest) := by
  induction bytes with
  | nil => cases rest <;> simp [bytesUpToQuote?]
  | cons b bytes ih =>
    obtain ⟨high, visible⟩ := hexValue?_upper (Nat.mod_lt (b.toNat / 16) (by decide))
    obtain ⟨low, -⟩ := hexValue?_upper (Nat.mod_lt b.toNat (by decide))
    have value : 16 * (b.toNat / 16 % 16) + b.toNat % 16 = b.toNat := by
      have := b.toNat_lt
      omega
    have written : (Text.hexDigits 2 b.toNat).map Char.toUpper =
        [(Text.hexDigit (b.toNat / 16 % 16)).toUpper, (Text.hexDigit (b.toNat % 16)).toUpper] := rfl
    rw [List.flatMap_cons, written]
    simp only [List.cons_append, List.nil_append, bytesUpToQuote?, if_neg visible, high, low, ih,
      Option.map_some, value, UInt8.ofNat_toNat]

/-! ## Values -/

theorem literal?_null (ends : EndsWord rest) :
    literal? (Value.null.toLiteral.toList ++ rest) = some (.null, rest) := by
  have written : Value.null.toLiteral.toList = ['N', 'U', 'L', 'L'] := rfl
  rw [written, literal?_word (by decide) ends]
  simp [wordLiteral?, isKeyword]

theorem literal?_bool (b : Bool) (ends : EndsWord rest) :
    literal? ((Value.bool b).toLiteral.toList ++ rest) = some (.bool b, rest) := by
  cases b with
  | true =>
    have written : (Value.bool true).toLiteral.toList = ['T', 'R', 'U', 'E'] := rfl
    rw [written, literal?_word (by decide) ends]
    simp [wordLiteral?, isKeyword]
  | false =>
    have written : (Value.bool false).toLiteral.toList = ['F', 'A', 'L', 'S', 'E'] := rfl
    rw [written, literal?_word (by decide) ends]
    simp [wordLiteral?, isKeyword]

theorem literal?_blob (bytes : List UInt8) :
    literal? ((Value.blob bytes).toLiteral.toList ++ rest) = some (.blob bytes, rest) := by
  have written : (Value.blob bytes).toLiteral.toList ++ rest = ['X'] ++ '\'' ::
      ((bytes.flatMap fun b => (Text.hexDigits 2 b.toNat).map Char.toUpper) ++ '\'' :: rest) := by
    simp [Value.toLiteral, Text.upperHex]
  have read := bytesUpToQuote?_upperHex bytes rest
  rw [written, literal?_word (by decide) (by simp [EndsWord])]
  simp [wordLiteral?, isKeyword, blob?, read]

theorem literal?_text (text : String) (ends : rest.head? ≠ some '\'') :
    literal? ((Value.text text).toLiteral.toList ++ rest) = some (.text text, rest) := by
  have written : (Value.text text).toLiteral.toList ++ rest =
      '\'' :: (Text.doubling '\'' text.toList ++ '\'' :: rest) := by
    simp [Value.toLiteral, Text.literal, Text.enclose]
  rw [written, literal?, if_pos rfl, Text.upToClosing?_doubling text.toList ends]
  simp

/-- The literal of a value is read back, and nothing after it. -/
theorem literal?_toLiteral {v : Value} (exact : ∀ x, v ≠ .float x) (ends : EndsLiteral rest) :
    literal? (v.toLiteral.toList ++ rest) = some (v, rest) := by
  cases v with
  | null => exact literal?_null ends.1
  | bool b => exact literal?_bool b ends.1
  | int n => exact literal?_int n ends.1
  | float x => exact absurd rfl (exact x)
  | text s => exact literal?_text s ends.2
  | blob bytes => exact literal?_blob bytes

end

end Sql

/-- A value that is not a floating-point number is read back from the literal that it is shown as,
and exactly that literal is taken from the text. So no two of these values share a literal, and no
literal of one begins a text that begins with the literal of another. -/
theorem Value.literals_read_back {v : Value} (exact : ∀ x, v ≠ .float x) {rest : String}
    (ends : Sql.EndsLiteral rest.toList) :
    Sql.readLiteral? (v.toLiteral ++ rest) = some (v, rest) ∧
    (∀ v' : Value, (∀ x, v' ≠ .float x) → v.toLiteral = v'.toLiteral → v = v') ∧
    ∀ (v' : Value) (rest' : String), (∀ x, v' ≠ .float x) → Sql.EndsLiteral rest'.toList →
      v.toLiteral ++ rest = v'.toLiteral ++ rest' → v = v' ∧ rest = rest' := by
  have reads {v : Value} {rest : String} (exact : ∀ x, v ≠ .float x)
      (ends : Sql.EndsLiteral rest.toList) :
      Sql.readLiteral? (v.toLiteral ++ rest) = some (v, rest) := by
    rw [Sql.readLiteral?, String.toList_append, Sql.literal?_toLiteral exact ends]
    simp
  have determined (v' : Value) (rest' : String) (exact' : ∀ x, v' ≠ .float x)
      (ends' : Sql.EndsLiteral rest'.toList) (same : v.toLiteral ++ rest = v'.toLiteral ++ rest') :
      v = v' ∧ rest = rest' := by
    have read := reads exact ends
    rw [same, reads exact' ends'] at read
    cases read
    exact ⟨rfl, rfl⟩
  refine ⟨reads exact ends, ?_, determined⟩
  intro v' exact' same
  exact (determined v' rest exact' ends (congrArg (· ++ rest) same)).1

theorem Value.literals_read_back_least :
    (∀ x, Value.int Int64.minValue ≠ .float x) ∧ Sql.EndsLiteral ", X''".toList ∧
    Sql.readLiteral? "-9223372036854775808, X''" = some (.int Int64.minValue, ", X''") := by
  have exact : ∀ x, Value.int Int64.minValue ≠ .float x := fun x => nofun
  have ends : Sql.EndsLiteral ", X''".toList := by
    refine ⟨fun c first => ?_, by decide⟩
    cases first
    decide
  exact ⟨exact, ends, (literals_read_back exact ends).1⟩

-- A floating-point number can share its literal with an integer.
example : (Value.float ⟨0x4014000000000000⟩).toLiteral = (Value.int 5).toLiteral := by
  decide +kernel

end ModelSql
