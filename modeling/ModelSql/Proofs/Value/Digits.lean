import Mathlib.Data.Char
import Mathlib.Tactic.IntervalCases
import ModelSql.Value.Calendar
/-!
# The order of digits

Texts are compared by their bytes. Numbers written with the same width come in
the order of their digits, whatever follows them, and so do fractions that are
written with as many digits as they need.

* `padded_precedes`: numbers of one width;
* `fractionText_lt`: fractions of a second, before anything that sorts below a point;
* `bytes_lt_of_lt`: characters below 128 are compared as their bytes are.
-/

namespace ModelSql.Calendar

/-! ## Texts that differ before either ends -/

/-- The first comes before the second, with anything after the two. -/
def Precedes (xs ys : List Char) : Prop := ∀ rest rest' : List Char, xs ++ rest < ys ++ rest'

namespace Precedes

variable {xs ys : List Char}

theorem of_head {c d : Char} (less : c < d) (xs ys : List Char) : Precedes (c :: xs) (d :: ys) :=
  fun _ _ => List.cons_lt_cons_iff.mpr (.inl less)

theorem append_left (before : List Char) (h : Precedes xs ys) :
    Precedes (before ++ xs) (before ++ ys) := fun rest rest' => by
  rw [List.append_assoc, List.append_assoc]
  exact List.append_left_lt (h rest rest')

theorem cons (c : Char) (h : Precedes xs ys) : Precedes (c :: xs) (c :: ys) :=
  h.append_left [c]

theorem append_first (h : Precedes xs ys) (zs : List Char) : Precedes (xs ++ zs) ys :=
  fun rest rest' => by
    rw [List.append_assoc]
    exact h _ rest'

theorem append_second (h : Precedes xs ys) (zs : List Char) : Precedes xs (ys ++ zs) :=
  fun rest rest' => by
    rw [List.append_assoc]
    exact h rest _

theorem append (h : Precedes xs ys) (zs zs' : List Char) : Precedes (xs ++ zs) (ys ++ zs') :=
  (h.append_first zs).append_second zs'

end Precedes

/-! ## Numbers of one width -/

theorem digitChar_lt {n m : Nat} (less : n < m) (bound : m < 10) : n.digitChar < m.digitChar := by
  rw [Char.lt_def, UInt32.lt_iff_toNat_lt]
  change n.digitChar.toNat < m.digitChar.toNat
  rw [Nat.toNat_digitChar_of_lt_ten (by omega), Nat.toNat_digitChar_of_lt_ten bound]
  omega

theorem padded_one {n : Nat} (bound : n < 10) : padded 1 n = [n.digitChar] := by
  simp [padded, Nat.toDigits_of_lt_base bound]

/-- The last digit comes off the end. -/
theorem padded_succ {w : Nat} (width : 1 ≤ w) (n : Nat) :
    padded (w + 1) n = padded w (n / 10) ++ [(n % 10).digitChar] := by
  by_cases small : n < 10
  · have zeros : List.replicate w '0' = List.replicate (w - 1) '0' ++ ['0'] := by
      rw [← List.replicate_succ', Nat.sub_add_cancel width]
    simp only [padded, Nat.div_eq_of_lt small, Nat.mod_eq_of_lt small, Nat.toDigits_zero,
      Nat.toDigits_of_lt_base small, List.length_singleton, Nat.add_sub_cancel]
    rw [zeros]
  · simp only [padded, Nat.toDigits_of_base_le (by decide : 1 < 10) (Nat.le_of_not_lt small),
      List.length_append, List.length_singleton, Nat.add_sub_add_right, List.append_assoc]

theorem padded_precedes {w n m : Nat} (width : 1 ≤ w) (less : n < m) (bound : m < 10 ^ w) :
    Precedes (padded w n) (padded w m) := by
  induction w, width using Nat.le_induction generalizing n m with
  | base =>
    rw [padded_one (by omega), padded_one bound]
    exact .of_head (digitChar_lt less bound) _ _
  | succ w width ih =>
    rw [padded_succ width, padded_succ width]
    have bound' : m / 10 < 10 ^ w := by rw [Nat.pow_succ] at bound; omega
    rcases Nat.lt_or_eq_of_le (Nat.div_le_div_right less.le) with lower | same
    · exact (ih lower bound').append _ _
    · rw [same]
      exact (Precedes.of_head (digitChar_lt (by omega) (by omega)) _ _).append_left _

/-- The digits of a number start with those of its quotient by a power of ten. -/
theorem padded_add {j : Nat} (width : 1 ≤ j) (k n : Nat) :
    ∃ tail, padded (j + k) n = padded j (n / 10 ^ k) ++ tail ∧ tail.length = k ∧
      ∀ c ∈ tail, '0' ≤ c := by
  induction k generalizing n with
  | zero => exact ⟨[], by simp⟩
  | succ k ih =>
    obtain ⟨tail, eq, length, digits⟩ := ih (n / 10)
    refine ⟨tail ++ [(n % 10).digitChar], ?_, by simp [length], ?_⟩
    · rw [← Nat.add_assoc, padded_succ (by omega), eq, Nat.div_div_eq_div_mul, ← Nat.pow_succ',
        List.append_assoc]
    · have last : '0' ≤ (n % 10).digitChar := by
        rcases Nat.eq_zero_or_pos (n % 10) with zero | pos
        · rw [zero]; decide
        · exact (digitChar_lt pos (Nat.mod_lt n (by decide))).le
      simpa [or_imp, forall_and] using ⟨digits, last⟩

/-! ## Fractions of a second -/

/-- A nonempty fraction has one, two or three groups of three digits, and the
digits that it leaves out are zeros. -/
theorem exists_groups {n : Nat} (pos : 0 < n) :
    ∃ g, 1 ≤ g ∧ g ≤ 3 ∧ 1000 ^ (3 - g) ∣ n ∧
      fractionText n = '.' :: padded (3 * g) (n / 1000 ^ (3 - g)) := by
  unfold fractionText
  rw [if_neg pos.ne']
  split
  · exact ⟨1, by decide, by decide, Nat.dvd_of_mod_eq_zero ‹_›, rfl⟩
  · split
    · exact ⟨2, by decide, by decide, Nat.dvd_of_mod_eq_zero ‹_›, rfl⟩
    · exact ⟨3, by decide, by decide, Nat.one_dvd n, by simp⟩

/-- With fewer groups, the digits are those of a longer fraction up to some place. -/
theorem padded_groups {k g : Nat} (pos : 1 ≤ k) (le : k ≤ g) (three : g ≤ 3) (n : Nat) :
    ∃ tail, padded (3 * g) (n / 1000 ^ (3 - g)) = padded (3 * k) (n / 1000 ^ (3 - k)) ++ tail ∧
      tail.length = 3 * (g - k) ∧ ∀ c ∈ tail, '0' ≤ c := by
  obtain ⟨tail, eq, length, digits⟩ :=
    padded_add (j := 3 * k) (by omega) (3 * (g - k)) (n / 1000 ^ (3 - g))
  have places : 1000 ^ (3 - g) * 10 ^ (3 * (g - k)) = 1000 ^ (3 - k) := by
    rw [Nat.pow_mul, ← Nat.pow_add]
    congr 1
    omega
  rw [Nat.div_div_eq_div_mul, places, ← Nat.mul_add, Nat.add_sub_cancel' le] at eq
  exact ⟨tail, eq, length, digits⟩

theorem groups_lt {n : Nat} (bound : n < secondLength) {k : Nat} (le : k ≤ 3) :
    n / 1000 ^ (3 - k) < 10 ^ (3 * k) := by
  apply Nat.div_lt_of_lt_mul
  have whole : 1000 ^ (3 - k) * 10 ^ (3 * k) = secondLength := by
    interval_cases k <;> rfl
  rwa [whole]

/-- What may follow a fraction: nothing, or something that sorts below the point and the digits. -/
def EndsFraction (rest : List Char) : Prop := ∀ c ∈ rest.head?, c < '.'

theorem EndsFraction.lt_cons {rest : List Char} (ends : EndsFraction rest) {c : Char}
    (above : '.' ≤ c) (xs : List Char) : rest < c :: xs := by
  cases rest with
  | nil => exact List.nil_lt_cons c xs
  | cons d ds => exact List.cons_lt_cons_iff.mpr (.inl ((ends d (by simp)).trans_le above))

/-- A smaller fraction sorts first, however many digits the two need. -/
theorem fractionText_lt {n m : Nat} (less : n < m) (bound : m < secondLength) {rest : List Char}
    (ends : EndsFraction rest) (rest' : List Char) :
    fractionText n ++ rest < fractionText m ++ rest' := by
  obtain ⟨h, h_pos, h_le, h_dvd, h_eq⟩ := exists_groups (Nat.zero_lt_of_lt less)
  rw [h_eq]
  rcases Nat.eq_zero_or_pos n with rfl | pos
  · exact ends.lt_cons le_rfl _
  obtain ⟨g, g_pos, g_le, -, g_eq⟩ := exists_groups pos
  rw [g_eq]
  -- The two are compared in the groups of the shorter one.
  rcases Nat.lt_or_ge g h with shorter | longer
  · obtain ⟨tail, eq, length, digits⟩ := padded_groups g_pos shorter.le h_le m
    have le : n / 1000 ^ (3 - g) ≤ m / 1000 ^ (3 - g) := Nat.div_le_div_right less.le
    rcases Nat.lt_or_eq_of_le le with lower | same
    · have first := padded_precedes (by omega) lower (groups_lt bound g_le)
      rw [eq]
      exact ((first.append_second tail).cons '.') rest rest'
    · rw [eq, same, List.cons_append, List.cons_append, List.append_assoc]
      cases tail with
      | nil => rw [List.length_nil] at length; omega
      | cons c cs =>
        have above : '.' ≤ c := le_trans (by decide) (digits c (by simp))
        exact List.cons_lt_cons_iff.mpr (.inr ⟨rfl, List.append_left_lt (ends.lt_cons above _)⟩)
  · obtain ⟨tail, eq, -, -⟩ := padded_groups h_pos longer g_le n
    have lower : n / 1000 ^ (3 - h) < m / 1000 ^ (3 - h) := by
      apply Nat.div_lt_of_lt_mul
      rwa [Nat.mul_div_cancel' h_dvd]
    have first := padded_precedes (by omega) lower (groups_lt bound h_le)
    rw [eq]
    exact ((first.append_first tail).cons '.') rest rest'

/-! ## Bytes -/

/-- The bytes that a text is stored and compared as. -/
def bytes (s : String) : List UInt8 := s.toByteArray.data.toList

/-- A character that is a byte of its own. -/
def IsAscii (c : Char) : Prop := c.toNat < 128

instance (c : Char) : Decidable (IsAscii c) := inferInstanceAs (Decidable (c.toNat < 128))

theorem bytes_ofList {cs : List Char} (ascii : ∀ c ∈ cs, IsAscii c) :
    bytes (String.ofList cs) = cs.map (·.val.toUInt8) := by
  rw [bytes, String.toByteArray_ofList, List.utf8Encode, List.toList_data_toByteArray]
  induction cs with
  | nil => rfl
  | cons c cs ih =>
    obtain ⟨first, others⟩ := List.forall_mem_cons.mp ascii
    have one : c.utf8Size = 1 := by
      rw [Char.utf8Size, if_pos]
      exact UInt32.le_iff_toNat_le.mpr (Nat.le_of_lt_succ first)
    rw [List.flatMap_cons, String.utf8EncodeChar_eq_singleton one, ih others]
    rfl

theorem IsAscii.toNat_byte {c : Char} (ascii : IsAscii c) : c.val.toUInt8.toNat = c.toNat := by
  rw [UInt32.toNat_toUInt8]
  exact Nat.mod_eq_of_lt (Nat.lt_trans ascii (by decide))

theorem padded_ascii {w n : Nat} : ∀ c ∈ padded w n, IsAscii c := by
  intro c mem
  rcases List.mem_append.mp mem with zero | digit
  · rw [List.eq_of_mem_replicate zero]
    decide
  · have between := Nat.isDigit_of_mem_toDigits (by decide) (by decide) digit
    simp only [Char.isDigit, Bool.and_eq_true, decide_eq_true_eq] at between
    exact Nat.lt_of_le_of_lt (UInt32.le_iff_toNat_le.mp between.2) (by decide)

theorem fractionText_ascii {n : Nat} : ∀ c ∈ fractionText n, IsAscii c := by
  unfold fractionText
  split_ifs
  · exact List.forall_mem_nil _
  all_goals exact List.forall_mem_cons.mpr ⟨by decide, padded_ascii⟩

/-- Characters below 128 are compared as their bytes are. -/
theorem bytes_lt_of_lt {xs ys : List Char} (ascii : ∀ c ∈ xs, IsAscii c)
    (ascii' : ∀ c ∈ ys, IsAscii c) (less : xs < ys) :
    bytes (String.ofList xs) < bytes (String.ofList ys) := by
  rw [bytes_ofList ascii, bytes_ofList ascii']
  induction less with
  | nil => exact List.nil_lt_cons _ _
  | cons _ ih =>
    exact List.cons_lt_cons_iff.mpr (.inr ⟨rfl, ih (List.forall_mem_cons.mp ascii).2
      (List.forall_mem_cons.mp ascii').2⟩)
  | rel lower =>
    refine List.cons_lt_cons_iff.mpr (.inl (UInt8.lt_iff_toNat_lt.mpr ?_))
    rw [(ascii _ (by simp)).toNat_byte, (ascii' _ (by simp)).toNat_byte]
    exact lower

end ModelSql.Calendar
