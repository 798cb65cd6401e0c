import Mathlib.Algebra.BigOperators.Intervals
import Mathlib.Algebra.Order.BigOperators.Group.Finset
import Mathlib.Data.Prod.Lex
import ModelSql.Proofs.Sql.SearchCondition
import ModelSql.Proofs.Value.Digits
import ModelSql.Value.Conversion
/-!
# The order of stored dates and times

A database that compares texts by their bytes puts dates and times in the order
of the time that has elapsed, for the years that are written with four digits
and no sign. A fraction is followed by nothing or by an offset, and both sort
below its digits.

* `Date.dayNumber`, `DateTime.moment`: elapsed time;
* `Date.trichotomy`, `TimeOfDay.trichotomy`, `DateTime.trichotomy`: of two
  different values, one is earlier and its text sorts first;
* `stored_texts_sort`: texts, values and the comparisons of a filter agree.
-/

namespace ModelSql

/-- What a comparison says of two points of a line. -/
def Comparison.relates {β : Type} [LinearOrder β] (c : Comparison) (x y : β) : Bool :=
  match c with
  | equal => x = y
  | notEqual => x ≠ y
  | greaterThan => y < x
  | greaterThanOrEqual => y ≤ x
  | lessThan => x < y
  | lessThanOrEqual => x ≤ y

/-- Values that an engine orders as two points lie compare as these do. -/
theorem Comparison.holds_eq_relates {β : Type} [LinearOrder β] {x y : β} {order : ValueOrder}
    {v w : Value} (left : v.isNull = false) (right : w.isNull = false)
    (agrees : order v w = compare x y) (c : Comparison) :
    c.holds order v w = .ofBool (c.relates x y) := by
  simp only [holds, left, right, agrees, Bool.or_self, Bool.false_eq_true, if_false]
  rcases lt_trichotomy x y with less | same | greater
  · cases c <;> simp [relates, compare_lt_iff_lt.mpr less, less, less.ne, less.le, less.not_gt,
      less.not_ge]
  · subst same
    cases c <;> simp [relates]
  · cases c <;> simp [relates, compare_gt_iff_gt.mpr greater, greater, greater.ne', greater.le,
      greater.not_gt, greater.not_ge]

namespace Calendar

/-- The engine orders texts by their bytes. -/
def ComparesBytes (order : ValueOrder) : Prop :=
  ∀ s t : String, order (.text s) (.text t) = compareOfLessAndEq (bytes s) (bytes t)

/-! ## Elapsed time -/

/-- The days of a year before one of its months. -/
def daysBefore (year : Int) (month : Nat) : Nat :=
  ∑ m ∈ Finset.Ico 1 month, daysInMonth year m

/-- The days from the start of year zero. -/
def Date.dayNumber (d : Date) : Nat :=
  (∑ year ∈ Finset.range d.year.toNat, daysBefore year 13) +
    (daysBefore d.year d.month + (d.day - 1))

def TimeOfDay.secondOfDay (t : TimeOfDay) : Nat := (t.hour * 60 + t.minute) * 60 + t.second

/-- The seconds from the start of year zero that are counted, and the nanoseconds
from the last of them. A leap second is not counted. -/
def DateTime.moment (t : DateTime) : ℕ ×ₗ ℕ :=
  toLex (t.date.dayNumber * 86400 + t.time.secondOfDay, t.time.nanosecond)

def UtcDateTime.moment (t : UtcDateTime) : ℕ ×ₗ ℕ := t.dateTime.moment

/-- A date that the calendar has, in a year written with four digits and no sign. -/
def Date.Sortable (d : Date) : Prop := d.Valid ∧ 0 ≤ d.year ∧ d.year ≤ 9999

def DateTime.Sortable (t : DateTime) : Prop := t.date.Sortable ∧ t.time.Valid

def UtcDateTime.Sortable (t : UtcDateTime) : Prop := t.dateTime.Sortable

instance (d : Date) : Decidable d.Sortable :=
  inferInstanceAs (Decidable ((1 ≤ d.month ∧ d.month ≤ 12 ∧ 1 ≤ d.day ∧
    d.day ≤ daysInMonth d.year d.month) ∧ 0 ≤ d.year ∧ d.year ≤ 9999))

instance (t : TimeOfDay) : Decidable t.Valid :=
  inferInstanceAs (Decidable (t.hour < 24 ∧ t.minute < 60 ∧ t.second < 60 ∧
    (t.nanosecond < secondLength ∨ t.second = 59 ∧ t.nanosecond < 2 * secondLength)))

instance (t : DateTime) : Decidable t.Sortable :=
  inferInstanceAs (Decidable (t.date.Sortable ∧ t.time.Valid))

/-! ## Dates -/

theorem daysBefore_mono (year : Int) {month month' : Nat} (le : month ≤ month') :
    daysBefore year month ≤ daysBefore year month' :=
  Finset.sum_le_sum_of_subset (Finset.Ico_subset_Ico_right le)

theorem daysInMonth_le (year : Int) (month : Nat) : daysInMonth year month ≤ 31 := by
  unfold daysInMonth
  split_ifs <;> decide

theorem yearText_eq {year : Int} (nonneg : 0 ≤ year) (four : year ≤ 9999) :
    yearText year = padded 4 year.natAbs := by
  rw [yearText, if_neg (not_lt.mpr nonneg), if_pos four]

namespace Date

variable {d e : Date}

/-- A day of a month comes before the months that follow. -/
theorem day_lt_month (valid : d.Valid) {month : Nat} (later : d.month < month) :
    daysBefore d.year d.month + (d.day - 1) < daysBefore d.year month := by
  obtain ⟨first, -, pos, last⟩ := valid
  calc
    daysBefore d.year d.month + (d.day - 1)
      < daysBefore d.year d.month + daysInMonth d.year d.month := by omega
    _ = daysBefore d.year (d.month + 1) := (Finset.sum_Ico_succ_top first _).symm
    _ ≤ daysBefore d.year month := daysBefore_mono d.year later

/-- Earlier by elapsed days, and first by the text, whatever follows the two. -/
structure Before (d e : Date) : Prop where
  earlier : d.dayNumber < e.dayNumber
  text : Precedes d.characters e.characters

theorem before_of_year (hd : d.Sortable) (he : e.Sortable) (less : d.year < e.year) :
    d.Before e := by
  obtain ⟨valid, nonneg, four⟩ := hd
  obtain ⟨-, nonneg', four'⟩ := he
  constructor
  · have days := day_lt_month valid (Nat.lt_succ_of_le valid.2.1)
    have year : (d.year.toNat : Int) = d.year := Int.toNat_of_nonneg nonneg
    calc
      d.dayNumber
        < (∑ year ∈ Finset.range d.year.toNat, daysBefore year 13) + daysBefore d.year 13 :=
          Nat.add_lt_add_left days _
      _ = ∑ year ∈ Finset.range (d.year.toNat + 1), daysBefore year 13 := by
          rw [Finset.sum_range_succ, year]
      _ ≤ ∑ year ∈ Finset.range e.year.toNat, daysBefore year 13 :=
          Finset.sum_le_sum_of_subset (Finset.range_subset_range.mpr (by omega))
      _ ≤ e.dayNumber := Nat.le_add_right _ _
  · rw [characters, characters, yearText_eq nonneg four, yearText_eq nonneg' four']
    have digits : Precedes (padded 4 d.year.natAbs) (padded 4 e.year.natAbs) :=
      padded_precedes (by decide) (by omega) (by omega)
    exact (digits.append _ _).append _ _

theorem before_of_month (hd : d.Valid) (he : e.Valid) (year : d.year = e.year)
    (less : d.month < e.month) : d.Before e := by
  constructor
  · have days := day_lt_month hd less
    simp only [dayNumber, ← year]
    omega
  · rw [characters, characters, year]
    have digits : Precedes (padded 2 d.month) (padded 2 e.month) :=
      padded_precedes (by decide) less (Nat.lt_of_le_of_lt he.2.1 (by decide))
    exact ((digits.cons '-').append_left _).append _ _

theorem before_of_day (hd : d.Valid) (he : e.Valid) (year : d.year = e.year)
    (month : d.month = e.month) (less : d.day < e.day) : d.Before e := by
  constructor
  · have pos := hd.2.2.1
    simp only [dayNumber, year, month]
    omega
  · rw [characters, characters, year, month]
    have digits : Precedes (padded 2 d.day) (padded 2 e.day) :=
      padded_precedes (by decide) less
        (Nat.lt_of_le_of_lt (he.2.2.2.trans (daysInMonth_le _ _)) (by decide))
    exact (digits.cons '-').append_left _

theorem trichotomy (hd : d.Sortable) (he : e.Sortable) : d = e ∨ d.Before e ∨ e.Before d := by
  rcases lt_trichotomy d.year e.year with less | year | greater
  · exact .inr (.inl (before_of_year hd he less))
  · rcases lt_trichotomy d.month e.month with less | month | greater
    · exact .inr (.inl (before_of_month hd.1 he.1 year less))
    · rcases lt_trichotomy d.day e.day with less | day | greater
      · exact .inr (.inl (before_of_day hd.1 he.1 year month less))
      · cases d; cases e; cases year; cases month; cases day
        exact .inl rfl
      · exact .inr (.inr (before_of_day he.1 hd.1 year.symm month.symm greater))
    · exact .inr (.inr (before_of_month he.1 hd.1 year.symm greater))
  · exact .inr (.inr (before_of_year he hd greater))

end Date

/-! ## Times of day -/

namespace TimeOfDay

variable {t u : TimeOfDay}

theorem secondOfDay_lt (valid : t.Valid) : t.secondOfDay < 86400 := by
  obtain ⟨hour, minute, second, -⟩ := valid
  unfold secondOfDay
  omega

/-- Earlier in the day, and first by the text, before anything that ends a fraction. -/
structure Before (t u : TimeOfDay) : Prop where
  earlier : toLex (t.secondOfDay, t.nanosecond) < toLex (u.secondOfDay, u.nanosecond)
  text : ∀ {rest : List Char}, EndsFraction rest → ∀ rest' : List Char,
    t.characters ++ rest < u.characters ++ rest'

theorem before_of_precedes (second : t.secondOfDay < u.secondOfDay)
    (text : Precedes t.characters u.characters) : t.Before u :=
  ⟨Prod.Lex.toLex_lt_toLex.mpr (.inl second), fun _ rest' => text _ rest'⟩

theorem before_of_hour (ht : t.Valid) (hu : u.Valid) (less : t.hour < u.hour) : t.Before u := by
  apply before_of_precedes
  · obtain ⟨-, minute, second, -⟩ := ht
    unfold secondOfDay
    omega
  · have digits : Precedes (padded 2 t.hour) (padded 2 u.hour) :=
      padded_precedes (by decide) less (hu.1.trans (by decide))
    exact ((digits.append _ _).append _ _).append _ _

theorem before_of_minute (ht : t.Valid) (hu : u.Valid) (hour : t.hour = u.hour)
    (less : t.minute < u.minute) : t.Before u := by
  apply before_of_precedes
  · have second := ht.2.2.1
    unfold secondOfDay
    omega
  · rw [characters, characters, hour]
    have digits : Precedes (padded 2 t.minute) (padded 2 u.minute) :=
      padded_precedes (by decide) less (hu.2.1.trans (by decide))
    exact (((digits.cons ':').append_left _).append _ _).append _ _

/-- The second as it is written: a leap second is the sixtieth. -/
theorem written_second (valid : t.Valid) :
    t.second + t.nanosecond / secondLength ≤ 60 ∧
      (t.second < 59 → t.nanosecond / secondLength = 0) := by
  obtain ⟨-, -, second, plain | ⟨last, leap⟩⟩ := valid
  · rw [Nat.div_eq_of_lt plain]
    omega
  · have carry : t.nanosecond / secondLength < 2 := Nat.div_lt_of_lt_mul (by omega)
    omega

theorem precedes_of_written (hu : u.Valid) (hour : t.hour = u.hour) (minute : t.minute = u.minute)
    (less : t.second + t.nanosecond / secondLength < u.second + u.nanosecond / secondLength) :
    Precedes t.characters u.characters := by
  rw [characters, characters, hour, minute]
  have digits := padded_precedes (w := 2) (by decide) less
    (Nat.lt_of_le_of_lt (written_second hu).1 (by decide))
  exact ((digits.cons ':').append_left _).append _ _

theorem before_of_second (ht : t.Valid) (hu : u.Valid) (hour : t.hour = u.hour)
    (minute : t.minute = u.minute) (less : t.second < u.second) : t.Before u := by
  apply before_of_precedes
  · unfold secondOfDay
    omega
  · have plain := (written_second ht).2 (Nat.lt_of_lt_of_le less (Nat.le_of_lt_succ hu.2.2.1))
    apply precedes_of_written hu hour minute
    rw [plain, Nat.add_zero]
    exact Nat.lt_of_lt_of_le less (Nat.le_add_right _ _)

theorem before_of_nanosecond (hu : u.Valid) (hour : t.hour = u.hour)
    (minute : t.minute = u.minute) (second : t.second = u.second)
    (less : t.nanosecond < u.nanosecond) : t.Before u := by
  constructor
  · rw [secondOfDay, secondOfDay, hour, minute, second]
    exact Prod.Lex.toLex_lt_toLex.mpr (.inr ⟨rfl, less⟩)
  · intro rest ends rest'
    have carry := Nat.div_le_div_right (c := secondLength) less.le
    rcases Nat.lt_or_eq_of_le carry with lower | same
    · exact precedes_of_written hu hour minute (by omega) _ _
    · -- Both are in the leap second, or neither is.
      have fraction : t.nanosecond % secondLength < u.nanosecond % secondLength := by
        rw [Nat.mod_eq_sub, Nat.mod_eq_sub, same]
        have part := Nat.mul_div_le t.nanosecond secondLength
        rw [same] at part
        omega
      rw [characters, characters, hour, minute, second, same, List.append_assoc _ _ rest,
        List.append_assoc _ _ rest']
      exact List.append_left_lt
        (fractionText_lt fraction (Nat.mod_lt _ (by decide)) ends rest')

theorem trichotomy (ht : t.Valid) (hu : u.Valid) : t = u ∨ t.Before u ∨ u.Before t := by
  rcases lt_trichotomy t.hour u.hour with less | hour | greater
  · exact .inr (.inl (before_of_hour ht hu less))
  · rcases lt_trichotomy t.minute u.minute with less | minute | greater
    · exact .inr (.inl (before_of_minute ht hu hour less))
    · rcases lt_trichotomy t.second u.second with less | second | greater
      · exact .inr (.inl (before_of_second ht hu hour minute less))
      · rcases lt_trichotomy t.nanosecond u.nanosecond with less | nanosecond | greater
        · exact .inr (.inl (before_of_nanosecond hu hour minute second less))
        · cases t; cases u; cases hour; cases minute; cases second; cases nanosecond
          exact .inl rfl
        · exact .inr (.inr
            (before_of_nanosecond ht hour.symm minute.symm second.symm greater))
      · exact .inr (.inr (before_of_second hu ht hour.symm minute.symm greater))
    · exact .inr (.inr (before_of_minute hu ht hour.symm greater))
  · exact .inr (.inr (before_of_hour hu ht greater))

end TimeOfDay

/-! ## Dates with times -/

namespace DateTime

variable {t u : DateTime}

structure Before (t u : DateTime) : Prop where
  earlier : t.moment < u.moment
  text : ∀ (separator : Char) {rest : List Char}, EndsFraction rest → ∀ rest' : List Char,
    t.characters separator ++ rest < u.characters separator ++ rest'

theorem before_of_date (ht : t.time.Valid) (date : t.date.Before u.date) : t.Before u := by
  constructor
  · have day := date.earlier
    have second := TimeOfDay.secondOfDay_lt ht
    exact Prod.Lex.toLex_lt_toLex.mpr (.inl (by omega))
  · intro separator rest _ rest'
    exact date.text.append _ _ rest rest'

theorem before_of_time (date : t.date = u.date) (time : t.time.Before u.time) : t.Before u := by
  constructor
  · rw [moment, moment, date]
    rcases Prod.Lex.toLex_lt_toLex.mp time.earlier with second | ⟨second, nanosecond⟩
    · exact Prod.Lex.toLex_lt_toLex.mpr (.inl (Nat.add_lt_add_left second _))
    · exact Prod.Lex.toLex_lt_toLex.mpr (.inr ⟨congrArg (_ + ·) second, nanosecond⟩)
  · intro separator rest ends rest'
    rw [characters, characters, date, List.append_assoc, List.append_assoc]
    exact List.append_left_lt (List.cons_lt_cons_iff.mpr (.inr ⟨rfl, time.text ends rest'⟩))

theorem trichotomy (ht : t.Sortable) (hu : u.Sortable) : t = u ∨ t.Before u ∨ u.Before t := by
  rcases Date.trichotomy ht.1 hu.1 with date | before | after
  · rcases TimeOfDay.trichotomy ht.2 hu.2 with time | before | after
    · cases t; cases u; cases date; cases time
      exact .inl rfl
    · exact .inr (.inl (before_of_time date before))
    · exact .inr (.inr (before_of_time date.symm after))
  · exact .inr (.inl (before_of_date ht.2 before))
  · exact .inr (.inr (before_of_date hu.2 after))

end DateTime

/-! ## Texts -/

theorem Date.characters_ascii {d : Date} (sortable : d.Sortable) :
    ∀ c ∈ d.characters, IsAscii c := by
  have mark : IsAscii '-' := by decide
  rw [characters, yearText_eq sortable.2.1 sortable.2.2]
  simp only [List.forall_mem_append, List.forall_mem_cons]
  exact ⟨⟨padded_ascii, mark, padded_ascii⟩, mark, padded_ascii⟩

theorem TimeOfDay.characters_ascii {t : TimeOfDay} : ∀ c ∈ t.characters, IsAscii c := by
  have mark : IsAscii ':' := by decide
  simp only [characters, List.forall_mem_append, List.forall_mem_cons]
  exact ⟨⟨⟨padded_ascii, mark, padded_ascii⟩, mark, padded_ascii⟩, fractionText_ascii⟩

theorem DateTime.characters_ascii {t : DateTime} (sortable : t.Sortable) {separator : Char}
    (ascii : IsAscii separator) : ∀ c ∈ t.characters separator, IsAscii c := by
  simp only [characters, List.forall_mem_append, List.forall_mem_cons]
  exact ⟨Date.characters_ascii sortable.1, ascii, TimeOfDay.characters_ascii⟩

theorem offsetText_ascii (offset : Int) : ∀ c ∈ offsetText offset, IsAscii c := by
  have sign : IsAscii (if offset < 0 then '-' else '+') := by split <;> decide
  have mark : IsAscii ':' := by decide
  simp only [offsetText, List.forall_mem_append, List.forall_mem_cons]
  exact ⟨sign, padded_ascii, mark, padded_ascii⟩

/-- Earlier, and with the text that sorts first. -/
def Sooner {α β : Type} [LinearOrder β] (text : α → String) (moment : α → β) (a b : α) : Prop :=
  moment a < moment b ∧ bytes (text a) < bytes (text b)

theorem Date.Before.sooner {d e : Date} (before : d.Before e) (hd : d.Sortable)
    (he : e.Sortable) : Sooner Date.toText Date.dayNumber d e := by
  refine ⟨before.earlier, bytes_lt_of_lt (characters_ascii hd) (characters_ascii he) ?_⟩
  simpa using before.text [] []

theorem DateTime.Before.sooner {t u : DateTime} (before : t.Before u) (ht : t.Sortable)
    (hu : u.Sortable) : Sooner DateTime.toText DateTime.moment t u := by
  refine ⟨before.earlier, bytes_lt_of_lt (characters_ascii ht (by decide))
    (characters_ascii hu (by decide)) ?_⟩
  have ends : EndsFraction [] := fun _ mem => by cases mem
  simpa using before.text ' ' ends []

/-- The zero offset ends a fraction, since a sign sorts below a point. -/
theorem DateTime.Before.sooner_utc {t u : DateTime} (before : t.Before u) (ht : t.Sortable)
    (hu : u.Sortable) : Sooner UtcDateTime.toText UtcDateTime.moment ⟨t⟩ ⟨u⟩ := by
  have ends : EndsFraction (offsetText 0) := by
    intro c mem
    cases mem
    decide
  refine ⟨before.earlier, bytes_lt_of_lt ?_ ?_ (before.text 'T' ends (offsetText 0))⟩
  · exact List.forall_mem_append.mpr ⟨characters_ascii ht (by decide), offsetText_ascii 0⟩
  · exact List.forall_mem_append.mpr ⟨characters_ascii hu (by decide), offsetText_ascii 0⟩

/-! ## Stored values -/

/-- The values of a type are stored as texts, and among those that can be sorted
the order of the bytes is the order of time. -/
structure SortsChronologically {α β : Type} [ToValue α] [LinearOrder β] (sortable : α → Prop)
    (moment : α → β) : Prop where
  stored (a : α) : ∃ s, toValue a = .text s
  before_iff {a b : α} (ha : sortable a) (hb : sortable b) {s t : String}
    (hs : toValue a = .text s) (ht : toValue b = .text t) :
    bytes s < bytes t ↔ moment a < moment b
  same_iff {a b : α} (ha : sortable a) (hb : sortable b) : toValue a = toValue b ↔ a = b
  comparison {a b : α} (ha : sortable a) (hb : sortable b) {order : ValueOrder}
    (lexical : ComparesBytes order) (c : Comparison) :
    c.holds order (toValue a) (toValue b) = .ofBool (c.relates (moment a) (moment b))

theorem SortsChronologically.of_trichotomy {α β : Type} [ToValue α] [LinearOrder β]
    {sortable : α → Prop} {moment : α → β} {text : α → String}
    (stored : ∀ a, toValue a = .text (text a))
    (trichotomy : ∀ {a b}, sortable a → sortable b →
      a = b ∨ Sooner text moment a b ∨ Sooner text moment b a) :
    SortsChronologically sortable moment where
  stored a := ⟨text a, stored a⟩
  before_iff := by
    intro a b ha hb s t hs ht
    obtain rfl : text a = s := Value.text.inj ((stored a).symm.trans hs)
    obtain rfl : text b = t := Value.text.inj ((stored b).symm.trans ht)
    rcases trichotomy ha hb with rfl | ⟨moments, texts⟩ | ⟨moments, texts⟩
    · exact iff_of_false (List.lt_irrefl _) (lt_irrefl _)
    · exact iff_of_true texts moments
    · exact iff_of_false (List.lt_asymm texts) moments.not_gt
  same_iff := by
    intro a b ha hb
    refine ⟨fun same => ?_, congrArg toValue⟩
    have texts : text a = text b := Value.text.inj ((stored a).symm.trans (same.trans (stored b)))
    rcases trichotomy ha hb with eq | ⟨-, lt⟩ | ⟨-, lt⟩
    · exact eq
    · exact absurd (texts ▸ lt) (List.lt_irrefl _)
    · exact absurd (texts ▸ lt) (List.lt_irrefl _)
  comparison := by
    intro a b ha hb order lexical c
    rw [stored, stored]
    apply Comparison.holds_eq_relates rfl rfl
    rw [lexical]
    rcases trichotomy ha hb with rfl | ⟨moments, texts⟩ | ⟨moments, texts⟩
    · simp [compareOfLessAndEq, List.lt_irrefl]
    · rw [compare_lt_iff_lt.mpr moments, compareOfLessAndEq, if_pos texts]
    · rw [compare_gt_iff_gt.mpr moments, compareOfLessAndEq, if_neg (List.lt_asymm texts),
        if_neg fun same => List.lt_irrefl _ (same ▸ texts)]

theorem Date.stored (d : Date) : toValue d = .text d.toText := rfl

theorem DateTime.stored (t : DateTime) : toValue t = .text t.toText := rfl

theorem UtcDateTime.stored (t : UtcDateTime) : toValue t = .text t.toText := rfl

/-- Dates, times without an offset and times of universal time are stored as texts that sort as
the times follow one another, leap seconds and fractions of any length included. So a filter
compares the times where the engine compares the bytes. -/
theorem stored_texts_sort :
    SortsChronologically Date.Sortable Date.dayNumber ∧
      SortsChronologically DateTime.Sortable DateTime.moment ∧
      SortsChronologically UtcDateTime.Sortable UtcDateTime.moment := by
  refine ⟨.of_trichotomy Date.stored ?_, .of_trichotomy DateTime.stored ?_,
    .of_trichotomy UtcDateTime.stored ?_⟩
  · intro d e hd he
    exact (Date.trichotomy hd he).imp_right (.imp (·.sooner hd he) (·.sooner he hd))
  · intro t u ht hu
    exact (DateTime.trichotomy ht hu).imp_right (.imp (·.sooner ht hu) (·.sooner hu ht))
  · rintro ⟨t⟩ ⟨u⟩ ht hu
    exact (DateTime.trichotomy ht hu).imp (congrArg _)
      (.imp (·.sooner_utc ht hu) (·.sooner_utc hu ht))

/-- The order that tells nothing but texts apart. -/
def byteOrder : ValueOrder
  | .text s, .text t => compareOfLessAndEq (bytes s) (bytes t)
  | _, _ => .eq

/-- The middle of a leap second sorts before the day that follows. -/
theorem stored_texts_sort_leap_second :
    let leap : DateTime := ⟨⟨1972, 6, 30⟩, ⟨23, 59, 59, 1500000000⟩⟩
    let next : DateTime := ⟨⟨1972, 7, 1⟩, ⟨0, 0, 0, 0⟩⟩
    leap.Sortable ∧ next.Sortable ∧ ComparesBytes byteOrder ∧
      toValue leap = .text "1972-06-30 23:59:60.500" ∧
      toValue next = .text "1972-07-01 00:00:00" ∧
      bytes "1972-06-30 23:59:60.500" < bytes "1972-07-01 00:00:00" ∧
      Comparison.lessThan.holds byteOrder (toValue leap) (toValue next) = .true := by
  intro leap next
  have sortable : leap.Sortable := by decide
  have sortable' : next.Sortable := by decide
  have lexical : ComparesBytes byteOrder := fun _ _ => rfl
  have stored : toValue leap = .text "1972-06-30 23:59:60.500" := by decide +kernel
  have stored' : toValue next = .text "1972-07-01 00:00:00" := by decide +kernel
  have month : leap.date.Before next.date :=
    Date.before_of_month sortable.1.1 sortable'.1.1 rfl (by decide)
  have moments : leap.moment < next.moment := (DateTime.before_of_date sortable.2 month).earlier
  have texts := stored_texts_sort.2.1.before_iff sortable sortable' stored stored'
  have less := stored_texts_sort.2.1.comparison sortable sortable' lexical .lessThan
  rw [Comparison.relates, decide_eq_true moments] at less
  exact ⟨sortable, sortable', lexical, stored, stored', texts.mpr moments, less⟩

end Calendar
end ModelSql
