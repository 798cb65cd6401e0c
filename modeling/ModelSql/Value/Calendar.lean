/-!
# Calendar dates and times

Dates of the proleptic Gregorian calendar and times of day, as plain numbers,
and the texts in which a database stores them. In a leap second the nanoseconds
run on past the end of the second, and the second is written as the sixtieth.
-/

namespace ModelSql.Calendar

/-- A calendar date. Year zero precedes year one. -/
structure Date where
  year : Int
  month : Nat
  day : Nat
deriving DecidableEq, Repr

structure TimeOfDay where
  hour : Nat
  minute : Nat
  second : Nat
  nanosecond : Nat
deriving DecidableEq, Repr

/-- A date and a time of day, without an offset. -/
structure DateTime where
  date : Date
  time : TimeOfDay
deriving DecidableEq, Repr

/-- A local date and time with its offset from universal time in seconds, positive to the east. -/
structure OffsetDateTime where
  dateTime : DateTime
  offset : Int
deriving DecidableEq, Repr

/-- A date and time of universal time. -/
structure UtcDateTime where
  dateTime : DateTime
deriving DecidableEq, Repr

/-- Whether February of the year has a twenty-ninth day. -/
def IsLeapYear (year : Int) : Prop :=
  year % 4 = 0 ∧ (year % 100 ≠ 0 ∨ year % 400 = 0)

instance (year : Int) : Decidable (IsLeapYear year) :=
  inferInstanceAs (Decidable (year % 4 = 0 ∧ (year % 100 ≠ 0 ∨ year % 400 = 0)))

def daysInMonth (year : Int) (month : Nat) : Nat :=
  if month = 2 then if IsLeapYear year then 29 else 28
  else if month = 4 ∨ month = 6 ∨ month = 9 ∨ month = 11 then 30
  else 31

/-- A date that the calendar has. -/
def Date.Valid (d : Date) : Prop :=
  1 ≤ d.month ∧ d.month ≤ 12 ∧ 1 ≤ d.day ∧ d.day ≤ daysInMonth d.year d.month

def secondLength : Nat := 1000000000

/-- A time that a day has. Only the last second of a minute can be a leap second. -/
def TimeOfDay.Valid (t : TimeOfDay) : Prop :=
  t.hour < 24 ∧ t.minute < 60 ∧ t.second < 60 ∧
    (t.nanosecond < secondLength ∨ t.second = 59 ∧ t.nanosecond < 2 * secondLength)

/-- The digits of `n`, with zeros in front up to `width`. -/
def padded (width n : Nat) : List Char :=
  let digits := Nat.toDigits 10 n
  List.replicate (width - digits.length) '0' ++ digits

/-- Years of up to four digits have four; others carry a sign. -/
def yearText (year : Int) : List Char :=
  if year < 0 then '-' :: padded 4 year.natAbs
  else if year ≤ 9999 then padded 4 year.natAbs
  else '+' :: padded 4 year.natAbs

/-- Year, month and day. -/
def Date.characters (d : Date) : List Char :=
  yearText d.year ++ '-' :: padded 2 d.month ++ '-' :: padded 2 d.day

/-- The fraction of a second in three, six or nine digits, as many as are
needed, and nothing for a whole second. -/
def fractionText (nanosecond : Nat) : List Char :=
  if nanosecond = 0 then []
  else if nanosecond % 1000000 = 0 then '.' :: padded 3 (nanosecond / 1000000)
  else if nanosecond % 1000 = 0 then '.' :: padded 6 (nanosecond / 1000)
  else '.' :: padded 9 nanosecond

def TimeOfDay.characters (t : TimeOfDay) : List Char :=
  padded 2 t.hour ++ ':' :: padded 2 t.minute ++ ':' ::
    padded 2 (t.second + t.nanosecond / secondLength) ++
    fractionText (t.nanosecond % secondLength)

def DateTime.characters (separator : Char) (t : DateTime) : List Char :=
  t.date.characters ++ separator :: t.time.characters

/-- The sign, hours and minutes of an offset, rounded to the minute. The sign is
that of the exact offset. -/
def offsetText (offset : Int) : List Char :=
  let minutes := (offset.natAbs + 30) / 60
  (if offset < 0 then '-' else '+') :: (padded 2 (minutes / 60) ++ ':' :: padded 2 (minutes % 60))

def Date.toText (d : Date) : String := String.ofList d.characters

/-- A date and time without an offset has a blank between the two. -/
def DateTime.toText (t : DateTime) : String := String.ofList (t.characters ' ')

/-- A date and time with an offset has a `T` between the two. -/
def OffsetDateTime.toText (t : OffsetDateTime) : String :=
  String.ofList (t.dateTime.characters 'T' ++ offsetText t.offset)

/-- Universal time is written with the offset zero. -/
def UtcDateTime.toText (t : UtcDateTime) : String :=
  OffsetDateTime.toText ⟨t.dateTime, 0⟩

end ModelSql.Calendar
