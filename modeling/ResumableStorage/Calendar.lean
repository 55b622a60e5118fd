/-
  ResumableStorage/Calendar.lean
  ==============================
  **Instants and their calendar form** — an instant is a count of microseconds since
  the start of 1970 in universal time.  Its calendar form is that of the Gregorian
  calendar, carried back before its introduction; years run from 1 to 9999.
-/

namespace ResumableStorage

/-- Microseconds since the start of 1970, universal time. -/
abbrev Instant := Int

namespace Calendar

/-- The microseconds of a second. -/
def second : Int := 1000000

def day : Int := 86400 * second

/-- The instants whose calendar year is between 1 and 9999. -/
def first : Instant := -719162 * day
def last : Instant := 2932897 * day - 1

def holds (t : Instant) : Bool :=
  first ≤ t && t ≤ last

structure Date where
  year : Int
  month : Int
  day : Int
deriving DecidableEq, Repr

/-- The date `days` after the start of 1970.  Days are counted in eras of 400 years that begin
on the first of March, so that the leap day closes its year. -/
def dateOfDays (days : Int) : Date :=
  let z := days + 719468
  let era := z.fdiv 146097
  let dayOfEra := z - era * 146097
  let yearOfEra :=
    (dayOfEra - dayOfEra.fdiv 1460 + dayOfEra.fdiv 36524 - dayOfEra.fdiv 146096).fdiv 365
  let dayOfYear := dayOfEra - (365 * yearOfEra + yearOfEra.fdiv 4 - yearOfEra.fdiv 100)
  let m := (5 * dayOfYear + 2).fdiv 153
  let day := dayOfYear - (153 * m + 2).fdiv 5 + 1
  let month := if m < 10 then m + 3 else m - 9
  let year := yearOfEra + era * 400 + (if month ≤ 2 then 1 else 0)
  ⟨year, month, day⟩

def padded (width : Nat) (n : Int) : String :=
  let digits := (toString n.toNat).toList
  String.ofList (List.replicate (width - digits.length) '0' ++ digits)

/-- The time of a day, to the microsecond. -/
structure Clock where
  hour : Int
  minute : Int
  second : Int
  microsecond : Int
deriving DecidableEq, Repr

def dateOf (t : Instant) : Date :=
  dateOfDays (t.fdiv day)

def clockOf (t : Instant) : Clock :=
  let s := (t.fmod day) / second
  ⟨s / 3600, s / 60 % 60, s % 60, t.fmod second⟩

/-- The calendar form, with the offset of universal time; a whole second has no fraction. -/
def render (t : Instant) : String :=
  let d := dateOf t
  let c := clockOf t
  let fraction := if c.microsecond = 0 then "" else "." ++ padded 6 c.microsecond
  padded 4 d.year ++ "-" ++ padded 2 d.month ++ "-" ++ padded 2 d.day ++ " " ++
    padded 2 c.hour ++ ":" ++ padded 2 c.minute ++ ":" ++ padded 2 c.second ++ fraction ++ "+00:00"

example : dateOfDays 0 = ⟨1970, 1, 1⟩ ∧ dateOfDays (-1) = ⟨1969, 12, 31⟩ := by decide
example : dateOfDays 11016 = ⟨2000, 2, 29⟩ ∧ dateOfDays 11017 = ⟨2000, 3, 1⟩ := by decide
example : dateOf first = ⟨1, 1, 1⟩ ∧ dateOf last = ⟨9999, 12, 31⟩ := by decide
example : clockOf first = ⟨0, 0, 0, 0⟩ ∧ clockOf last = ⟨23, 59, 59, 999999⟩ := by decide

end Calendar

end ResumableStorage
