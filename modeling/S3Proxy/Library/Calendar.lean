import S3Proxy.Library.Decimal

/-!
# The Gregorian calendar

Days are counted from 1 January of the year 0, by the rules of the proleptic calendar.  A `Date` has
a month of the year and a day of the month, a `Moment` a time of day as well; neither can be built
with a part out of range.  `Moment.micros` counts microseconds from the beginning of 1970.

The calendar is given in one direction only, from dates to numbers: `daysBeforeYear` and
`daysBeforeMonth` are sums of `yearLength` and `monthLength`, which are the rules as everybody knows
them.  Going back is left to the programs that do it, and to the proofs that they are right.

## Main results

`daysBeforeYear_succ` and `daysBeforeMonth_succ` are the recursions of the two sums,
`daysBeforeMonth_thirteen` says that the months make up the year.  `daysBeforeYear_add` bounds any
number of years by 365 and by 366 days each, and `strictMono_daysBeforeYear` orders them.  With
these `year_le_iff` settles which year a day lies in: one up to `y` precisely if it is a day before
the first of January after `y`.

## Where it is used

`Util.Date` proves the program's conversion from microseconds right against `Moment.micros`.
`Log.Stringify` prints the time of a record with `Moment.text`, and `Log.FileWriter` names a file by
its `Date`.
-/

namespace Calendar

/-- Every fourth year is a leap year, but of the centuries only every fourth one. -/
def IsLeap (y : ℕ) : Prop := 4 ∣ y ∧ (100 ∣ y → 400 ∣ y)

instance : DecidablePred IsLeap := fun y =>
  inferInstanceAs (Decidable (4 ∣ y ∧ (100 ∣ y → 400 ∣ y)))

def yearLength (y : ℕ) : ℕ := if IsLeap y then 366 else 365

/-- The length of a month, counted from 1. -/
def monthLength (y m : ℕ) : ℕ :=
  if m = 2 then if IsLeap y then 29 else 28
  else if m = 4 ∨ m = 6 ∨ m = 9 ∨ m = 11 then 30
  else 31

/-- The days before the first of January. -/
def daysBeforeYear (y : ℕ) : ℕ := ∑ i ∈ Finset.range y, yearLength i

/-- The days of the year before the first of the month. -/
def daysBeforeMonth (y m : ℕ) : ℕ := ∑ i ∈ Finset.Ico 1 m, monthLength y i

/-- The year in which day number `n` lies. -/
def year (n : ℕ) : ℕ := Nat.findGreatest (fun y => daysBeforeYear y ≤ n) n

/-- The year in which a number of microseconds since the beginning of 1970 ends. -/
def yearOfMicros (n : ℕ) : ℕ := year (daysBeforeYear 1970 + n / 86400000000)

structure Date where
  year : ℕ
  month : ℕ
  day : ℕ
  month_pos : 1 ≤ month
  month_le : month ≤ 12
  day_pos : 1 ≤ day
  day_le : day ≤ monthLength year month

/-- The days before the date. -/
def Date.number (d : Date) : ℕ :=
  daysBeforeYear d.year + daysBeforeMonth d.year d.month + (d.day - 1)

structure Moment extends Date where
  hour : ℕ
  minute : ℕ
  second : ℕ
  milli : ℕ
  micro : ℕ
  hour_lt : hour < 24
  minute_lt : minute < 60
  second_lt : second < 60
  milli_lt : milli < 1000
  micro_lt : micro < 1000

/-- The microseconds since the beginning of 1970. -/
def Moment.micros (t : Moment) : ℤ :=
  ((((((t.number : ℤ) - daysBeforeYear 1970) * 24 + t.hour) * 60 + t.minute) * 60 + t.second) *
    1000 + t.milli) * 1000 + t.micro

/-- The moment as `year-MM-DDThh:mm:ss.mmmuuuZ`. -/
def Moment.text (t : Moment) : List Char :=
  Decimal.padded 4 t.year ++ '-' :: Decimal.padded 2 t.month ++ '-' :: Decimal.padded 2 t.day ++
    'T' :: Decimal.padded 2 t.hour ++ ':' :: Decimal.padded 2 t.minute ++
    ':' :: Decimal.padded 2 t.second ++ '.' :: Decimal.padded 3 t.milli ++
    Decimal.padded 3 t.micro ++ ['Z']

variable {m n y : ℕ}

/-! ### Years -/

lemma yearLength_le : yearLength y ≤ 366 := by
  unfold yearLength
  split_ifs <;> omega

lemma le_yearLength : 365 ≤ yearLength y := by
  unfold yearLength
  split_ifs <;> omega

lemma daysBeforeYear_succ : daysBeforeYear (y + 1) = daysBeforeYear y + yearLength y :=
  Finset.sum_range_succ _ _

lemma strictMono_daysBeforeYear : StrictMono daysBeforeYear := by
  refine strictMono_nat_of_lt_succ fun y => ?_
  have hle := le_yearLength (y := y)
  rw [daysBeforeYear_succ]
  omega

/-- Every year has 365 days at least, and 366 at most. -/
lemma daysBeforeYear_add (y k : ℕ) : daysBeforeYear y + 365 * k ≤ daysBeforeYear (y + k) ∧
    daysBeforeYear (y + k) ≤ daysBeforeYear y + 366 * k := by
  induction k with
  | zero => simp
  | succ k ih =>
      have hle := le_yearLength (y := y + k)
      have hge := yearLength_le (y := y + k)
      rw [← Nat.add_assoc, daysBeforeYear_succ]
      omega

/-- A day lies in a year or before it precisely if it lies before the first of January that
follows. -/
lemma year_le_iff : year n ≤ y ↔ n < daysBeforeYear (y + 1) := by
  constructor
  · intro h
    by_contra hge
    rw [not_lt] at hge
    have hle : y + 1 ≤ n := strictMono_daysBeforeYear.le_apply.trans hge
    exact absurd (Nat.le_findGreatest hle hge) (not_le.mpr (Nat.lt_succ_of_le h))
  · intro h
    have hspec : daysBeforeYear (year n) ≤ n :=
      Nat.findGreatest_spec (P := fun y => daysBeforeYear y ≤ n) (Nat.zero_le n) (Nat.zero_le n)
    exact Nat.le_of_lt_succ (strictMono_daysBeforeYear.lt_iff_lt.mp (hspec.trans_lt h))

/-! ### Months -/

lemma monthLength_le : monthLength y m ≤ 31 := by
  unfold monthLength
  split_ifs <;> omega

lemma daysBeforeMonth_one : daysBeforeMonth y 1 = 0 := rfl

lemma daysBeforeMonth_succ (hm : 1 ≤ m) :
    daysBeforeMonth y (m + 1) = daysBeforeMonth y m + monthLength y m :=
  Finset.sum_Ico_succ_top hm _

/-- The months make up the year. -/
lemma daysBeforeMonth_thirteen : daysBeforeMonth y 13 = yearLength y := by
  unfold daysBeforeMonth yearLength
  split_ifs with hleap
  · simp [Finset.sum_Ico_succ_top, monthLength, hleap]
  · simp [Finset.sum_Ico_succ_top, monthLength, hleap]

end Calendar
