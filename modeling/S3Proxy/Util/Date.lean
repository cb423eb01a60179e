import S3Proxy.Library.Calendar
import S3Proxy.Library.Loop
import S3Proxy.Model.Text

/-!
# Dates as text

`isoDate` formats a number of microseconds.  It finds the year and the month in two loops, in the
machine integers of the source; `Loop.run` bounds the number of their passes.  In the `int` that
holds the year, `isLeapYear` gets the lower 16 bits.

## Main results

`isoDate_eq` is total correctness against the Gregorian calendar: the loops end, and what is written
is the text of the moment that the number of microseconds stands for.

Each of the loops has a lemma of its own, `run_yearPass` and `run_monthPass`, with the invariant as
a structure (`YearInv`, `MonthInv`) and what has been found on leaving as another one (`YearFound`,
`MonthFound`).  `exists_date` puts them together with the days that are taken back in between, and
`isoText_eq` is the formatting of the parts.  The lemmas with `toInt` in their names say that no
operation of the source leaves its width: sums and differences stay what they are, and quotients and
remainders are those of natural numbers.

## Hypotheses

The number is not negative, and its year is 32767 at most.  From the next year on the lower 16 bits
are no longer the year, and before 1970 the quotients are rounded to the wrong side; the source does
not test either.

## Where it is used

The result rests on `Sound.exists_run` of `Library.Loop` and on the recursions of
`Library.Calendar`.  No other module uses `isoDate`, as no other file of the source calls it; the
result stands by itself.
-/

namespace S3Proxy

namespace Util

/-- `isLeapYear`. -/
def isLeapYear (year : Int16) : Bool :=
  if year % 400 = 0 then true
  else if year % 100 = 0 then false
  else if year % 4 = 0 then true
  else false

/-- The days of a year in the loop. -/
def daysOf (year : Int32) : Int32 := if isLeapYear year.toInt16 then 366 else 365

structure YearState where
  year : Int32 := 1970
  days : Int32 := 0
  deriving DecidableEq

/-- One pass of the loop that finds the year. -/
def yearPass (epoch : Int64) (s : YearState) : YearState ⊕ YearState :=
  let days := s.days + daysOf s.year
  if days.toInt64 ≤ epoch then .inl ⟨s.year + 1, days⟩ else .inr ⟨s.year, days⟩

/-- The `switch` over the months. -/
def monthDays (isLeap : Bool) (month : Int32) : Int8 :=
  if month = 2 then if isLeap then 29 else 28
  else if month = 4 ∨ month = 6 ∨ month = 9 ∨ month = 11 then 30
  else 31

structure MonthState where
  month : Int32 := 1
  epoch : Int64
  deriving DecidableEq

/-- One pass of the loop that finds the month. -/
def monthPass (isLeap : Bool) (s : MonthState) : MonthState ⊕ MonthState :=
  if s.month < 13 then
    let length := monthDays isLeap s.month
    if s.epoch ≥ length.toInt64 then .inl ⟨s.month + 1, s.epoch - length.toInt64⟩ else .inr s
  else .inr s

/-- A number with a zero in front if it is below ten. -/
def two (n : Int32) : Bytes := (if n < 10 then bytesOf "0" else []) ++ formatInt n.toInt

/-- A number with zeros in front if it is below a hundred. -/
def three (n : Int32) : Bytes :=
  (if n < 10 then bytesOf "00" else if n < 100 then bytesOf "0" else []) ++ formatInt n.toInt

/-- What is written to the stream. -/
def isoText (year month day hour minute second millis micros : Int32) : Bytes :=
  formatInt year.toInt ++ bytesOf "-" ++ two month ++ bytesOf "-" ++ two day ++ bytesOf "T" ++
    two hour ++ bytesOf ":" ++ two minute ++ bytesOf ":" ++ two second ++ bytesOf "." ++
    three millis ++ three micros ++ bytesOf "Z"

/-- `isoDate`, with a bound on the passes of each loop. -/
def isoDate (fuel : ℕ) (epoch : Int64) : Option Bytes :=
  let micros := (epoch % 1000).toInt32
  let epoch := epoch / 1000
  let millis := (epoch % 1000).toInt32
  let epoch := epoch / 1000
  let second := (epoch % 60).toInt32
  let epoch := epoch / 60
  let minute := (epoch % 60).toInt32
  let epoch := epoch / 60
  let hour := (epoch % 24).toInt32
  let epoch := epoch / 24
  (Loop.run (yearPass epoch) fuel {}).bind fun s =>
    -- the last year is taken back
    let days := s.days - daysOf s.year
    (Loop.run (monthPass (isLeapYear s.year.toInt16)) fuel { epoch := epoch - days.toInt64 }).map
      fun t => isoText s.year t.month (t.epoch + 1).toInt32 hour minute second millis micros

/-! ### Machine integers -/

variable {n d : ℕ}

lemma toInt_div {a k : Int64} (ha : a.toInt = n) (hk : k.toInt = d) (hd : 1 < d) :
    (a / k).toInt = (n / d : ℕ) := by
  have hne : k ≠ -1 := by
    rintro rfl
    have hneg : (-1 : Int64).toInt = -1 := rfl
    omega
  rw [Int64.toInt_div_of_ne_right _ _ hne, ha, hk]
  rfl

lemma toInt_mod {a k : Int64} (ha : a.toInt = n) (hk : k.toInt = d) (hd : 0 < d)
    (hlt : d < 2 ^ 31) : (a % k).toInt32.toInt = (n % d : ℕ) := by
  have hmod : (a % k).toInt = (n % d : ℕ) := by
    rw [Int64.toInt_mod, ha, hk]
    rfl
  have hsmall := Nat.mod_lt n hd
  rw [Int64.toInt_toInt32, hmod, Int.bmod_eq_of_le (by omega) (by omega)]

lemma toInt_add32 {a b : Int32} (hle : -2 ^ 31 ≤ a.toInt + b.toInt)
    (hlt : a.toInt + b.toInt < 2 ^ 31) : (a + b).toInt = a.toInt + b.toInt := by
  rw [Int32.toInt_add, Int.bmod_eq_of_le (by omega) (by omega)]

lemma toInt_sub32 {a b : Int32} (hle : -2 ^ 31 ≤ a.toInt - b.toInt)
    (hlt : a.toInt - b.toInt < 2 ^ 31) : (a - b).toInt = a.toInt - b.toInt := by
  rw [Int32.toInt_sub, Int.bmod_eq_of_le (by omega) (by omega)]

lemma toInt_add64 {a b : Int64} (hle : -2 ^ 63 ≤ a.toInt + b.toInt)
    (hlt : a.toInt + b.toInt < 2 ^ 63) : (a + b).toInt = a.toInt + b.toInt := by
  rw [Int64.toInt_add, Int.bmod_eq_of_le (by omega) (by omega)]

lemma toInt_sub64 {a b : Int64} (hle : -2 ^ 63 ≤ a.toInt - b.toInt)
    (hlt : a.toInt - b.toInt < 2 ^ 63) : (a - b).toInt = a.toInt - b.toInt := by
  rw [Int64.toInt_sub, Int.bmod_eq_of_le (by omega) (by omega)]

/-! ### The year -/

lemma isLeapYear_iff {year : Int16} {y : ℕ} (hy : year.toInt = y) :
    isLeapYear year = true ↔ Calendar.IsLeap y := by
  have hmod : ∀ {k : Int16} {d : ℕ}, k.toInt = d → (year % k = 0 ↔ d ∣ y) := by
    intro k d hk
    rw [← Int16.toInt_inj, Int16.toInt_mod, hy, hk, Int16.toInt_zero, Nat.dvd_iff_mod_eq_zero]
    exact Int.natCast_eq_zero
  have h400 := hmod (k := 400) (d := 400) rfl
  have h100 := hmod (k := 100) (d := 100) rfl
  have h4 := hmod (k := 4) (d := 4) rfl
  unfold isLeapYear Calendar.IsLeap
  simp only [h400, h100, h4]
  split_ifs with hfour hhundred hleap
  · exact iff_of_true rfl ⟨by omega, fun _ => hfour⟩
  · exact iff_of_false id fun h => hfour (h.2 hhundred)
  · exact iff_of_true rfl ⟨hleap, fun h => absurd h hhundred⟩
  · exact iff_of_false id fun h => hleap h.1

/-- Up to 32767, the lower 16 bits of the year are the year. -/
lemma isLeapYear_toInt16_iff {year : Int32} {y : ℕ} (hy : year.toInt = y) (hle : y ≤ 32767) :
    isLeapYear year.toInt16 = true ↔ Calendar.IsLeap y := by
  apply isLeapYear_iff
  rw [Int32.toInt_toInt16, hy, Int.bmod_eq_of_le (by omega) (by omega)]

lemma toInt_daysOf {year : Int32} {y : ℕ} (hy : year.toInt = y) (hle : y ≤ 32767) :
    (daysOf year).toInt = Calendar.yearLength y := by
  rw [daysOf, Calendar.yearLength]
  simp only [isLeapYear_toInt16_iff hy hle]
  split_ifs <;> rfl

/-- The year has begun before the day number `n` since 1970, and `days` counts up to it. -/
structure YearInv (n y : ℕ) (s : YearState) : Prop where
  year : s.year.toInt = y
  le : y ≤ 32767
  days : s.days.toInt + Calendar.daysBeforeYear 1970 = Calendar.daysBeforeYear y
  begun : Calendar.daysBeforeYear y ≤ Calendar.daysBeforeYear 1970 + n

/-- The day number `n` since 1970 is in the year, and `days` counts to the end of it. -/
structure YearFound (n y : ℕ) (s : YearState) : Prop where
  year : s.year.toInt = y
  le : y ≤ 32767
  days : s.days.toInt + Calendar.daysBeforeYear 1970 = Calendar.daysBeforeYear (y + 1)
  begun : Calendar.daysBeforeYear y ≤ Calendar.daysBeforeYear 1970 + n
  before : Calendar.daysBeforeYear 1970 + n < Calendar.daysBeforeYear (y + 1)

/-- No year up to 32767 has an end that an `int32_t` cannot count. -/
lemma daysBeforeYear_lt {y : ℕ} (hle : y ≤ 32767) :
    Calendar.daysBeforeYear (y + 1) < 2 ^ 31 := by
  have hadd := (Calendar.daysBeforeYear_add 0 (y + 1)).2
  have hzero : Calendar.daysBeforeYear 0 = 0 := rfl
  rw [Nat.zero_add, hzero] at hadd
  omega

lemma sound_yearPass {epoch : Int64} {n : ℕ} (hn : epoch.toInt = n)
    (hlt : Calendar.daysBeforeYear 1970 + n < Calendar.daysBeforeYear 32768) :
    Loop.Sound (yearPass epoch) (fun s => ∃ y, YearInv n y s) (fun s => 32768 - s.year.toInt.toNat)
      fun s => ∃ y, YearFound n y s := by
  have hsum : ∀ {s : YearState} {y : ℕ}, YearInv n y s →
      (s.days + daysOf s.year).toInt + Calendar.daysBeforeYear 1970 =
        Calendar.daysBeforeYear (y + 1) := by
    intro s y hs
    have hdays := hs.days
    have hlength := toInt_daysOf hs.year hs.le
    have hsucc := Calendar.daysBeforeYear_succ (y := y)
    have hbound := daysBeforeYear_lt hs.le
    have hbound' : Calendar.daysBeforeYear 1970 < 2 ^ 31 := daysBeforeYear_lt (by omega)
    rw [toInt_add32 (by omega) (by omega)]
    omega
  constructor
  · rintro s t ⟨y, hs⟩ hpass
    have hdays := hsum hs
    unfold yearPass at hpass
    dsimp only at hpass
    split_ifs at hpass with hle
    cases hpass
    rw [Int64.le_iff_toInt_le, Int32.toInt_toInt64, hn] at hle
    have hyear := hs.year
    have hnext : y + 1 < 32768 :=
      Calendar.strictMono_daysBeforeYear.lt_iff_lt.mp (by omega)
    have hone : (1 : Int32).toInt = 1 := rfl
    have hsucc : (s.year + 1).toInt = (y + 1 : ℕ) := by
      rw [toInt_add32 (by omega) (by omega)]
      omega
    refine ⟨⟨y + 1, hsucc, by omega, hdays, by omega⟩, ?_⟩
    show 32768 - (s.year + 1).toInt.toNat < 32768 - s.year.toInt.toNat
    omega
  · rintro s t ⟨y, hs⟩ hpass
    have hdays := hsum hs
    unfold yearPass at hpass
    dsimp only at hpass
    split_ifs at hpass with hle
    cases hpass
    rw [Int64.le_iff_toInt_le, Int32.toInt_toInt64, hn] at hle
    exact ⟨y, hs.year, hs.le, hdays, hs.begun, by omega⟩

/-- **The loop over the years** finds the year of day number `n` since 1970. -/
lemma run_yearPass {epoch : Int64} {n : ℕ} (hn : epoch.toInt = n)
    (hlt : Calendar.daysBeforeYear 1970 + n < Calendar.daysBeforeYear 32768) :
    ∃ s y, YearFound n y s ∧
      ∀ fuel, 32768 - 1970 < fuel → Loop.run (yearPass epoch) fuel {} = some s := by
  have hinit : YearInv n 1970 {} := by
    refine ⟨rfl, by omega, ?_, by omega⟩
    have hzero : (0 : Int32).toInt = 0 := rfl
    show (0 : Int32).toInt + _ = _
    omega
  obtain ⟨s, ⟨y, hs⟩, hrun⟩ := (sound_yearPass hn hlt).exists_run ⟨1970, hinit⟩
  exact ⟨s, y, hs, hrun⟩

/-! ### The month -/

lemma toInt_monthDays {isLeap : Bool} {month : Int32} {y m : ℕ}
    (hleap : isLeap = true ↔ Calendar.IsLeap y) (hm : month.toInt = m) :
    (monthDays isLeap month).toInt = Calendar.monthLength y m := by
  have heq : ∀ {k : Int32} {j : ℕ}, k.toInt = j → (month = k ↔ m = j) := by
    intro k j hk
    rw [← Int32.toInt_inj, hm, hk]
    exact Int.natCast_inj
  have h2 := heq (k := 2) (j := 2) rfl
  have h4 := heq (k := 4) (j := 4) rfl
  have h6 := heq (k := 6) (j := 6) rfl
  have h9 := heq (k := 9) (j := 9) rfl
  have h11 := heq (k := 11) (j := 11) rfl
  unfold monthDays Calendar.monthLength
  simp only [h2, h4, h6, h9, h11, hleap]
  split_ifs <;> rfl

/-- The month has begun before day `r` of the year, counted from 0, and `epoch` is the rest. -/
structure MonthInv (y r m : ℕ) (s : MonthState) : Prop where
  month : s.month.toInt = m
  pos : 1 ≤ m
  le : m ≤ 12
  epoch : s.epoch.toInt + Calendar.daysBeforeMonth y m = r
  begun : Calendar.daysBeforeMonth y m ≤ r

/-- Day `r` of the year is in the month. -/
structure MonthFound (y r m : ℕ) (s : MonthState) : Prop extends MonthInv y r m s where
  before : r < Calendar.daysBeforeMonth y (m + 1)

lemma sound_monthPass {isLeap : Bool} {y r : ℕ} (hleap : isLeap = true ↔ Calendar.IsLeap y)
    (hr : r < Calendar.yearLength y) :
    Loop.Sound (monthPass isLeap) (fun s => ∃ m, MonthInv y r m s)
      (fun s => 13 - s.month.toInt.toNat) fun s => ∃ m, MonthFound y r m s := by
  have hthirteen : (13 : Int32).toInt = 13 := rfl
  have hmonth : ∀ {s : MonthState} {m : ℕ}, MonthInv y r m s → s.month < 13 := by
    intro s m hs
    have hmonth := hs.month
    have hle := hs.le
    rw [Int32.lt_iff_toInt_lt]
    omega
  constructor
  · rintro s t ⟨m, hs⟩ hpass
    have hlength := toInt_monthDays hleap hs.month
    have hsucc := Calendar.daysBeforeMonth_succ (y := y) hs.pos
    have hepoch := hs.epoch
    have hbegun := hs.begun
    unfold monthPass at hpass
    rw [if_pos (hmonth hs)] at hpass
    dsimp only at hpass
    split_ifs at hpass with hle
    cases hpass
    rw [ge_iff_le, Int64.le_iff_toInt_le, Int8.toInt_toInt64, hlength] at hle
    have hupper := Calendar.yearLength_le (y := y)
    -- December is left in the loop only by the `else`
    have hm : m ≠ 12 := by
      rintro rfl
      rw [Calendar.daysBeforeMonth_thirteen] at hsucc
      omega
    have hm' := hs.month
    have hle' := hs.le
    have hone : (1 : Int32).toInt = 1 := rfl
    have hmonth' : (s.month + 1).toInt = (m + 1 : ℕ) := by
      rw [toInt_add32 (by omega) (by omega)]
      omega
    have hepoch' : (s.epoch - (monthDays isLeap s.month).toInt64).toInt +
        Calendar.daysBeforeMonth y (m + 1) = r := by
      rw [toInt_sub64 (by rw [Int8.toInt_toInt64]; omega) (by rw [Int8.toInt_toInt64]; omega),
        Int8.toInt_toInt64]
      omega
    refine ⟨⟨m + 1, hmonth', by omega, by omega, hepoch', by omega⟩, ?_⟩
    show 13 - (s.month + 1).toInt.toNat < 13 - s.month.toInt.toNat
    omega
  · rintro s t ⟨m, hs⟩ hpass
    have hlength := toInt_monthDays hleap hs.month
    have hsucc := Calendar.daysBeforeMonth_succ (y := y) hs.pos
    have hepoch := hs.epoch
    unfold monthPass at hpass
    rw [if_pos (hmonth hs)] at hpass
    dsimp only at hpass
    split_ifs at hpass with hle
    cases hpass
    rw [ge_iff_le, Int64.le_iff_toInt_le, Int8.toInt_toInt64, hlength] at hle
    exact ⟨m, hs, by omega⟩

/-- **The loop over the months** finds the month of day `r` of the year. -/
lemma run_monthPass {isLeap : Bool} {epoch : Int64} {y r : ℕ}
    (hleap : isLeap = true ↔ Calendar.IsLeap y) (hepoch : epoch.toInt = r)
    (hr : r < Calendar.yearLength y) :
    ∃ s m, MonthFound y r m s ∧
      ∀ fuel, 12 < fuel → Loop.run (monthPass isLeap) fuel { epoch } = some s := by
  have hone : Calendar.daysBeforeMonth y 1 = 0 := Calendar.daysBeforeMonth_one
  have hinit : MonthInv y r 1 { epoch } := by
    refine ⟨rfl, le_rfl, by omega, ?_, by omega⟩
    show epoch.toInt + _ = _
    omega
  obtain ⟨s, ⟨m, hs⟩, hrun⟩ := (sound_monthPass hleap hr).exists_run ⟨1, hinit⟩
  exact ⟨s, m, hs, hrun⟩

/-! ### The text -/

lemma formatInt_natCast (n : ℕ) : formatInt n = (toString n).toList.map chr := rfl

private lemma lt_iff {n d : ℕ} {k j : Int32} (hk : k.toInt = n) (hj : j.toInt = d) :
    k < j ↔ n < d := by
  rw [Int32.lt_iff_toInt_lt, hk, hj]
  exact Int.ofNat_lt

lemma two_eq {n : ℕ} (hlt : n < 100) {k : Int32} (hk : k.toInt = n) :
    two k = (Decimal.padded 2 n).map chr := by
  have hten : k < 10 ↔ n < 10 := lt_iff hk rfl
  rw [two, hk, formatInt_natCast, Decimal.padded_eq, List.map_append]
  by_cases h10 : n < 10
  · have hlength := Decimal.length_toString_nat (k := 0) (n := n) (by omega) (.inl rfl)
    rw [if_pos (hten.mpr h10), hlength]
    rfl
  · have hlength := Decimal.length_toString_nat (k := 1) (n := n) (by omega) (.inr (by omega))
    rw [if_neg (mt hten.mp h10), hlength]
    rfl

lemma three_eq {n : ℕ} (hlt : n < 1000) {k : Int32} (hk : k.toInt = n) :
    three k = (Decimal.padded 3 n).map chr := by
  have hten : k < 10 ↔ n < 10 := lt_iff hk rfl
  have hhundred : k < 100 ↔ n < 100 := lt_iff hk rfl
  rw [three, hk, formatInt_natCast, Decimal.padded_eq, List.map_append]
  by_cases h10 : n < 10
  · have hlength := Decimal.length_toString_nat (k := 0) (n := n) (by omega) (.inl rfl)
    rw [if_pos (hten.mpr h10), hlength]
    rfl
  by_cases h100 : n < 100
  · have hlength := Decimal.length_toString_nat (k := 1) (n := n) (by omega) (.inr (by omega))
    rw [if_neg (mt hten.mp h10), if_pos (hhundred.mpr h100), hlength]
    rfl
  · have hlength := Decimal.length_toString_nat (k := 2) (n := n) (by omega) (.inr (by omega))
    rw [if_neg (mt hten.mp h10), if_neg (mt hhundred.mp h100), hlength]
    rfl

/-- A year of four digits or more needs no zeros. -/
lemma formatInt_year {y : ℕ} (hy : 1000 ≤ y) {k : Int32} (hk : k.toInt = y) :
    formatInt k.toInt = (Decimal.padded 4 y).map chr := by
  have hlength : 4 ≤ (toString y).toList.length :=
    Decimal.lt_length_toString_nat (k := 3) (.inr (by omega))
  rw [hk, formatInt_natCast, Decimal.padded_eq, Nat.sub_eq_zero_of_le hlength]
  rfl

/-- **The text** that is written for a moment. -/
lemma isoText_eq {t : Calendar.Moment} (hy : 1000 ≤ t.year)
    {year month day hour minute second millis micros : Int32} (hyear : year.toInt = t.year)
    (hmonth : month.toInt = t.month) (hday : day.toInt = t.day) (hhour : hour.toInt = t.hour)
    (hminute : minute.toInt = t.minute) (hsecond : second.toInt = t.second)
    (hmillis : millis.toInt = t.milli) (hmicros : micros.toInt = t.micro) :
    isoText year month day hour minute second millis micros = t.text.map chr := by
  have hmonth12 := t.month_le
  have hday31 := t.day_le.trans Calendar.monthLength_le
  have hhour24 := t.hour_lt
  have hminute60 := t.minute_lt
  have hsecond60 := t.second_lt
  rw [isoText, formatInt_year hy hyear, two_eq (by omega) hmonth, two_eq (by omega) hday,
    two_eq (by omega) hhour, two_eq (by omega) hminute, two_eq (by omega) hsecond,
    three_eq t.milli_lt hmillis, three_eq t.micro_lt hmicros, Calendar.Moment.text]
  have hdash : bytesOf "-" = [chr '-'] := rfl
  have htime : bytesOf "T" = [chr 'T'] := rfl
  have hcolon : bytesOf ":" = [chr ':'] := rfl
  have hdot : bytesOf "." = [chr '.'] := rfl
  have hzone : bytesOf "Z" = [chr 'Z'] := rfl
  simp only [hdash, htime, hcolon, hdot, hzone, List.map_append, List.map_cons, List.map_nil,
    List.append_assoc, List.cons_append, List.nil_append]

/-! ### The date -/

/-- The two loops, and the days that are taken back between them, lead to the date of day number
`d` since 1970. -/
lemma exists_date {epoch : Int64} {d : ℕ} (hd : epoch.toInt = d)
    (hlt : Calendar.daysBeforeYear 1970 + d < Calendar.daysBeforeYear 32768) :
    ∃ (s : YearState) (u : MonthState) (date : Calendar.Date),
      date.number = Calendar.daysBeforeYear 1970 + d ∧ 1970 ≤ date.year ∧
      s.year.toInt = date.year ∧ u.month.toInt = date.month ∧
      (u.epoch + 1).toInt32.toInt = date.day ∧
      ∀ fuel, 32768 - 1970 < fuel → Loop.run (yearPass epoch) fuel {} = some s ∧
        Loop.run (monthPass (isLeapYear s.year.toInt16)) fuel
          { epoch := epoch - (s.days - daysOf s.year).toInt64 } = some u := by
  obtain ⟨s, y, hs, hyears⟩ := run_yearPass hd hlt
  have hsyear := hs.year
  have hsdays := hs.days
  have hsle := hs.le
  have hsbegun := hs.begun
  have hsbefore := hs.before
  have hlength := toInt_daysOf hsyear hsle
  have hsucc := Calendar.daysBeforeYear_succ (y := y)
  have hbound := daysBeforeYear_lt hsle
  have hbound' : Calendar.daysBeforeYear 1970 < 2 ^ 31 := daysBeforeYear_lt (by omega)
  have hy : 1970 < y + 1 := Calendar.strictMono_daysBeforeYear.lt_iff_lt.mp (by omega)
  have hdays : (s.days - daysOf s.year).toInt + Calendar.daysBeforeYear 1970 =
      Calendar.daysBeforeYear y := by
    rw [toInt_sub32 (by omega) (by omega)]
    omega
  -- the day of the year
  obtain ⟨r, hr⟩ := Nat.exists_eq_add_of_le hsbegun
  have hrlt : r < Calendar.yearLength y := by omega
  have hepoch : (epoch - (s.days - daysOf s.year).toInt64).toInt = r := by
    rw [toInt_sub64 (by rw [Int32.toInt_toInt64]; omega) (by rw [Int32.toInt_toInt64]; omega),
      Int32.toInt_toInt64]
    omega
  obtain ⟨u, m, hu, hmonths⟩ :=
    run_monthPass (isLeapYear_toInt16_iff hsyear hsle) hepoch hrlt
  have huepoch := hu.epoch
  have hubegun := hu.begun
  have hubefore := hu.before
  have hmsucc := Calendar.daysBeforeMonth_succ (y := y) hu.pos
  have hmlength := Calendar.monthLength_le (y := y) (m := m)
  have hone : (1 : Int64).toInt = 1 := rfl
  have hday : (u.epoch + 1).toInt32.toInt =
      (r - Calendar.daysBeforeMonth y m + 1 : ℕ) := by
    have hsum : (u.epoch + 1).toInt = u.epoch.toInt + 1 := toInt_add64 (by omega) (by omega)
    rw [Int64.toInt_toInt32, hsum, Int.bmod_eq_of_le (by omega) (by omega)]
    omega
  refine ⟨s, u, ⟨y, m, r - Calendar.daysBeforeMonth y m + 1, hu.pos, hu.le, by omega, by omega⟩,
    ?_, Nat.le_of_lt_succ hy, hsyear, hu.month, hday,
    fun fuel hfuel => ⟨hyears fuel hfuel, hmonths fuel (by omega)⟩⟩
  rw [Calendar.Date.number]
  dsimp only
  omega

/-- **`isoDate` is the Gregorian calendar**: it ends, and writes the moment that the number of
microseconds stands for. -/
theorem isoDate_eq {epoch : Int64} (hepoch : 0 ≤ epoch)
    (hyear : Calendar.yearOfMicros epoch.toInt.toNat ≤ 32767) :
    ∃ t : Calendar.Moment, t.micros = epoch.toInt ∧
      ∀ fuel, 32768 - 1970 < fuel → isoDate fuel epoch = some (t.text.map chr) := by
  have hzero : (0 : Int64).toInt = 0 := rfl
  rw [Int64.le_iff_toInt_le, hzero] at hepoch
  obtain ⟨n, hn⟩ := Int.eq_ofNat_of_zero_le hepoch
  rw [hn, Int.toNat_natCast, Calendar.yearOfMicros, Calendar.year_le_iff] at hyear
  have hmicros := toInt_mod hn (k := 1000) (d := 1000) rfl (by omega) (by omega)
  have hn₁ := toInt_div hn (k := 1000) (d := 1000) rfl (by omega)
  have hmillis := toInt_mod hn₁ (k := 1000) (d := 1000) rfl (by omega) (by omega)
  have hn₂ := toInt_div hn₁ (k := 1000) (d := 1000) rfl (by omega)
  have hsecond := toInt_mod hn₂ (k := 60) (d := 60) rfl (by omega) (by omega)
  have hn₃ := toInt_div hn₂ (k := 60) (d := 60) rfl (by omega)
  have hminute := toInt_mod hn₃ (k := 60) (d := 60) rfl (by omega) (by omega)
  have hn₄ := toInt_div hn₃ (k := 60) (d := 60) rfl (by omega)
  have hhour := toInt_mod hn₄ (k := 24) (d := 24) rfl (by omega) (by omega)
  have hn₅ := toInt_div hn₄ (k := 24) (d := 24) rfl (by omega)
  have hdays : n / 1000 / 1000 / 60 / 60 / 24 = n / 86400000000 := by omega
  obtain ⟨s, u, date, hnumber, hy, hsyear, humonth, huday, hrun⟩ :=
    exists_date hn₅ (by rw [hdays]; exact hyear)
  let t : Calendar.Moment := {
    toDate := date
    hour := n / 1000 / 1000 / 60 / 60 % 24
    minute := n / 1000 / 1000 / 60 % 60
    second := n / 1000 / 1000 % 60
    milli := n / 1000 % 1000
    micro := n % 1000
    hour_lt := Nat.mod_lt _ (by omega)
    minute_lt := Nat.mod_lt _ (by omega)
    second_lt := Nat.mod_lt _ (by omega)
    milli_lt := Nat.mod_lt _ (by omega)
    micro_lt := Nat.mod_lt _ (by omega) }
  refine ⟨t, ?_, fun fuel hfuel => ?_⟩
  · rw [hn, Calendar.Moment.micros]
    show ((((((date.number : ℤ) - Calendar.daysBeforeYear 1970) * 24 +
      (n / 1000 / 1000 / 60 / 60 % 24 : ℕ)) * 60 + (n / 1000 / 1000 / 60 % 60 : ℕ)) * 60 +
      (n / 1000 / 1000 % 60 : ℕ)) * 1000 + (n / 1000 % 1000 : ℕ)) * 1000 + (n % 1000 : ℕ) = n
    omega
  · obtain ⟨hyears, hmonths⟩ := hrun fuel hfuel
    have htext := isoText_eq (t := t) (Nat.le_trans (by omega) hy) hsyear humonth huday hhour
      hminute hsecond hmillis hmicros
    unfold isoDate
    dsimp only
    rw [hyears, Option.bind_some, hmonths, Option.map_some, htext]

theorem isoDate_leapDay :
    ∃ t : Calendar.Moment, t.micros = (951827696789012 : Int64).toInt ∧
      ∀ fuel, 32768 - 1970 < fuel → isoDate fuel 951827696789012 = some (t.text.map chr) := by
  refine isoDate_eq (by decide) ?_
  have hnat : (951827696789012 : Int64).toInt.toNat = 951827696789012 := rfl
  have hadd := (Calendar.daysBeforeYear_add 1970 (32768 - 1970)).1
  rw [hnat, Calendar.yearOfMicros, Calendar.year_le_iff]
  exact Nat.lt_of_lt_of_le (by omega) hadd

example : isoDate 100 951827696789012 = some (bytesOf "2000-02-29T12:34:56.789012Z") := by
  decide +kernel

end Util

end S3Proxy
