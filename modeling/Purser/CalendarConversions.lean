import Purser.CalendarTexts
import Mathlib.Tactic.IntervalCases

/-!
# The calendar formulas of gateway and agent

Both compute on years that begin in March and eras of 400 years.  The agent's
formula returns the second from which the gateway's formula computed a date.
-/

namespace Purser.CalendarConversions

open CalendarTexts

/-- The era in which a day or a year lies, by a division that truncates. -/
def eraOf (length z : ℤ) : ℤ := (if 0 ≤ z then z else z - (length - 1)).tdiv length

theorem eraOf_of_nonneg {length z : ℤ} (nonneg : 0 ≤ z) : eraOf length z = z / length := by
  rw [eraOf, if_pos nonneg, Int.tdiv_eq_ediv_of_nonneg nonneg]

/-- The year of an era to which a day of the era belongs. -/
def yearOfEra (doe : ℤ) : ℤ :=
  (doe - doe.tdiv 1460 + doe.tdiv 36524 - doe.tdiv 146096).tdiv 365

/-- The days of an era before one of its years. -/
def daysBefore (yoe : ℤ) : ℤ := 365 * yoe + yoe.tdiv 4 - yoe.tdiv 100

/-- The days of a year before one of its months, counted from March. -/
def daysBeforeMonth (mp : ℤ) : ℤ := (153 * mp + 2).tdiv 5

/-- The fields that `rfc3339_now` computes from the seconds of the clock. -/
def rfc3339Fields (secs : ℕ) : Civil :=
  let z : ℤ := (secs / 86400 : ℕ) + 719468
  let era := eraOf 146097 z
  let doe := z - era * 146097
  let yoe := yearOfEra doe
  let y := yoe + era * 400
  let doy := doe - daysBefore yoe
  let mp := (5 * doy + 2).tdiv 153
  let d := doy - daysBeforeMonth mp + 1
  let m := if mp < 10 then mp + 3 else mp - 9
  let tod := secs % 86400
  ⟨y + if m ≤ 2 then 1 else 0, m.toNat, d.toNat, tod / 3600, tod % 3600 / 60, tod % 60⟩

def rfc3339Now (secs : ℕ) : ByteEncodings.Bytes := dateText (rfc3339Fields secs) ++ [sign 'Z']

/-- The sum is a machine number of 64 bits. -/
def dateToUnixSecs (date : Civil) : Option ℕ :=
  if ¬(1 ≤ date.month ∧ date.month ≤ 12) ∨ ¬(1 ≤ date.day ∧ date.day ≤ 31) ∨ 23 < date.hour ∨
      59 < date.minute ∨ 59 < date.second then none
  else
    let y := if date.month ≤ 2 then date.year - 1 else date.year
    let m := if date.month ≤ 2 then date.month + 9 else date.month - 3
    let d : ℤ := date.day - 1
    let era := eraOf 400 y
    let yoe := y - era * 400
    let doy := daysBeforeMonth m + d
    let doe := daysBefore yoe + doy
    let days := era * 146097 + doe - 719468
    let total := (days * 86400 + date.hour * 3600 + date.minute * 60 + date.second).bmod (2 ^ 64)
    if total < 0 then none else some total.toNat

/-- A day of an era is in one of its 400 years, and the last day of a year that
has 366 is in front of a leap year's first of March. -/
theorem yearOfEra_spec {doe : ℤ} (nonneg : 0 ≤ doe) (bounded : doe < 146097) :
    0 ≤ yearOfEra doe ∧ yearOfEra doe ≤ 399 ∧ 0 ≤ doe - daysBefore (yearOfEra doe) ∧
      doe - daysBefore (yearOfEra doe) ≤ 365 ∧
      (doe - daysBefore (yearOfEra doe) = 365 → isLeap (yearOfEra doe + 1) = true) := by
  obtain ⟨cycle, century, four, single, centuryNonneg, centuryLe, fourNonneg, fourLe,
    singleNonneg, singleLe, -, whole, short, restLt, inCentury⟩ := exists_cycles (doe - 719162)
  generalize (yearAndDay (doe - 719162)).2 = rest at whole short restLt inCentury
  have first : cycle = 0 := by omega
  have leaps : doe / 1460 =
      25 * century + four + (24 * century + four + 365 * single + rest) / 1460 := by omega
  have centuries : doe / 36524 = century + doe / 146096 := by omega
  have year : yearOfEra doe = 100 * century + 4 * four + single := by
    rw [yearOfEra, Int.tdiv_eq_ediv_of_nonneg nonneg, Int.tdiv_eq_ediv_of_nonneg nonneg,
      Int.tdiv_eq_ediv_of_nonneg nonneg, Int.tdiv_eq_ediv_of_nonneg (by omega)]
    omega
  have before : daysBefore (yearOfEra doe) = 36524 * century + 1461 * four + 365 * single := by
    have fours : (100 * century + 4 * four + single) / 4 = 25 * century + four := by omega
    have hundreds : (100 * century + 4 * four + single) / 100 = century := by omega
    rw [daysBefore, year, Int.tdiv_eq_ediv_of_nonneg (by omega),
      Int.tdiv_eq_ediv_of_nonneg (by omega), fours, hundreds]
    omega
  refine ⟨by omega, by omega, by omega, by omega, fun last => ?_⟩
  simp only [isLeap, year, Bool.and_eq_true, Bool.or_eq_true, decide_eq_true_eq]
  omega

/-- The date of a second, its year also counted from March in an era and its
month from March. -/
theorem rfc3339Fields_spec (secs : ℕ) :
    ∃ era yoe mp : ℤ, 0 ≤ era ∧ 0 ≤ yoe ∧ yoe ≤ 399 ∧ 0 ≤ mp ∧ mp ≤ 11 ∧
      (rfc3339Fields secs).year = yoe + era * 400 + (if 10 ≤ mp then 1 else 0) ∧
      (rfc3339Fields secs).month = (if 10 ≤ mp then mp - 9 else mp + 3) ∧
      1 ≤ (rfc3339Fields secs).day ∧
      (rfc3339Fields secs).day ≤ daysBeforeMonth (mp + 1) - daysBeforeMonth mp ∧
      (mp = 11 → (rfc3339Fields secs).day ≤ 29 ∧
        ((rfc3339Fields secs).day = 29 → isLeap (yoe + 1) = true)) ∧
      era * 146097 + daysBefore yoe + daysBeforeMonth mp + (rfc3339Fields secs).day =
        (secs / 86400 : ℕ) + 719469 ∧
      (secs / 86400 : ℕ) + 719468 < (era + 1) * 146097 := by
  have shifted : (0 : ℤ) ≤ (secs / 86400 : ℕ) + 719468 := by omega
  simp only [rfc3339Fields, eraOf_of_nonneg shifted]
  generalize eraIs : (((secs / 86400 : ℕ) + 719468) / 146097 : ℤ) = era
  generalize doeIs : ((secs / 86400 : ℕ) + 719468 - era * 146097 : ℤ) = doe
  obtain ⟨yearNonneg, yearLe, dayNonneg, dayLe, leap⟩ :=
    yearOfEra_spec (show 0 ≤ doe by omega) (by omega)
  generalize yearOfEra doe = yoe at *
  generalize doyIs : doe - daysBefore yoe = doy at *
  rw [Int.tdiv_eq_ediv_of_nonneg (by omega)]
  generalize mpIs : (5 * doy + 2) / 153 = mp
  have mpNonneg : 0 ≤ mp := by omega
  have mpLe : mp ≤ 11 := by omega
  have beforeEq : daysBeforeMonth mp = (153 * mp + 2) / 5 := Int.tdiv_eq_ediv_of_nonneg (by omega)
  have nextEq : daysBeforeMonth (mp + 1) = (153 * (mp + 1) + 2) / 5 :=
    Int.tdiv_eq_ediv_of_nonneg (by omega)
  refine ⟨era, yoe, mp, by omega, yearNonneg, yearLe, mpNonneg, mpLe, ?_, ?_, by omega, by omega,
    fun last => ⟨by omega, fun day => leap (by omega)⟩, by omega, by omega⟩
  · split <;> split <;> split <;> omega
  · split <;> split <;> omega

theorem isLeap_add_eras (year era : ℤ) : isLeap (year + era * 400) = isLeap year := by
  have fours : (year + era * 400) % 4 = year % 4 := by omega
  have hundreds : (year + era * 400) % 100 = year % 100 := by omega
  unfold isLeap
  rw [fours, hundreds, Int.add_mul_emod_self_right]

/-- A month is as long as the distance between the days before it and before the
next, February apart. -/
theorem day_le_daysIn {year mp : ℤ} {month day : ℕ} (mpNonneg : 0 ≤ mp) (mpLe : mp ≤ 11)
    (monthEq : (month : ℤ) = if 10 ≤ mp then mp - 9 else mp + 3)
    (dayLe : day ≤ daysBeforeMonth (mp + 1) - daysBeforeMonth mp)
    (february : mp = 11 → day ≤ 29 ∧ (day = 29 → isLeap year = true)) :
    day ≤ Civil.daysIn year month := by
  rcases eq_or_ne mp 11 with rfl | other
  · obtain ⟨atMost, leap⟩ := february rfl
    rw [if_pos (by decide)] at monthEq
    obtain rfl : month = 2 := by omega
    show day ≤ if isLeap year then 29 else 28
    split
    next => exact atMost
    next common =>
      have earlier : day ≠ 29 := fun last => common (leap last)
      omega
  · have place : month = (if 10 ≤ mp then mp - 9 else mp + 3).toNat := by
      rw [← monthEq, Int.toNat_natCast]
    rw [place]
    clear monthEq february
    interval_cases mp <;> simp [Civil.daysIn, monthLengths, daysBeforeMonth] at * <;> omega

/-- The date that the gateway computes exists, and the agent computes from it the
second of the gateway's clock. -/
theorem dateToUnixSecs_rfc3339Fields (secs : ℕ) (fourDigits : (rfc3339Fields secs).year ≤ 9999) :
    (rfc3339Fields secs).Regular ∧ dateToUnixSecs (rfc3339Fields secs) = some secs := by
  obtain ⟨era, yoe, mp, eraNonneg, yearNonneg, yearLe, mpNonneg, mpLe, year, month, dayPos, dayLe,
    february, whole, inEra⟩ := rfc3339Fields_spec secs
  have hour : (rfc3339Fields secs).hour = secs % 86400 / 3600 := rfl
  have minute : (rfc3339Fields secs).minute = secs % 86400 % 3600 / 60 := rfl
  have second : (rfc3339Fields secs).second = secs % 86400 % 60 := rfl
  generalize rfc3339Fields secs = date at *
  have daysIn : date.day ≤ Civil.daysIn date.year date.month := by
    refine day_le_daysIn mpNonneg mpLe month dayLe fun last => ?_
    rw [year, if_pos (by omega), add_right_comm, isLeap_add_eras]
    exact february last
  have regular : date.Regular := by
    split at month <;> constructor <;> omega
  refine ⟨regular, ?_⟩
  have atMost := daysIn.trans (Civil.daysIn_le _ _)
  -- the agent counts years and months from March again
  have years : (if date.month ≤ 2 then date.year - 1 else date.year) = yoe + era * 400 := by
    split at month <;> split at year <;> split <;> omega
  have months : ((if date.month ≤ 2 then date.month + 9 else date.month - 3 : ℕ) : ℤ) = mp := by
    split at month <;> split <;> omega
  have eras : eraOf 400 (yoe + era * 400) = era := by
    rw [eraOf_of_nonneg (by omega)]
    omega
  have total : (era * 146097 + (daysBefore yoe + (daysBeforeMonth mp + (date.day - 1))) - 719468) *
      86400 + date.hour * 3600 + date.minute * 60 + date.second = (secs : ℤ) := by
    omega
  have small : (secs : ℤ) < 2 ^ 63 := by
    split at year <;> omega
  have accepted : ¬(¬(1 ≤ date.month ∧ date.month ≤ 12) ∨ ¬(1 ≤ date.day ∧ date.day ≤ 31) ∨
      23 < date.hour ∨ 59 < date.minute ∨ 59 < date.second) := by
    split at month <;> omega
  rw [dateToUnixSecs, if_neg accepted]
  simp only [years, months, eras, add_sub_cancel_right, total]
  rw [Int.bmod_eq_of_le (by omega) (by omega), if_neg (by omega), Int.toNat_natCast]

/-- The last second of a leap February that ends a cycle of four centuries. -/
theorem dateToUnixSecs_leapDay : (rfc3339Fields 951868799).Regular ∧
    dateToUnixSecs (rfc3339Fields 951868799) = some 951868799 :=
  dateToUnixSecs_rfc3339Fields 951868799 (by decide)

end Purser.CalendarConversions
