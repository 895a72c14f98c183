import Purser.ByteEncodings
import Mathlib.Data.Nat.Digits.Lemmas
import Mathlib.Data.List.DropRight
import Mathlib.Data.Int.ModEq
import Mathlib.Tactic.Ring
import Mathlib.Tactic.NormNum

/-!
# Times and their texts

A text is a date, a time of day, a fraction without trailing zeros and an
offset.  The reader takes what the standard reader of the source's language
takes, which is more than the writer writes.
-/

namespace Purser.CalendarTexts

open ByteEncodings List
open Option (bind_eq_some_iff bind_some bind_eq_bind)

structure Time where
  /-- Seconds since the beginning of 1970, universal time. -/
  seconds : ℤ
  nanoseconds : ℕ
  subsecond : nanoseconds < 1000000000
  /-- Seconds by which the shown time is ahead of universal time. -/
  offset : ℤ

namespace Time

def utc (time : Time) : Time := { time with offset := 0 }

/-- The beginning of the year 1. -/
def zero : Time := ⟨-62135596800, 0, by decide, 0⟩

def isZero (time : Time) : Bool := time.seconds = -62135596800 && time.nanoseconds = 0

/-- Nanoseconds since the beginning of 1970, in 64 bits. -/
def unixNano (time : Time) : ℤ := (time.seconds * 1000000000 + time.nanoseconds).bmod (2 ^ 64)

end Time

/-! ## The calendar -/

def isLeap (year : ℤ) : Bool := year % 4 = 0 && (year % 100 ≠ 0 || year % 400 = 0)

/-- The year of a day, counted from the beginning of 1970, and the day within
the year.  Years come in cycles of 400, 100 and 4. -/
def yearAndDay (days : ℤ) : ℤ × ℕ :=
  let shifted := days + 719162
  let inCycle := (shifted % 146097).toNat
  let century := min (inCycle / 36524) 3
  let inCentury := inCycle - 36524 * century
  let inFour := inCentury % 1461
  let single := min (inFour / 365) 3
  (1 + 400 * (shifted / 146097) + 100 * century + 4 * (inCentury / 1461) + single,
    inFour - 365 * single)

def daysBeforeYear (year : ℤ) : ℤ :=
  let passed := year - 1
  365 * passed + passed / 4 - passed / 100 + passed / 400 - 719162

theorem exists_cycles (days : ℤ) :
    ∃ cycle century four single : ℤ, 0 ≤ century ∧ century ≤ 3 ∧ 0 ≤ four ∧ four ≤ 24 ∧
      0 ≤ single ∧ single ≤ 3 ∧
      (yearAndDay days).1 = 1 + 400 * cycle + 100 * century + 4 * four + single ∧
      days + 719162 = 146097 * cycle + 36524 * century + 1461 * four + 365 * single +
        (yearAndDay days).2 ∧
      (single < 3 → (yearAndDay days).2 < 365) ∧ (yearAndDay days).2 < 366 ∧
      (century < 3 → 1461 * four + 365 * single + (yearAndDay days).2 < 36524) := by
  refine ⟨(days + 719162) / 146097, (min (((days + 719162) % 146097).toNat / 36524) 3 : ℕ),
    ((((days + 719162) % 146097).toNat -
      36524 * min (((days + 719162) % 146097).toNat / 36524) 3) / 1461 : ℕ),
    (min ((((days + 719162) % 146097).toNat -
      36524 * min (((days + 719162) % 146097).toNat / 36524) 3) % 1461 / 365) 3 : ℕ), ?_⟩
  simp only [yearAndDay]
  omega

theorem daysBeforeYear_yearAndDay (days : ℤ) :
    daysBeforeYear (yearAndDay days).1 + (yearAndDay days).2 = days := by
  obtain ⟨cycle, century, four, single, centuryNonneg, centuryLe, fourNonneg, fourLe,
    singleNonneg, singleLe, year, whole, -, -, -⟩ := exists_cycles days
  have fours : (400 * cycle + 100 * century + 4 * four + single) / 4 =
      100 * cycle + 25 * century + four := by omega
  have centuries : (400 * cycle + 100 * century + 4 * four + single) / 100 =
      4 * cycle + century := by omega
  have cycles : (400 * cycle + 100 * century + 4 * four + single) / 400 = cycle := by omega
  have passed : (yearAndDay days).1 - 1 = 400 * cycle + 100 * century + 4 * four + single := by
    omega
  simp only [daysBeforeYear, passed, fours, centuries, cycles]
  omega

theorem yearAndDay_day_lt (days : ℤ) :
    (yearAndDay days).2 < if isLeap (yearAndDay days).1 then 366 else 365 := by
  obtain ⟨cycle, century, four, single, centuryNonneg, centuryLe, fourNonneg, fourLe,
    singleNonneg, singleLe, year, -, short, dayLt, inCentury⟩ := exists_cycles days
  split
  next leap => exact dayLt
  next common =>
    by_contra last
    have isLast : single = 3 := by omega
    refine common ?_
    -- The last year of four is leap, but for a century that does not end its cycle.
    simp only [isLeap, year, isLast, Bool.and_eq_true, Bool.or_eq_true, decide_eq_true_eq]
    omega

def monthLengths (leap : Bool) : List ℕ :=
  [31, if leap then 29 else 28, 31, 30, 31, 30, 31, 31, 30, 31, 30, 31]

def monthAndDay : List ℕ → ℕ → ℕ × ℕ
  | [], day => (0, day)
  | length :: lengths, day =>
    if day < length then (0, day)
    else
      let (month, rest) := monthAndDay lengths (day - length)
      (month + 1, rest)

theorem sum_take_monthAndDay (lengths : List ℕ) (day : ℕ) :
    (lengths.take (monthAndDay lengths day).1).sum + (monthAndDay lengths day).2 = day := by
  induction lengths generalizing day with
  | nil => simp [monthAndDay]
  | cons length _ induction =>
    simp only [monthAndDay]
    split
    · simp
    · have rest := induction (day - length)
      simp only [take_succ_cons, sum_cons]
      omega

theorem monthAndDay_lt {lengths : List ℕ} {day : ℕ} (inside : day < lengths.sum) :
    (monthAndDay lengths day).1 < lengths.length ∧
      (monthAndDay lengths day).2 < lengths.getD (monthAndDay lengths day).1 0 := by
  induction lengths generalizing day with
  | nil => simp at inside
  | cons length lengths induction =>
    simp only [monthAndDay]
    split
    next early => exact ⟨by simp, by simpa using early⟩
    next late =>
      rw [sum_cons] at inside
      have rest := induction (show day - length < lengths.sum by omega)
      simpa using rest

/-! ## Broken-down times -/

/-- Months and days are counted from one. -/
structure Civil where
  year : ℤ
  month : ℕ
  day : ℕ
  hour : ℕ
  minute : ℕ
  second : ℕ

def civil (seconds : ℤ) : Civil :=
  let date := yearAndDay (seconds / 86400)
  let clock := (seconds % 86400).toNat
  let place := monthAndDay (monthLengths (isLeap date.1)) date.2
  ⟨date.1, place.1 + 1, place.2 + 1, clock / 3600, clock % 3600 / 60, clock % 60⟩

namespace Civil

def daysIn (year : ℤ) (month : ℕ) : ℕ := (monthLengths (isLeap year)).getD (month - 1) 0

def seconds (date : Civil) : ℤ :=
  let days := daysBeforeYear date.year +
    ((monthLengths (isLeap date.year)).take (date.month - 1)).sum + (date.day - 1)
  days * 86400 + date.hour * 3600 + date.minute * 60 + date.second

/-- The bounds that the reader checks. -/
structure Regular (date : Civil) : Prop where
  month_pos : 1 ≤ date.month
  month_le : date.month ≤ 12
  day_pos : 1 ≤ date.day
  day_le : date.day ≤ daysIn date.year date.month
  hour_lt : date.hour < 24
  minute_lt : date.minute < 60
  second_lt : date.second < 60

theorem daysIn_le (year : ℤ) (month : ℕ) : daysIn year month ≤ 31 := by
  have bounded (leap : Bool) : ∀ length ∈ monthLengths leap, length ≤ 31 := by
    cases leap <;> decide
  unfold daysIn
  rw [getD_eq_getElem?_getD]
  cases found : (monthLengths (isLeap year))[month - 1]? with
  | none => simp
  | some => exact bounded _ _ (mem_of_getElem? found)

end Civil

theorem seconds_civil (seconds : ℤ) : (civil seconds).seconds = seconds := by
  have days := daysBeforeYear_yearAndDay (seconds / 86400)
  have months := sum_take_monthAndDay
    (monthLengths (isLeap (yearAndDay (seconds / 86400)).1)) (yearAndDay (seconds / 86400)).2
  simp only [Civil.seconds, civil, Nat.add_sub_cancel]
  omega

theorem regular_civil (seconds : ℤ) : (civil seconds).Regular := by
  have inside := yearAndDay_day_lt (seconds / 86400)
  have total (leap : Bool) : (monthLengths leap).sum = if leap then 366 else 365 := by
    cases leap <;> rfl
  rw [← total] at inside
  obtain ⟨month, day⟩ := monthAndDay_lt inside
  refine ⟨Nat.le_add_left _ _, month, Nat.le_add_left _ _, ?_, ?_, ?_, ?_⟩
  · simpa [civil, Civil.daysIn] using day
  all_goals
    simp only [civil]
    omega

/-! ## Decimal digits -/

def sign (c : Char) : UInt8 := UInt8.ofNat c.toNat

def isDigit (byte : UInt8) : Bool := 48 ≤ byte.toNat && byte.toNat ≤ 57

/-- The last digits of a number. -/
def decimals : ℕ → ℕ → Bytes
  | 0, _ => []
  | width + 1, value => decimals width (value / 10) ++ [UInt8.ofNat (48 + value % 10)]

def padded (width value : ℕ) : Bytes := decimals (max width (Nat.digits 10 value).length) value

def digitsValue (digits : Bytes) : ℕ :=
  digits.foldl (fun value digit => value * 10 + (digit.toNat - 48)) 0

@[simp]
theorem length_decimals (width value : ℕ) : (decimals width value).length = width := by
  induction width generalizing value with
  | zero => rfl
  | succ _ induction => simp [decimals, induction]

variable {width value : ℕ} {date : Civil} {rest : Bytes}

theorem padded_of_lt (small : value < 10 ^ width) : padded width value = decimals width value := by
  have short : (Nat.digits 10 value).length ≤ width :=
    (Nat.digits_length_le_iff (by decide) value).mpr small
  rw [padded, max_eq_left short]

theorem digitsValue_append (digits others : Bytes) : digitsValue (digits ++ others) =
      digitsValue digits * 10 ^ others.length + digitsValue others := by
  induction others using List.reverseRecOn with
  | nil => simp [digitsValue]
  | append_singleton _ digit induction =>
    have last (front : Bytes) :
        digitsValue (front ++ [digit]) = digitsValue front * 10 + (digit.toNat - 48) := by
      simp [digitsValue]
    rw [← append_assoc, last, last, induction, length_append, length_singleton]
    ring

theorem digitsValue_decimals (small : value < 10 ^ width) :
    digitsValue (decimals width value) = value := by
  induction width generalizing value with
  | zero =>
    have none : value = 0 := by simpa using small
    simp [decimals, digitsValue, none]
  | succ _ induction =>
    rw [decimals, digitsValue_append, induction (by omega)]
    have digit : digitsValue [UInt8.ofNat (48 + value % 10)] = value % 10 := by
      simp only [digitsValue, foldl_cons, foldl_nil]
      rw [toNat_ofNat (by omega)]
      omega
    rw [length_singleton]
    omega

theorem isDigit_of_mem_decimals : ∀ byte ∈ decimals width value, isDigit byte = true := by
  induction width generalizing value with
  | zero => simp [decimals]
  | succ _ induction =>
    intro byte member
    rw [decimals, mem_append, mem_singleton] at member
    rcases member with front | rfl
    · exact induction byte front
    · simp only [isDigit, Bool.and_eq_true, decide_eq_true_eq]
      rw [toNat_ofNat (by omega)]
      omega

/-! ## Writing -/

def yearText (year : ℤ) : Bytes := (if year < 0 then [sign '-'] else []) ++ padded 4 year.natAbs

def fractionText (nanoseconds : ℕ) : Bytes :=
  let digits := (decimals 9 nanoseconds).rdropWhile (· = 48)
  if digits = [] then [] else sign '.' :: digits

def zoneText (offset : ℤ) : Bytes :=
  if offset = 0 then [sign 'Z']
  else
    let minutes := offset.tdiv 60
    sign (if minutes < 0 then '-' else '+') :: padded 2 (minutes.natAbs / 60) ++
      sign ':' :: padded 2 (minutes.natAbs % 60)

def dateText (date : Civil) : Bytes :=
  yearText date.year ++ sign '-' :: padded 2 date.month ++ sign '-' :: padded 2 date.day ++
    sign 'T' :: padded 2 date.hour ++ sign ':' :: padded 2 date.minute ++
    sign ':' :: padded 2 date.second

def formatSeconds (time : Time) : Bytes :=
  dateText (civil (time.seconds + time.offset)) ++ zoneText time.offset

def formatNano (time : Time) : Bytes :=
  dateText (civil (time.seconds + time.offset)) ++ fractionText time.nanoseconds ++
    zoneText time.offset

/-! ## Reading -/

def skip (c : Char) : Bytes → Option Bytes
  | byte :: rest => if byte = sign c then some rest else none
  | [] => none

def getnum (fixed : Bool) : Bytes → Option (ℕ × Bytes)
  | first :: second :: rest =>
    if isDigit first = false then none
    else if isDigit second then some (digitsValue [first, second], rest)
    else if fixed then none
    else some (digitsValue [first], second :: rest)
  | [first] => if isDigit first = true ∧ fixed = false then some (digitsValue [first], []) else none
  | [] => none

def readYear (value : Bytes) : Option (ℕ × Bytes) :=
  if value.length < 4 ∨ (value.take 4).all isDigit = false then none
  else some (digitsValue (value.take 4), value.drop 4)

def readFraction : Bytes → ℕ × Bytes
  | point :: first :: rest =>
    if (point = sign '.' ∨ point = sign ',') ∧ isDigit first = true then
      let digits := (first :: rest).takeWhile isDigit
      let used := digits.take 9
      (digitsValue used * 10 ^ (9 - used.length), (first :: rest).dropWhile isDigit)
    else (0, point :: first :: rest)
  | short => (0, short)

def readZone : Bytes → Option (ℤ × Bytes)
  | [] => none
  | mark :: rest =>
    if mark = sign 'Z' then some (0, rest)
    else if rest.length < 5 then none
    else do
      let (hours, afterHours) ← getnum true rest
      let minutesText ← skip ':' afterHours
      let (minutes, rest) ← getnum true minutesText
      if 24 < hours ∨ 60 < minutes then none
      else if mark = sign '+' then some ((hours * 60 + minutes) * 60, rest)
      else if mark = sign '-' then some (-((hours * 60 + minutes) * 60 : ℤ), rest)
      else none

def readDate (value : Bytes) : Option (Civil × Bytes) := do
  let (year, value) ← readYear value
  let value ← skip '-' value
  let (month, value) ← getnum true value
  let value ← skip '-' value
  let (day, value) ← getnum true value
  let value ← skip 'T' value
  let (hour, value) ← getnum false value
  let value ← skip ':' value
  let (minute, value) ← getnum true value
  let value ← skip ':' value
  let (second, value) ← getnum true value
  if (1 ≤ month ∧ month ≤ 12) ∧ (1 ≤ day ∧ day ≤ Civil.daysIn year month) ∧
      hour < 24 ∧ minute < 60 ∧ second < 60 then
    some (⟨year, month, day, hour, minute, second⟩, value)
  else none

theorem digitsValue_lt {digits : Bytes} (all : ∀ byte ∈ digits, isDigit byte = true) :
    digitsValue digits < 10 ^ digits.length := by
  induction digits using List.reverseRecOn with
  | nil => simp [digitsValue]
  | append_singleton _ digit induction =>
    have front := induction fun byte member => all byte (mem_append_left _ member)
    have last := all digit (by simp)
    simp only [isDigit, Bool.and_eq_true, decide_eq_true_eq] at last
    have one : digitsValue [digit] = digit.toNat - 48 := by simp [digitsValue]
    rw [digitsValue_append, length_append, length_singleton]
    omega

theorem readFraction_lt (value : Bytes) : (readFraction value).1 < 1000000000 := by
  unfold readFraction
  split
  next point first rest =>
    split
    next =>
      have digits : ∀ byte ∈ ((first :: rest).takeWhile isDigit).take 9, isDigit byte = true :=
        fun byte member => mem_takeWhile_imp (mem_of_mem_take member)
      have small := digitsValue_lt digits
      calc
        _ < 10 ^ (((first :: rest).takeWhile isDigit).take 9).length *
            10 ^ (9 - (((first :: rest).takeWhile isDigit).take 9).length) :=
          Nat.mul_lt_mul_of_pos_right small (by positivity)
        _ = 1000000000 := by
          rw [← pow_add]
          norm_num
    next => simp
  next => simp

def parse (value : Bytes) : Option Time := do
  let (date, value) ← readDate value
  let fraction := readFraction value
  let (offset, rest) ← readZone fraction.2
  if rest = [] then
    some ⟨date.seconds - offset, fraction.1, readFraction_lt value, offset⟩
  else none

/-! ## Reading what was written -/

@[simp]
theorem skip_sign (c : Char) (rest : Bytes) : skip c (sign c :: rest) = some rest := by
  simp [skip]

theorem getnum_decimals (small : value < 100) (fixed : Bool) (rest : Bytes) :
    getnum fixed (decimals 2 value ++ rest) = some (value, rest) := by
  have digits := @isDigit_of_mem_decimals 2 value
  have whole := digitsValue_decimals (show value < 10 ^ 2 by omega)
  simp only [decimals, nil_append, cons_append] at digits whole ⊢
  simp only [getnum, digits _ mem_cons_self,
    digits _ (mem_cons_of_mem _ mem_cons_self), whole, if_true, Bool.true_eq_false,
    if_false]

theorem readYear_decimals {year : ℕ} (small : year < 10000) (rest : Bytes) :
    readYear (decimals 4 year ++ rest) = some (year, rest) := by
  have front : (decimals 4 year ++ rest).take 4 = decimals 4 year := by
    simp
  have digits : (decimals 4 year).all isDigit = true := all_eq_true.mpr isDigit_of_mem_decimals
  rw [readYear, front, digits, digitsValue_decimals (by omega)]
  simp

theorem digitsValue_rdropWhile (digits : Bytes) : digitsValue (digits.rdropWhile (· = 48)) *
      10 ^ (digits.length - (digits.rdropWhile (· = 48)).length) = digitsValue digits := by
  induction digits using List.reverseRecOn with
  | nil => simp [digitsValue]
  | append_singleton digits digit induction =>
    by_cases zero : digit = 48
    · have dropped : (digits ++ [digit]).rdropWhile (· = 48) = digits.rdropWhile (· = 48) :=
        rdropWhile_concat_pos _ _ _ (by simpa using zero)
      have short : (digits.rdropWhile (· = 48)).length ≤ digits.length :=
        (List.rdropWhile_prefix _ _).length_le
      have one : digitsValue [digit] = 0 := by simp [digitsValue, zero]
      rw [dropped, digitsValue_append, one, ← induction, length_append, Nat.sub_add_comm short]
      ring
    · have kept : (digits ++ [digit]).rdropWhile (· = 48) = digits ++ [digit] :=
        rdropWhile_concat_neg _ _ _ (by simpa using zero)
      simp [kept]

theorem readFraction_fractionText {nanoseconds : ℕ} (small : nanoseconds < 1000000000)
    (rest : Bytes) :
    readFraction (fractionText nanoseconds ++ sign 'Z' :: rest) =
      (nanoseconds, sign 'Z' :: rest) := by
  have value := digitsValue_rdropWhile (decimals 9 nanoseconds)
  rw [digitsValue_decimals (by omega), length_decimals] at value
  have short : ((decimals 9 nanoseconds).rdropWhile (· = 48)).length ≤ 9 := by
    simpa using (List.rdropWhile_prefix (· = 48) (decimals 9 nanoseconds)).length_le
  have digits : ∀ byte ∈ (decimals 9 nanoseconds).rdropWhile (· = 48), isDigit byte = true :=
    fun byte member =>
      isDigit_of_mem_decimals byte ((List.rdropWhile_prefix _ _).subset member)
  have stop : isDigit (sign 'Z') = false := by decide
  unfold fractionText
  generalize (decimals 9 nanoseconds).rdropWhile (· = 48) = written at value short digits ⊢
  cases written with
  | nil =>
    have none : nanoseconds = 0 := by simpa [digitsValue] using value.symm
    have noPoint : ¬ (sign 'Z' = sign '.' ∨ sign 'Z' = sign ',') := by decide
    cases rest <;> simp [readFraction, none, noPoint]
  | cons first others =>
    have isFirst : isDigit first = true := digits first mem_cons_self
    have taken : (first :: (others ++ sign 'Z' :: rest)).takeWhile isDigit = first :: others := by
      rw [← cons_append, takeWhile_append_of_pos (by simpa using digits)]
      simp [stop]
    have left : (first :: (others ++ sign 'Z' :: rest)).dropWhile isDigit = sign 'Z' :: rest := by
      rw [← cons_append, dropWhile_append_of_pos (by simpa using digits)]
      simp [stop]
    simp only [reduceCtorEq, if_false, cons_append, readFraction, true_or, isFirst,
      and_self, if_true, taken, left, take_of_length_le short, value]

theorem readDate_dateText (regular : date.Regular) (notBefore : 0 ≤ date.year)
    (notAfter : date.year ≤ 9999) (rest : Bytes) :
    readDate (dateText date ++ rest) = some (date, rest) := by
  obtain ⟨monthPos, monthLe, dayPos, dayLe, hourLt, minuteLt, secondLt⟩ := regular
  have dayBound := dayLe.trans (Civil.daysIn_le _ _)
  obtain ⟨year, month, day, hour, minute, second⟩ := date
  obtain ⟨year, rfl⟩ := Int.eq_ofNat_of_zero_le notBefore
  simp only at *
  have yearWritten : yearText year = decimals 4 year := by
    rw [yearText, padded_of_lt (by omega)]
    rfl
  have written : dateText ⟨year, month, day, hour, minute, second⟩ ++ rest =
      decimals 4 year ++ sign '-' :: (decimals 2 month ++ sign '-' :: (decimals 2 day ++
        sign 'T' :: (decimals 2 hour ++ sign ':' :: (decimals 2 minute ++
          sign ':' :: (decimals 2 second ++ rest))))) := by
    simp (disch := omega) only [dateText, yearWritten, padded_of_lt, append_assoc, cons_append]
  rw [written, readDate, readYear_decimals (by omega)]
  dsimp only [bind_eq_bind, bind_some]
  iterate 5
    rw [skip_sign, bind_some, getnum_decimals (by omega)]
    dsimp only [bind_some]
  rw [if_pos ⟨⟨monthPos, monthLe⟩, ⟨dayPos, dayLe⟩, hourLt, minuteLt, secondLt⟩]

/-- A time of a year of four digits, shown in universal time. -/
def Time.Readable (time : Time) : Prop :=
  0 ≤ (civil time.seconds).year ∧ (civil time.seconds).year ≤ 9999

instance (time : Time) : Decidable time.Readable := inferInstanceAs (Decidable (_ ∧ _))

theorem parse_formatNano {time : Time} (readable : time.Readable) :
    parse (formatNano time.utc) = some time.utc := by
  have date := readDate_dateText (regular_civil time.seconds) readable.1 readable.2
    (fractionText time.nanoseconds ++ sign 'Z' :: [])
  have fraction := readFraction_fractionText time.subsecond []
  have zone : zoneText 0 = [sign 'Z'] := rfl
  simp only [formatNano, Time.utc, add_zero, zone, append_assoc]
  simp only [parse, date, bind_eq_bind, bind_some, fraction]
  simp only [readZone, if_true, bind_some, seconds_civil, sub_zero]

/-! ## Times that can be read are short when written -/

theorem length_padded (small : value < 10 ^ width) : (padded width value).length = width := by
  rw [padded_of_lt small, length_decimals]

theorem length_padded_le {bound : ℕ} (small : value < 10 ^ bound) (wide : width ≤ bound) :
    (padded width value).length ≤ bound := by
  have short : (Nat.digits 10 value).length ≤ bound :=
    (Nat.digits_length_le_iff (by decide) value).mpr small
  rw [padded, length_decimals]
  exact max_le wide short

theorem year_civil_bounds (seconds : ℤ) : -(seconds.natAbs : ℤ) - 2000 ≤ (civil seconds).year ∧
      (civil seconds).year ≤ seconds.natAbs + 2000 := by
  obtain ⟨cycle, century, four, single, centuryNonneg, centuryLe, fourNonneg, fourLe,
    singleNonneg, singleLe, year, whole, -, dayLt, -⟩ := exists_cycles (seconds / 86400)
  have same : (civil seconds).year = (yearAndDay (seconds / 86400)).1 := rfl
  omega

theorem length_dateText_le {seconds : ℤ} (small : seconds.natAbs < 10 ^ 19) :
    (dateText (civil seconds)).length ≤ 40 := by
  obtain ⟨monthPos, monthLe, dayPos, dayLe, hourLt, minuteLt, secondLt⟩ := regular_civil seconds
  have days := Civil.daysIn_le (civil seconds).year (civil seconds).month
  have years := year_civil_bounds seconds
  have year : (yearText (civil seconds).year).length ≤ 21 := by
    have digits : (padded 4 (civil seconds).year.natAbs).length ≤ 20 :=
      length_padded_le (by omega) (by decide)
    rw [yearText]
    split <;> simp <;> omega
  simp only [dateText, length_append, length_cons]
  rw [length_padded (show (civil seconds).month < 10 ^ 2 by omega),
    length_padded (show (civil seconds).day < 10 ^ 2 by omega),
    length_padded (show (civil seconds).hour < 10 ^ 2 by omega),
    length_padded (show (civil seconds).minute < 10 ^ 2 by omega),
    length_padded (show (civil seconds).second < 10 ^ 2 by omega)]
  omega

theorem length_zoneText_le {offset : ℤ} (small : offset.natAbs ≤ 90000) :
    (zoneText offset).length ≤ 6 := by
  rw [zoneText]
  split
  next => simp
  next =>
    have whole : (offset.tdiv 60).natAbs = offset.natAbs / 60 := Int.natAbs_tdiv offset 60
    have hours : (offset.tdiv 60).natAbs / 60 < 10 ^ 2 := by omega
    have minutes : (offset.tdiv 60).natAbs % 60 < 10 ^ 2 := by omega
    simp only [length_append, length_cons, length_padded hours, length_padded minutes]
    omega

theorem readYear_lt {value : Bytes} {year : ℕ} (read : readYear value = some (year, rest)) :
    year < 10000 := by
  rw [readYear] at read
  split at read
  · cases read
  next fits =>
    cases read
    have long : (value.take 4).length = 4 := by
      rw [length_take]
      omega
    have digits : (value.take 4).all isDigit = true := by
      by_contra other
      exact fits (.inr (Bool.eq_false_of_not_eq_true other))
    have small := digitsValue_lt (all_eq_true.mp digits)
    rwa [long] at small

theorem readDate_bounds {value : Bytes} (read : readDate value = some (date, rest)) :
    0 ≤ date.year ∧ date.year < 10000 ∧ date.Regular := by
  obtain ⟨⟨year, _⟩, readYear, read⟩ := bind_eq_some_iff.mp read
  obtain ⟨_, _, read⟩ := bind_eq_some_iff.mp read
  obtain ⟨⟨month, _⟩, _, read⟩ := bind_eq_some_iff.mp read
  obtain ⟨_, _, read⟩ := bind_eq_some_iff.mp read
  obtain ⟨⟨day, _⟩, _, read⟩ := bind_eq_some_iff.mp read
  obtain ⟨_, _, read⟩ := bind_eq_some_iff.mp read
  obtain ⟨⟨hour, _⟩, _, read⟩ := bind_eq_some_iff.mp read
  obtain ⟨_, _, read⟩ := bind_eq_some_iff.mp read
  obtain ⟨⟨minute, _⟩, _, read⟩ := bind_eq_some_iff.mp read
  obtain ⟨_, _, read⟩ := bind_eq_some_iff.mp read
  obtain ⟨⟨second, _⟩, _, read⟩ := bind_eq_some_iff.mp read
  dsimp only at read
  have small := readYear_lt readYear
  split at read
  next fits =>
    cases read
    obtain ⟨⟨monthPos, monthLe⟩, ⟨dayPos, dayLe⟩, hourLt, minuteLt, secondLt⟩ := fits
    exact ⟨Int.natCast_nonneg year, Int.ofNat_lt.mpr small, monthPos, monthLe, dayPos, dayLe,
      hourLt, minuteLt, secondLt⟩
  next => cases read

theorem natAbs_readZone_le {value : Bytes} {offset : ℤ}
    (read : readZone value = some (offset, rest)) : offset.natAbs ≤ 90000 := by
  cases value with
  | nil => cases read
  | cons =>
    rw [readZone] at read
    split at read
    · cases read
      decide
    · split at read
      · cases read
      · simp only [bind_eq_bind, bind_eq_some_iff, Prod.exists] at read
        obtain ⟨hours, _, _, _, _, minutes, _, _, read⟩ := read
        split at read
        · cases read
        next fits =>
          split at read
          · cases read
            omega
          · split at read
            · cases read
              omega
            · cases read

theorem natAbs_seconds_lt (notBefore : 0 ≤ date.year) (notAfter : date.year < 10000)
    (regular : date.Regular) : date.seconds.natAbs < 10 ^ 19 := by
  obtain ⟨monthPos, monthLe, dayPos, dayLe, hourLt, minuteLt, secondLt⟩ := regular
  have days := Civil.daysIn_le date.year date.month
  have months : ((monthLengths (isLeap date.year)).take (date.month - 1)).sum ≤ 366 := by
    have total (leap : Bool) : (monthLengths leap).sum ≤ 366 := by cases leap <;> decide
    have parts := sum_take_add_sum_drop (monthLengths (isLeap date.year)) (date.month - 1)
    have whole := total (isLeap date.year)
    omega
  simp only [Civil.seconds, daysBeforeYear]
  omega

theorem length_formatSeconds_of_parse {value : Bytes} {time : Time}
    (read : parse value = some time) : (formatSeconds time).length ≤ 46 := by
  simp only [parse, bind_eq_bind, bind_eq_some_iff, Prod.exists] at read
  obtain ⟨date, _, readDate, offset, _, readZone, read⟩ := read
  obtain ⟨notBefore, notAfter, regular⟩ := readDate_bounds readDate
  split at read
  next =>
    cases read
    have date := length_dateText_le (natAbs_seconds_lt notBefore notAfter regular)
    have zone := length_zoneText_le (natAbs_readZone_le readZone)
    rw [formatSeconds, sub_add_cancel, length_append]
    exact Nat.add_le_add date zone
  next => cases read

end Purser.CalendarTexts
