import Mathlib.Order.Basic

/-!
# `Rsap.Library.Calendar`: the proleptic Gregorian calendar

Dates and their ordinals, computed as the `datetime` module of Python computes them. The ordinal
of the first of January of the year one is one.

* `toOrdinal_ofOrdinal`: the date of an ordinal has that ordinal.
* `toOrdinal_lt_of_number_lt`: ordinals order dates by year, month and day. The number of a date
  (`Date.number`) has these three as its decimal digits, so it orders dates in the same way.
-/

set_option autoImplicit false

namespace Rsap.Library

/-! ### Years and months -/

/-- `_is_leap`. -/
def isLeap (year : Nat) : Bool := year % 4 = 0 ∧ (year % 100 ≠ 0 ∨ year % 400 = 0)

/-- `_days_before_year`. -/
def daysBeforeYear (year : Nat) : Nat :=
  (year - 1) * 365 + (year - 1) / 4 - (year - 1) / 100 + (year - 1) / 400

/-- `_DAYS_IN_MONTH`, with the extra day of February in a leap year. -/
def daysInMonth (leap : Bool) : Nat → Nat
  | 2 => if leap then 29 else 28
  | 4 | 6 | 9 | 11 => 30
  | _ => 31

/-- `_DAYS_BEFORE_MONTH`, with the extra day of February in a leap year. -/
def daysBeforeMonth (leap : Bool) (month : Nat) : Nat :=
  [0, 0, 31, 59, 90, 120, 151, 181, 212, 243, 273, 304, 334].getD month 0 +
    if 2 < month ∧ leap then 1 else 0

/-- The number of days of a year. -/
def daysInYear (leap : Bool) : Nat := if leap then 366 else 365

/-- The last day of a year comes before the first day of the next year. Each of the three counts
grows only when the year is a multiple of its number. -/
theorem daysBeforeYear_succ (year : Nat) (h : 1 ≤ year) :
    daysBeforeYear (year + 1) = daysBeforeYear year + daysInYear (isLeap year) := by
  obtain ⟨y, rfl⟩ : ∃ y, year = y + 1 := ⟨year - 1, by omega⟩
  have hle : y / 100 ≤ y / 4 := Nat.div_le_div_left (by omega) (by omega)
  unfold daysBeforeYear daysInYear
  rw [Nat.add_sub_cancel, Nat.add_sub_cancel]
  -- the rule of the calendar, from its last exception to the first
  by_cases h400 : (y + 1) % 400 = 0
  · have hleap : isLeap (y + 1) = true := by
      simp [isLeap, h400, (by omega : (y + 1) % 4 = 0)]
    have h4 : (y + 1) / 4 = y / 4 + 1 := by omega
    have h100 : (y + 1) / 100 = y / 100 + 1 := by omega
    have h400 : (y + 1) / 400 = y / 400 + 1 := by omega
    rw [hleap, if_pos rfl, h4, h100, h400]
    omega
  · have hsame : (y + 1) / 400 = y / 400 := by omega
    by_cases h100 : (y + 1) % 100 = 0
    · have hleap : isLeap (y + 1) = false := by
        simp [isLeap, h400, h100]
      have h4 : (y + 1) / 4 = y / 4 + 1 := by omega
      have h100 : (y + 1) / 100 = y / 100 + 1 := by omega
      rw [hleap, if_neg Bool.false_ne_true, hsame, h4, h100]
      omega
    · have hsame' : (y + 1) / 100 = y / 100 := by omega
      by_cases h4 : (y + 1) % 4 = 0
      · have hleap : isLeap (y + 1) = true := by
          simp [isLeap, h100, h4]
        have h4 : (y + 1) / 4 = y / 4 + 1 := by omega
        rw [hleap, if_pos rfl, hsame, hsame', h4]
        omega
      · have hleap : isLeap (y + 1) = false := by
          simp [isLeap, h4]
        have h4 : (y + 1) / 4 = y / 4 := by omega
        rw [hleap, if_neg Bool.false_ne_true, hsame, hsame', h4]
        omega

/-- A whole year fits before the first day of any later year. -/
theorem daysBeforeYear_le (year later : Nat) (h : 1 ≤ year) (hlt : year < later) :
    daysBeforeYear year + daysInYear (isLeap year) ≤ daysBeforeYear later := by
  induction later with
  | zero => omega
  | succ later ih =>
    by_cases heq : year = later
    · rw [← heq]
      exact Nat.le_of_eq (daysBeforeYear_succ year h).symm
    · have hle := ih (by omega)
      rw [daysBeforeYear_succ later (by omega)]
      omega

/-- A month ends before the next one begins. -/
theorem daysBeforeMonth_le : ∀ leap : Bool, ∀ month < 13, ∀ later < 13, 1 ≤ month → month < later →
    daysBeforeMonth leap month + daysInMonth leap month ≤ daysBeforeMonth leap later := by
  decide

/-- A month ends before its year does. -/
theorem daysBeforeMonth_le_year : ∀ leap : Bool, ∀ month < 13, 1 ≤ month →
    daysBeforeMonth leap month + daysInMonth leap month ≤ daysInYear leap := by
  decide

/-- No month has more than 31 days. -/
theorem daysInMonth_le : ∀ leap : Bool, ∀ month < 13, daysInMonth leap month ≤ 31 := by
  decide

/-! ### Dates -/

/-- A `date`. -/
structure Date where
  year : Nat
  month : Nat
  day : Nat
  year_pos : 1 ≤ year
  year_le : year ≤ 9999
  month_pos : 1 ≤ month
  month_le : month ≤ 12
  day_pos : 1 ≤ day
  day_le : day ≤ daysInMonth (isLeap year) month

/-- `toordinal`. -/
def Date.toOrdinal (d : Date) : Nat :=
  daysBeforeYear d.year + daysBeforeMonth (isLeap d.year) d.month + d.day

/-- The year, the month and the day as one decimal number. -/
def Date.number (d : Date) : Nat := d.year * 10000 + d.month * 100 + d.day

/-- The day of a date is at most 31. -/
theorem Date.day_le_31 (d : Date) : d.day ≤ 31 :=
  Nat.le_trans d.day_le (daysInMonth_le _ _ (Nat.lt_succ_of_le d.month_le))

/-- The day of the year does not exceed the length of the year. -/
theorem Date.dayOfYear_le (d : Date) :
    daysBeforeMonth (isLeap d.year) d.month + d.day ≤ daysInYear (isLeap d.year) := by
  have hmonth := daysBeforeMonth_le_year (isLeap d.year) d.month (Nat.lt_succ_of_le d.month_le)
    d.month_pos
  have hday := d.day_le
  omega

/-- A date with the smaller number comes first. -/
theorem toOrdinal_lt_of_number_lt (d e : Date) (h : d.number < e.number) :
    d.toOrdinal < e.toOrdinal := by
  have hday := d.day_le_31
  have hmonth := d.month_le
  have hday' := e.day_le_31
  have hmonth' := e.month_le
  unfold Date.number at h
  have hcases : d.year < e.year ∨ d.year = e.year ∧ d.month < e.month ∨
      d.year = e.year ∧ d.month = e.month ∧ d.day < e.day := by
    omega
  unfold Date.toOrdinal
  rcases hcases with hyear | ⟨hyear, hmonths⟩ | ⟨hyear, hmonths, hdays⟩
  · have hbefore := daysBeforeYear_le d.year e.year d.year_pos hyear
    have hinside := d.dayOfYear_le
    have hpos := e.day_pos
    omega
  · have hbefore := daysBeforeMonth_le (isLeap d.year) d.month (by omega) e.month (by omega)
      d.month_pos hmonths
    have hinside := d.day_le
    have hpos := e.day_pos
    rw [← hyear]
    omega
  · rw [← hyear, ← hmonths]
    omega

/-- The number read off year, month and day orders dates as their ordinals do. -/
theorem number_lt_iff (d e : Date) : d.number < e.number ↔ d.toOrdinal < e.toOrdinal := by
  constructor
  · exact toOrdinal_lt_of_number_lt d e
  · intro h
    by_contra hle
    rcases Nat.lt_or_eq_of_le (Nat.le_of_not_lt hle) with hlt | heq
    · have hback := toOrdinal_lt_of_number_lt e d hlt
      omega
    · -- equal numbers have equal years, months and days
      have hday := d.day_le_31
      have hmonth := d.month_le
      have hday' := e.day_le_31
      have hmonth' := e.month_le
      unfold Date.number at heq
      have hyears : d.year = e.year := by omega
      have hmonths : d.month = e.month := by omega
      have hdays : d.day = e.day := by omega
      unfold Date.toOrdinal at h
      rw [hyears, hmonths, hdays] at h
      omega

/-! ### The date of an ordinal -/

/-- The month and the day in `_ord2ymd`, from the number of the days of the year before it. -/
def monthDay (leap : Bool) (n : Nat) : Nat × Nat :=
  let month := (n + 50) / 32
  if n < daysBeforeMonth leap month then
    (month - 1, n - (daysBeforeMonth leap month - daysInMonth leap (month - 1)) + 1)
  else (month, n - daysBeforeMonth leap month + 1)

/-- `_ord2ymd`. -/
def ymdOfOrdinal (ordinal : Nat) : Nat × Nat × Nat :=
  let n := ordinal - 1
  let n400 := n / 146097
  let n := n % 146097
  let n100 := n / 36524
  let n := n % 36524
  let n4 := n / 1461
  let n := n % 1461
  let n1 := n / 365
  let n := n % 365
  let year := n400 * 400 + 1 + n100 * 100 + n4 * 4 + n1
  if n1 = 4 ∨ n100 = 4 then (year - 1, 12, 31)
  else (year, monthDay (n1 = 3 ∧ (n4 ≠ 24 ∨ n100 = 3)) n)

/-- `date.max.toordinal()`. -/
def maxOrdinal : Nat := 3652059

/-- What the month and the day of a number of days have to satisfy. -/
theorem monthDay_spec : ∀ leap : Bool, ∀ n < 365,
    1 ≤ (monthDay leap n).1 ∧ (monthDay leap n).1 ≤ 12 ∧ 1 ≤ (monthDay leap n).2 ∧
    (monthDay leap n).2 ≤ daysInMonth leap (monthDay leap n).1 ∧
    daysBeforeMonth leap (monthDay leap n).1 + (monthDay leap n).2 = n + 1 := by
  decide +kernel

/-- The days before a year, by its place in the cycles of 400, 100 and 4 years. -/
theorem daysBeforeYear_cycles (a b c e : Nat) (hb : b ≤ 3) (hc : c ≤ 24) (he : e ≤ 3) :
    daysBeforeYear (a * 400 + 1 + b * 100 + c * 4 + e) =
      146097 * a + 36524 * b + 1461 * c + 365 * e := by
  have h4 : (a * 400 + b * 100 + c * 4 + e) / 4 = 100 * a + 25 * b + c := by omega
  have h100 : (a * 400 + b * 100 + c * 4 + e) / 100 = 4 * a + b := by omega
  have h400 : (a * 400 + b * 100 + c * 4 + e) / 400 = a := by omega
  have hsub : a * 400 + 1 + b * 100 + c * 4 + e - 1 = a * 400 + b * 100 + c * 4 + e := by omega
  rw [daysBeforeYear, hsub, h4, h100, h400]
  omega

/-- Leap years by their place in the 400, 100 and 4 year cycles: the last year of a 4-year cycle,
except the last of a century unless the century ends the 400 years. -/
theorem isLeap_cycles (a b c e : Nat) (hb : b ≤ 3) (hc : c ≤ 24) (he : e ≤ 3) :
    isLeap (a * 400 + 1 + b * 100 + c * 4 + e) = decide (e = 3 ∧ (c ≠ 24 ∨ b = 3)) := by
  have h4 : (a * 400 + 1 + b * 100 + c * 4 + e) % 4 = 0 ↔ e = 3 := by omega
  have h100 : (a * 400 + 1 + b * 100 + c * 4 + e) % 100 = 0 ↔ c = 24 ∧ e = 3 := by omega
  have h400 : (a * 400 + 1 + b * 100 + c * 4 + e) % 400 = 0 ↔ b = 3 ∧ c = 24 ∧ e = 3 := by omega
  rw [isLeap, decide_eq_decide, Ne, h4, h100, h400]
  omega

/-- The parts of a date that belong to an ordinal. -/
structure IsDateOf (ordinal year month day : Nat) : Prop where
  year_pos : 1 ≤ year
  month_pos : 1 ≤ month
  month_le : month ≤ 12
  day_pos : 1 ≤ day
  day_le : day ≤ daysInMonth (isLeap year) month
  ordinal_eq : daysBeforeYear year + daysBeforeMonth (isLeap year) month + day = ordinal

/-- The last day of a leap year, which is the last day of a cycle of four years. -/
theorem isDateOf_lastDay (year : Nat) (hpos : 1 ≤ year) (hleap : isLeap year = true) :
    IsDateOf (daysBeforeYear year + 366) year 12 31 where
  year_pos := hpos
  month_pos := by omega
  month_le := by omega
  day_pos := by omega
  day_le := by
    rw [hleap]
    decide
  ordinal_eq := by
    rw [hleap]
    show daysBeforeYear year + 335 + 31 = _
    omega

/-- The date computed from an ordinal is a date of the calendar and has that ordinal. -/
theorem ymdOfOrdinal_spec (ordinal : Nat) (hpos : 1 ≤ ordinal) :
    IsDateOf ordinal (ymdOfOrdinal ordinal).1 (ymdOfOrdinal ordinal).2.1
      (ymdOfOrdinal ordinal).2.2 := by
  unfold ymdOfOrdinal
  obtain ⟨n, rfl⟩ : ∃ n, ordinal = n + 1 := ⟨ordinal - 1, by omega⟩
  simp only [Nat.add_sub_cancel]
  generalize ha : n / 146097 = a
  generalize hb : n % 146097 / 36524 = b
  generalize hc : n % 146097 % 36524 / 1461 = c
  generalize he : n % 146097 % 36524 % 1461 / 365 = e
  generalize hr : n % 146097 % 36524 % 1461 % 365 = r
  -- the ordinal in cycles of 400, 100 and 4 years, years and days
  have hn : n = 146097 * a + 36524 * b + 1461 * c + 365 * e + r := by omega
  have hrlt : r < 365 := by omega
  by_cases hb4 : b = 4
  · -- the last day of a cycle of 400 years
    have hlast := isDateOf_lastDay (a * 400 + 1 + 3 * 100 + 24 * 4 + 3) (by omega)
      (isLeap_cycles a 3 24 3 (by omega) (by omega) (by omega))
    rw [daysBeforeYear_cycles a 3 24 3 (by omega) (by omega) (by omega)] at hlast
    rw [if_pos (Or.inr hb4)]
    have hyear : a * 400 + 1 + b * 100 + c * 4 + e - 1 = a * 400 + 1 + 3 * 100 + 24 * 4 + 3 := by
      omega
    have hordinal : n + 1 = 146097 * a + 36524 * 3 + 1461 * 24 + 365 * 3 + 366 := by omega
    rw [hyear, hordinal]
    exact hlast
  by_cases he4 : e = 4
  · -- the last day of a cycle of four years
    have hleap := isLeap_cycles a b c 3 (by omega) (by omega) (by omega)
    rw [decide_eq_true (by omega)] at hleap
    have hlast := isDateOf_lastDay (a * 400 + 1 + b * 100 + c * 4 + 3) (by omega) hleap
    rw [daysBeforeYear_cycles a b c 3 (by omega) (by omega) (by omega)] at hlast
    rw [if_pos (Or.inl he4)]
    have hyear : a * 400 + 1 + b * 100 + c * 4 + e - 1 = a * 400 + 1 + b * 100 + c * 4 + 3 := by
      omega
    have hordinal : n + 1 = 146097 * a + 36524 * b + 1461 * c + 365 * 3 + 366 := by omega
    rw [hyear, hordinal]
    exact hlast
  · have hleap := isLeap_cycles a b c e (by omega) (by omega) (by omega)
    -- any other day: the year follows from the cycles, and the rest is its month and day
    have hyears := daysBeforeYear_cycles a b c e (by omega) (by omega) (by omega)
    obtain ⟨hmonth, hmonth', hday, hday', heq⟩ :=
      monthDay_spec (decide (e = 3 ∧ (c ≠ 24 ∨ b = 3))) r hrlt
    rw [if_neg (by omega)]
    show IsDateOf (n + 1) (a * 400 + 1 + b * 100 + c * 4 + e) (monthDay _ r).1 (monthDay _ r).2
    exact
      { year_pos := by omega
        month_pos := hmonth
        month_le := hmonth'
        day_pos := hday
        day_le := by rwa [hleap]
        ordinal_eq := by
          rw [hleap, hyears]
          omega }

/-- The days before a year grow with the year. -/
theorem daysBeforeYear_mono {year later : Nat} (h : 1 ≤ year) (hle : year ≤ later) :
    daysBeforeYear year ≤ daysBeforeYear later := by
  rcases Nat.eq_or_lt_of_le hle with rfl | hlt
  · exact Nat.le_refl _
  · have hbefore := daysBeforeYear_le year later h hlt
    omega

/-- Up to the greatest ordinal the year has four digits. -/
theorem year_le_of_isDateOf {ordinal year month day : Nat} (h : IsDateOf ordinal year month day)
    (hmax : ordinal ≤ maxOrdinal) : year ≤ 9999 := by
  by_contra hlarge
  have hmono := daysBeforeYear_mono (by omega) (by omega : 10000 ≤ year)
  have hvalue : daysBeforeYear 10000 = 3652059 := by decide
  have hordinal := h.ordinal_eq
  have hday := h.day_pos
  unfold maxOrdinal at hmax
  omega

/-- `date.fromordinal`, on the ordinals that it accepts. -/
def Date.ofOrdinal (ordinal : Nat) (h : 1 ≤ ordinal ∧ ordinal ≤ maxOrdinal) : Date :=
  have hdate := ymdOfOrdinal_spec ordinal h.1
  { year := (ymdOfOrdinal ordinal).1
    month := (ymdOfOrdinal ordinal).2.1
    day := (ymdOfOrdinal ordinal).2.2
    year_pos := hdate.year_pos
    year_le := year_le_of_isDateOf hdate h.2
    month_pos := hdate.month_pos
    month_le := hdate.month_le
    day_pos := hdate.day_pos
    day_le := hdate.day_le }

/-- An ordinal read as a date has that ordinal. -/
theorem toOrdinal_ofOrdinal (ordinal : Nat) (h : 1 ≤ ordinal ∧ ordinal ≤ maxOrdinal) :
    (Date.ofOrdinal ordinal h).toOrdinal = ordinal :=
  (ymdOfOrdinal_spec ordinal h.1).ordinal_eq

end Rsap.Library
