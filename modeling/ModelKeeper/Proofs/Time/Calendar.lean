import Mathlib.Tactic.IntervalCases
import ModelKeeper.Time.Calendar

/-!
# The calendar tells every day

The date of a day is a date that there is (`Date.isValid_ofDays`), and the day of this date is the
day that one has started from (`Date.toDays_ofDays`).

A day of an era of four hundred years is told by the century, the leap cycle of four years within
it, the year within this cycle and the day of that year (`Date.Parts`).  Then all divisions in the
conversions come to their ends.
-/

namespace ModelKeeper.Date

/-- Where a day lies in an era: its century, its cycle of four years, its year in this cycle and its
day in this year.  Only the last year of a cycle has a day more, and that of the last cycle of a
century only at the end of the era. -/
structure Parts (dayOfEra century cycle year day : Nat) : Prop where
  century_le : century ≤ 3
  cycle_le : cycle ≤ 24
  year_le : year ≤ 3
  day_le : day ≤ 365
  leap : day = 365 → year = 3 ∧ (cycle = 24 → century = 3)
  eq : dayOfEra = 36524 * century + 1461 * cycle + 365 * year + day

/-- Every day of an era has its parts. -/
theorem exists_parts {n : Nat} (hn : n < 146097) : ∃ c q y d, Parts n c q y d := by
  -- the last day of an era and that of a cycle belong to the year before
  obtain ⟨c, hc, r, hr, hn', hlast⟩ : ∃ c, c ≤ 3 ∧ ∃ r, r ≤ 36524 ∧ n = 36524 * c + r ∧
      (r = 36524 → c = 3) := by
    by_cases h : n = 146096
    · exact ⟨3, by omega, 36524, by omega, by omega, by omega⟩
    · exact ⟨n / 36524, by omega, n % 36524, by omega, by omega, by omega⟩
  obtain ⟨y, hy, d, hd, hs, hleap⟩ : ∃ y, y ≤ 3 ∧ ∃ d, d ≤ 365 ∧ r % 1461 = 365 * y + d ∧
      (d = 365 → y = 3) := by
    by_cases h : r % 1461 = 1460
    · exact ⟨3, by omega, 365, by omega, by omega, by omega⟩
    · exact ⟨r % 1461 / 365, by omega, r % 1461 % 365, by omega, by omega, by omega⟩
  exact ⟨c, r / 1461, y, d, hc, by omega, hy, hd, by omega, by omega⟩

variable {n c q y d : Nat}

/-- The year of an era comes from its days less all leap days before. -/
theorem Parts.yearOfEra (h : Parts n c q y d) :
    (n - n / 1460 + n / 36524 - n / 146096) / 365 = 100 * c + 4 * q + y := by
  obtain ⟨hc, hq, hy, hd, hleap, hn⟩ := h
  by_cases hlast : n = 146096
  · subst hlast
    omega
  -- a day is taken for each cycle that has come to its leap day, and given back for each century
  have hleap' : d = 365 → y = 3 ∧ q ≤ 23 := by omega
  have hcentury : n / 36524 = c := by omega
  have hera : n / 146096 = 0 := by omega
  obtain ⟨e, he, he1, hfirst, hlast⟩ :
      ∃ e, n / 1460 = 25 * c + q + e ∧ e ≤ 1 ∧ e ≤ d ∧ (d = 365 → e = 1) := by
    by_cases hcycle : 24 * c + q + 365 * y + d < 1460
    · exact ⟨0, by omega, by omega, by omega, by omega⟩
    · exact ⟨1, by omega, by omega, by omega, by omega⟩
  have hdays : n - n / 1460 + n / 36524 - n / 146096 =
      365 * (100 * c + 4 * q + y) + (d - e) := by omega
  omega

theorem Parts.dayOfYear (h : Parts n c q y d) :
    n - (365 * (100 * c + 4 * q + y) + (100 * c + 4 * q + y) / 4 - (100 * c + 4 * q + y) / 100) =
      d := by
  obtain ⟨hc, hq, hy, hd, hleap, rfl⟩ := h
  omega

/-! ### Days of a year -/

/-- The date of a day that is counted from the first of March of a year. -/
def ofMarch (year : Int) (day : Nat) : Date :=
  let monthFromMarch := (5 * day + 2) / 153
  let month := if monthFromMarch < 10 then monthFromMarch + 3 else monthFromMarch - 9
  ⟨year + (if month ≤ 2 then 1 else 0), month, day - (153 * monthFromMarch + 2) / 5 + 1⟩

theorem toDays_ofMarch (year : Int) {day : Nat} (h : day ≤ 365) :
    (ofMarch year day).toDays = year / 400 * daysPerEra + ((year % 400).toNat * 365 +
      (year % 400).toNat / 4 - (year % 400).toNat / 100 + day : Nat) - daysBeforeEpoch := by
  obtain ⟨m, hm⟩ : ∃ m, (5 * day + 2) / 153 = m := ⟨_, rfl⟩
  have hstart : (153 * m + 2) / 5 ≤ day := by omega
  -- January and February belong to the year that began in the March before
  by_cases hyear : m < 10
  · have hmonth : ¬ m + 3 ≤ 2 := by omega
    simp only [ofMarch, toDays, hm, if_pos hyear, if_neg hmonth, Nat.add_sub_cancel, Int.add_zero]
    congr 3
    omega
  · have hmonth : m - 9 ≤ 2 := by omega
    have hback : m - 9 + 9 = m := by omega
    simp only [ofMarch, toDays, hm, if_neg hyear, if_pos hmonth, hback, Int.add_sub_cancel]
    congr 3
    omega

theorem isValid_ofMarch {year : Int} {day : Nat} (h : day ≤ 365)
    (hleap : day = 365 → isLeap (year + 1)) : (ofMarch year day).isValid := by
  obtain ⟨m, hm⟩ : ∃ m, (5 * day + 2) / 153 = m := ⟨_, rfl⟩
  have hm11 : m ≤ 11 := by omega
  -- February comes last, and is the only month whose length depends on the year
  by_cases hfebruary : m = 11
  · subst hfebruary
    by_cases hlast : day = 365
    · subst hlast
      simp [ofMarch, isValid, daysInMonth, hleap rfl]
    · have hfew : day - (153 * 11 + 2) / 5 + 1 ≤ if isLeap (year + 1) then 29 else 28 := by
        split <;> omega
      simpa [ofMarch, isValid, daysInMonth, hm] using hfew
  · have hm10 : m ≤ 10 := by omega
    interval_cases m <;> simp [ofMarch, isValid, daysInMonth, hm] <;> omega

theorem daysInMonth_le (year : Int) (month : Nat) : daysInMonth year month ≤ 31 := by
  unfold daysInMonth
  split_ifs <;> omega

/-! ### All days -/

/-- The last day of a year before March is the leap day of a leap year. -/
theorem Parts.isLeap (h : Parts n c q y d) (era : Int) (hd : d = 365) :
    Date.isLeap (era * 400 + (100 * c + 4 * q + y : Nat) + 1) := by
  obtain ⟨hc, hq, -, -, hleap, -⟩ := h
  obtain ⟨rfl, hcentury⟩ := hleap hd
  simp [Date.isLeap]
  omega

theorem Parts.ofDays (h : Parts n c q y d) (era : Int) :
    ofDays (era * daysPerEra + n - daysBeforeEpoch) =
      ofMarch (era * 400 + (100 * c + 4 * q + y : Nat)) d := by
  have hn : n < 146097 := by
    obtain ⟨hc, hq, hy, hd, hleap, rfl⟩ := h
    omega
  -- the parts add up to a day of the era, so the division gives the era back
  have hera : (era * daysPerEra + n - daysBeforeEpoch + daysBeforeEpoch) / daysPerEra = era := by
    simp only [daysPerEra, daysBeforeEpoch]
    omega
  have hday : ((era * daysPerEra + n - daysBeforeEpoch + daysBeforeEpoch) % daysPerEra).toNat =
      n := by
    simp only [daysPerEra, daysBeforeEpoch]
    omega
  simp only [Date.ofDays, hera, hday, h.yearOfEra, h.dayOfYear]
  rfl

theorem exists_parts_ofDays (days : Int) : ∃ (era : Int) (n c q y d : Nat), Parts n c q y d ∧
    days = era * daysPerEra + n - daysBeforeEpoch := by
  obtain ⟨c, q, y, d, h⟩ :=
    exists_parts (n := ((days + daysBeforeEpoch) % daysPerEra).toNat)
      (by simp only [daysPerEra]; omega)
  refine ⟨(days + daysBeforeEpoch) / daysPerEra, _, c, q, y, d, h, ?_⟩
  simp only [daysPerEra, daysBeforeEpoch]
  omega

/-- **The date of a day tells this day.** -/
@[simp]
theorem toDays_ofDays (days : Int) : (ofDays days).toDays = days := by
  obtain ⟨era, n, c, q, y, d, h, rfl⟩ := exists_parts_ofDays days
  rw [h.ofDays, toDays_ofMarch _ h.day_le]
  obtain ⟨hc, hq, hy, hd, hleap, hn⟩ := h
  have hera : (era * 400 + (100 * c + 4 * q + y : Nat)) / 400 = era := by omega
  have hyear : ((era * 400 + (100 * c + 4 * q + y : Nat)) % 400).toNat = 100 * c + 4 * q + y := by
    omega
  rw [hera, hyear]
  congr 3
  omega

/-- **The date of a day is one that there is.** -/
@[simp]
theorem isValid_ofDays (days : Int) : (ofDays days).isValid := by
  obtain ⟨era, n, c, q, y, d, h, rfl⟩ := exists_parts_ofDays days
  rw [h.ofDays]
  exact isValid_ofMarch h.day_le (h.isLeap era)

end ModelKeeper.Date
