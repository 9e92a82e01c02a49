import SmsTracking.Timestamp.Calendar

/-!
A day and its date belong together: the date of a day is a date of the calendar, and counting up to
it gives the day again (`isValid_ofDay`, `toDay_ofDay`). Inside a cycle of 400 years a year is
counted from March, so that what is left of the days is a day of such a year.
-/

namespace SmsTracking.Date

/-- Days of a cycle before its year `y`. -/
def daysBefore (y : Nat) : Nat := y * 365 + y / 4 - y / 100

theorem yearOfCycle_spec {n : Nat} (h : n < 146097) :
    (yearOfCycle n).1 < 400 ∧ (yearOfCycle n).2 ≤ 365 ∧
      daysBefore (yearOfCycle n).1 + (yearOfCycle n).2 = n ∧
      ((yearOfCycle n).2 = 365 → ((yearOfCycle n).1 + 1) % 4 = 0 ∧
        (((yearOfCycle n).1 + 1) % 100 = 0 → ((yearOfCycle n).1 + 1) % 400 = 0)) := by
  simp only [yearOfCycle, daysBefore]
  obtain ⟨c, hc⟩ : ∃ c, c = min (n / 36524) 3 := ⟨_, rfl⟩
  obtain ⟨q, hq⟩ : ∃ q, q = (n - c * 36524) / 1461 := ⟨_, rfl⟩
  obtain ⟨y, hy⟩ : ∃ y, y = min ((n - c * 36524) % 1461 / 365) 3 := ⟨_, rfl⟩
  simp only [← hc, ← hq, ← hy]
  have century : c ≤ 3 ∧ c * 36524 ≤ n ∧ n - c * 36524 ≤ 36524 ∧ (c < 3 → n - c * 36524 < 36524) := by
    omega
  have four : q ≤ 24 ∧ y ≤ 3 := by omega
  have quarters : (c * 100 + q * 4 + y) / 4 = c * 25 + q := by omega
  have centuries : (c * 100 + q * 4 + y) / 100 = c := by omega
  rw [quarters, centuries]
  refine ⟨by omega, by omega, by omega, ?_⟩
  omega

/-- The month and the day of a month that stand for a day of a year that starts in March. -/
def monthDay (ofYear : Nat) : Nat × Nat :=
  let place := (5 * ofYear + 2) / 153
  (if place < 10 then place + 3 else place - 9, ofYear - (153 * place + 2) / 5 + 1)

theorem ofDay_eq (day : Int) :
    ofDay day =
      let shifted := day + epochShift
      let ofCycle := yearOfCycle (shifted % cycle).toNat
      let (month, date) := monthDay ofCycle.2
      ⟨shifted / cycle * 400 + ofCycle.1 + (if month ≤ 2 then 1 else 0), month, date⟩ := rfl

/-- The days of a month in a year without a leap day. -/
def commonDays (month : Nat) : Nat :=
  if month = 2 then 28 else if month ∈ [4, 6, 9, 11] then 30 else 31

theorem commonDays_le (year : Int) (month : Nat) : commonDays month ≤ daysInMonth year month := by
  unfold commonDays daysInMonth
  split
  · split <;> omega
  · exact Nat.le_refl _

theorem monthDay_spec {r : Nat} (h : r ≤ 365) :
    1 ≤ (monthDay r).1 ∧ (monthDay r).1 ≤ 12 ∧ 1 ≤ (monthDay r).2 ∧
      ((monthDay r).1 ≤ 2 ↔ 306 ≤ r) ∧
      (153 * (((monthDay r).1 + 9) % 12) + 2) / 5 + ((monthDay r).2 - 1) = r ∧
      (r < 365 → (monthDay r).2 ≤ commonDays (monthDay r).1) := by
  have all : ∀ r ∈ List.range 366, 1 ≤ (monthDay r).1 ∧ (monthDay r).1 ≤ 12 ∧ 1 ≤ (monthDay r).2 ∧
      ((monthDay r).1 ≤ 2 ↔ 306 ≤ r) ∧
      (153 * (((monthDay r).1 + 9) % 12) + 2) / 5 + ((monthDay r).2 - 1) = r ∧
      (r < 365 → (monthDay r).2 ≤ commonDays (monthDay r).1) := by
    decide +kernel
  exact all r (List.mem_range.mpr (Nat.lt_succ_of_le h))

theorem toDay_of_march {year : Int} {y month date : Nat} (small : y < 400) :
    toDay ⟨year * 400 + y + (if month ≤ 2 then 1 else 0), month, date⟩ =
      year * cycle + (daysBefore y + ((153 * ((month + 9) % 12) + 2) / 5 + (date - 1)) : Nat) -
        epochShift := by
  have march : (if month ≤ 2 then year * 400 + y + (if month ≤ 2 then 1 else 0) - 1
      else year * 400 + y + (if month ≤ 2 then 1 else 0) : Int) = year * 400 + y := by
    split <;> omega
  have cycles : (year * 400 + y) / 400 = year := by omega
  have ofCycle : ((year * 400 + y) % 400).toNat = y := by omega
  simp only [toDay, march, cycles, ofCycle, daysBefore, dayOfYear]

/-- The last day of a year that starts in March is the 29th of February where there is one. -/
theorem isLeapYear_of_march {year : Int} {y : Nat}
    (leap : (y + 1) % 4 = 0 ∧ ((y + 1) % 100 = 0 → (y + 1) % 400 = 0)) :
    isLeapYear (year * 400 + y + 1) = true := by
  have four : (year * 400 + y + 1) % 4 = 0 := by omega
  simp only [isLeapYear, four, beq_self_eq_true, Bool.true_and, Bool.or_eq_true, bne_iff_ne,
    beq_iff_eq]
  omega

variable (day : Int)

theorem toNat_mod_cycle_lt : ((day + epochShift) % cycle).toNat < 146097 := by
  simp only [cycle]
  omega

theorem toDay_ofDay : (ofDay day).toDay = day := by
  obtain ⟨small, within, counted, _⟩ := yearOfCycle_spec (toNat_mod_cycle_lt day)
  obtain ⟨_, _, _, _, dated, _⟩ := monthDay_spec within
  rw [ofDay_eq]
  simp only
  rw [toDay_of_march small, dated, counted]
  simp only [cycle, epochShift]
  omega

theorem isValid_ofDay : (ofDay day).IsValid := by
  obtain ⟨_, within, _, leap⟩ := yearOfCycle_spec (toNat_mod_cycle_lt day)
  obtain ⟨first, last, one, early, _, common⟩ := monthDay_spec within
  rw [ofDay_eq]
  refine ⟨first, last, one, ?_⟩
  by_cases usual : (yearOfCycle ((day + epochShift) % cycle).toNat).2 < 365
  · exact Nat.le_trans (common usual) (commonDays_le _ _)
  · have final : (yearOfCycle ((day + epochShift) % cycle).toNat).2 = 365 := by omega
    have february : monthDay 365 = (2, 29) := rfl
    simp only [final, february, daysInMonth]
    refine Nat.le_of_eq ?_
    rw [if_pos trivial, if_pos (Nat.le_refl 2), if_pos (isLeapYear_of_march (leap final))]

/-- The years that timestamps reach. -/
theorem year_mem_of_march {shifted : Int} {y r : Nat} (small : y < 400) (within : r ≤ 365)
    (counted : daysBefore y + r = (shifted % 146097).toNat)
    (h : -95745824 ≤ shifted ∧ shifted ≤ 95745704) :
    -262143 ≤ shifted / 146097 * 400 + y + (if 306 ≤ r then 1 else 0) ∧
      shifted / 146097 * 400 + y + (if 306 ≤ r then 1 else 0) ≤ 262142 := by
  simp only [daysBefore] at counted
  have first : shifted / 146097 = -656 → 93808 ≤ (shifted % 146097).toNat := by omega
  have last : shifted / 146097 = 655 → (shifted % 146097).toNat ≤ 52169 := by omega
  have cycles : -656 ≤ shifted / 146097 ∧ shifted / 146097 ≤ 655 := by omega
  generalize shifted / 146097 = q at *
  generalize (shifted % 146097).toNat = n at *
  have early : q = -656 → 256 ≤ y ∧ (y = 256 → 306 ≤ r) := by omega
  have late : q = 655 → y ≤ 142 ∧ (y = 142 → r < 306) := by omega
  split <;> omega

theorem year_ofDay_mem (h : -96465292 ≤ day ∧ day ≤ 95026236) :
    -262143 ≤ (ofDay day).year ∧ (ofDay day).year ≤ 262142 := by
  obtain ⟨small, within, counted, _⟩ := yearOfCycle_spec (toNat_mod_cycle_lt day)
  obtain ⟨_, _, _, early, _, _⟩ := monthDay_spec within
  rw [ofDay_eq]
  simp only [early]
  simp only [cycle, epochShift] at small within counted ⊢
  exact year_mem_of_march small within counted (by omega)

end SmsTracking.Date
