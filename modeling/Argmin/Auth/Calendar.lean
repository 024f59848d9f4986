import Argmin.Auth.Canonical
import Argmin.Policy.ConditionOp
import Mathlib.Tactic.IntervalCases

/-!
# Calendar dates

Three functions number the days from 1970-01-01.  The dates of a signature are counted year by
year; the dates of a form and of a policy go through the closed formula, with checked 64-bit and
with plain 32-bit arithmetic.
-/

namespace Argmin.Auth

open Calendar Policy List

def dateToDaysI64 (year : Int) (month day : Nat) : Option Int :=
  civilDays (wrapping 64) (checked 64) year month day

/-- The date after a date. -/
def nextDate (year month day : Nat) : Nat × Nat × Nat :=
  if day < daysInMonth year month then (year, month, day + 1)
  else if month < 12 then (year, month + 1, 1)
  else (year + 1, 1, 1)

/-- The three functions give the date this number. -/
def Numbered (n : Nat) : Nat × Nat × Nat → Prop
  | (year, month, day) => daysSinceEpoch year month day = some n ∧
      dateToDaysI64 year month day = some (n : Int) ∧ daysFromCivil year month day = some (n : Int)

theorem isLeapYear_eq (year : Nat) : isLeapYear year = isLeap year := by
  rw [Bool.eq_iff_iff]
  simp only [isLeapYear, isLeap, Bool.or_eq_true, Bool.and_eq_true, beq_iff_eq, bne_iff_ne, ne_eq]
  omega

theorem yearDays_eq (year : Nat) :
    yearDays year = yearDays (year - 1) + 365 + if isLeap year then 1 else 0 := by
  have hleap : isLeap year = true ↔ year % 4 = 0 ∧ (year % 100 ≠ 0 ∨ year % 400 = 0) := by
    simp [isLeap]
  unfold yearDays
  split_ifs with h <;> rw [hleap] at h <;> omega

/-- The loop over the years. -/
theorem years_eq (k : Nat) :
    ((range' 1970 k).foldl (fun days y => days + if isLeap y then 366 else 365) 0 : Nat) =
      yearDays ((1970 + k : Nat) - 1) - 719162 := by
  induction k with
  | zero => rfl
  | succ k ih =>
    have hyear := yearDays_eq (1970 + k)
    rw [range'_1_concat, foldl_append, foldl_cons, foldl_nil, Nat.cast_add, ih,
      show ((1970 + (k + 1) : Nat) : Int) - 1 = (1970 + k : Nat) by omega]
    split_ifs at hyear ⊢ <;> omega

section Date

variable {year month day : Nat} (hday : 1 ≤ day) (hmonth : day ≤ daysInMonth year month)
  (hyear : 1970 ≤ year)

include hday hmonth

theorem month_of_day : (1 ≤ month ∧ month ≤ 12) ∧ day ≤ 31 := by
  unfold daysInMonth at hmonth
  split at hmonth <;> try split_ifs at hmonth
  all_goals omega

theorem dayNumber_nextDate :
    let next := nextDate year month day
    year ≤ next.1 ∧ 1 ≤ next.2.2 ∧ next.2.2 ≤ daysInMonth next.1 next.2.1 ∧
      dayNumber next.1 next.2.1 next.2.2 = dayNumber year month day + 1 := by
  obtain ⟨⟨hlo, hhi⟩, -⟩ := month_of_day hday hmonth
  have hleap := yearDays_eq year
  unfold nextDate
  split_ifs with hend hlast
  · exact ⟨le_rfl, Nat.le_add_left .., hend, by simp [dayNumber]; omega⟩
  · cases hl : isLeap year
    all_goals
      interval_cases month
    all_goals
      simp only [daysInMonth, isLeapYear_eq, hl, if_true, Bool.false_eq_true, if_false] at *
      simp [dayNumber] at hleap ⊢
      omega
  · obtain rfl : month = 12 := by omega
    simp [daysInMonth, dayNumber] at *
    omega

include hyear

theorem daysSinceEpoch_eq :
    ∃ n : Nat, daysSinceEpoch year month day = some n ∧ n = dayNumber year month day := by
  obtain ⟨k, rfl⟩ := Nat.exists_eq_add_of_le hyear
  obtain ⟨⟨hlo, hhi⟩, -⟩ := month_of_day hday hmonth
  have hyears := years_eq k
  have hleap := yearDays_eq (1970 + k)
  rw [daysSinceEpoch, if_neg (by omega), if_neg (by omega)]
  rw [Nat.add_sub_cancel_left]
  generalize (range' 1970 k).foldl _ 0 = days at hyears ⊢
  cases hl : isLeap (1970 + k)
  all_goals
    simp only [hl, if_true, Bool.false_eq_true, if_false] at hleap
    interval_cases month
  all_goals
    simp only [daysInMonth, isLeapYear_eq, hl, if_true, Bool.false_eq_true, if_false] at hmonth
    rw [if_neg (by simp; omega)]
    refine ⟨_, rfl, ?_⟩
    simp [dayNumber] at hleap hyears ⊢
    omega

theorem numbered_of_fits (hfits : dayNumber year month day + 719468 < 2 ^ 31) :
    ∃ n : Nat, n = dayNumber year month day ∧ Numbered n (year, month, day) := by
  obtain ⟨n, hn, hnumber⟩ := daysSinceEpoch_eq hday hmonth hyear
  obtain ⟨hin, hlast⟩ := month_of_day hday hmonth
  refine ⟨n, hnumber, hn, ?_, ?_⟩
  · rw [hnumber]
    refine civilDays_eq (by decide) (fun x hlo hhi => if_pos ⟨hlo, hhi⟩) ?_ ?_ ?_ ?_ <;> omega
  · rw [daysFromCivil, if_pos (by omega), hnumber]
    refine congrArg some (civilDays_eq (m := Id) le_rfl (fun x hlo hhi => ?_) ?_ ?_ ?_ hfits)
    · exact Int.bmod_eq_of_le (by omega) (by omega)
    all_goals omega

end Date

/-- **The three conversions agree** on every date from 1970 to 5879609, and the next date has the
next number. -/
theorem calendar_conversions_agree {year month day : Nat} (hyear : 1970 ≤ year)
    (hrange : year < 5879610) (hday : 1 ≤ day) (hmonth : day ≤ daysInMonth year month) :
    ∃ n, Numbered n (year, month, day) ∧ Numbered (n + 1) (nextDate year month day) := by
  obtain ⟨hin, hlast⟩ := month_of_day hday hmonth
  have hfits : dayNumber year month day + 1 + 719468 < 2 ^ 31 := by
    unfold dayNumber yearDays
    split_ifs <;> omega
  obtain ⟨n, hn, hnumbered⟩ := numbered_of_fits hday hmonth hyear (by omega)
  obtain ⟨hyear', hday', hmonth', hnumber⟩ := dayNumber_nextDate hday hmonth
  obtain ⟨n', hn', hnumbered'⟩ := numbered_of_fits hday' hmonth' (hyear.trans hyear') (by omega)
  obtain rfl : n' = n + 1 := by omega
  exact ⟨n, hnumbered, hnumbered'⟩

theorem calendar_conversions_agree_leap_day :
    ∃ n, Numbered n (2024, 2, 29) ∧ Numbered (n + 1) (2024, 3, 1) :=
  calendar_conversions_agree (by decide) (by decide) (by decide) (by decide)

/-- **A date that two of them number differently**: the 32-bit arithmetic overflows. -/
theorem daysFromCivil_overflows :
    1 ≤ daysInMonth 6000000 1 ∧
      ∃ n : Nat, daysSinceEpoch 6000000 1 1 = some n ∧
        daysFromCivil 6000000 1 1 ≠ some (n : Int) := by
  obtain ⟨n, hn, hnumber⟩ := @daysSinceEpoch_eq 6000000 1 1 le_rfl (by decide) (by decide)
  refine ⟨by decide, n, hn, ?_⟩
  rw [hnumber]
  decide

end Argmin.Auth
