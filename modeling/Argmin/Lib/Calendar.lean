import Mathlib.Algebra.Order.Ring.Int

/-!
# Day numbers

The number of a day by a closed formula: years begin in March, so that the leap day is the last day
of a year, and four hundred years are an era.  The formula is stated over any arithmetic; where the
numbers fit it gives `dayNumber` (`civilDays_eq`).
-/

namespace Argmin.Calendar

/-- What plain arithmetic with `bits` bits makes of a result. -/
def wrapping (bits : Nat) (x : Int) : Int := x.bmod (2 ^ bits)

/-- The result of checked arithmetic with `bits` bits. -/
def checked (bits : Nat) (x : Int) : Option Int :=
  if -2 ^ (bits - 1) ≤ x ∧ x < 2 ^ (bits - 1) then some x else none

/-- The formula, with `op` at each result; `wrap` is for the one step that is never checked. -/
def civilDays {m : Type → Type} [Monad m] (wrap : Int → Int) (op : Int → m Int)
    (year month day : Int) : m Int := do
  let year ← op (year - if month ≤ 2 then 1 else 0)
  let era := (if 0 ≤ year then year else wrap (year - 399)).tdiv 400
  let yoe ← op (year - (← op (era * 400)))
  let monthOffset ← op (month + if 2 < month then -3 else 9)
  let doy ← op ((← op ((← op ((← op (monthOffset * 153)) + 2)).tdiv 5 + day)) - 1)
  let doe ← op ((← op ((← op ((← op (yoe * 365)) + yoe.tdiv 4)) - yoe.tdiv 100)) + doy)
  op ((← op ((← op (era * 146097)) + doe)) - 719468)

/-- The days of the years up to a year. -/
def yearDays (year : Int) : Int := 365 * year + year / 4 - year / 100 + year / 400

/-- The number of a day, counted from 1970-01-01. -/
def dayNumber (year month day : Int) : Int :=
  yearDays (year - if month ≤ 2 then 1 else 0) +
    (153 * (month + if 2 < month then -3 else 9) + 2) / 5 + day - 719469

theorem civilDays_eq {m : Type → Type} [Monad m] [LawfulMonad m] {wrap : Int → Int}
    {op : Int → m Int} {year month day bound : Int} (hbound : 2 ^ 31 ≤ bound)
    (hop : ∀ x, -bound ≤ x → x < bound → op x = pure x) (hyear : 1 ≤ year)
    (hmonth : 1 ≤ month ∧ month ≤ 12) (hday : 1 ≤ day ∧ day ≤ 31)
    (hfits : dayNumber year month day + 719468 < bound) :
    civilDays wrap op year month day = pure (dayNumber year month day) := by
  unfold dayNumber at hfits ⊢
  unfold civilDays
  generalize hshift : (if month ≤ 2 then 1 else 0 : Int) = shift at hfits ⊢
  generalize hoffset : (if 2 < month then -3 else 9 : Int) = offset at hfits ⊢
  have hmarch : 0 ≤ year - shift ∧ 0 ≤ month + offset ∧ month + offset ≤ 11 := by
    split_ifs at hshift hoffset <;> omega
  generalize year - shift = year, month + offset = month at hfits hmarch ⊢
  unfold yearDays at hfits ⊢
  -- every intermediate result is between the bounds
  simp (disch := omega) only [hop, pure_bind, Int.tdiv_eq_ediv_of_nonneg, if_pos]
  congr 1
  omega

end Argmin.Calendar
