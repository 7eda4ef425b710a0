import Mathlib

/-!
# The calendar

Dates of the Gregorian calendar as the C library takes them, with fields that need not be in
range: the thirteenth month of a year is the first of the next one, and 30 February is a day in
March. Months are counted through from January of the year 0, and `monthStart` is the day on which
a month begins, counted from 1 January 1970. It is given by a closed formula, and
`monthStart_add_one` says that it is the right one.

No field of a date can be raised without the date becoming a later one: `Tm.seconds_mono`.
-/

namespace Ddmz

/-! ## Months -/

/-- Whether a year has a 29 February. -/
def isLeap (y : ℤ) : Bool := y % 4 = 0 ∧ (y % 100 ≠ 0 ∨ y % 400 = 0)

def monthLength (month : ℤ) : ℤ :=
  if month % 12 = 1 then if isLeap (month / 12) then 29 else 28
  else if month % 12 ∈ [3, 5, 8, 10] then 30
  else 31

/-- The first day of a month. Here years begin in March, and the leap day is the last of a year. -/
def monthStart (month : ℤ) : ℤ :=
  let y := (month - 2) / 12
  let m := (month - 2) % 12
  365 * y + y / 4 - y / 100 + y / 400 + (153 * m + 2) / 5 - 719468

example : monthStart (12 * 1970) = 0 := by decide

theorem monthStart_add_one (month : ℤ) :
    monthStart (month + 1) = monthStart month + monthLength month := by
  rw [monthStart, monthStart, monthLength]
  by_cases hfeb : month % 12 = 1
  · -- the year of the formula changes, and the leap day shows in its number
    have hy : (month + 1 - 2) / 12 = month / 12 := by omega
    have hy' : (month - 2) / 12 = month / 12 - 1 := by omega
    have hm : (month + 1 - 2) % 12 = 0 := by omega
    have hm' : (month - 2) % 12 = 11 := by omega
    rw [if_pos hfeb, hy, hy', hm, hm']
    generalize month / 12 = y
    by_cases hleap : isLeap y = true
    · rw [if_pos hleap]
      rw [isLeap, decide_eq_true_eq] at hleap
      omega
    · rw [if_neg hleap]
      rw [isLeap, decide_eq_true_eq] at hleap
      omega
  · have hy : (month + 1 - 2) / 12 = (month - 2) / 12 := by omega
    have hm : (month + 1 - 2) % 12 = (month - 2) % 12 + 1 := by omega
    have hmonth : month % 12 = ((month - 2) % 12 + 2) % 12 := by omega
    have hlow : 0 ≤ (month - 2) % 12 := by omega
    have hhigh : (month - 2) % 12 < 11 := by omega
    rw [if_neg hfeb, hy, hm, hmonth]
    generalize (month - 2) % 12 = m at hlow hhigh
    interval_cases m <;> simp <;> omega

theorem monthLength_pos (month : ℤ) : 0 < monthLength month := by
  rw [monthLength]
  split_ifs <;> omega

theorem monthStart_strictMono : StrictMono monthStart := by
  refine strictMono_int_of_lt_succ fun month ↦ ?_
  rw [monthStart_add_one]
  exact Int.lt_add_of_pos_right _ (monthLength_pos month)

/-! ## Dates -/

/-- `struct tm`: `year` counts from 1900 and `mon` from 0. -/
structure Tm where
  year : ℤ
  mon : ℤ
  mday : ℤ
  hour : ℤ
  min : ℤ
  sec : ℤ

namespace Tm

/-- The second that a date names, from the beginning of 1970 on. -/
def seconds (tm : Tm) : ℤ :=
  86400 * (monthStart (12 * (1900 + tm.year) + tm.mon) + (tm.mday - 1)) + 3600 * tm.hour
    + 60 * tm.min + tm.sec

theorem seconds_mono {tm tm' : Tm} (hyear : tm.year ≤ tm'.year) (hmon : tm.mon ≤ tm'.mon)
    (hmday : tm.mday ≤ tm'.mday) (hhour : tm.hour ≤ tm'.hour) (hmin : tm.min ≤ tm'.min)
    (hsec : tm.sec ≤ tm'.sec) : tm.seconds ≤ tm'.seconds := by
  have hmonth : monthStart (12 * (1900 + tm.year) + tm.mon)
      ≤ monthStart (12 * (1900 + tm'.year) + tm'.mon) :=
    monthStart_strictMono.monotone (by omega)
  rw [seconds, seconds]
  omega

theorem seconds_sub_one (tm : Tm) : ({ tm with sec := tm.sec - 1 } : Tm).seconds
    = tm.seconds - 1 := by
  rw [seconds, seconds]
  dsimp only
  omega

/-- A time can be stored in a `time_t` of 32 bits. -/
def FitsTimeT (t : ℤ) : Prop := -2 ^ 31 ≤ t ∧ t < 2 ^ 31

instance (t : ℤ) : Decidable (FitsTimeT t) := inferInstanceAs (Decidable (_ ∧ _))

/-- `mktime` with a `time_t` of 32 bits, in a time zone `zone` seconds ahead of UTC that has no
daylight saving time. -/
def mktime (zone : ℤ) (tm : Tm) : ℤ :=
  if FitsTimeT (tm.seconds - zone) then tm.seconds - zone else -1

end Tm

example : Tm.mktime 28800 ⟨117, 11, 16, 11, 10, 7⟩ = 1513393807 := by decide

end Ddmz
