import Ddmz.Alarm.Parser

/-!
# Catching up with the clock

`parseAlarm` moves the date of an alarm that repeats forward, period by period, for as long as
`mktime` does not tell a time that is later than the clock. But a date that a `time_t` of 32 bits
cannot hold looks like the last second of 1969, and so is never later.

So the loop may pass by the first date that is later than the clock, and as a rule does not end
then. It ends with that date if and only if a `time_t` and the fields can hold it:
`catchesUp_iff`.
-/

namespace Ddmz.Alarm

/-- A number that an `int` can hold. -/
def IsInt (v : ℤ) : Prop := -2 ^ 31 ≤ v ∧ v < 2 ^ 31

instance (v : ℤ) : Decidable (IsInt v) := inferInstanceAs (Decidable (_ ∧ _))

/-- The fields of a date do not overflow. -/
structure Date.IsInt (date : Date) : Prop where
  y : Alarm.IsInt date.y
  m : Alarm.IsInt date.m
  d : Alarm.IsInt date.d
  h : Alarm.IsInt date.h
  mi : Alarm.IsInt date.mi
  s : Alarm.IsInt date.s

/-- A date, `k` periods later. -/
def Date.after (date pdate : Date) (k : ℕ) : Date where
  y := date.y + k * pdate.y
  m := date.m + k * pdate.m
  d := date.d + k * pdate.d
  h := date.h + k * pdate.h
  mi := date.mi + k * pdate.mi
  s := date.s + k * pdate.s

/-- The loop of `parseAlarm` ends, and without an overflow, with the first of the dates that is
later than the clock. -/
def CatchesUp (clock : ℕ → ℤ) (date pdate : Date) : Prop :=
  ∃ k n, catchUp clock pdate n 0 date = some (date.after pdate k) ∧
    (∀ j ≤ k, (date.after pdate j).IsInt) ∧
    clock k < (date.after pdate k).due ∧ ∀ j < k, (date.after pdate j).due ≤ clock j

section Loop

variable {clock : ℕ → ℤ} {date pdate date' : Date} {n i k : ℕ} {source rest : List UInt8}

@[simp] theorem Date.after_zero : date.after pdate 0 = date := by
  simp only [Date.after, Nat.cast_zero, zero_mul, add_zero]

theorem Date.after_succ : date.after pdate (k + 1) = (date.plus pdate).after pdate k := by
  simp only [Date.after, Date.plus, Nat.cast_add, Nat.cast_one, add_mul, one_mul]
  refine Date.mk.injEq .. |>.mpr ⟨?_, ?_, ?_, ?_, ?_, ?_⟩ <;> ring

/-- The loop goes on for as long as the difference is positive. -/
theorem catchUp_iff : catchUp clock pdate n i date = some date' ↔
    ∃ k < n, date' = date.after pdate k ∧ diffTime (clock (i + k)) (date.after pdate k) ≤ 0 ∧
      ∀ j < k, 0 < diffTime (clock (i + j)) (date.after pdate j) := by
  induction n generalizing i date with
  | zero => exact iff_of_false (Option.some_ne_none _).symm fun ⟨k, hk, _⟩ ↦ Nat.not_lt_zero k hk
  | succ n ih =>
    rw [catchUp]
    split_ifs with hdiff
    · rw [ih]
      constructor
      · rintro ⟨k, hk, rfl, hle, hlt⟩
        refine ⟨k + 1, Nat.succ_lt_succ hk, Date.after_succ.symm, ?_, fun j hj ↦ ?_⟩
        · rw [Date.after_succ, Nat.add_comm k 1, ← Nat.add_assoc]
          exact hle
        · cases j with
          | zero => rwa [Date.after_zero]
          | succ j =>
            rw [Date.after_succ, Nat.add_comm j 1, ← Nat.add_assoc]
            exact hlt j (Nat.lt_of_succ_lt_succ hj)
      · rintro ⟨k, hk, rfl, hle, hlt⟩
        cases k with
        | zero =>
          rw [Date.after_zero] at hle
          exact absurd hdiff (not_lt.mpr hle)
        | succ k =>
          refine ⟨k, Nat.lt_of_succ_lt_succ hk, Date.after_succ, ?_, fun j hj ↦ ?_⟩
          · rw [Nat.add_assoc, Nat.add_comm 1 k, ← Date.after_succ]
            exact hle
          · rw [Nat.add_assoc, Nat.add_comm 1 j, ← Date.after_succ]
            exact hlt (j + 1) (Nat.succ_lt_succ hj)
    · constructor
      · intro h
        rw [← Option.some.inj h]
        refine ⟨0, Nat.succ_pos n, Date.after_zero.symm, ?_,
          fun j hj ↦ absurd hj (Nat.not_lt_zero j)⟩
        rw [Date.after_zero]
        exact not_lt.mp hdiff
      · rintro ⟨k, hk, rfl, hle, hlt⟩
        cases k with
        | zero => rw [Date.after_zero]
        | succ k =>
          have hfirst := hlt 0 (Nat.succ_pos k)
          rw [Date.after_zero] at hfirst
          exact absurd hfirst hdiff

/-- The loop ends if and only if there is a date at which it may end. -/
theorem exists_catchUp_iff : (∃ n date', catchUp clock pdate n 0 date = some date') ↔
    ∃ k, diffTime (clock k) (date.after pdate k) ≤ 0 := by
  constructor
  · rintro ⟨n, date', h⟩
    obtain ⟨k, -, -, hle, -⟩ := catchUp_iff.mp h
    rw [Nat.zero_add] at hle
    exact ⟨k, hle⟩
  · intro h
    classical
    refine ⟨Nat.find h + 1, _, catchUp_iff.mpr ⟨Nat.find h, Nat.lt_succ_self _, rfl, ?_,
      fun j hj ↦ ?_⟩⟩
    · rw [Nat.zero_add]
      exact Nat.find_spec h
    · rw [Nat.zero_add]
      exact not_le.mp (Nat.find_min h hj)

/-- What is between two numbers that an `int` can hold can be held by one. -/
theorem IsInt.between {v p : ℤ} {j : ℕ} (h : IsInt v) (hk : IsInt (v + k * p)) (hj : j ≤ k) :
    IsInt (v + j * p) := by
  have hjk : (j : ℤ) ≤ k := Int.ofNat_le.mpr hj
  have hzero : (0 : ℤ) ≤ j := Int.natCast_nonneg j
  obtain hp | hp := le_total 0 p
  · have hup := mul_le_mul_of_nonneg_right hjk hp
    have hlow := mul_nonneg hzero hp
    exact ⟨h.1.trans (by omega), lt_of_le_of_lt (by omega) hk.2⟩
  · have hdown := mul_le_mul_of_nonpos_right hjk hp
    have hhigh := mul_nonpos_of_nonneg_of_nonpos hzero hp
    exact ⟨hk.1.trans (by omega), lt_of_le_of_lt (by omega) h.2⟩

theorem Date.IsInt.between {j : ℕ} (h : date.IsInt) (hk : (date.after pdate k).IsInt)
    (hj : j ≤ k) : (date.after pdate j).IsInt where
  y := h.y.between hk.y hj
  m := h.m.between hk.m hj
  d := h.d.between hk.d hj
  h := h.h.between hk.h hj
  mi := h.mi.between hk.mi hj
  s := h.s.between hk.s hj

theorem isInt_clampInt (v : ℤ) : IsInt (clampInt v) := by
  rw [IsInt, clampInt]
  omega

theorem isInt_scanInt {v : ℤ} (h : scanInt source = some (v, rest)) : IsInt v := by
  unfold scanInt at h
  dsimp only at h
  split at h
  · exact absurd h.symm (Option.some_ne_none _)
  · obtain ⟨rfl, -⟩ := Prod.mk.inj (Option.some.inj h)
    exact isInt_clampInt _

theorem isInt_scanDate (h : scanDate source = some date) : date.IsInt := by
  simp only [scanDate, Option.bind_eq_bind, Option.bind_eq_some_iff, Option.pure_def,
    Option.some.injEq] at h
  obtain ⟨⟨y, r₁⟩, hy, ⟨m, r₂⟩, hm, ⟨d, r₃⟩, hd, ⟨hh, r₄⟩, hhh, ⟨mi, r₅⟩, hmi, ⟨s, r₆⟩, hs,
    rfl⟩ := h
  exact ⟨isInt_scanInt hy, isInt_scanInt hm, isInt_scanInt hd, isInt_scanInt hhh,
    isInt_scanInt hmi, isInt_scanInt hs⟩

/-- **The loop catches up with the clock** if and only if there is a date that is later than the
clock, and a `time_t` and the fields can hold the first. -/
theorem catchesUp_iff (hclock : ∀ k, 0 ≤ clock k) (hdate : getDate source = .ok (date, rest)) :
    CatchesUp clock date pdate ↔
      ∃ k, clock k < (date.after pdate k).due ∧ (∀ j < k, (date.after pdate j).due ≤ clock j) ∧
        (date.after pdate k).Fits ∧ (date.after pdate k).IsInt := by
  constructor
  · rintro ⟨k, n, hcatchUp, hint, hlater, hfirst⟩
    obtain ⟨k', -, heq, hle, -⟩ := catchUp_iff.mp hcatchUp
    have hfits := ((diffTime_nonpos (hclock _)).mp hle).1
    exact ⟨k, hlater, hfirst, heq ▸ hfits, hint k le_rfl⟩
  · rintro ⟨k, hlater, hfirst, hfits, hint⟩
    have hstart := isInt_scanDate (getDate_ok hdate).1
    refine ⟨k, k + 1, catchUp_iff.mpr ⟨k, Nat.lt_succ_self k, rfl, ?_, fun j hj ↦ ?_⟩,
      fun j hj ↦ hstart.between hint hj, hlater, hfirst⟩
    · rw [Nat.zero_add]
      exact (diffTime_nonpos (hclock k)).mpr ⟨hfits, hlater⟩
    · rw [Nat.zero_add]
      refine not_le.mp fun hle ↦ ?_
      exact absurd ((diffTime_nonpos (hclock j)).mp hle).2 (not_lt.mpr (hfirst j hj))

/-- `"2017 12 16 11 10 07"`. -/
def startText : List UInt8 :=
  [50, 48, 49, 55, 32, 49, 50, 32, 49, 54, 32, 49, 49, 32, 49, 48, 32, 48, 55]

/-- 63 seconds are added until the clock has been overtaken. -/
theorem catchesUp_minutely :
    CatchesUp (fun _ ↦ 1513393877) ⟨2017, 12, 16, 11, 10, 7⟩ ⟨0, 0, 0, 0, 1, 3⟩ := by
  have hdate : getDate startText = .ok (⟨2017, 12, 16, 11, 10, 7⟩, startText) := rfl
  refine (catchesUp_iff (fun _ ↦ by decide) hdate).mpr ⟨2, by decide, ?_, by decide,
    ⟨by decide, by decide, by decide, by decide, by decide, by decide⟩⟩
  exact fun j hj ↦ by interval_cases j <;> decide

/-- `"30 00 00 00 00 00"`. -/
def decadesText : List UInt8 :=
  [51, 48, 32, 48, 48, 32, 48, 48, 32, 48, 48, 32, 48, 48, 32, 48, 48]

/-- An alarm for every 30 years: the next one is after 2038. -/
theorem not_catchesUp_decades : ¬∀ (clock : ℕ → ℤ) (date pdate : Date) source rest source' rest',
    (∀ k, 1451577600 ≤ clock k) → getDate source = .ok (date, rest) →
      getPeriodDate source' = .ok (pdate, rest') → CatchesUp clock date pdate := by
  intro h
  have hdate : getDate startText = .ok (⟨2017, 12, 16, 11, 10, 7⟩, startText) := rfl
  have hperiod : getPeriodDate decadesText = .ok (⟨30, 0, 0, 0, 0, 0⟩, decadesText) := rfl
  obtain ⟨k, n, hcatchUp, -, hlater, hfirst⟩ :=
    h (fun _ ↦ 1513393877) _ _ _ _ _ _ (fun _ ↦ by decide) hdate hperiod
  dsimp only at hlater hfirst
  obtain ⟨k', -, heq, hle, -⟩ := catchUp_iff.mp hcatchUp
  have hfits := ((diffTime_nonpos (by decide)).mp hle).1
  rw [← heq] at hfits
  have hstart : (Date.after ⟨2017, 12, 16, 11, 10, 7⟩ ⟨30, 0, 0, 0, 0, 0⟩ 0).due ≤ 1513393877 := by
    decide
  have hnext : 1513393877 < (Date.after ⟨2017, 12, 16, 11, 10, 7⟩ ⟨30, 0, 0, 0, 0, 0⟩ 1).due ∧
      ¬(Date.after ⟨2017, 12, 16, 11, 10, 7⟩ ⟨30, 0, 0, 0, 0, 0⟩ 1).Fits := by
    decide
  obtain _ | _ | k := k
  · exact absurd hlater (not_lt.mpr hstart)
  · exact absurd hfits hnext.2
  · exact absurd (hfirst 1 (by omega)) (not_le.mpr hnext.1)

end Loop

end Ddmz.Alarm
