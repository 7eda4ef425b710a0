import Mathlib

/-!
# The delay of an alert

`duer_alert_thread` compares the time of an alert with that of an NTP server and starts a timer for
the difference. It counts in milliseconds since 1970, which have not fitted into 32 bits since
February of that year, so that both times are taken modulo `2 ^ 32`, some 49 days and 17 hours.

The delay is right if both times are in the same of these periods, and an alert that is past is
also rejected if its remainder happens to be no greater: `delayed_iff`.
-/

namespace Ddmz.Alert

/-- A `DuerTime`. -/
structure DuerTime where
  sec : UInt32
  usec : UInt32

/-- What `duer_alert_thread` does with an alert. -/
inductive DelayVerdict
  | invalid
  | expired
  | start (delay : UInt32)
  deriving DecidableEq

/-- The part of `duer_alert_thread` from the result of `duer_dcs_get_time_stamp` to the delay of the
timer. A `time_t` has 32 bits and a sign, which is lost where it meets an unsigned number. -/
def duerAlertDelay (timeStamp : Int32) (curTime : DuerTime) : DelayVerdict :=
  let time : UInt32 := timeStamp.toUInt32
  if time.toInt32 < 0 then .invalid
  else
    let curTimestamp : Int32 := (curTime.sec * 1000 + curTime.usec / 1000).toInt32
    if time * 1000 ≤ curTimestamp.toUInt32 then .expired
    else .start (time * 1000 - curTimestamp.toUInt32)

/-- The milliseconds of the time of the server. -/
def DuerTime.millis (t : DuerTime) : ℕ := t.sec.toNat * 1000 + t.usec.toNat / 1000

/-- The alert for the second `T` is rejected if and only if it is not in the future, and otherwise
the timer is started with the difference. -/
def Delayed (T : ℕ) (curTime : DuerTime) (verdict : DelayVerdict) : Prop :=
  (verdict = .expired ↔ T * 1000 ≤ curTime.millis) ∧
    (curTime.millis < T * 1000 →
      ∃ delay : UInt32, verdict = .start delay ∧ delay.toNat = T * 1000 - curTime.millis)

/-- Both times are in the same period of `2 ^ 32` milliseconds, or the alert is past and no later in
its period than the current time is. -/
def DelayFits (T : ℕ) (curTime : DuerTime) : Prop :=
  T * 1000 / 2 ^ 32 = curTime.millis / 2 ^ 32 ∨
    T * 1000 < curTime.millis ∧ T * 1000 % 2 ^ 32 ≤ curTime.millis % 2 ^ 32

section Delays

variable {timeStamp : Int32} {curTime : DuerTime}

theorem toNat_millis (curTime : DuerTime) :
    (curTime.sec * 1000 + curTime.usec / 1000).toNat = curTime.millis % 2 ^ 32 := by
  rw [UInt32.toNat_add, UInt32.toNat_mul, UInt32.toNat_div, DuerTime.millis]
  exact Nat.mod_add_mod _ _ _

theorem toNat_scheduled (h : 0 ≤ timeStamp) :
    (timeStamp.toUInt32 * 1000).toNat = timeStamp.toInt.toNat * 1000 % 2 ^ 32 := by
  rw [UInt32.toNat_mul, Int32.toNat_toUInt32_of_le h]
  rfl

/-- What is compared and subtracted are the remainders. -/
theorem duerAlertDelay_eq (h : 0 ≤ timeStamp) : duerAlertDelay timeStamp curTime =
    if timeStamp.toUInt32 * 1000 ≤ curTime.sec * 1000 + curTime.usec / 1000 then .expired
    else .start (timeStamp.toUInt32 * 1000 - (curTime.sec * 1000 + curTime.usec / 1000)) := by
  rw [duerAlertDelay]
  dsimp only
  rw [Int32.toInt32_toUInt32, if_neg (Int32.not_lt.mpr h), UInt32.toUInt32_toInt32]

/-- **The delay of an alert is right** if and only if the times fit. -/
theorem delayed_iff (h : 0 ≤ timeStamp) :
    Delayed timeStamp.toInt.toNat curTime (duerAlertDelay timeStamp curTime) ↔
      DelayFits timeStamp.toInt.toNat curTime := by
  have hscheduled := toNat_scheduled h
  have hmillis := toNat_millis curTime
  rw [duerAlertDelay_eq h, Delayed, DelayFits]
  generalize timeStamp.toUInt32 * 1000 = a at *
  generalize curTime.sec * 1000 + curTime.usec / 1000 = b at *
  generalize timeStamp.toInt.toNat * 1000 = A at *
  generalize curTime.millis = B at *
  by_cases hle : a ≤ b
  · -- rejected
    rw [if_pos hle]
    rw [UInt32.le_iff_toNat_le, hscheduled, hmillis] at hle
    constructor
    · rintro ⟨hexpired, -⟩
      have hpast := hexpired.mp rfl
      omega
    · intro hfits
      have hpast : A ≤ B := by omega
      exact ⟨iff_of_true rfl hpast, fun hfuture ↦ absurd hpast (not_le.mpr hfuture)⟩
  · -- started
    rw [if_neg hle]
    have hlt := UInt32.not_le.mp hle
    have hdelay : (a - b).toNat = A % 2 ^ 32 - B % 2 ^ 32 := by
      rw [UInt32.toNat_sub_of_le _ _ (UInt32.le_of_lt hlt), hscheduled, hmillis]
    rw [UInt32.lt_iff_toNat_lt, hscheduled, hmillis] at hlt
    constructor
    · rintro ⟨hexpired, hstart⟩
      have hfuture : B < A := not_le.mp fun hle ↦ nomatch hexpired.mpr hle
      have hdiff : A % 2 ^ 32 - B % 2 ^ 32 = A - B := by
        obtain ⟨delay, heq, hdiff⟩ := hstart hfuture
        rw [← hdelay, DelayVerdict.start.inj heq, hdiff]
      clear hstart
      omega
    · intro hfits
      have hfuture : B < A := by omega
      exact ⟨iff_of_false nofun (not_le.mpr hfuture), fun _ ↦ ⟨_, rfl, by omega⟩⟩

/-- An alert for the next minute. -/
theorem delayed_minute :
    Delayed 1513393860 ⟨1513393800, 500000⟩ (duerAlertDelay 1513393860 ⟨1513393800, 500000⟩) :=
  (delayed_iff (by decide)).mpr (.inl (by decide))

/-- An alert for a month later is rejected, at the beginning of the next period. -/
theorem not_delayed_month : ¬∀ (timeStamp : Int32) curTime, 0 ≤ timeStamp →
    Delayed timeStamp.toInt.toNat curTime (duerAlertDelay timeStamp curTime) := by
  intro h
  have hexpired : duerAlertDelay 1516123456 ⟨1513393800, 0⟩ = .expired := by decide
  have hpast := (h 1516123456 ⟨1513393800, 0⟩ (by decide)).1.mp hexpired
  exact absurd hpast (by decide)

end Delays

end Ddmz.Alert
