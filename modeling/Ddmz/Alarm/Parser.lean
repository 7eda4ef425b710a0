import Ddmz.Alarm.Service
import Ddmz.Foundation.Calendar

/-!
# The dates and the texts of alarms

The text of an alarm is its type, its date and, if it repeats, its period: `alarmparser.c` blanks
the `-` and the `:` in it, reads six numbers for each of them, and moves the date of an alarm that
repeats forward until it is a future one.

The service compares a date with the clock by way of `mktime`, for the second before that of the
date. An alarm goes off in the two seconds from its date on, `computeTimeDifference_window`; a date
that a `time_t` cannot hold looks like the last second of 1969. Adding a period whose fields are not
negative never makes a date an earlier one, `Date.due_le_due_plus`.

The fields of dates do not overflow here.
-/

namespace Ddmz.Alarm

/-! ## Dates and the clock -/

/-- The time zone that `sntp_init_task` sets, `"CST-8"`. -/
def TZ : ℤ := 28800

def Date.tm (date : Date) : Tm := ⟨date.y - 1900, date.m - 1, date.d, date.h, date.mi, date.s⟩

/-- The second for which an alarm is set. -/
def Date.due (date : Date) : ℤ := date.tm.seconds - TZ

/-- Where the source looks for a date: at the second before it. -/
def Date.mktime (date : Date) : ℤ := Tm.mktime TZ { date.tm with sec := date.s - 1 }

/-- `computeTimeDifference` at the time `now`. -/
def computeTimeDifference (now : ℤ) (date : Date) : ℤ := now - date.mktime

/-- `diffTime` at the time `now`. -/
def diffTime (now : ℤ) (date : Date) : ℤ := now - date.mktime

/-- A date, one period later. -/
def Date.plus (date pdate : Date) : Date where
  y := date.y + pdate.y
  m := date.m + pdate.m
  d := date.d + pdate.d
  h := date.h + pdate.h
  mi := date.mi + pdate.mi
  s := date.s + pdate.s

/-- No field is less than that of another date. -/
structure Date.FieldsLE (date date' : Date) : Prop where
  y : date.y ≤ date'.y
  m : date.m ≤ date'.m
  d : date.d ≤ date'.d
  h : date.h ≤ date'.h
  mi : date.mi ≤ date'.mi
  s : date.s ≤ date'.s

/-- No field of a period is negative. -/
def Date.Forward (pdate : Date) : Prop := Date.FieldsLE ⟨0, 0, 0, 0, 0, 0⟩ pdate

/-- `mktime` can tell the date. -/
def Date.Fits (date : Date) : Prop := Tm.FitsTimeT (date.due - 1)

instance (date : Date) : Decidable date.Fits := inferInstanceAs (Decidable (Tm.FitsTimeT _))

section Dates

variable {date date' pdate : Date} {now : ℤ}

theorem Date.FieldsLE.due_le_due (h : date.FieldsLE date') : date.due ≤ date'.due :=
  Int.sub_le_sub_right (Tm.seconds_mono (Int.sub_le_sub_right h.y _) (Int.sub_le_sub_right h.m _)
    h.d h.h h.mi h.s) _

theorem Date.Forward.le_plus (h : pdate.Forward) (date : Date) :
    date.FieldsLE (date.plus pdate) where
  y := Int.le_add_of_nonneg_right h.y
  m := Int.le_add_of_nonneg_right h.m
  d := Int.le_add_of_nonneg_right h.d
  h := Int.le_add_of_nonneg_right h.h
  mi := Int.le_add_of_nonneg_right h.mi
  s := Int.le_add_of_nonneg_right h.s

theorem Date.due_le_due_plus (h : pdate.Forward) (date : Date) :
    date.due ≤ (date.plus pdate).due := (h.le_plus date).due_le_due

theorem Date.mktime_eq (date : Date) :
    date.mktime = if date.Fits then date.due - 1 else -1 := by
  have hsec : ({ date.tm with sec := date.s - 1 } : Tm).seconds - TZ = date.due - 1 := by
    rw [Date.due, sub_right_comm]
    exact congrArg (· - TZ) (Tm.seconds_sub_one date.tm)
  rw [Date.mktime, Tm.mktime, hsec]
  rfl

/-- **The window of an alarm**: two seconds from the one for which it is set. -/
theorem computeTimeDifference_window (h : date.Fits) (now : ℤ) :
    0 < computeTimeDifference now date ∧ computeTimeDifference now date < 3
      ↔ date.due ≤ now ∧ now < date.due + 2 := by
  rw [computeTimeDifference, Date.mktime_eq, if_pos h]
  omega

theorem computeTimeDifference_of_not_fits (h : ¬date.Fits) :
    computeTimeDifference now date = now + 1 := by
  rw [computeTimeDifference, Date.mktime_eq, if_neg h, Int.sub_neg]

/-- A date that is not yet over can be told by `mktime`. -/
theorem diffTime_nonpos (hnow : 0 ≤ now) : diffTime now date ≤ 0 ↔ date.Fits ∧ now < date.due := by
  rw [diffTime, Date.mktime_eq]
  by_cases h : date.Fits
  · rw [if_pos h, and_iff_right h]
    omega
  · rw [if_neg h, Int.sub_neg]
    exact ⟨fun hle ↦ by omega, fun hand ↦ absurd hand.1 h⟩

end Dates

/-! ## Reading numbers -/

def isSpace (c : UInt8) : Bool := c = 32 ∨ 9 ≤ c ∧ c ≤ 13

def isDigit (c : UInt8) : Bool := 48 ≤ c ∧ c ≤ 57

/-- What `strtol` answers for a number that an `int` cannot hold. -/
def clampInt (v : ℤ) : ℤ := max (-2 ^ 31) (min (2 ^ 31 - 1) v)

/-- An optional sign, and what follows it. -/
def scanSign : List UInt8 → Bool × List UInt8
  | 45 :: rest => (true, rest)
  | 43 :: rest => (false, rest)
  | rest => (false, rest)

/-- A `%d` of `sscanf`, with what follows the number. -/
def scanInt (source : List UInt8) : Option (ℤ × List UInt8) :=
  let sign := scanSign (source.dropWhile isSpace)
  let digits := sign.2.takeWhile isDigit
  let v : ℕ := digits.foldl (fun v c ↦ 10 * v + (c.toNat - 48)) 0
  if digits = [] then none
  else some (clampInt (if sign.1 then -v else v), sign.2.dropWhile isDigit)

/-- `sscanf` with the format `"%d %d %d %d %d %d"`. -/
def scanDate (source : List UInt8) : Option Date := do
  let (y, source) ← scanInt source
  let (m, source) ← scanInt source
  let (d, source) ← scanInt source
  let (h, source) ← scanInt source
  let (mi, source) ← scanInt source
  let (s, _) ← scanInt source
  return ⟨y, m, d, h, mi, s⟩

/-! ## Parsing -/

/-- `ABS_FORMAT_LEN`. -/
def ABS_FORMAT_LEN : ℕ := 20

/-- `PER_FORMAT_LEN`. -/
def PER_FORMAT_LEN : ℕ := 38

/-- The loop that `remove_TESP_OKens_ABS` and `remove_TESP_OKens_PER` make over the first `n`
characters. -/
def removeTokens (n : ℕ) (source : List UInt8) : List UInt8 :=
  (source.take n).map (fun c ↦ if c = 45 ∨ c = 58 then 32 else c) ++ source.drop n

def remove_TESP_OKens_ABS : List UInt8 → List UInt8 := removeTokens ABS_FORMAT_LEN

def remove_TESP_OKens_PER : List UInt8 → List UInt8 := removeTokens PER_FORMAT_LEN

/-- `chopN`. -/
def chopN (str : List UInt8) (n : ℕ) : List UInt8 := if str.length < n then str else str.drop n

/-- `get_Type`. -/
def getType (source : List UInt8) : Except AlarmCode (AlarmType × List UInt8) :=
  if source.take 3 = [65, 66, 83] then .ok (.ABS, chopN source 4)
  else if source.take 3 = [80, 69, 82] then .ok (.PER, chopN source 4)
  else .error .E_ALARM_INVALID_TYPE

/-- `get_Date`. -/
def getDate (source : List UInt8) : Except AlarmCode (Date × List UInt8) :=
  match scanDate source with
  | none => .error .E_ALARM_MISSING_DATA
  | some date =>
    if date.y < 2016 then .error .E_ALARM_YEAR
    else if date.m < 0 ∨ 12 < date.m then .error .E_ALARM_MONTH
    else if date.d < 0 ∨ 31 < date.d then .error .E_ALARM_DAY
    else if date.h < 0 ∨ 24 < date.h then .error .E_ALARM_HOUR
    else if date.mi < 0 ∨ 59 < date.mi then .error .E_ALARM_MINUTE
    else if date.s < 0 ∨ 59 < date.s then .error .E_ALARM_SECOND
    else .ok (date, chopN source 20)

/-- `get_Period_Date`; the sum of the fields is an `int`. -/
def getPeriodDate (source : List UInt8) : Except AlarmCode (Date × List UInt8) :=
  match scanDate source with
  | none => .error .E_ALARM_MISSING_DATA
  | some pdate =>
    if Int.bmod (pdate.y + pdate.m + pdate.d + pdate.h + pdate.mi + pdate.s) (2 ^ 32) = 0 then
      .error .E_ALARM_PER_ZERO
    else .ok (pdate, chopN source 18)

/-- The loop of `parseAlarm` that looks for the next date, where the `k`-th reading of the clock is
`clock k`. It is cut off after `n` rounds. -/
def catchUp (clock : ℕ → ℤ) (pdate : Date) : ℕ → ℕ → Date → Option Date
  | 0, _, _ => none
  | n + 1, k, date =>
    if 0 < diffTime (clock k) date then catchUp clock pdate n (k + 1) (date.plus pdate)
    else some date

/-- `parseAlarm` of a text in which there is an alarm from `calloc` to fill. -/
def parseAlarm (n : ℕ) (clock : ℕ → ℤ) (source : List UInt8) : Option (Except AlarmCode AlarmT) :=
  match getType source with
  | .error _ => some (.error .E_ALARM_ARG)
  | .ok (.ABS, source) =>
    match getDate (remove_TESP_OKens_ABS source) with
    | .error _ => some (.error .E_ALARM_ARG)
    | .ok (date, _) =>
      if 0 < diffTime (clock 0) date then some (.error .E_ALARM_ARG)
      else some (.ok ⟨.ABS, date, ⟨0, 0, 0, 0, 0, 0⟩⟩)
  | .ok (.PER, source) =>
    match getDate (remove_TESP_OKens_PER source) with
    | .error _ => some (.error .E_ALARM_ARG)
    | .ok (date, source) =>
      match getPeriodDate source with
      | .error _ => some (.error .E_ALARM_ARG)
      | .ok (pdate, _) => (catchUp clock pdate n 0 date).map fun date ↦ .ok ⟨.PER, date, pdate⟩

/-- `"PER 2017-12-16 11:10:07 00-00-00 00:01:03"`, 70 seconds after that date. -/
example : parseAlarm 3 (fun _ ↦ 1513393877)
    [80, 69, 82, 32, 50, 48, 49, 55, 45, 49, 50, 45, 49, 54, 32, 49, 49, 58, 49, 48, 58, 48,
      55, 32, 48, 48, 45, 48, 48, 45, 48, 48, 32, 48, 48, 58, 48, 49, 58, 48, 51]
    = some (.ok ⟨.PER, ⟨2017, 12, 16, 11, 12, 13⟩, ⟨0, 0, 0, 0, 1, 3⟩⟩) := by rfl

/-! ## What is accepted -/

section Accepted

variable {n : ℕ} {clock : ℕ → ℤ} {source rest : List UInt8} {date pdate : Date} {alarm : AlarmT}

theorem scanSign_of_notMem (h : 45 ∉ source) :
    (scanSign source).1 = false ∧ 45 ∉ (scanSign source).2 := by
  rw [scanSign.eq_def]
  split
  · exact absurd List.mem_cons_self h
  · exact ⟨rfl, fun hmem ↦ h (List.mem_cons_of_mem _ hmem)⟩
  · exact ⟨rfl, h⟩

theorem clampInt_nonneg {v : ℤ} (h : 0 ≤ v) : 0 ≤ clampInt v :=
  le_max_of_le_right (le_min (by decide) h)

/-- Without a `-` there are no negative numbers. -/
theorem scanInt_nonneg (h : 45 ∉ source) {v : ℤ} (hscan : scanInt source = some (v, rest)) :
    0 ≤ v ∧ 45 ∉ rest := by
  have hspace : 45 ∉ source.dropWhile isSpace :=
    fun hmem ↦ h ((List.dropWhile_suffix _).mem hmem)
  obtain ⟨hsign, hdigits⟩ := scanSign_of_notMem hspace
  unfold scanInt at hscan
  dsimp only at hscan
  rw [hsign, if_neg Bool.false_ne_true] at hscan
  split_ifs at hscan
  obtain ⟨rfl, rfl⟩ := Prod.mk.inj (Option.some.inj hscan)
  refine ⟨?_, fun hmem ↦ hdigits ((List.dropWhile_suffix _).mem hmem)⟩
  exact clampInt_nonneg (Int.natCast_nonneg _)

theorem scanDate_forward (h : 45 ∉ source) (hscan : scanDate source = some date) :
    date.Forward := by
  simp only [scanDate, Option.bind_eq_bind, Option.bind_eq_some_iff, Option.pure_def,
    Option.some.injEq] at hscan
  obtain ⟨⟨y, r₁⟩, hy, ⟨m, r₂⟩, hm, ⟨d, r₃⟩, hd, ⟨hh, r₄⟩, hhh, ⟨mi, r₅⟩, hmi, ⟨s, r₆⟩, hs,
    rfl⟩ := hscan
  obtain ⟨hy, h⟩ := scanInt_nonneg h hy
  obtain ⟨hm, h⟩ := scanInt_nonneg h hm
  obtain ⟨hd, h⟩ := scanInt_nonneg h hd
  obtain ⟨hhh, h⟩ := scanInt_nonneg h hhh
  obtain ⟨hmi, h⟩ := scanInt_nonneg h hmi
  exact ⟨hy, hm, hd, hhh, hmi, (scanInt_nonneg h hs).1⟩

theorem length_chopN_le (str : List UInt8) {k : ℕ} (h : str.length ≤ k + n) (hn : n ≤ k) :
    (chopN str n).length ≤ k := by
  rw [chopN]
  split_ifs with hlt
  · exact hlt.le.trans hn
  · rw [List.length_drop]
    omega

theorem notMem_chopN {c : UInt8} (h : c ∉ source) : c ∉ chopN source n := by
  rw [chopN]
  split_ifs
  · exact h
  · exact fun hmem ↦ h (List.mem_of_mem_drop hmem)

theorem notMem_removeTokens (h : source.length ≤ n) : 45 ∉ removeTokens n source := by
  rw [removeTokens, List.drop_of_length_le h, List.append_nil, List.mem_map]
  rintro ⟨c, -, hc⟩
  by_cases hif : c = 45 ∨ c = 58
  · rw [if_pos hif] at hc
    cases hc
  · rw [if_neg hif] at hc
    exact hif (Or.inl hc)

theorem length_getType (h : source.length ≤ MAX_FORMAT_LEN) {t : AlarmType}
    (htype : getType source = .ok (t, rest)) : rest.length ≤ PER_FORMAT_LEN := by
  have hchop := length_chopN_le source (n := 4) (k := PER_FORMAT_LEN) h (by decide)
  rw [getType] at htype
  split_ifs at htype <;> cases htype <;> exact hchop

/-- The date of an alarm is in a month after November 2015. -/
theorem getDate_ok (h : getDate source = .ok (date, rest)) :
    scanDate source = some date ∧ Date.FieldsLE ⟨2016, 0, 0, 0, 0, 0⟩ date ∧
      rest = chopN source 20 := by
  rw [getDate] at h
  cases hscan : scanDate source with
  | none =>
    rw [hscan] at h
    cases h
  | some date =>
    rw [hscan] at h
    dsimp only at h
    split_ifs at h
    cases h
    refine ⟨rfl, ⟨?_, ?_, ?_, ?_, ?_, ?_⟩, rfl⟩ <;> dsimp only <;> omega

theorem getPeriodDate_ok (h : getPeriodDate source = .ok (pdate, rest)) :
    scanDate source = some pdate := by
  rw [getPeriodDate] at h
  cases hscan : scanDate source with
  | none =>
    rw [hscan] at h
    cases h
  | some pdate =>
    rw [hscan] at h
    dsimp only at h
    split_ifs at h
    cases h
    rfl

/-- The loop only goes forward, and ends with a date that is not over. -/
theorem catchUp_some {k : ℕ} (hforward : pdate.Forward) {date' : Date}
    (h : catchUp clock pdate n k date = some date') :
    date.FieldsLE date' ∧ ∃ j, diffTime (clock j) date' ≤ 0 := by
  induction n generalizing k date with
  | zero => cases h
  | succ n ih =>
    rw [catchUp] at h
    split_ifs at h with hdiff
    · obtain ⟨hle, hlast⟩ := ih h
      have hplus := hforward.le_plus date
      exact ⟨⟨hplus.y.trans hle.y, hplus.m.trans hle.m, hplus.d.trans hle.d, hplus.h.trans hle.h,
        hplus.mi.trans hle.mi, hplus.s.trans hle.s⟩, hlast⟩
    · cases h
      exact ⟨⟨le_rfl, le_rfl, le_rfl, le_rfl, le_rfl, le_rfl⟩, k, not_lt.mp hdiff⟩

/-- What `parseAlarm` has found when it accepts a text. -/
inductive Accepts (n : ℕ) (clock : ℕ → ℤ) (source : List UInt8) : AlarmT → Prop
  | abs {source' rest : List UInt8} {date : Date} (htype : getType source = .ok (.ABS, source'))
      (hdate : getDate (remove_TESP_OKens_ABS source') = .ok (date, rest))
      (hdiff : diffTime (clock 0) date ≤ 0) :
      Accepts n clock source ⟨.ABS, date, ⟨0, 0, 0, 0, 0, 0⟩⟩
  | per {source' rest rest' : List UInt8} {date date' pdate : Date}
      (htype : getType source = .ok (.PER, source'))
      (hdate : getDate (remove_TESP_OKens_PER source') = .ok (date, rest))
      (hperiod : getPeriodDate rest = .ok (pdate, rest'))
      (hcatchUp : catchUp clock pdate n 0 date = some date') :
      Accepts n clock source ⟨.PER, date', pdate⟩

theorem parseAlarm_accepts (h : parseAlarm n clock source = some (.ok alarm)) :
    Accepts n clock source alarm := by
  unfold parseAlarm at h
  cases htype : getType source with
  | error code =>
    rw [htype] at h
    cases h
  | ok r =>
    obtain ⟨t, source'⟩ := r
    rw [htype] at h
    cases t with
    | ABS =>
      dsimp only at h
      cases hdate : getDate (remove_TESP_OKens_ABS source') with
      | error code =>
        rw [hdate] at h
        cases h
      | ok r =>
        obtain ⟨date, rest⟩ := r
        rw [hdate] at h
        dsimp only at h
        split_ifs at h with hdiff
        · cases h
        · obtain rfl := Except.ok.inj (Option.some.inj h)
          exact .abs htype hdate (not_lt.mp hdiff)
    | PER =>
      dsimp only at h
      cases hdate : getDate (remove_TESP_OKens_PER source') with
      | error code =>
        rw [hdate] at h
        cases h
      | ok r =>
        obtain ⟨date, rest⟩ := r
        rw [hdate] at h
        dsimp only at h
        cases hperiod : getPeriodDate rest with
        | error code =>
          rw [hperiod] at h
          cases h
        | ok r =>
          rw [hperiod] at h
          obtain ⟨date', hcatchUp, heq⟩ := Option.map_eq_some_iff.mp h
          cases heq
          exact .per htype hdate hperiod hcatchUp

/-- The text of an alarm that `esp_alarm_add` passes on has no room for a `-` behind the part that
is blanked, so that periods are not negative. -/
theorem Accepts.forward (h : Accepts n clock source alarm)
    (hlength : source.length ≤ MAX_FORMAT_LEN) : alarm.pdate.Forward := by
  cases h with
  | abs htype hdate hdiff => exact ⟨le_rfl, le_rfl, le_rfl, le_rfl, le_rfl, le_rfl⟩
  | per htype hdate hperiod hcatchUp =>
    have hblank := notMem_removeTokens (length_getType hlength htype)
    have hrest := (getDate_ok hdate).2.2
    exact scanDate_forward (hrest ▸ notMem_chopN hblank) (getPeriodDate_ok hperiod)

theorem Accepts.fieldsLE (h : Accepts n clock source alarm) (hforward : alarm.pdate.Forward) :
    Date.FieldsLE ⟨2016, 0, 0, 0, 0, 0⟩ alarm.date := by
  cases h with
  | abs htype hdate hdiff => exact (getDate_ok hdate).2.1
  | per htype hdate hperiod hcatchUp =>
    have hstart := (getDate_ok hdate).2.1
    have hle := (catchUp_some hforward hcatchUp).1
    exact ⟨hstart.y.trans hle.y, hstart.m.trans hle.m, hstart.d.trans hle.d, hstart.h.trans hle.h,
      hstart.mi.trans hle.mi, hstart.s.trans hle.s⟩

/-- An alarm is not accepted once the clock has reached its date. -/
theorem Accepts.abs_not_over (h : Accepts n clock source alarm) (habs : alarm.alarmType = .ABS) :
    diffTime (clock 0) alarm.date ≤ 0 := by
  cases h with
  | abs htype hdate hdiff => exact hdiff
  | per htype hdate hperiod hcatchUp => cases habs

end Accepted

end Ddmz.Alarm
