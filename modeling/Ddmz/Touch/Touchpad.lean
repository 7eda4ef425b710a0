import Ddmz.Foundation.Presses
import Ddmz.Foundation.Runs

/-!
# Touch pads

The filter of the touch sensor calls `filter_read_cb` with a reading of every pad. The reading is
compared with a baseline that follows it slowly while nobody touches the pad; what is a touch, and
what is none any more, is decided by thresholds with hysteresis, and several readings in a row have
to agree. While a pad is touched the timers of its custom callbacks run, and when the time that has
been summed up reaches `serial_thres_sec`, the serial callback begins.

For every sequence of readings and expiries the callbacks of a pad keep to the protocol of
`Ddmz.Foundation.Presses`, if a press does not last so long that `sum_ms` would overflow:
`pressProtocol_of_run`. Floating-point numbers are rationals here.
-/

namespace Ddmz.Touch

inductive TpStatus
  | IDLE
  | PUSH
  | PRESS
  | RELEASE
  deriving DecidableEq

/-- `TOUCHPAD_TOUCH_LOW_SENSE_THRESHOLD`. -/
def LOW_SENSE_THRESHOLD : ℚ := 3 / 100

/-- `tp_dev_t`, with whether its timers run. -/
structure TpDev where
  state : TpStatus
  /-- `button_type` is one of the sliders. -/
  slider : Bool
  touchChange : ℚ
  diffRate : ℚ
  touchThr : ℚ
  noiseThr : ℚ
  hysteresisThr : ℚ
  baselineResetThr : ℚ
  slideTriggerThr : ℚ
  filterValue : UInt32
  sumMs : UInt32
  baseline : UInt16
  debounceCount : UInt16
  debounceTh : UInt16
  blResetCount : UInt16
  blResetCountTh : UInt16
  blUpdateCount : UInt16
  blUpdateCountTh : UInt16
  serialThresSec : UInt32
  serialTmr : Bool
  customCbs : List Bool

/-- The callbacks for a long press. -/
inductive LongPress
  | custom (i : ℕ)
  /-- `serial_cb` is called by `filter_read_cb`, or again by its timer. -/
  | serialStart
  | serial
  deriving DecidableEq

/-- What `filter_read_cb` does with one pad: the pad, the callbacks, and what it says of
`action_flag`. A callback is entered whether or not one has been registered. -/
structure Reading where
  dev : TpDev
  calls : List (PressEvent LongPress)
  action : Option Bool

namespace TpDev

variable (dev : TpDev)

def customReset : TpDev := { dev with customCbs := dev.customCbs.map fun _ ↦ true }

def customStop : TpDev := { dev with customCbs := dev.customCbs.map fun _ ↦ false }

/-- The difference is taken in 16 bits. -/
def measure (raw : UInt16) : TpDev :=
  let diffData : ℤ := ((dev.baseline.toNat : ℤ) - raw.toNat).bmod (2 ^ 16)
  { dev with diffRate := diffData / dev.baseline.toNat }

/-- The branch for a pad that is not touched. -/
def readIdle (raw filtered : UInt16) : Reading :=
  if |dev.diffRate| ≤ dev.noiseThr then
    let dev := { dev with blResetCount := 0, debounceCount := 0,
                          blUpdateCount := dev.blUpdateCount + 1 }
    if dev.blUpdateCountTh < dev.blUpdateCount then
      ⟨{ dev with blUpdateCount := 0, baseline := filtered }, [], some false⟩
    else ⟨dev, [], none⟩
  else
    let dev := { dev with blUpdateCount := 0 }
    if dev.touchThr + dev.hysteresisThr ≤ dev.diffRate then
      let dev := { dev with blResetCount := 0, debounceCount := dev.debounceCount + 1 }
      if dev.debounceTh ≤ dev.debounceCount ∨ dev.touchChange < LOW_SENSE_THRESHOLD then
        ⟨{ dev with debounceCount := 0, state := .PUSH }.customReset, [.push], some true⟩
      else ⟨dev, [], some true⟩
    else if dev.diffRate ≤ 0 - dev.baselineResetThr then
      let dev := { dev with debounceCount := 0, blResetCount := dev.blResetCount + 1 }
      if dev.blResetCountTh < dev.blResetCount then
        ⟨{ dev with blResetCount := 0, baseline := raw }, [], some true⟩
      else ⟨dev, [], some true⟩
    else ⟨{ dev with debounceCount := 0, blResetCount := 0 }, [], some true⟩

/-- The branch for a pad that is touched. -/
def readTouched : Reading :=
  if dev.touchThr - dev.hysteresisThr < dev.diffRate then
    let dev := { dev with debounceCount := 0, sumMs := dev.sumMs + dev.filterValue }
    if 0 < dev.serialThresSec ∧ dev.sumMs - dev.filterValue < dev.serialThresSec * 1000 ∧
        dev.serialThresSec * 1000 ≤ dev.sumMs then
      ⟨{ dev with state := .PRESS, serialTmr := true }, [.press .serialStart], some true⟩
    else ⟨dev, [], some true⟩
  else
    let dev := { dev with debounceCount := dev.debounceCount + 1 }
    if dev.debounceTh ≤ dev.debounceCount ∨ |dev.diffRate| < dev.noiseThr ∨
        dev.touchChange < LOW_SENSE_THRESHOLD then
      ⟨{ dev with
          debounceCount := 0
          sumMs := 0
          state := .RELEASE
          serialTmr := false }.customStop,
        (if dev.state = .PUSH then [.tap] else []) ++ [.release], some true⟩
    else ⟨dev, [], some true⟩

/-- The body of the main loop of `filter_read_cb`. -/
def read (raw filtered : UInt16) : Reading :=
  let dev := dev.measure raw
  if dev.state = .IDLE ∨ dev.state = .RELEASE then { dev with state := .IDLE }.readIdle raw filtered
  else dev.readTouched

/-- A pad that is not touched: nothing is summed up, and no timer runs. -/
structure Untouched : Prop where
  state : dev.state = .IDLE ∨ dev.state = .RELEASE
  sumMs : dev.sumMs = 0
  serialTmr : dev.serialTmr = false
  customCbs : ∀ i : ℕ, dev.customCbs[i]? ≠ some true

def touched : Bool := dev.state == .PUSH || dev.state == .PRESS

end TpDev

/-- A pad, for how long it has been touched, and its callbacks so far. -/
structure Pad where
  dev : TpDev
  time : ℕ
  trace : List (PressEvent LongPress)

namespace Pad

variable (pad : Pad)

def read (raw filtered : UInt16) : Pad :=
  let r := pad.dev.read raw filtered
  { dev := r.dev
    time := if pad.dev.touched && r.dev.touched then pad.time + pad.dev.filterValue.toNat else 0
    trace := pad.trace ++ r.calls }

/-- `tp_custom_timer_cb`, if the timer is running; it is a one-shot timer. -/
def custom (i : ℕ) : Option Pad :=
  if pad.dev.customCbs[i]? = some true then
    some { pad with
      dev := { pad.dev with state := .PRESS, customCbs := pad.dev.customCbs.set i false }
      trace := pad.trace ++ [.press (.custom i)] }
  else none

/-- `tp_serial_timer_cb`, if the timer is running. -/
def serial : Option Pad :=
  if pad.dev.serialTmr then some { pad with trace := pad.trace ++ [.press .serial] } else none

end Pad

/-! ## One pad -/

namespace TpDev

variable (dev dev' : TpDev)

/-- The summed-up time at which the serial callback begins. -/
def serialThres : UInt32 := dev.serialThresSec * 1000

/-- What a reading can do. -/
inductive Reads : List (PressEvent LongPress) → Prop
  | idle (h : dev.touched = false) (hkeeps : dev.Untouched → dev'.Untouched) : Reads []
  | push (h : dev.touched = false) (hstate : dev'.state = .PUSH)
      (hsum : dev'.sumMs = dev.sumMs) (hserial : dev'.serialTmr = dev.serialTmr) : Reads [.push]
  | stay (h : dev.touched = true) (hstate : dev'.state = dev.state)
      (hsum : dev'.sumMs = dev.sumMs ∨ dev'.sumMs = dev.sumMs + dev.filterValue)
      (hserial : dev'.serialTmr = dev.serialTmr) : Reads []
  | serial (h : dev.touched = true) (hstate : dev'.state = .PRESS)
      (hsum : dev'.sumMs = dev.sumMs + dev.filterValue) (hbefore : dev.sumMs < dev.serialThres)
      (hafter : dev.serialThres ≤ dev'.sumMs) : Reads [.press .serialStart]
  | tap (h : dev.state = .PUSH) (hstate : dev'.Untouched) : Reads [.tap, .release]
  | release (h : dev.state = .PRESS) (hstate : dev'.Untouched) : Reads [.release]

variable {dev} {r : Reading} {raw filtered : UInt16}

theorem touched_eq_false : dev.touched = false ↔ dev.state = .IDLE ∨ dev.state = .RELEASE := by
  rw [touched]
  cases dev.state <;> decide

theorem Untouched.of_eq (h : dev.Untouched) (hstate : dev'.state = .IDLE)
    (hsum : dev'.sumMs = dev.sumMs) (hserial : dev'.serialTmr = dev.serialTmr)
    (hcustom : dev'.customCbs = dev.customCbs) : dev'.Untouched := by
  constructor
  · exact .inl hstate
  · exact hsum.trans h.sumMs
  · exact hserial.trans h.serialTmr
  · rw [hcustom]
    exact h.customCbs

theorem untouched_stop (hstate : dev.state = .IDLE ∨ dev.state = .RELEASE) (hsum : dev.sumMs = 0)
    (hserial : dev.serialTmr = false) : dev.customStop.Untouched := by
  constructor
  · exact hstate
  · exact hsum
  · exact hserial
  · intro i hi
    obtain ⟨b, -, hb⟩ := Option.map_eq_some_iff.mp (List.getElem?_map.symm.trans hi)
    exact Bool.false_ne_true hb

theorem readIdle_spec (h : dev.touched = false)
    (hr : r = { dev.measure raw with state := .IDLE }.readIdle raw filtered) :
    dev.Reads r.dev r.calls ∧ r.dev.filterValue = dev.filterValue ∧
      r.dev.serialThresSec = dev.serialThresSec := by
  simp only [readIdle] at hr
  split_ifs at hr
  · subst hr
    exact ⟨.idle h fun hdev ↦ hdev.of_eq _ rfl rfl rfl rfl, rfl, rfl⟩
  · subst hr
    exact ⟨.idle h fun hdev ↦ hdev.of_eq _ rfl rfl rfl rfl, rfl, rfl⟩
  · subst hr
    exact ⟨.push h rfl rfl rfl, rfl, rfl⟩
  · subst hr
    exact ⟨.idle h fun hdev ↦ hdev.of_eq _ rfl rfl rfl rfl, rfl, rfl⟩
  · subst hr
    exact ⟨.idle h fun hdev ↦ hdev.of_eq _ rfl rfl rfl rfl, rfl, rfl⟩
  · subst hr
    exact ⟨.idle h fun hdev ↦ hdev.of_eq _ rfl rfl rfl rfl, rfl, rfl⟩
  · subst hr
    exact ⟨.idle h fun hdev ↦ hdev.of_eq _ rfl rfl rfl rfl, rfl, rfl⟩

theorem readTouched_spec (h : dev.touched = true) (hr : r = (dev.measure raw).readTouched) :
    dev.Reads r.dev r.calls ∧ r.dev.filterValue = dev.filterValue ∧
      r.dev.serialThresSec = dev.serialThresSec := by
  simp only [readTouched] at hr
  split_ifs at hr with hheld hserial hend hpush
  · subst hr
    refine ⟨.serial h rfl rfl ?_ hserial.2.2, rfl, rfl⟩
    -- the time before this reading
    have hbefore := hserial.2.1
    rwa [UInt32.add_sub_cancel] at hbefore
  · subst hr
    exact ⟨.stay h rfl (.inr rfl) rfl, rfl, rfl⟩
  · subst hr
    exact ⟨.tap hpush (untouched_stop (.inr rfl) rfl rfl), rfl, rfl⟩
  · subst hr
    have hpress : dev.state = .PRESS := by
      rw [touched, Bool.or_eq_true, beq_iff_eq, beq_iff_eq] at h
      exact h.resolve_left hpush
    exact ⟨.release hpress (untouched_stop (.inr rfl) rfl rfl), rfl, rfl⟩
  · subst hr
    exact ⟨.stay h rfl (.inl rfl) rfl, rfl, rfl⟩

/-- **One reading of a pad.** -/
theorem read_spec (hr : r = dev.read raw filtered) :
    dev.Reads r.dev r.calls ∧ r.dev.filterValue = dev.filterValue ∧
      r.dev.serialThresSec = dev.serialThresSec := by
  by_cases h : dev.touched = false
  · exact readIdle_spec h (hr.trans (if_pos (touched_eq_false.mp h)))
  · exact readTouched_spec (Bool.eq_true_of_not_eq_false h)
      (hr.trans (if_neg (mt touched_eq_false.mpr h)))

end TpDev

namespace Pad

variable (pad : Pad)

/-- What the state of the pad says of its callbacks, if `o` is the press that is going on. -/
structure Keeps (o : Option (List LongPress)) : Prop where
  presses : Presses (· = .serialStart) (fun _ ↦ False) pad.trace o
  sumMs : pad.dev.sumMs.toNat ≤ pad.time
  untouched : pad.dev.touched = false → o = none ∧ pad.dev.Untouched
  push : pad.dev.state = .PUSH → o = some [] ∧ pad.dev.serialTmr = false
  press : pad.dev.state = .PRESS → ∃ ran, o = some ran ∧ ran ≠ []
  serial : ∀ ran, o = some ran → .serialStart ∈ ran → pad.dev.serialThres ≤ pad.dev.sumMs

variable {pad} {t : Pad} {o : Option (List LongPress)} {raw filtered : UInt16}

/-- A pad that has been released, or is not touched. -/
theorem keeps_untouched (hpresses : Presses (· = .serialStart) (fun _ ↦ False) t.trace none)
    (h : t.dev.Untouched) : t.Keeps none := by
  have hstate := TpDev.touched_eq_false.mpr h.state
  constructor
  · exact hpresses
  · rw [h.sumMs]
    exact Nat.zero_le _
  · intro _
    exact ⟨rfl, h⟩
  · intro hpush
    rw [TpDev.touched, hpush] at hstate
    exact absurd hstate Bool.true_eq_false.mp
  · intro hpress
    rw [TpDev.touched, hpress] at hstate
    exact absurd hstate Bool.true_eq_false.mp
  · intro ran hran
    exact absurd hran.symm (Option.some_ne_none ran)

/-- A pad that is touched is in a press. -/
theorem Keeps.down (h : pad.Keeps o) (htouched : pad.dev.touched = true) :
    ∃ ran, o = some ran := by
  rw [TpDev.touched, Bool.or_eq_true, beq_iff_eq, beq_iff_eq] at htouched
  rcases htouched with hpush | hpress
  · exact ⟨[], (h.push hpush).1⟩
  · obtain ⟨ran, hran, -⟩ := h.press hpress
    exact ⟨ran, hran⟩

/-- An event for a long press. -/
theorem keeps_press {ran : List LongPress} {i : LongPress}
    (hpresses : Presses (· = .serialStart) (fun _ ↦ False) t.trace (some (ran ++ [i])))
    (hstate : t.dev.state = .PRESS) (hsum : t.dev.sumMs.toNat ≤ t.time)
    (hserial : .serialStart ∈ ran ++ [i] → t.dev.serialThres ≤ t.dev.sumMs) :
    t.Keeps (some (ran ++ [i])) := by
  constructor
  · exact hpresses
  · exact hsum
  · intro hnot
    rw [TpDev.touched, hstate] at hnot
    exact absurd hnot Bool.true_eq_false.mp
  · intro hpush
    exact TpStatus.noConfusion (hstate.symm.trans hpush)
  · intro _
    exact ⟨_, rfl, by simp⟩
  · intro ran' hran
    rw [← Option.some.inj hran]
    exact hserial

/-- A press begins. -/
theorem keeps_push (hpresses : Presses (· = .serialStart) (fun _ ↦ False) t.trace (some []))
    (hstate : t.dev.state = .PUSH) (hsum : t.dev.sumMs = 0) (hserial : t.dev.serialTmr = false) :
    t.Keeps (some []) := by
  constructor
  · exact hpresses
  · rw [hsum]
    exact Nat.zero_le _
  · intro hnot
    rw [TpDev.touched, hstate] at hnot
    exact absurd hnot Bool.true_eq_false.mp
  · intro _
    exact ⟨rfl, hserial⟩
  · intro hpress
    exact TpStatus.noConfusion (hstate.symm.trans hpress)
  · intro ran hran hmem
    rw [← Option.some.inj hran] at hmem
    exact absurd hmem List.not_mem_nil

/-- A pad stays touched, and nothing is called. -/
theorem Keeps.stay (h : pad.Keeps o) (htouched : pad.dev.touched = true)
    (hstate : t.dev.state = pad.dev.state) (hserial : t.dev.serialTmr = pad.dev.serialTmr)
    (hthres : t.dev.serialThres = pad.dev.serialThres) (htrace : t.trace = pad.trace)
    (hge : pad.dev.sumMs.toNat ≤ t.dev.sumMs.toNat) (hle : t.dev.sumMs.toNat ≤ t.time) :
    t.Keeps o := by
  constructor
  · rw [htrace]
    exact h.presses
  · exact hle
  · intro hnot
    rw [TpDev.touched, hstate] at hnot
    exact absurd (hnot.symm.trans htouched) Bool.false_ne_true
  · rw [hstate, hserial]
    exact h.push
  · rw [hstate]
    exact h.press
  · intro ran hran hmem
    rw [hthres]
    exact UInt32.le_trans (h.serial ran hran hmem) (UInt32.le_iff_toNat_le.mpr hge)

theorem Keeps.custom {i : ℕ} (h : pad.Keeps o) (ht : pad.custom i = some t) :
    ∃ o', t.Keeps o' := by
  rw [Pad.custom] at ht
  split_ifs at ht with hrunning
  obtain rfl := Option.some.inj ht
  have htouched : pad.dev.touched = true := by
    by_contra hnot
    exact (h.untouched (Bool.eq_false_of_not_eq_true hnot)).2.customCbs i hrunning
  obtain ⟨ran, rfl⟩ := h.down htouched
  refine ⟨_, keeps_press (i := .custom i) (h.presses.press ?_) rfl h.sumMs ?_⟩
  · intro honce
    exact LongPress.noConfusion honce
  · intro hmem
    refine h.serial ran rfl ?_
    simpa using hmem

theorem Keeps.serial_expires (h : pad.Keeps o) (ht : pad.serial = some t) : ∃ o', t.Keeps o' := by
  rw [Pad.serial] at ht
  split_ifs at ht with hrunning
  obtain rfl := Option.some.inj ht
  -- the timer runs only after the serial callback has begun
  have hpress : pad.dev.state = .PRESS := by
    cases hstate : pad.dev.state with
    | PRESS => rfl
    | PUSH => exact absurd ((h.push hstate).2.symm.trans hrunning) Bool.false_ne_true
    | IDLE =>
      have hnot := (h.untouched (TpDev.touched_eq_false.mpr (.inl hstate))).2.serialTmr
      exact absurd (hnot.symm.trans hrunning) Bool.false_ne_true
    | RELEASE =>
      have hnot := (h.untouched (TpDev.touched_eq_false.mpr (.inr hstate))).2.serialTmr
      exact absurd (hnot.symm.trans hrunning) Bool.false_ne_true
  obtain ⟨ran, rfl, -⟩ := h.press hpress
  refine ⟨_, keeps_press (i := .serial) (h.presses.press ?_) hpress h.sumMs ?_⟩
  · intro honce
    exact LongPress.noConfusion honce
  · intro hmem
    refine h.serial ran rfl ?_
    simpa using hmem

/-- A pad that is still touched has been so for one period more. -/
theorem time_read (h : pad.dev.touched = true)
    (h' : (pad.dev.read raw filtered).dev.touched = true) :
    (pad.read raw filtered).time = pad.time + pad.dev.filterValue.toNat := by
  rw [Pad.read]
  simp [h, h']

/-- The sum does not overflow as long as the time is short. -/
theorem Keeps.sumMs_add (h : pad.Keeps o) (hlt : pad.time + pad.dev.filterValue.toNat < 2 ^ 32)
    (hsum : t.dev.sumMs = pad.dev.sumMs + pad.dev.filterValue) :
    t.dev.sumMs.toNat = pad.dev.sumMs.toNat + pad.dev.filterValue.toNat := by
  have hle := h.sumMs
  rw [hsum, UInt32.toNat_add, Nat.mod_eq_of_lt (by omega)]

theorem Keeps.read (h : pad.Keeps o) (ht : t = pad.read raw filtered) (htime : t.time < 2 ^ 32) :
    ∃ o', t.Keeps o' := by
  obtain ⟨hreads, hfilter, hthres⟩ := TpDev.read_spec (rfl : pad.dev.read raw filtered = _)
  have htrace : t.trace = pad.trace ++ (pad.dev.read raw filtered).calls := by rw [ht]; rfl
  have hdev : t.dev = (pad.dev.read raw filtered).dev := by rw [ht]; rfl
  rw [← hdev] at hreads hfilter hthres
  generalize hcalls : (pad.dev.read raw filtered).calls = calls at hreads htrace
  have hsame : t.dev.serialThres = pad.dev.serialThres := by
    rw [TpDev.serialThres, TpDev.serialThres, hthres]
  have hlonger : pad.dev.touched = true → t.dev.touched = true →
      t.time = pad.time + pad.dev.filterValue.toNat := by
    intro hpad ht'
    rw [ht]
    exact time_read hpad (hdev ▸ ht')
  cases hreads with
  | idle hpad hkeeps =>
    obtain ⟨rfl, huntouched⟩ := h.untouched hpad
    refine ⟨none, keeps_untouched ?_ (hkeeps huntouched)⟩
    rw [htrace, List.append_nil]
    exact h.presses
  | push hpad hstate hsum hserial =>
    obtain ⟨rfl, huntouched⟩ := h.untouched hpad
    refine ⟨some [], keeps_push ?_ hstate (hsum.trans huntouched.sumMs)
      (hserial.trans huntouched.serialTmr)⟩
    rw [htrace]
    exact h.presses.push
  | stay hpad hstate hsum hserial =>
    have ht' : t.dev.touched = true := by
      rw [TpDev.touched, hstate]
      exact hpad
    have htime' := hlonger hpad ht'
    have hle := h.sumMs
    have hsum' : pad.dev.sumMs.toNat ≤ t.dev.sumMs.toNat ∧ t.dev.sumMs.toNat ≤ t.time := by
      rcases hsum with hsum | hsum
      · rw [hsum]
        omega
      · have := h.sumMs_add (htime' ▸ htime) hsum
        omega
    refine ⟨o, h.stay hpad hstate hserial hsame ?_ hsum'.1 hsum'.2⟩
    rw [htrace, List.append_nil]
  | serial hpad hstate hsum hbefore hafter =>
    obtain ⟨ran, rfl⟩ := h.down hpad
    have ht' : t.dev.touched = true := by
      rw [TpDev.touched, hstate]
      rfl
    have htime' := hlonger hpad ht'
    have hle := h.sumMs
    have hsum' := h.sumMs_add (htime' ▸ htime) hsum
    have hpresses : Presses (· = .serialStart) (fun _ ↦ False) t.trace
        (some (ran ++ [.serialStart])) := by
      rw [htrace]
      refine h.presses.press fun _ hmem ↦ ?_
      exact UInt32.not_lt.mpr (h.serial ran rfl hmem) hbefore
    refine ⟨_, keeps_press hpresses hstate (by omega) fun _ ↦ ?_⟩
    rw [hsame]
    exact hafter
  | tap hpush huntouched =>
    obtain ⟨rfl, -⟩ := h.push hpush
    refine ⟨none, keeps_untouched ?_ huntouched⟩
    rw [htrace, List.append_cons]
    exact h.presses.tap
  | release hpress huntouched =>
    obtain ⟨ran, rfl, hran⟩ := h.press hpress
    refine ⟨none, keeps_untouched ?_ huntouched⟩
    rw [htrace]
    exact h.presses.release hran

end Pad

/-! ## All pads -/

abbrev TOUCH_PAD_MAX : ℕ := 10

/-- `TOUCHPAD_FILTER_IDLE_PERIOD` and `TOUCHPAD_FILTER_TOUCH_PERIOD`. -/
def FILTER_IDLE_PERIOD : ℕ := 100
def FILTER_TOUCH_PERIOD : ℕ := 10

/-- What the main loop of `filter_read_cb` keeps. -/
structure Scan where
  pads : Fin TOUCH_PAD_MAX → Option Pad
  actionFlag : Option Bool
  slideTriggerDev : Option (Fin TOUCH_PAD_MAX)

structure TouchPads where
  /-- `tp_group`. -/
  pads : Fin TOUCH_PAD_MAX → Option Pad
  filterPeriod : ℕ
  /-- The pads whose slide callback has been called. -/
  slides : List (Fin TOUCH_PAD_MAX)

section Scan

variable (raw filtered : Fin TOUCH_PAD_MAX → UInt16)

def Scan.next (l : Scan) (i : Fin TOUCH_PAD_MAX) : Scan :=
  match l.pads i with
  | none => l
  | some pad =>
    let r := pad.dev.read (raw i) (filtered i)
    { pads := Function.update l.pads i (some (pad.read (raw i) (filtered i)))
      actionFlag :=
        match r.action with
        | none => l.actionFlag
        | some true => some true
        | some false => l.actionFlag.or (some false)
      slideTriggerDev :=
        if r.dev.slideTriggerThr < r.dev.diffRate ∧ r.dev.slider = true then some i
        else l.slideTriggerDev }

/-- Each pad is read once. -/
theorem Scan.pads_foldl {is : List (Fin TOUCH_PAD_MAX)} (h : is.Nodup) (l : Scan)
    (i : Fin TOUCH_PAD_MAX) : (is.foldl (Scan.next raw filtered) l).pads i =
      if i ∈ is then (l.pads i).map fun pad ↦ pad.read (raw i) (filtered i) else l.pads i := by
  induction is generalizing l with
  | nil => rfl
  | cons j is ih =>
    obtain ⟨hj, his⟩ := List.nodup_cons.mp h
    have hnext : (l.next raw filtered j).pads i = if i = j then
        (l.pads i).map fun pad ↦ pad.read (raw i) (filtered i) else l.pads i := by
      by_cases hij : i = j
      · subst hij
        rw [Scan.next, if_pos rfl]
        cases hpad : l.pads i with
        | none => exact hpad
        | some pad => exact Function.update_self ..
      · rw [Scan.next, if_neg hij]
        cases l.pads j with
        | none => rfl
        | some pad => exact Function.update_of_ne hij ..
    rw [List.foldl_cons, ih his, hnext]
    by_cases hij : i = j
    · subst hij
      simp [hj]
    · simp [hij]

end Scan

namespace TouchPads

variable (s : TouchPads)

def filterReadCb (raw filtered : Fin TOUCH_PAD_MAX → UInt16) : TouchPads :=
  let l := (List.finRange TOUCH_PAD_MAX).foldl (Scan.next raw filtered) ⟨s.pads, none, none⟩
  { pads := l.pads
    filterPeriod := if l.actionFlag = some true then FILTER_TOUCH_PERIOD else FILTER_IDLE_PERIOD
    slides := s.slides ++ l.slideTriggerDev.toList }

inductive Op
  | read (raw filtered : Fin TOUCH_PAD_MAX → UInt16)
  /-- The timer of a custom callback of a pad expires. -/
  | custom (i : Fin TOUCH_PAD_MAX) (k : ℕ)
  /-- The timer of the serial callback of a pad expires. -/
  | serial (i : Fin TOUCH_PAD_MAX)

/-- Something happens to one pad. -/
def modify (i : Fin TOUCH_PAD_MAX) (f : Pad → Option Pad) : Option TouchPads :=
  ((s.pads i).bind f).map fun pad ↦ { s with pads := Function.update s.pads i (some pad) }

def step : Op → Option TouchPads
  | .read raw filtered => some (s.filterReadCb raw filtered)
  | .custom i k => s.modify i (·.custom k)
  | .serial i => s.modify i Pad.serial

/-- The pads have just been created, and nobody touches them. -/
def Fresh : Prop := ∀ i pad, s.pads i = some pad → pad.dev.Untouched ∧ pad.trace = []

/-- After the step no press has lasted for `2 ^ 32` ms. -/
def Short (op : Op) : Prop :=
  ∀ t, s.step op = some t → ∀ i pad, t.pads i = some pad → pad.time < 2 ^ 32

def Keeps : Prop := ∀ i pad, s.pads i = some pad → ∃ o, pad.Keeps o

variable {s} {t : TouchPads} {op : Op}

/-- What a reading does to a pad. -/
theorem pads_filterReadCb (raw filtered : Fin TOUCH_PAD_MAX → UInt16) (i : Fin TOUCH_PAD_MAX) :
    (s.filterReadCb raw filtered).pads i =
      (s.pads i).map fun pad ↦ pad.read (raw i) (filtered i) := by
  have hread := Scan.pads_foldl raw filtered (List.nodup_finRange TOUCH_PAD_MAX)
    ⟨s.pads, none, none⟩ i
  rwa [if_pos (List.mem_finRange i)] at hread

/-- What is so of every pad stays so when something happens to one. -/
theorem forall_modify {P : Pad → Prop} (hs : ∀ i pad, s.pads i = some pad → P pad)
    {i : Fin TOUCH_PAD_MAX} {f : Pad → Option Pad}
    (hf : ∀ pad pad', P pad → f pad = some pad' → P pad') (h : s.modify i f = some t) :
    ∀ i pad, t.pads i = some pad → P pad := by
  obtain ⟨pad', hpad', rfl⟩ := Option.map_eq_some_iff.mp h
  obtain ⟨pad, hpad, hstep⟩ := Option.bind_eq_some_iff.mp hpad'
  intro j pad'' hj
  by_cases hij : j = i
  · subst hij
    have hself : some pad' = some pad'' :=
      (Function.update_self j (some pad') s.pads).symm.trans hj
    obtain rfl := Option.some.inj hself
    exact hf pad pad' (hs j pad hpad) hstep
  · exact hs j pad'' ((Function.update_of_ne hij (some pad') s.pads).symm.trans hj)

theorem Keeps.step (hs : s.Keeps) (hshort : s.Short op) (h : s.step op = some t) : t.Keeps := by
  cases op with
  | read raw filtered =>
    have htime := hshort t h
    obtain rfl := Option.some.inj h
    intro i pad hpad
    obtain ⟨old, hold, hnew⟩ := Option.map_eq_some_iff.mp
      ((pads_filterReadCb raw filtered i).symm.trans hpad)
    obtain ⟨o, ho⟩ := hs i old hold
    exact ho.read hnew.symm (htime i pad hpad)
  | custom i k =>
    refine forall_modify hs ?_ h
    rintro pad pad' ⟨o, ho⟩ hpad
    exact ho.custom hpad
  | serial i =>
    refine forall_modify hs ?_ h
    rintro pad pad' ⟨o, ho⟩ hpad
    exact ho.serial_expires hpad

end TouchPads

/-- **The callbacks of every pad keep to the protocol**, and the serial callback begins once at most
in a press. -/
theorem pressProtocol_of_run {s t : TouchPads} {ops : List TouchPads.Op} (hs : s.Fresh)
    (h : Run TouchPads.step TouchPads.Short s ops t) {i : Fin TOUCH_PAD_MAX} {pad : Pad}
    (hi : t.pads i = some pad) : PressProtocol (· = .serialStart) (fun _ ↦ False) pad.trace := by
  have hkeeps : s.Keeps := by
    intro j old hold
    obtain ⟨huntouched, htrace⟩ := hs j old hold
    refine ⟨none, Pad.keeps_untouched ?_ huntouched⟩
    rw [htrace]
    exact .nil
  obtain ⟨o, ho⟩ := h.invariant (fun _ _ _ hs hok hstep ↦ hs.step hok hstep) hkeeps i pad hi
  exact ho.presses.protocol

/-- One pad, which says at once that it is touched. -/
def onePad : TouchPads where
  pads := Function.update (fun _ ↦ none) 0 <| some
    { dev :=
        { state := .IDLE, slider := false, touchChange := 1 / 100, diffRate := 0,
          touchThr := 3 / 400, noiseThr := 3 / 2000, hysteresisThr := 3 / 4000,
          baselineResetThr := 3 / 2000, slideTriggerThr := 0, filterValue := 10, sumMs := 0,
          baseline := 1000, debounceCount := 0, debounceTh := 2, blResetCount := 0,
          blResetCountTh := 5, blUpdateCount := 0, blUpdateCountTh := 8, serialThresSec := 0,
          serialTmr := false, customCbs := [false] }
      time := 0
      trace := [] }
  filterPeriod := FILTER_TOUCH_PERIOD
  slides := []

theorem eq_zero_of_onePad {i : Fin TOUCH_PAD_MAX} {pad : Pad} (h : onePad.pads i = some pad) :
    i = 0 := by
  by_contra hi
  have hnone : onePad.pads i = none := Function.update_of_ne hi _ (fun _ ↦ none)
  exact absurd (h.symm.trans hnone) (Option.some_ne_none pad)

theorem onePad_fresh : onePad.Fresh := by
  intro i pad hpad
  obtain rfl := eq_zero_of_onePad hpad
  obtain rfl := Option.some.inj hpad
  refine ⟨⟨.inl rfl, rfl, rfl, ?_⟩, rfl⟩
  intro k hk
  rw [List.getElem?_singleton] at hk
  split_ifs at hk
  exact absurd (Option.some.inj hk) Bool.false_ne_true

instance (s : TouchPads) (op : TouchPads.Op) : Decidable (s.Short op) :=
  inferInstanceAs (Decidable (∀ t ∈ s.step op, ∀ i, ∀ pad ∈ t.pads i, pad.time < 2 ^ 32))

/-- A tap, and then a touch that becomes a long press. -/
theorem pressProtocol_onePad : ∃ t, Run TouchPads.step TouchPads.Short onePad
      [.read (fun _ ↦ 500) (fun _ ↦ 500), .read (fun _ ↦ 1000) (fun _ ↦ 1000),
        .read (fun _ ↦ 500) (fun _ ↦ 500), .custom 0 0, .read (fun _ ↦ 1000) (fun _ ↦ 1000)] t ∧
    ∃ pad, t.pads 0 = some pad ∧
      pad.trace = [.push, .tap, .release, .push, .press (.custom 0), .release] ∧
      PressProtocol (· = .serialStart) (fun _ ↦ False) pad.trace := by
  obtain ⟨t, ht, hpad⟩ := Option.map_eq_some_iff.mp (by decide +kernel :
    ([.read (fun _ ↦ 500) (fun _ ↦ 500), .read (fun _ ↦ 1000) (fun _ ↦ 1000),
        .read (fun _ ↦ 500) (fun _ ↦ 500), .custom 0 0,
        .read (fun _ ↦ 1000) (fun _ ↦ 1000)].foldlM (fun (s : TouchPads) op ↦
      if s.Short op then s.step op else none) onePad).map (fun t ↦ (t.pads 0).map Pad.trace)
      = some (some [.push, .tap, .release, .push, .press (.custom 0), .release]))
  obtain ⟨pad, hpad, htrace⟩ := Option.map_eq_some_iff.mp hpad
  have hrun := run_of_foldlM ht
  exact ⟨t, hrun, pad, hpad, htrace, pressProtocol_of_run onePad_fresh hrun hpad⟩

end Ddmz.Touch
