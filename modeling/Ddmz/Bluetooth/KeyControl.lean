import Ddmz.Foundation.Runs
import Ddmz.Foundation.Traces

/-!
# Remote-control keys

A key of the device is sent to the phone as a pass-through command of AVRCP: first that the key has
been pressed, and, when the phone has answered, that it has been released. `key_control.c` is the
state machine for this exchange, and `BluetoothControlService.c` gives each request its label.

The exchange keeps to the protocol whatever the phone answers and whenever a timeout or a
connection event comes in between: `allowed_of_run`.

While an exchange is open all requests are ignored, so that an answer which does not come must end
it by the timer. But the timer is created with the period `portMAX_DELAY`; the 500 ms are given to
`xTimerStart` and `xTimerReset`, where they are the time to wait for room in the command queue. So
the timer is armed in time as long as no command is sent at all, and only so: `armed_iff`.
-/

namespace Ddmz.Bluetooth

/-! ## The timer

Times are in ticks, of which there are 1000 a second. -/

def portMAX_DELAY : ℕ := 0xffffffff

/-- A one-shot timer of FreeRTOS. -/
structure Timer where
  period : ℕ
  /-- When it expires, while it is armed. -/
  expires : Option ℕ

namespace Timer

variable (tmr : Timer)

/-- `xTimerStart` and `xTimerReset`: the period is the timer's own. -/
def start (now : ℕ) : Timer := { tmr with expires := some (now + tmr.period) }

def stop : Timer := { tmr with expires := none }

/-- The timer at a tick; when it is due it calls `key_act_time_out`, and is dormant. -/
def tick (now : ℕ) : Timer := if tmr.expires = some now then tmr.stop else tmr

end Timer

/-! ## The state machine -/

inductive KeyActState
  | IDLE
  | PRESS
  | RELEASE
  deriving DecidableEq

def ESP_AVRC_PT_CMD_STATE_PRESSED : UInt8 := 0

def ESP_AVRC_PT_CMD_STATE_RELEASED : UInt8 := 1

inductive AvrcCtEvent
  | PASSTHROUGH_RSP_EVT
  | KEY_STATE_CHG_EVT
  | PT_RSP_TO_EVT
  deriving DecidableEq

structure KeyActParam where
  evt : AvrcCtEvent
  keyCode : UInt32
  keyState : UInt8
  tl : UInt8
  deriving DecidableEq

structure KeyActCb where
  state : KeyActState
  keyCode : UInt32
  keyTmr : Option Timer
  tl : UInt8

/-- What happens in an exchange. -/
inductive Entry
  /-- AVRC has been connected or disconnected. -/
  | connection (connected : Bool)
  /-- The state machine has been given an event. -/
  | event (param : KeyActParam)
  | command (tl : UInt8) (keyCode : UInt32) (state : UInt8)
  deriving DecidableEq

structure Keys where
  avrcConnected : Bool
  /-- The label of the next request. -/
  tl : UInt8
  keyCb : KeyActCb
  now : ℕ
  /-- When the last command was sent. -/
  sent : ℕ
  trace : List Entry

namespace Keys

def init : Keys := ⟨false, 0, ⟨.IDLE, 0, none, 0⟩, 0, 0, []⟩

variable (s : Keys)

def note (x : Entry) : Keys := { s with trace := s.trace ++ [x] }

@[simp] theorem note_keyCb (x : Entry) : (s.note x).keyCb = s.keyCb := rfl

def espAvrcCtSendPassthroughCmd (tl : UInt8) (keyCode : UInt32) (state : UInt8) : Keys :=
  { s with sent := s.now, trace := s.trace ++ [.command tl keyCode state] }

/-- A call for `key_tmr`; without a timer it fails in an assertion of FreeRTOS. -/
def withTimer (f : Timer → Timer) : Option Keys :=
  s.keyCb.keyTmr.map fun tmr ↦ { s with keyCb := { s.keyCb with keyTmr := some (f tmr) } }

def setState (state : KeyActState) : Keys := { s with keyCb := { s.keyCb with state } }

/-- A timeout ends the exchange. -/
def reset : Keys := { s with keyCb := { s.keyCb with tl := 0, keyCode := 0, state := .IDLE } }

def keyActStateHdlIdle (param : KeyActParam) : Option Keys :=
  if param.evt = .KEY_STATE_CHG_EVT then
    ({ s with keyCb := { s.keyCb with tl := param.tl, keyCode := param.keyCode } }
      |>.espAvrcCtSendPassthroughCmd param.tl param.keyCode ESP_AVRC_PT_CMD_STATE_PRESSED
      |>.withTimer (·.start s.now)).map (setState · .PRESS)
  else some s

def keyActStateHdlPress (param : KeyActParam) : Option Keys :=
  match param.evt with
  | .PASSTHROUGH_RSP_EVT =>
    if s.keyCb.tl ≠ param.tl ∨ s.keyCb.keyCode ≠ param.keyCode ∨
        ESP_AVRC_PT_CMD_STATE_PRESSED ≠ param.keyState then some s
    else
      let tl := (s.keyCb.tl + 1) &&& 0x0F
      ({ s with keyCb := { s.keyCb with tl } }
        |>.espAvrcCtSendPassthroughCmd tl param.keyCode ESP_AVRC_PT_CMD_STATE_RELEASED
        |>.withTimer (·.start s.now)).map (setState · .RELEASE)
  | .PT_RSP_TO_EVT => some s.reset
  | .KEY_STATE_CHG_EVT => some s

def keyActStateHdlRelease (param : KeyActParam) : Option Keys :=
  match param.evt with
  | .PASSTHROUGH_RSP_EVT =>
    if s.keyCb.tl ≠ param.tl ∨ s.keyCb.keyCode ≠ param.keyCode ∨
        ESP_AVRC_PT_CMD_STATE_RELEASED ≠ param.keyState then some s
    else
      (s.withTimer (·.stop)).map fun t ↦
        { t with keyCb := { t.keyCb with state := .IDLE, keyCode := 0 } }
  | .PT_RSP_TO_EVT => some s.reset
  | .KEY_STATE_CHG_EVT => some s

def keyActStateMachine (param : KeyActParam) : Option Keys :=
  match s.keyCb.state with
  | .IDLE => (s.note (.event param)).keyActStateHdlIdle param
  | .PRESS => (s.note (.event param)).keyActStateHdlPress param
  | .RELEASE => (s.note (.event param)).keyActStateHdlRelease param

/-- A timer that is there is deleted first. `created` says whether there is memory for the new
one. -/
def keyActSmInit (created : Bool) : Keys :=
  { s with keyCb := ⟨.IDLE, 0, if created then some ⟨portMAX_DELAY, none⟩ else none, 0⟩ }

def keyActSmDeinit : Keys := { s with keyCb := ⟨.IDLE, 0, none, 0⟩ }

/-! ## The events -/

inductive RcEvent
  | CONNECTION_STATE_EVT (connected created : Bool)
  | PASSTHROUGH_RSP_EVT (tl : UInt8) (keyCode : UInt32) (keyState : UInt8)
  | KEY_STATE_CHG_EVT (keyCode : UInt32) (keyState : UInt8)
  | PT_RSP_TO_EVT

def btAppHandleRcEvt : RcEvent → Option Keys
  | .CONNECTION_STATE_EVT connected created =>
    let t := { s with avrcConnected := connected }.note (.connection connected)
    some (if connected then t.keyActSmInit created else t.keyActSmDeinit)
  | .PASSTHROUGH_RSP_EVT tl keyCode keyState =>
    if s.avrcConnected then s.keyActStateMachine ⟨.PASSTHROUGH_RSP_EVT, keyCode, keyState, tl⟩
    else some s
  | .KEY_STATE_CHG_EVT keyCode keyState =>
    if s.avrcConnected then
      { s with tl := (s.tl + 2) &&& 0x0F }.keyActStateMachine
        ⟨.KEY_STATE_CHG_EVT, keyCode, keyState, s.tl &&& 0x0F⟩
    else some s
  | .PT_RSP_TO_EVT =>
    if s.avrcConnected then s.keyActStateMachine ⟨.PT_RSP_TO_EVT, 0, 0, 0⟩ else some s

inductive Op
  | tick
  | event (evt : RcEvent)

def step : Op → Option Keys
  | .tick =>
    let now := s.now + 1
    some { s with now, keyCb := { s.keyCb with keyTmr := s.keyCb.keyTmr.map (·.tick now) } }
  | .event evt => s.btAppHandleRcEvt evt

end Keys

/-! ## The protocol -/

def Entry.isCommand : Entry → Bool
  | .command .. => true
  | _ => false

def Entry.isPressed : Entry → Bool
  | .command _ _ state => state == ESP_AVRC_PT_CMD_STATE_PRESSED
  | _ => false

/-- The answer of the phone to a command. -/
def Entry.response (tl : UInt8) (keyCode : UInt32) (state : UInt8) : Entry :=
  .event ⟨.PASSTHROUGH_RSP_EVT, keyCode, state, tl⟩

/-- A timeout that has been handled, or a connection event. -/
def Entry.interrupts : Entry → Bool
  | .connection _ => true
  | .event param => param.evt == .PT_RSP_TO_EVT
  | .command .. => false

/-- No exchange is open: there has been none, or the last has been interrupted, or its last command
is that the key has been released, and has been answered. -/
def Closed (trace : List Entry) : Prop :=
  lastOf Entry.isPressed trace = none ∨
  (∃ x ∈ since Entry.isPressed trace, x.interrupts = true) ∨
  ∃ tl keyCode,
    lastOf Entry.isCommand trace = some (.command tl keyCode ESP_AVRC_PT_CMD_STATE_RELEASED) ∧
    .response tl keyCode ESP_AVRC_PT_CMD_STATE_RELEASED ∈ since Entry.isCommand trace

/-- The last key that was pressed is `keyCode`; the phone has answered that command, and the key has
not been released yet. The command to release it has the next label, `tl`. -/
def Answered (trace : List Entry) (tl : UInt8) (keyCode : UInt32) : Prop :=
  ∃ l, lastOf Entry.isPressed trace = some (.command l keyCode ESP_AVRC_PT_CMD_STATE_PRESSED) ∧
    .response l keyCode ESP_AVRC_PT_CMD_STATE_PRESSED ∈ since Entry.isPressed trace ∧
    (∀ x ∈ since Entry.isPressed trace, x.isCommand = false) ∧ tl.toNat = (l.toNat + 1) % 16

/-- What the protocol says about a command, given what came before it. -/
def Allowed (trace : List Entry) : Entry → Prop
  | .command tl keyCode state =>
    state = ESP_AVRC_PT_CMD_STATE_PRESSED ∧ Closed trace ∨
      state = ESP_AVRC_PT_CMD_STATE_RELEASED ∧ Answered trace tl keyCode
  | _ => True

section Protocol

variable {trace : List Entry} {x : Entry} {tl : UInt8} {keyCode : UInt32}

theorem Entry.isPressed_of_not_isCommand (h : x.isCommand = false) : x.isPressed = false := by
  cases x with
  | command => exact absurd h Bool.true_eq_false.mp
  | _ => rfl

/-- What is not a command does not open an exchange. -/
theorem Closed.concat (hx : x.isCommand = false) (h : Closed trace) : Closed (trace ++ [x]) := by
  have hpressed := Entry.isPressed_of_not_isCommand hx
  rw [Closed, lastOf_concat_neg _ hpressed, since_concat_neg _ hpressed, lastOf_concat_neg _ hx,
    since_concat_neg _ hx]
  rcases h with hnone | ⟨y, hy, hends⟩ | ⟨tl, keyCode, hlast, hresponse⟩
  · exact .inl hnone
  · exact .inr (.inl ⟨y, List.mem_append_left _ hy, hends⟩)
  · exact .inr (.inr ⟨tl, keyCode, hlast, List.mem_append_left _ hresponse⟩)

theorem closed_interrupts (h : x.interrupts = true) : Closed (trace ++ [x]) := by
  have hpressed : x.isPressed = false := by
    cases x with
    | command => exact absurd h Bool.false_ne_true
    | _ => rfl
  refine .inr (.inl ⟨x, ?_, h⟩)
  rw [since_concat_neg _ hpressed]
  exact List.mem_append_right _ (List.mem_singleton_self x)

theorem toNat_next (tl : UInt8) : ((tl + 1) &&& 0x0F).toNat = (tl.toNat + 1) % 16 := by
  rw [UInt8.toNat_and, UInt8.toNat_add]
  change ((tl.toNat + 1) % 2 ^ 8) &&& (2 ^ 4 - 1) = _
  rw [Nat.and_two_pow_sub_one_eq_mod]
  omega

end Protocol

namespace Keys

variable (s : Keys)

/-- How the exchange stands, by the state of the machine. -/
structure Inv : Prop where
  allowed : EachEntry Allowed s.trace
  idle : s.keyCb.state = .IDLE → Closed s.trace
  press : s.keyCb.state = .PRESS → lastOf Entry.isCommand s.trace =
    some (.command s.keyCb.tl s.keyCb.keyCode ESP_AVRC_PT_CMD_STATE_PRESSED)
  release : s.keyCb.state = .RELEASE → lastOf Entry.isCommand s.trace =
    some (.command s.keyCb.tl s.keyCb.keyCode ESP_AVRC_PT_CMD_STATE_RELEASED)

/-- The timer is armed, if at all, for `portMAX_DELAY` from the last command on. -/
def Late : Prop :=
  ∀ tmr, s.keyCb.keyTmr = some tmr → tmr.period = portMAX_DELAY ∧
    ∀ due, tmr.expires = some due → due = s.sent + portMAX_DELAY

/-- What a step can do to the exchange. -/
inductive Moves (t : Keys) : Prop
  | ignored (hcb : t.keyCb.state = s.keyCb.state ∧ t.keyCb.tl = s.keyCb.tl ∧
      t.keyCb.keyCode = s.keyCb.keyCode)
      (htrace : t.trace = s.trace ∨ ∃ x, x.isCommand = false ∧ t.trace = s.trace ++ [x])
  | interrupted {x : Entry} (hstate : t.keyCb.state = .IDLE) (hx : x.interrupts = true)
      (htrace : t.trace = s.trace ++ [x])
  | pressed {x : Entry} (hs : s.keyCb.state = .IDLE) (hstate : t.keyCb.state = .PRESS)
      (hx : x.isCommand = false) (htrace : t.trace = s.trace ++ [x] ++
        [.command t.keyCb.tl t.keyCb.keyCode ESP_AVRC_PT_CMD_STATE_PRESSED])
  | released (hs : s.keyCb.state = .PRESS) (hstate : t.keyCb.state = .RELEASE)
      (hcode : t.keyCb.keyCode = s.keyCb.keyCode) (htl : t.keyCb.tl = (s.keyCb.tl + 1) &&& 0x0F)
      (htrace : t.trace = s.trace ++
        [.response s.keyCb.tl s.keyCb.keyCode ESP_AVRC_PT_CMD_STATE_PRESSED] ++
        [.command t.keyCb.tl t.keyCb.keyCode ESP_AVRC_PT_CMD_STATE_RELEASED])
  | acknowledged (hs : s.keyCb.state = .RELEASE) (hstate : t.keyCb.state = .IDLE)
      (htrace : t.trace = s.trace ++
        [.response s.keyCb.tl s.keyCb.keyCode ESP_AVRC_PT_CMD_STATE_RELEASED])

variable {s} {t : Keys} {param : KeyActParam} {op : Op}

theorem withTimer_eq_some {f : Timer → Timer} (h : s.withTimer f = some t) :
    ∃ tmr, s.keyCb.keyTmr = some tmr ∧
      t = { s with keyCb := { s.keyCb with keyTmr := some (f tmr) } } := by
  obtain ⟨tmr, htmr, rfl⟩ := Option.map_eq_some_iff.mp h
  exact ⟨tmr, htmr, rfl⟩

theorem Late.start {tmr : Timer} (hs : s.Late) (htmr : s.keyCb.keyTmr = some tmr)
    (h : t.keyCb.keyTmr = some (tmr.start s.now)) (hsent : t.sent = s.now) : t.Late := by
  intro tmr' htmr'
  obtain rfl := Option.some.inj (h.symm.trans htmr')
  obtain ⟨hperiod, -⟩ := hs tmr htmr
  refine ⟨hperiod, ?_⟩
  intro due hdue
  rw [← Option.some.inj hdue, hsent, hperiod]

theorem Late.stop {tmr : Timer} (hs : s.Late) (htmr : s.keyCb.keyTmr = some tmr)
    (h : t.keyCb.keyTmr = some tmr.stop) : t.Late := by
  intro tmr' htmr'
  obtain rfl := Option.some.inj (h.symm.trans htmr')
  refine ⟨(hs tmr htmr).1, ?_⟩
  intro due hdue
  exact absurd hdue.symm (Option.some_ne_none due)

theorem Late.keep (hs : s.Late) (h : t.keyCb.keyTmr = s.keyCb.keyTmr) (hsent : t.sent = s.sent) :
    t.Late := by
  intro tmr htmr
  rw [hsent]
  exact hs tmr (h.symm.trans htmr)

/-- An event that is ignored. -/
theorem note_spec (param : KeyActParam) :
    s.Moves (s.note (.event param)) ∧ (s.Late → (s.note (.event param)).Late) :=
  ⟨.ignored ⟨rfl, rfl, rfl⟩ (.inr ⟨_, rfl, rfl⟩), fun hlate ↦ hlate.keep rfl rfl⟩

/-- A timeout is handled. -/
theorem reset_spec (hevt : param.evt = .PT_RSP_TO_EVT) :
    s.Moves (s.note (.event param)).reset ∧ (s.Late → (s.note (.event param)).reset.Late) := by
  have hinterrupts : (Entry.event param).interrupts = true := by
    rw [Entry.interrupts, hevt]
    rfl
  exact ⟨.interrupted rfl hinterrupts rfl, fun hlate ↦ hlate.keep rfl rfl⟩

theorem keyActStateHdlIdle_spec (hstate : s.keyCb.state = .IDLE)
    (h : (s.note (.event param)).keyActStateHdlIdle param = some t) :
    s.Moves t ∧ (s.Late → t.Late) ∧
      (t.keyCb.state = .IDLE ↔ param.evt ≠ .KEY_STATE_CHG_EVT) := by
  rw [keyActStateHdlIdle] at h
  split_ifs at h with hevt
  · obtain ⟨u, hu, rfl⟩ := Option.map_eq_some_iff.mp h
    obtain ⟨tmr, htmr, rfl⟩ := withTimer_eq_some hu
    refine ⟨.pressed hstate rfl rfl rfl, fun hlate ↦ hlate.start htmr rfl rfl, ?_⟩
    exact iff_of_false KeyActState.noConfusion (not_not_intro hevt)
  · obtain rfl := Option.some.inj h
    obtain ⟨hmoves, hlate⟩ := note_spec (s := s) param
    exact ⟨hmoves, hlate, iff_of_true hstate hevt⟩

theorem keyActStateHdlPress_spec (hstate : s.keyCb.state = .PRESS)
    (h : (s.note (.event param)).keyActStateHdlPress param = some t) :
    s.Moves t ∧ (s.Late → t.Late) := by
  obtain ⟨evt, keyCode, keyState, tl⟩ := param
  rw [keyActStateHdlPress] at h
  cases evt with
  | PASSTHROUGH_RSP_EVT =>
    simp only at h
    split_ifs at h with hne
    · obtain rfl := Option.some.inj h
      exact note_spec _
    · simp only [not_or, not_not, note_keyCb] at hne
      obtain ⟨rfl, rfl, rfl⟩ := hne
      obtain ⟨u, hu, rfl⟩ := Option.map_eq_some_iff.mp h
      obtain ⟨tmr, htmr, rfl⟩ := withTimer_eq_some hu
      exact ⟨.released hstate rfl rfl rfl rfl, fun hlate ↦ hlate.start htmr rfl rfl⟩
  | KEY_STATE_CHG_EVT =>
    obtain rfl := Option.some.inj h
    exact note_spec _
  | PT_RSP_TO_EVT =>
    obtain rfl := Option.some.inj h
    exact reset_spec rfl

theorem keyActStateHdlRelease_spec (hstate : s.keyCb.state = .RELEASE)
    (h : (s.note (.event param)).keyActStateHdlRelease param = some t) :
    s.Moves t ∧ (s.Late → t.Late) := by
  obtain ⟨evt, keyCode, keyState, tl⟩ := param
  rw [keyActStateHdlRelease] at h
  cases evt with
  | PASSTHROUGH_RSP_EVT =>
    simp only at h
    split_ifs at h with hne
    · obtain rfl := Option.some.inj h
      exact note_spec _
    · simp only [not_or, not_not, note_keyCb] at hne
      obtain ⟨rfl, rfl, rfl⟩ := hne
      obtain ⟨u, hu, rfl⟩ := Option.map_eq_some_iff.mp h
      obtain ⟨tmr, htmr, rfl⟩ := withTimer_eq_some hu
      exact ⟨.acknowledged hstate rfl rfl, fun hlate ↦ hlate.stop htmr rfl⟩
  | KEY_STATE_CHG_EVT =>
    obtain rfl := Option.some.inj h
    exact note_spec _
  | PT_RSP_TO_EVT =>
    obtain rfl := Option.some.inj h
    exact reset_spec rfl

theorem keyActStateMachine_spec (h : s.keyActStateMachine param = some t) :
    s.Moves t ∧ (s.Late → t.Late) := by
  rw [keyActStateMachine] at h
  split at h
  · case _ hstate =>
    obtain ⟨hmoves, hlate, -⟩ := keyActStateHdlIdle_spec hstate h
    exact ⟨hmoves, hlate⟩
  · case _ hstate => exact keyActStateHdlPress_spec hstate h
  · case _ hstate => exact keyActStateHdlRelease_spec hstate h

theorem step_spec (h : s.step op = some t) : s.Moves t ∧ (s.Late → t.Late) := by
  cases op with
  | tick =>
    obtain rfl := Option.some.inj h
    refine ⟨.ignored ⟨rfl, rfl, rfl⟩ (.inl rfl), ?_⟩
    intro hlate tmr htmr
    obtain ⟨tmr, hold, rfl⟩ := Option.map_eq_some_iff.mp htmr
    obtain ⟨hperiod, hdue⟩ := hlate tmr hold
    rw [Timer.tick]
    split_ifs
    · refine ⟨hperiod, ?_⟩
      intro due hnone
      exact absurd hnone.symm (Option.some_ne_none due)
    · exact ⟨hperiod, hdue⟩
  | event evt =>
    have hsame : s.Moves s ∧ (s.Late → s.Late) := ⟨.ignored ⟨rfl, rfl, rfl⟩ (.inl rfl), id⟩
    rw [step, btAppHandleRcEvt.eq_def] at h
    cases evt with
    | CONNECTION_STATE_EVT connected created =>
      obtain rfl := Option.some.inj h
      cases connected with
      | false =>
        refine ⟨.interrupted rfl rfl rfl, fun _ tmr htmr ↦ ?_⟩
        exact absurd htmr.symm (Option.some_ne_none tmr)
      | true =>
        refine ⟨.interrupted rfl rfl rfl, fun _ tmr htmr ↦ ?_⟩
        cases created with
        | false => exact absurd htmr.symm (Option.some_ne_none tmr)
        | true =>
          obtain rfl := Option.some.inj htmr
          refine ⟨rfl, ?_⟩
          intro due hdue
          exact absurd hdue.symm (Option.some_ne_none due)
    | PASSTHROUGH_RSP_EVT tl keyCode keyState =>
      simp only at h
      split_ifs at h
      · exact keyActStateMachine_spec h
      · obtain rfl := Option.some.inj h
        exact hsame
    | KEY_STATE_CHG_EVT keyCode keyState =>
      simp only at h
      split_ifs at h
      · obtain ⟨hmoves, hlate⟩ := keyActStateMachine_spec h
        refine ⟨?_, hlate⟩
        -- the label of the next request is not part of the exchange
        cases hmoves with
        | ignored hcb htrace => exact .ignored hcb htrace
        | interrupted hstate hx htrace => exact .interrupted hstate hx htrace
        | pressed hs hstate hx htrace => exact .pressed hs hstate hx htrace
        | released hs hstate hcode htl htrace => exact .released hs hstate hcode htl htrace
        | acknowledged hs hstate htrace => exact .acknowledged hs hstate htrace
      · obtain rfl := Option.some.inj h
        exact hsame
    | PT_RSP_TO_EVT =>
      simp only at h
      split_ifs at h
      · exact keyActStateMachine_spec h
      · obtain rfl := Option.some.inj h
        exact hsame

theorem allowed_of_not_isCommand {trace : List Entry} {x : Entry} (hx : x.isCommand = false) :
    Allowed trace x := by
  cases x with
  | command => exact absurd hx Bool.true_eq_false.mp
  | _ => trivial

/-! ### The exchange, by the state it has come to -/

theorem inv_of_idle (hstate : t.keyCb.state = .IDLE) (hallowed : EachEntry Allowed t.trace)
    (hclosed : Closed t.trace) : t.Inv := by
  constructor
  · exact hallowed
  · intro _
    exact hclosed
  · intro h
    exact KeyActState.noConfusion (hstate.symm.trans h)
  · intro h
    exact KeyActState.noConfusion (hstate.symm.trans h)

theorem inv_of_press (hstate : t.keyCb.state = .PRESS) (hallowed : EachEntry Allowed t.trace)
    (hlast : lastOf Entry.isCommand t.trace =
      some (.command t.keyCb.tl t.keyCb.keyCode ESP_AVRC_PT_CMD_STATE_PRESSED)) : t.Inv := by
  constructor
  · exact hallowed
  · intro h
    exact KeyActState.noConfusion (hstate.symm.trans h)
  · intro _
    exact hlast
  · intro h
    exact KeyActState.noConfusion (hstate.symm.trans h)

theorem inv_of_release (hstate : t.keyCb.state = .RELEASE) (hallowed : EachEntry Allowed t.trace)
    (hlast : lastOf Entry.isCommand t.trace =
      some (.command t.keyCb.tl t.keyCb.keyCode ESP_AVRC_PT_CMD_STATE_RELEASED)) : t.Inv := by
  constructor
  · exact hallowed
  · intro h
    exact KeyActState.noConfusion (hstate.symm.trans h)
  · intro h
    exact KeyActState.noConfusion (hstate.symm.trans h)
  · intro _
    exact hlast

/-- Something else has happened, or nothing. -/
theorem Inv.ignored (hs : s.Inv) (hcb : t.keyCb.state = s.keyCb.state ∧ t.keyCb.tl = s.keyCb.tl ∧
      t.keyCb.keyCode = s.keyCb.keyCode)
    (htrace : t.trace = s.trace ∨ ∃ x, x.isCommand = false ∧ t.trace = s.trace ++ [x]) :
    t.Inv := by
  obtain ⟨hstate, htl, hcode⟩ := hcb
  rcases htrace with htrace | ⟨x, hx, htrace⟩
  · constructor
    · rw [htrace]
      exact hs.allowed
    · rw [hstate, htrace]
      exact hs.idle
    · rw [hstate, htrace, htl, hcode]
      exact hs.press
    · rw [hstate, htrace, htl, hcode]
      exact hs.release
  · constructor
    · rw [htrace, eachEntry_concat]
      exact ⟨hs.allowed, allowed_of_not_isCommand hx⟩
    · intro hidle
      rw [htrace]
      exact (hs.idle (hstate.symm.trans hidle)).concat hx
    · rw [hstate, htrace, htl, hcode, lastOf_concat_neg _ hx]
      exact hs.press
    · rw [hstate, htrace, htl, hcode, lastOf_concat_neg _ hx]
      exact hs.release

/-- The press has been answered, and the label for the release is the next one. -/
theorem Inv.answered (hs : s.Inv) (hpress : s.keyCb.state = .PRESS) : Answered
    (s.trace ++ [.response s.keyCb.tl s.keyCb.keyCode ESP_AVRC_PT_CMD_STATE_PRESSED])
    ((s.keyCb.tl + 1) &&& 0x0F) s.keyCb.keyCode := by
  -- the command that was answered is the last one of all
  obtain ⟨hlast, hsince⟩ := lastOf_since_of_imp s.trace
    (fun y hy ↦ Entry.isPressed_of_not_isCommand hy) rfl (hs.press hpress)
  refine ⟨s.keyCb.tl, ?_, ?_, ?_, toNat_next _⟩
  · rw [lastOf_concat_neg _ rfl]
    exact hlast
  · rw [since_concat_neg _ rfl]
    exact List.mem_append_right _ (List.mem_singleton_self _)
  · intro x hx
    rw [since_concat_neg _ rfl, hsince] at hx
    rcases List.mem_append.mp hx with hx | hx
    · exact eq_false_of_mem_since hx
    · rw [List.mem_singleton.mp hx]
      rfl

/-- **One step of the exchange.** -/
theorem Inv.step (hs : s.Inv) (h : s.step op = some t) : t.Inv := by
  obtain ⟨hmoves, -⟩ := step_spec h
  cases hmoves with
  | ignored hcb htrace => exact hs.ignored hcb htrace
  | @interrupted x hstate hx htrace =>
    have hcommand : x.isCommand = false := by
      cases x with
      | command => exact absurd hx Bool.false_ne_true
      | _ => rfl
    apply inv_of_idle hstate
    · rw [htrace, eachEntry_concat]
      exact ⟨hs.allowed, allowed_of_not_isCommand hcommand⟩
    · rw [htrace]
      exact closed_interrupts hx
  | pressed hidle hstate hx htrace =>
    have hclosed := (hs.idle hidle).concat hx
    apply inv_of_press hstate
    · rw [htrace, eachEntry_concat, eachEntry_concat]
      exact ⟨⟨hs.allowed, allowed_of_not_isCommand hx⟩, .inl ⟨rfl, hclosed⟩⟩
    · rw [htrace, lastOf_concat_pos _ rfl]
  | released hpress hstate hcode htl htrace =>
    apply inv_of_release hstate
    · rw [htrace, eachEntry_concat, eachEntry_concat, htl, hcode]
      exact ⟨⟨hs.allowed, trivial⟩, .inr ⟨rfl, hs.answered hpress⟩⟩
    · rw [htrace, lastOf_concat_pos _ rfl]
  | acknowledged hrelease hstate htrace =>
    apply inv_of_idle hstate
    · rw [htrace, eachEntry_concat]
      exact ⟨hs.allowed, trivial⟩
    · rw [htrace]
      refine .inr (.inr ⟨s.keyCb.tl, s.keyCb.keyCode, ?_, ?_⟩)
      · rw [lastOf_concat_neg _ rfl]
        exact hs.release hrelease
      · rw [since_concat_neg _ rfl]
        exact List.mem_append_right _ (List.mem_singleton_self _)

theorem inv_init : init.Inv := inv_of_idle rfl eachEntry_nil (.inl rfl)

end Keys

/-- **Every command that is sent keeps to the protocol.** -/
theorem allowed_of_run {ops : List Keys.Op} {s : Keys} (h : AnyRun Keys.step .init ops s) :
    EachEntry Allowed s.trace :=
  (h.invariant (fun _ _ _ hs _ hstep ↦ hs.step hstep) Keys.inv_init).allowed

/-- A key is pressed and released, and the next is pressed. -/
theorem allowed_twoKeys : ∃ s, AnyRun Keys.step .init
    [.event (.CONNECTION_STATE_EVT true true), .event (.KEY_STATE_CHG_EVT 0x44 0),
      .event (.PASSTHROUGH_RSP_EVT 0 0x44 0), .event (.PASSTHROUGH_RSP_EVT 1 0x44 1),
      .event (.KEY_STATE_CHG_EVT 0x4B 0)] s ∧ EachEntry Allowed s.trace := by
  have hrun : AnyRun Keys.step .init
      [.event (.CONNECTION_STATE_EVT true true), .event (.KEY_STATE_CHG_EVT 0x44 0),
        .event (.PASSTHROUGH_RSP_EVT 0 0x44 0), .event (.PASSTHROUGH_RSP_EVT 1 0x44 1),
        .event (.KEY_STATE_CHG_EVT 0x4B 0)] _ := anyRun_of_foldlM rfl
  exact ⟨_, hrun, allowed_of_run hrun⟩

/-! ## The timeout -/

def portTICK_RATE_MS : ℕ := 1

namespace Keys

variable (s : Keys)

/-- While an exchange is open, `key_tmr` is armed to expire no later than 500 ms after the last
command. -/
def Armed : Prop :=
  s.keyCb.state = .PRESS ∨ s.keyCb.state = .RELEASE → ∃ tmr due, s.keyCb.keyTmr = some tmr ∧
    tmr.expires = some due ∧ due ≤ s.sent + 500 / portTICK_RATE_MS

/-- No key is sent: requests come while AVRC is not connected, or while an exchange is open. -/
def Silent : Op → Prop
  | .event (.KEY_STATE_CHG_EVT _ _) => s.avrcConnected = false ∨ s.keyCb.state ≠ .IDLE
  | _ => True

variable {s} {t : Keys} {op : Op}

theorem armed_iff_idle (hs : s.Late) : s.Armed ↔ s.keyCb.state = .IDLE := by
  constructor
  · intro harmed
    by_contra hopen
    have hpress : s.keyCb.state = .PRESS ∨ s.keyCb.state = .RELEASE := by
      cases hstate : s.keyCb.state with
      | IDLE => exact absurd hstate hopen
      | PRESS => exact .inl rfl
      | RELEASE => exact .inr rfl
    obtain ⟨tmr, due, htmr, hdue, hle⟩ := harmed hpress
    rw [(hs tmr htmr).2 due hdue, portMAX_DELAY, portTICK_RATE_MS] at hle
    omega
  · rintro hidle (h | h)
    · exact KeyActState.noConfusion (hidle.symm.trans h)
    · exact KeyActState.noConfusion (hidle.symm.trans h)

theorem keyActStateMachine_idle {param : KeyActParam} (hs : s.keyCb.state = .IDLE)
    (h : s.keyActStateMachine param = some t) :
    t.keyCb.state = .IDLE ↔ param.evt ≠ .KEY_STATE_CHG_EVT := by
  rw [keyActStateMachine, hs] at h
  exact (keyActStateHdlIdle_spec hs h).2.2

/-- An idle machine stays idle unless a key is requested. -/
theorem idle_step (hs : s.keyCb.state = .IDLE) (h : s.step op = some t) :
    t.keyCb.state = .IDLE ↔ s.Silent op := by
  cases op with
  | tick =>
    obtain rfl := Option.some.inj h
    exact iff_of_true hs trivial
  | event evt =>
    rw [step, btAppHandleRcEvt.eq_def] at h
    cases evt with
    | CONNECTION_STATE_EVT connected created =>
      obtain rfl := Option.some.inj h
      cases connected with
      | _ => exact iff_of_true rfl trivial
    | PASSTHROUGH_RSP_EVT tl keyCode keyState =>
      simp only at h
      split_ifs at h
      · exact iff_of_true ((keyActStateMachine_idle hs h).mpr AvrcCtEvent.noConfusion) trivial
      · obtain rfl := Option.some.inj h
        exact iff_of_true hs trivial
    | KEY_STATE_CHG_EVT keyCode keyState =>
      simp only at h
      split_ifs at h with hconnected
      · refine iff_of_false (fun hidle ↦ (keyActStateMachine_idle (by exact hs) h).mp hidle rfl) ?_
        rintro (hnot | hopen)
        · exact absurd (hnot.symm.trans hconnected) Bool.false_ne_true
        · exact hopen hs
      · obtain rfl := Option.some.inj h
        exact iff_of_true hs (.inl (Bool.eq_false_of_not_eq_true hconnected))
    | PT_RSP_TO_EVT =>
      simp only at h
      split_ifs at h
      · exact iff_of_true ((keyActStateMachine_idle hs h).mpr AvrcCtEvent.noConfusion) trivial
      · obtain rfl := Option.some.inj h
        exact iff_of_true hs trivial

end Keys

/-- **The timer is armed in time throughout a run if and only if no key is sent in it.** -/
theorem armed_iff {ops : List Keys.Op} {s : Keys} (h : AnyRun Keys.step .init ops s) :
    Always Keys.step Keys.Armed .init ops ↔ Run Keys.step Keys.Silent .init ops s := by
  have hlate : Keys.init.Late := by
    intro tmr htmr
    exact absurd htmr.symm (Option.some_ne_none tmr)
  refine h.always_iff (J := Keys.Late) ?_ ?_ hlate ((Keys.armed_iff_idle hlate).mpr rfl)
  · intro s op t hs hstep
    exact (Keys.step_spec hstep).2 hs
  · intro s op t hs harmed hstep
    have hidle := (Keys.armed_iff_idle hs).mp harmed
    rw [Keys.armed_iff_idle ((Keys.step_spec hstep).2 hs)]
    exact Keys.idle_step hidle hstep

/-- A phone that is connected, and a key before that. -/
theorem armed_iff_connected : Always Keys.step Keys.Armed .init
    [.event (.KEY_STATE_CHG_EVT 0x44 0), .event (.CONNECTION_STATE_EVT true true), .tick] := by
  refine (armed_iff (anyRun_of_foldlM rfl)).mpr ?_
  exact .cons (.inl rfl) rfl <| .cons trivial rfl <| .cons trivial rfl <| .nil _

/-- The first key that is sent. -/
theorem not_armed_firstKey : ¬∀ ops s, AnyRun Keys.step .init ops s → s.Armed := by
  intro h
  obtain ⟨tmr, due, htmr, hdue, hle⟩ := h
    [.event (.CONNECTION_STATE_EVT true true), .event (.KEY_STATE_CHG_EVT 0x44 0)] _
    (.cons trivial rfl <| .cons trivial rfl <| .nil _) (.inl rfl)
  obtain rfl := Option.some.inj htmr
  obtain rfl := Option.some.inj hdue
  exact absurd hle (by decide)

end Ddmz.Bluetooth
