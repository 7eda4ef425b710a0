import Ddmz.Foundation.Runs

/-!
# The task of the voice assistant

`dueros_task` takes commands from a queue: to log in, what the SDK has answered, and where the
user's speech begins and ends. They come from the notifications of the device, the SDK, the
callback of the retry timer and that of the recorder, all without a timeout, so that a full queue
takes nothing.

A step goes from one access to what is shared to the next, and the parties can be interrupted
between any two. A command is taken and carried out in one step, except that a recording starts and
stops before `duer_state` says so, and the task reads speech until there is none. Of the calls only
those are returned that begin a login or delimit a recording; tones, lights, the data of the
recording and the task that reports the device are left out.
-/

namespace Ddmz.Duer

/-! ## The state -/

/-- `duer_task_cmd_t`. -/
inductive Cmd
  | LOGIN
  | CONNECTED
  | START
  | STOP
  | QUIT
  deriving DecidableEq

/-- `duer_task_state_t`. -/
inductive DuerState
  | IDLE
  | CONNECTING
  | CONNECTED
  | START
  | STOP
  deriving DecidableEq

/-- The value of the enumeration. -/
def DuerState.num : DuerState → ℕ
  | .IDLE => 0
  | .CONNECTING => 1
  | .CONNECTED => 2
  | .START => 3
  | .STOP => 4

/-- The accesses of `DeviceEvtNotifiedToRecog`. -/
inductive Access
  | sendLogin
  | setWifi (flag : Bool)
  | connected (wifi : Bool)
  deriving DecidableEq

/-- The notifications that `DeviceEvtNotifiedToRecog` tells apart. -/
inductive Notification
  | KEY_WIFI_SET
  | WIFI_GOT_IP
  | WIFI_DISCONNECTED
  | other

/-- What it does; `duer_stop` only makes the SDK report an event. -/
def Notification.accesses : Notification → List Access
  | .KEY_WIFI_SET => [.setWifi true]
  | .WIFI_GOT_IP => [.sendLogin, .setWifi false, .connected true]
  | .WIFI_DISCONNECTED => [.connected false]
  | .other => []

/-- The steps of `retry_login_timer_cb`. -/
inductive CallbackPlace
  | send
  | stop
  deriving DecidableEq

/-- Where `dueros_task` is. -/
inductive TaskPlace
  | waiting
  /-- After `duer_voice_start`. -/
  | started
  /-- In the loop that reads speech. -/
  | reading
  /-- After `duer_voice_stop`. -/
  | stopped
  /-- It has given up. -/
  | exited
  deriving DecidableEq

structure Service where
  /-- `duer_state`. -/
  state : DuerState
  /-- `retry_num`. -/
  retryNum : ℕ
  /-- `_duerOsQue`. -/
  queue : List Cmd
  /-- The time at which `retry_login_timer` expires, if it runs. -/
  timer : Option ℕ
  callback : Option CallbackPlace
  /-- `set_wifi_flag`. -/
  setWifiFlag : Bool
  wifiIsConnected : Bool
  /-- `duer_sent_stop_flag`. -/
  sentStopFlag : Bool
  /-- What is left of the notification. -/
  notifier : List Access
  /-- `rec_engine_cb` is about to send the end of the speech. -/
  recorderSends : Bool
  place : TaskPlace
  /-- In ticks. -/
  clock : ℕ

def Service.init : Service where
  state := .IDLE
  retryNum := 1
  queue := []
  timer := none
  callback := none
  setWifiFlag := false
  wifiIsConnected := false
  sentStopFlag := false
  notifier := []
  recorderSends := false
  place := .waiting
  clock := 0

/-- The length of the queue in `DuerAppServiceCreate`. -/
def DUER_QUEUE_LEN : ℕ := 5

/-- `retry_time`: a second, in ticks. -/
def RETRY_TIME : ℕ := 1000

/-- What `dueros_task` calls. -/
inductive Call
  | duerStart
  | voiceStart
  | voiceStop
  deriving DecidableEq

/-! ## Steps -/

namespace Service

variable (s : Service)

/-- `duerOSEvtSend` to the back of the queue. -/
def send (cmd : Cmd) : Service :=
  { s with queue := if s.queue.length < DUER_QUEUE_LEN then s.queue ++ [cmd] else s.queue }

/-- One access of `DeviceEvtNotifiedToRecog`. -/
def access : Access → Service
  | .sendLogin => s.send .LOGIN
  | .setWifi flag => { s with setWifiFlag := flag }
  | .connected wifi => { s with wifiIsConnected := wifi }

/-- `rec_event_type_t`. -/
inductive RecEvent
  | WAKEUP_START
  | WAKEUP_END
  | VAD_START
  | VAD_STOP
  deriving DecidableEq

/-- `rec_engine_cb`, up to the sending of the end. -/
def recEngineCb (type : RecEvent) : Service :=
  if s.wifiIsConnected then
    match type with
    | .WAKEUP_START => s
    | .VAD_START => { s.send .START with sentStopFlag := false }
    | .VAD_STOP | .WAKEUP_END =>
      -- `duer_state` says so only once the task has taken the start
      { s with recorderSends := decide (s.state = .START) && !s.sentStopFlag }
  else s

/-- `duer_event_t`. -/
inductive DuerEvent
  | STARTED
  | STOPPED

/-- `duer_event_hook`. -/
def duerEventHook : DuerEvent → Service
  | .STARTED => s.send .CONNECTED
  | .STOPPED => s.send .QUIT

/-- `retry_login_timer_cb`. -/
def retryLoginTimerCb : CallbackPlace → Service
  | .send => { s.send .LOGIN with callback := some .stop }
  | .stop => { s with timer := none, callback := none }

/-- `duer_login`, with whether `duer_load_profile` returns anything. -/
def duerLogin (profile : Bool) : List Call := if profile then [.duerStart] else []

/-- `DUER_CMD_QUIT`. -/
def quit : Service :=
  let s := { s with state := .IDLE }
  if s.setWifiFlag then s
  else if s.retryNum < 128 then
    let retryNum := s.retryNum * 2
    { s with retryNum, timer := some (s.clock + RETRY_TIME * retryNum) }
  -- the loop is left, and the task deletes itself
  else { s with timer := none, place := .exited }

/-- What the task does about a command. -/
def process (profile : Bool) : Cmd → List Call × Service
  | .LOGIN =>
    -- the state changes whether there was a profile or not
    if s.state = .IDLE then (duerLogin profile, { s with state := .CONNECTING }) else ([], s)
  | .CONNECTED => ([], { s with state := .CONNECTED, retryNum := 1 })
  | .START =>
    if s.state.num < DuerState.CONNECTED.num then ([], s)
    else ([.voiceStart], { s with place := .started })
  | .STOP => if s.state = .START then ([.voiceStop], { s with place := .stopped }) else ([], s)
  | .QUIT => ([], s.quit)

/-- The next command, if the task is waiting for one. -/
def next : Option Cmd := if s.place = .waiting then s.queue.head? else none

/-- `xQueueReceive`. -/
def pop : Service := { s with queue := s.queue.tail }

/-- The task takes a command. -/
def receive (profile : Bool) : Option (List Call × Service) :=
  s.next.map (s.pop.process profile)

/-- The task goes on with a recording. -/
def proceed : Option Service :=
  match s.place with
  | .started => some { s with state := .START, place := .reading }
  -- the recorder has no more speech, or the server takes none
  | .reading => some { s with place := .waiting }
  | .stopped => some { s with state := .STOP, place := .waiting }
  | _ => none

end Service

open Service

/-- What happens in a step. -/
inductive Op
  | notify (msg : Notification)
  | access
  | event (evt : DuerEvent)
  | tick
  | expire
  | callback
  | record (type : RecEvent)
  | recordSend
  /-- Whether `duer_load_profile` returns anything is part of the step. -/
  | receive (profile : Bool)
  | proceed

def Service.step (s : Service) : Op → Option (List Call × Service)
  | .notify msg => if s.notifier = [] then some ([], { s with notifier := msg.accesses }) else none
  | .access =>
    match s.notifier with
    | [] => none
    | a :: rest => some ([], { s.access a with notifier := rest })
  | .event evt => some ([], s.duerEventHook evt)
  | .tick => some ([], { s with clock := s.clock + 1 })
  | .expire =>
    -- the callbacks of timers come from one task, one after the other
    if s.callback = none ∧ s.timer.any (· ≤ s.clock) then
      some ([], { s with timer := none, callback := some .send })
    else none
  | .callback => s.callback.map fun p ↦ ([], s.retryLoginTimerCb p)
  | .record type => if s.recorderSends then none else some ([], s.recEngineCb type)
  | .recordSend =>
    if s.recorderSends then
      some ([], { s.send .STOP with sentStopFlag := true, recorderSends := false })
    else none
  | .receive profile => s.receive profile
  | .proceed => s.proceed.map fun t ↦ ([], t)

/-! ## What the others do -/

/-- Whether a command is sent in a step. -/
def Service.sends (s : Service) : Op → Bool
  | .access => decide (s.notifier.head? = some .sendLogin)
  | .event _ | .recordSend => true
  | .callback => decide (s.callback = some .send)
  | .record type => s.wifiIsConnected && decide (type = .VAD_START)
  | _ => false

/-- A command that is sent finds room in the queue. -/
def Service.HasRoom (s : Service) (op : Op) : Prop :=
  s.sends op = true → s.queue.length < DUER_QUEUE_LEN

/-- Neither the task nor the timer takes the step. -/
def Op.isOther : Op → Bool
  | .expire | .callback | .receive _ | .proceed => false
  | _ => true

/-- The task and the timer are as before, and nothing has been taken from the queue. -/
structure Service.Keeps (s t : Service) : Prop where
  state : t.state = s.state
  retryNum : t.retryNum = s.retryNum
  timer : t.timer = s.timer
  callback : t.callback = s.callback
  place : t.place = s.place
  queue : s.queue <+: t.queue

namespace Service

variable {s t : Service} {op : Op} {calls : List Call}

theorem keeps_refl (s : Service) : s.Keeps s := ⟨rfl, rfl, rfl, rfl, rfl, List.prefix_rfl⟩

theorem prefix_send (s : Service) (cmd : Cmd) : s.queue <+: (s.send cmd).queue := by
  rw [send]
  dsimp only
  split_ifs
  · exact List.prefix_append _ _
  · exact List.prefix_rfl

theorem keeps_send (s : Service) (cmd : Cmd) : s.Keeps (s.send cmd) :=
  ⟨rfl, rfl, rfl, rfl, rfl, s.prefix_send cmd⟩

theorem mem_send (s : Service) (cmd : Cmd) (h : s.queue.length < DUER_QUEUE_LEN) :
    cmd ∈ (s.send cmd).queue := by
  rw [send]
  dsimp only
  rw [if_pos h]
  exact List.mem_append_right _ (List.mem_singleton_self cmd)

theorem keeps_access (s : Service) (a : Access) : s.Keeps (s.access a) := by
  cases a with
  | sendLogin => exact s.keeps_send _
  | setWifi flag | connected wifi => exact ⟨rfl, rfl, rfl, rfl, rfl, List.prefix_rfl⟩

theorem keeps_recEngineCb (s : Service) (type : RecEvent) : s.Keeps (s.recEngineCb type) := by
  cases type with
  | VAD_START =>
    rw [recEngineCb]
    split_ifs
    · exact ⟨rfl, rfl, rfl, rfl, rfl, s.prefix_send _⟩
    · exact s.keeps_refl
  | _ =>
    rw [recEngineCb]
    split_ifs
    · exact ⟨rfl, rfl, rfl, rfl, rfl, List.prefix_rfl⟩
    · exact s.keeps_refl

/-- The others call nothing, and leave the task and the timer as they are. -/
theorem step_keeps (hop : op.isOther = true) (h : s.step op = some (calls, t)) :
    calls = [] ∧ s.Keeps t := by
  cases op with
  | notify msg =>
    rw [step, Option.ite_none_right_eq_some] at h
    obtain ⟨rfl, rfl⟩ := Prod.mk.inj (Option.some.inj h.2)
    exact ⟨rfl, rfl, rfl, rfl, rfl, rfl, List.prefix_rfl⟩
  | access =>
    cases hnotifier : s.notifier with
    | nil =>
      rw [step, hnotifier] at h
      cases h
    | cons a rest =>
      rw [step, hnotifier] at h
      obtain ⟨rfl, rfl⟩ := Prod.mk.inj (Option.some.inj h)
      have hkeeps := s.keeps_access a
      exact ⟨rfl, hkeeps.state, hkeeps.retryNum, hkeeps.timer, hkeeps.callback, hkeeps.place,
        hkeeps.queue⟩
  | event evt =>
    obtain ⟨rfl, rfl⟩ := Prod.mk.inj (Option.some.inj h)
    cases evt with
    | _ => exact ⟨rfl, s.keeps_send _⟩
  | tick =>
    obtain ⟨rfl, rfl⟩ := Prod.mk.inj (Option.some.inj h)
    exact ⟨rfl, rfl, rfl, rfl, rfl, rfl, List.prefix_rfl⟩
  | record type =>
    rw [step, Option.ite_none_left_eq_some] at h
    obtain ⟨rfl, rfl⟩ := Prod.mk.inj (Option.some.inj h.2)
    exact ⟨rfl, s.keeps_recEngineCb type⟩
  | recordSend =>
    rw [step, Option.ite_none_right_eq_some] at h
    obtain ⟨rfl, rfl⟩ := Prod.mk.inj (Option.some.inj h.2)
    exact ⟨rfl, rfl, rfl, rfl, rfl, rfl, s.prefix_send _⟩
  | expire | callback | receive profile | proceed => cases hop

/-- The task takes a command while it waits. -/
theorem next_eq_some {cmd : Cmd} (h : s.next = some cmd) :
    s.place = .waiting ∧ s.queue = cmd :: s.queue.tail := by
  rw [next, Option.ite_none_right_eq_some] at h
  exact ⟨h.1, List.eq_cons_of_mem_head? h.2⟩

theorem quit_flag (h : s.setWifiFlag = true) : s.quit = { s with state := .IDLE } := by
  rw [quit, if_pos h]

theorem quit_retry (h : s.setWifiFlag ≠ true) (hlt : s.retryNum < 128) :
    s.quit = { s with
      state := .IDLE
      retryNum := s.retryNum * 2
      timer := some (s.clock + RETRY_TIME * (s.retryNum * 2)) } := by
  rw [quit, if_neg h, if_pos hlt]

theorem quit_giveUp (h : s.setWifiFlag ≠ true) (hle : ¬s.retryNum < 128) :
    s.quit = { s with state := .IDLE, timer := none, place := .exited } := by
  rw [quit, if_neg h, if_neg hle]

theorem step_expire (h : s.step .expire = some (calls, t)) :
    calls = [] ∧ t = { s with timer := none, callback := some .send } := by
  rw [step, Option.ite_none_right_eq_some] at h
  obtain ⟨rfl, rfl⟩ := Prod.mk.inj (Option.some.inj h.2)
  exact ⟨rfl, rfl⟩

theorem step_callback (h : s.step .callback = some (calls, t)) :
    calls = [] ∧ ∃ p, s.callback = some p ∧ t = s.retryLoginTimerCb p := by
  obtain ⟨p, hp, heq⟩ := Option.map_eq_some_iff.mp h
  obtain ⟨rfl, rfl⟩ := Prod.mk.inj heq
  exact ⟨rfl, p, hp, rfl⟩

theorem step_receive {profile : Bool} (h : s.step (.receive profile) = some (calls, t)) :
    ∃ cmd, s.next = some cmd ∧ s.pop.process profile cmd = (calls, t) :=
  Option.map_eq_some_iff.mp h

theorem step_proceed (h : s.step .proceed = some (calls, t)) : calls = [] ∧
    (s.place = .started ∧ t = { s with state := .START, place := .reading } ∨
      s.place = .reading ∧ t = { s with place := .waiting } ∨
      s.place = .stopped ∧ t = { s with state := .STOP, place := .waiting }) := by
  rw [step, proceed, Option.map_eq_some_iff] at h
  obtain ⟨u, hu, heq⟩ := h
  obtain ⟨rfl, rfl⟩ := Prod.mk.inj heq
  refine ⟨rfl, ?_⟩
  cases hplace : s.place with
  | started =>
    rw [hplace] at hu
    exact .inl ⟨rfl, (Option.some.inj hu).symm⟩
  | reading =>
    rw [hplace] at hu
    exact .inr (.inl ⟨rfl, (Option.some.inj hu).symm⟩)
  | stopped =>
    rw [hplace] at hu
    exact .inr (.inr ⟨rfl, (Option.some.inj hu).symm⟩)
  | waiting | exited =>
    rw [hplace] at hu
    cases hu

end Service

end Ddmz.Duer
