import Ddmz.Foundation.Runs
import Ddmz.Wifi.Events

/-!
# The configuration tasks

`WifiSmartConfig` and `WifiBleConfig` create the tasks that carry out a configuration,
`WifiConfigTask` and `BleConfigTask`; if a handle says that there is one already, they delete it
first. Each task takes a mutex, starts what the user's phone talks to, waits for the event group
and gives the mutex back.

A step goes from one access to what is shared to the next, and tasks and callers can be interrupted
between any two steps; a task waits by not taking its next step. What the driver and Bluetooth
answer is part of a step; what is called of them without a result, the task for the airkiss
notification, and the stack depths are left out. A deleted task takes no more steps, and gives
nothing back.
-/

namespace Ddmz.Wifi

/-- `esp_err_t`, as far as it is told apart. -/
inductive EspErr
  | OK
  | FAIL
  | INVALID_STATE
  | TIMEOUT
  | other
  deriving DecidableEq

/-! ## Handles, mutexes and tasks -/

/-- Where a call of `WifiSmartConfig` or `WifiBleConfig` is, after it has read the handle. -/
inductive RequestPlace
  | delete
  | clear
  | create
  deriving DecidableEq

/-- The steps of such a call. -/
inductive RequestStep
  | call
  | delete
  | clear
  /-- Whether `xTaskCreate` succeeds is part of the step. -/
  | create (created : Bool)

/-- One of the two configurations, with tasks at places `π`. -/
structure Tasks (π : Type) where
  /-- `SmartConfigHandle` or `BleConfigHandle`. -/
  handle : Option ℕ
  /-- The task that has taken `g_sc_mux` or `g_ble_mux`. -/
  mux : Option ℕ
  /-- How many tasks have been created; they are numbered in this order. -/
  created : ℕ
  /-- Where the tasks are that have been created and not deleted. -/
  place : ℕ → Option π
  /-- The call that is going on. -/
  request : Option RequestPlace

namespace Tasks

variable {π : Type} (c : Tasks π)

def init : Tasks π where
  handle := none
  mux := none
  created := 0
  place _ := none
  request := none

def goto (t : ℕ) (p : π) : Tasks π := { c with place := Function.update c.place t (some p) }

/-- `vTaskDelete`. -/
def delete (t : ℕ) : Tasks π := { c with place := Function.update c.place t none }

/-- `vTaskDelete` of what the handle says now, which is the caller if it says nothing. -/
def deleteHandle : Tasks π :=
  match c.handle with
  | some t => { c.delete t with request := some .clear }
  | none => { c with request := none }

/-- `xTaskCreate`, with where the task begins. -/
def create (first : π) : Tasks π :=
  { c with
    handle := some c.created
    created := c.created + 1
    place := Function.update c.place c.created (some first)
    request := none }

/-- `WifiSmartConfig` and `WifiBleConfig`, with where their tasks begin. -/
def config (first : π) : RequestStep → Option (Tasks π)
  | .call =>
    if c.request = none then
      some { c with request := some (if c.handle = none then .create else .delete) }
    else none
  | .delete => if c.request = some .delete then some c.deleteHandle else none
  | .clear =>
    if c.request = some .clear then some { c with handle := none, request := some .create }
    else none
  | .create created =>
    if c.request = some .create then
      some (if created then c.create first else { c with request := none })
    else none

section Lemmas

variable {c c' : Tasks π} {t u : ℕ} {first p : π}

@[simp] theorem place_goto : (c.goto t p).place t = some p := Function.update_self _ _ _

theorem place_goto_of_ne (h : u ≠ t) : (c.goto t p).place u = c.place u :=
  Function.update_of_ne h _ _

@[simp] theorem place_delete : (c.delete t).place t = none := Function.update_self _ _ _

theorem place_delete_of_ne (h : u ≠ t) : (c.delete t).place u = c.place u :=
  Function.update_of_ne h _ _

theorem place_create : (c.create first).place c.created = some first := Function.update_self _ _ _

theorem place_create_of_ne (h : u ≠ c.created) : (c.create first).place u = c.place u :=
  Function.update_of_ne h _ _

theorem deleteHandle_some (h : c.handle = some t) :
    c.deleteHandle = { c.delete t with request := some .clear } := by
  rw [deleteHandle, h]

theorem deleteHandle_none (h : c.handle = none) : c.deleteHandle = { c with request := none } := by
  rw [deleteHandle, h]

theorem config_call (h : c.config first .call = some c') : c.request = none ∧
    c' = { c with request := some (if c.handle = none then .create else .delete) } := by
  rw [config, Option.ite_none_right_eq_some] at h
  exact ⟨h.1, (Option.some.inj h.2).symm⟩

theorem config_delete (h : c.config first .delete = some c') :
    c.request = some .delete ∧ c' = c.deleteHandle := by
  rw [config, Option.ite_none_right_eq_some] at h
  exact ⟨h.1, (Option.some.inj h.2).symm⟩

theorem config_clear (h : c.config first .clear = some c') :
    c.request = some .clear ∧ c' = { c with handle := none, request := some .create } := by
  rw [config, Option.ite_none_right_eq_some] at h
  exact ⟨h.1, (Option.some.inj h.2).symm⟩

theorem config_create {created : Bool} (h : c.config first (.create created) = some c') :
    c.request = some .create ∧
      c' = if created = true then c.create first else { c with request := none } := by
  rw [config, Option.ite_none_right_eq_some] at h
  exact ⟨h.1, (Option.some.inj h.2).symm⟩

/-- A call touches neither the mutex nor where a task is that it does not delete or create. -/
theorem config_cases {r : RequestStep} (h : c.config first r = some c') : c'.mux = c.mux ∧
    ∀ t, c'.place t = c.place t ∨ r = .delete ∧ c.handle = some t ∧ c'.place t = none ∨
      t = c.created ∧ c'.place t = some first := by
  cases r with
  | call =>
    obtain ⟨-, rfl⟩ := config_call h
    exact ⟨rfl, fun t ↦ .inl rfl⟩
  | delete =>
    obtain ⟨-, rfl⟩ := config_delete h
    cases hhandle : c.handle with
    | none =>
      rw [deleteHandle_none hhandle]
      exact ⟨rfl, fun t ↦ .inl rfl⟩
    | some u =>
      rw [deleteHandle_some hhandle]
      refine ⟨rfl, fun t ↦ ?_⟩
      by_cases htu : t = u
      · exact .inr (.inl ⟨rfl, congrArg some htu.symm, htu ▸ place_delete⟩)
      · exact .inl (place_delete_of_ne htu)
  | clear =>
    obtain ⟨-, rfl⟩ := config_clear h
    exact ⟨rfl, fun t ↦ .inl rfl⟩
  | create created =>
    obtain ⟨-, rfl⟩ := config_create h
    cases created with
    | false => exact ⟨rfl, fun t ↦ .inl rfl⟩
    | true =>
      refine ⟨rfl, fun t ↦ ?_⟩
      by_cases ht : t = c.created
      · exact .inr (.inr ⟨ht, ht ▸ place_create⟩)
      · exact .inl (place_create_of_ne ht)

end Lemmas

end Tasks

/-! ## Places -/

/-- The places in `WifiSmartConnect`, each named for the step that comes next there. -/
inductive SmartPlace
  | checkInSmartconfig
  | take
  | clearStopReq
  | start
  | setInSmartconfig
  | wait
  | stop (res : EspErr)
  | clearInSmartconfig (res : EspErr)
  | give (res : EspErr)
  | clearPairing (res : EspErr)
  deriving DecidableEq

/-- The places in `WifiConfigTask`. -/
inductive WifiPlace
  | setPairing
  | getMode
  | smart (p : SmartPlace)
  | result (res : EspErr)
  | clearHandle
  | exit
  deriving DecidableEq

/-- The places in `BleConfigStart`. -/
inductive StartPlace
  | take
  | controller
  | bluedroid
  | profileInit
  | wait
  | stop (res : EspErr)
  /-- In `BleConfigStop`, after the bits. -/
  | shutDown (res : EspErr)
  | give (res : EspErr)
  deriving DecidableEq

/-- The places in `BleConfigTask`. -/
inductive BlePlace
  | stop
  /-- In `BleConfigStop`, after the bits. -/
  | shutDown
  | clearStopReq
  | clearConfiging
  | setPairing
  | start (p : StartPlace)
  | result (res : EspErr)
  | clearHandle
  | exit
  deriving DecidableEq

/-- `WifiSmartConfig`. -/
def wifiSmartConfig (c : Tasks WifiPlace) : RequestStep → Option (Tasks WifiPlace) :=
  c.config .setPairing

/-- `WifiBleConfig`. -/
def wifiBleConfig (c : Tasks BlePlace) : RequestStep → Option (Tasks BlePlace) :=
  c.config .stop

/-! ## The tasks -/

structure Station where
  manager : Manager
  inSmartconfig : Bool
  sc : Tasks WifiPlace
  ble : Tasks BlePlace

def Station.init : Station := ⟨.init, false, .init, .init⟩

/-- `BleConfigStop`: whether Bluetooth is to be shut down, and the bits. -/
def Manager.bleConfigStop (w : Manager) : Bool × Manager :=
  if w.ble.pairing then (true, { w with ble := { w.ble with pairing := false } }) else (false, w)

/-- What a wait for one of two bits comes to; without any of them it ends with its timeout. -/
def waitResult (done stopReq : Bool) : EspErr :=
  if done then .OK else if stopReq then .FAIL else .TIMEOUT

/-- What both tasks tell about the result. -/
def Manager.report (w : Manager) (res : EspErr) : Manager :=
  if res = .TIMEOUT then w.send .Config_Timeout else w

section SmartConfig

variable (t : ℕ) (answer : EspErr) (s : Station)

/-- `WifiSmartConnect`: the next place in it, or what it returns. If `esp_smartconfig_start` fails,
the program is aborted. -/
def wifiSmartConnect : SmartPlace → Option (Station × (SmartPlace ⊕ EspErr))
  | .checkInSmartconfig => some (s, if s.inSmartconfig then .inr .INVALID_STATE else .inl .take)
  | .take =>
    if s.sc.mux = none then
      some ({ s with sc := { s.sc with mux := some t } }, .inl .clearStopReq)
    else some (s, .inr .TIMEOUT)
  | .clearStopReq =>
    some ({ s with
      manager := { s.manager with sc := { s.manager.sc with stopReq := false } } }, .inl .start)
  | .start => if answer = .OK then some (s, .inl .setInSmartconfig) else none
  | .setInSmartconfig => some ({ s with inSmartconfig := true }, .inl .wait)
  | .wait =>
    -- the bits are cleared as they are read
    some ({ s with
      manager := { s.manager with sc := { s.manager.sc with done := false, stopReq := false } } },
      .inl (.stop (waitResult s.manager.sc.done s.manager.sc.stopReq)))
  | .stop res => some (s, .inl (.clearInSmartconfig res))
  | .clearInSmartconfig res => some ({ s with inSmartconfig := false }, .inl (.give res))
  | .give res => some ({ s with sc := { s.sc with mux := none } }, .inl (.clearPairing res))
  | .clearPairing res =>
    some ({ s with
      manager := { s.manager with sc := { s.manager.sc with pairing := false } } }, .inr res)

/-- The step of the task is done, and it is at `p`. -/
def Station.scGoto (p : WifiPlace) : Station := { s with sc := s.sc.goto t p }

/-- Where `WifiConfigTask` goes on from `WifiSmartConnect`. -/
def WifiPlace.next : SmartPlace ⊕ EspErr → WifiPlace := Sum.elim .smart .result

/-- `WifiConfigTask`. -/
def wifiConfigTask : WifiPlace → Option Station
  | .setPairing =>
    some ({ s with
      manager := { s.manager with sc := { s.manager.sc with pairing := true } } }.scGoto t .getMode)
  | .getMode =>
    some (s.scGoto t (if answer = .OK then .smart .checkInSmartconfig else .clearHandle))
  | .smart p => (wifiSmartConnect t answer s p).map fun r ↦ r.1.scGoto t (.next r.2)
  | .result res => some ({ s with manager := s.manager.report res }.scGoto t .clearHandle)
  | .clearHandle => some ({ s with sc := { s.sc with handle := none } }.scGoto t .exit)
  | .exit => some { s with sc := s.sc.delete t }

end SmartConfig

section BleConfig

variable (t : ℕ) (answer : EspErr) (s : Station)

/-- `BleConfigStart`: the next place in it, or what it returns. -/
def bleConfigStart : StartPlace → Option (Station × (StartPlace ⊕ EspErr))
  | .take =>
    if s.ble.mux = none then
      some ({ s with ble := { s.ble with mux := some t } }, .inl .controller)
    else some (s, .inr .TIMEOUT)
  | .controller => some (s, .inl (if answer = .OK then .bluedroid else .give .FAIL))
  | .bluedroid => some (s, .inl (if answer = .OK then .profileInit else .give answer))
  | .profileInit => some (s, .inl .wait)
  | .wait =>
    let res := waitResult s.manager.ble.done s.manager.ble.stopReq
    some ({ s with
      manager := { s.manager with ble := { s.manager.ble with done := false, stopReq := false } } },
      .inl (if res = .OK then .give .OK else .stop res))
  | .stop res =>
    let r := s.manager.bleConfigStop
    some ({ s with manager := r.2 }, .inl (if r.1 then .shutDown res else .give res))
  | .shutDown res => some (s, .inl (.give res))
  | .give res => some ({ s with ble := { s.ble with mux := none } }, .inr res)

/-- The step of the task is done, and it is at `p`. -/
def Station.bleGoto (p : BlePlace) : Station := { s with ble := s.ble.goto t p }

/-- Where `BleConfigTask` goes on from `BleConfigStart`. -/
def BlePlace.next : StartPlace ⊕ EspErr → BlePlace := Sum.elim .start .result

/-- `BleConfigTask`. -/
def bleConfigTask : BlePlace → Option Station
  | .stop =>
    let r := s.manager.bleConfigStop
    some ({ s with manager := r.2 }.bleGoto t (if r.1 then .shutDown else .clearStopReq))
  | .shutDown => some (s.bleGoto t .clearStopReq)
  | .clearStopReq =>
    some ({ s with
      manager := { s.manager with ble := { s.manager.ble with stopReq := false } } }.bleGoto t
        .clearConfiging)
  | .clearConfiging =>
    some ({ s with
      manager := { s.manager with ble := { s.manager.ble with configing := false } } }.bleGoto t
        .setPairing)
  | .setPairing =>
    some ({ s with
      manager := { s.manager with ble := { s.manager.ble with pairing := true } } }.bleGoto t
        (.start .take))
  | .start p => (bleConfigStart t answer s p).map fun r ↦ r.1.bleGoto t (.next r.2)
  | .result res => some ({ s with manager := s.manager.report res }.bleGoto t .clearHandle)
  | .clearHandle => some ({ s with ble := { s.ble with handle := none } }.bleGoto t .exit)
  | .exit => some { s with ble := s.ble.delete t }

end BleConfig

/-! ## The system -/

/-- `WifiManagerEvtTask` takes a state from the queue, and `ProcessWifiEvent` stops Bluetooth if
the phone has gone. -/
def Manager.processWifiEvent (w : Manager) : Option Manager :=
  match w.queue with
  | [] => none
  | state :: queue =>
    let w := { w with queue }
    some (if state = .BLE_Stop then w.bleConfigStop.2 else w)

/-- What happens outside the configuration tasks and their callers. -/
inductive ManagerOp
  | driver (evt : SystemEvent)
  | smartconfig (status : SmartconfigStatus)
  | blufi (evt : BlufiEvent)
  | evtTask
  /-- `WifiBleConfigStop`. -/
  | bleConfigStop

def Manager.step (build : Build) (w : Manager) : ManagerOp → Option Manager
  | .driver evt => some (wifiEvtHandlerCb build w evt).2
  | .smartconfig status => some (smartconfigDone w status).2
  | .blufi evt => some (audioBleEventCallback w evt).2
  | .evtTask => w.processWifiEvent
  | .bleConfigStop => some w.bleConfigStop.2

inductive Op
  | smartConfig (r : RequestStep)
  | bleConfig (r : RequestStep)
  /-- Task `t` takes its next step, with what a call in it returns. -/
  | scTask (t : ℕ) (answer : EspErr)
  | bleTask (t : ℕ) (answer : EspErr)
  | manager (op : ManagerOp)

def Station.step (build : Build) (s : Station) : Op → Option Station
  | .smartConfig r => (wifiSmartConfig s.sc r).map fun sc ↦ { s with sc }
  | .bleConfig r => (wifiBleConfig s.ble r).map fun ble ↦ { s with ble }
  | .scTask t answer => (s.sc.place t).bind (wifiConfigTask t answer s)
  | .bleTask t answer => (s.ble.place t).bind (bleConfigTask t answer s)
  | .manager op => (s.manager.step build op).map fun manager ↦ { s with manager }

end Ddmz.Wifi
