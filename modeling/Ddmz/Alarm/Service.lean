import Ddmz.Foundation.LinkedList

/-!
# The alarm service

`AlarmService.c` keeps its alarms in an intrusive list. Every function looks for a handle with a
loop of its own; `esp_alarm_edit` goes on with its loop after it has overwritten the entry it was
looking for, links included, and so is left at the end of the list in any case.

The loops take a bound on the number of entries they visit, and have no result where it is
exceeded or where an entry is not live. What `calloc`, the clock and `parseAlarm` answer is part
of a call. The functions that `PollTimerCallback` calls are recorded and do not call the service
themselves.
-/

namespace Ddmz.Alarm

/-- `Alarm_Code`. -/
inductive AlarmCode
  | E_ALARM_OK
  | E_ALARM_ARG
  | E_ALARM_NOREADY
  | E_ALARM_NOMEM
  | E_ALARM_NOTFOUND
  | E_ALARM_INVALID_TYPE
  | E_ALARM_MISSING_DATA
  | E_ALARM_YEAR
  | E_ALARM_MONTH
  | E_ALARM_DAY
  | E_ALARM_HOUR
  | E_ALARM_MINUTE
  | E_ALARM_SECOND
  | E_ALARM_LIST_EAMPTY
  | E_ALARM_PER_ZERO
  deriving DecidableEq

/-- `AlarmStatus`. -/
inductive AlarmStatus
  | A_idle
  | A_running
  | A_disabled
  | A_deleted
  deriving DecidableEq

/-- `AlarmType_t`. -/
inductive AlarmType
  | ABS
  | PER
  deriving DecidableEq

/-- `date_t` and `pdate_t`. -/
structure Date where
  y : ℤ
  m : ℤ
  d : ℤ
  h : ℤ
  mi : ℤ
  s : ℤ
  deriving DecidableEq

/-- `Alarm_t`. -/
structure AlarmT where
  alarmType : AlarmType
  date : Date
  pdate : Date
  deriving DecidableEq

/-- `esp_alarm_info` without its links; addresses are numbers, and a null function is `none`. -/
structure EspAlarmInfo where
  diff : ℤ
  handle : UInt32
  status : AlarmStatus
  alarmInfo : AlarmT
  triggerArg : ℕ
  triggerFunc : Option ℕ
  deriving DecidableEq

/-- What `calloc` returns. -/
def EspAlarmInfo.zero : EspAlarmInfo where
  diff := 0
  handle := 0
  status := .A_idle
  alarmInfo := ⟨.ABS, ⟨0, 0, 0, 0, 0, 0⟩, ⟨0, 0, 0, 0, 0, 0⟩⟩
  triggerArg := 0
  triggerFunc := none

/-- `MAX_FORMAT_LEN`. -/
def MAX_FORMAT_LEN : ℕ := 42

/-- The globals of the service and the memory of its entries. -/
structure AlarmStore where
  list : ListMem ℕ EspAlarmInfo
  /-- `g_esp_alarm_last_handle`. -/
  lastHandle : UInt32
  /-- Whether `poll_timer_handle` has been created. -/
  pollTimer : Bool

def AlarmStore.init : AlarmStore := ⟨⟨none, fun _ ↦ none⟩, 0, false⟩

/-- A call of a trigger function. -/
structure TriggerCall where
  func : ℕ
  arg : ℕ
  handle : UInt32
  deriving DecidableEq

/-- What a call of the service returns and writes for its caller. -/
structure AlarmReply (ε : Type) where
  code : AlarmCode
  handle : Option UInt32 := none
  info : Option ε := none

/-! ## Adding -/

/-- A call of `esp_alarm_add`, with what its environment answers. -/
structure AddCall where
  /-- `alarm_buf`, as the bytes before its terminator, or `none` for a null pointer. -/
  alarmBuf : Option (List UInt8)
  /-- `handle` is not null. -/
  handleGiven : Bool
  /-- `tm_year` of the current time. -/
  tmYear : ℤ
  /-- The result of `calloc`. -/
  newEntry : Option ℕ
  /-- The result of `parseAlarm`. -/
  parseAlarm : Except AlarmCode AlarmT

/-- A new entry that has been parsed. -/
def newAlarm (alarmInfo : AlarmT) (handle : UInt32) : EspAlarmInfo :=
  { EspAlarmInfo.zero with alarmInfo, status := .A_running, handle }

/-- `esp_alarm_add`. An entry that cannot be parsed is not freed. -/
def espAlarmAdd (x : AddCall) (c : AlarmStore) : AlarmReply (Entry ℕ EspAlarmInfo) × AlarmStore :=
  match x.alarmBuf with
  | none => ({ code := .E_ALARM_ARG }, c)
  | some buf =>
    if x.handleGiven = false then ({ code := .E_ALARM_ARG }, c)
    else if MAX_FORMAT_LEN < buf.length then ({ code := .E_ALARM_ARG }, c)
    else if x.tmYear < 2016 - 1900 then ({ code := .E_ALARM_NOREADY }, c)
    else
      match x.newEntry with
      | none => ({ code := .E_ALARM_NOMEM }, c)
      | some p =>
        match x.parseAlarm with
        | .error code => ({ code }, { c with list := c.list.put p ⟨.zero, none, none⟩ })
        | .ok alarmInfo =>
          ({ code := .E_ALARM_OK, handle := some c.lastHandle },
            { list := (c.list.put p ⟨newAlarm alarmInfo c.lastHandle, none, none⟩).insertHead p
              lastHandle := c.lastHandle + 1
              pollTimer := true })

/-! ## Looking for a handle -/

variable (n : ℕ) (handle : UInt32) (c : AlarmStore)

/-- The loop of `esp_alarm_delete`, `esp_get_alarm_info` and `esp_alarm_register_trigger_func`. -/
def findHandle : Option (Option ℕ) :=
  c.list.find (fun it ↦ handle == it.handle) n c.list.lhFirst

/-- `esp_alarm_edit`. Its loop ends with a null pointer only, so that the part behind it that
resets the poll timer and returns `E_ALARM_OK` is never reached. -/
def espAlarmEdit (alarmInfo : Entry ℕ EspAlarmInfo) :
    Option (AlarmReply (Entry ℕ EspAlarmInfo) × AlarmStore) :=
  (ListMem.traverse (fun _ it ↦ ((), if handle = it.val.handle then alarmInfo else it)) n c.list
    c.list.lhFirst ()).map fun r ↦ ({ code := .E_ALARM_NOTFOUND }, { c with list := r.2 })

def espAlarmDelete : Option (AlarmReply (Entry ℕ EspAlarmInfo) × AlarmStore) :=
  match findHandle n handle c with
  | none => none
  | some none => some ({ code := .E_ALARM_NOTFOUND }, c)
  | some (some it) =>
    match c.list.remove it with
    | none => none
    | some list => some ({ code := .E_ALARM_OK }, { c with list := list.free it })

/-- `esp_get_alarm_info`, with `alarmInfoGiven` for an `alarm_info` that is not null. -/
def espGetAlarmInfo (alarmInfoGiven : Bool) :
    Option (AlarmReply (Entry ℕ EspAlarmInfo) × AlarmStore) :=
  if alarmInfoGiven = false then some ({ code := .E_ALARM_ARG }, c)
  else
    match findHandle n handle c with
    | none => none
    | some none => some ({ code := .E_ALARM_NOTFOUND }, c)
    | some (some it) => some ({ code := .E_ALARM_OK, info := c.list.entries it }, c)

def espAlarmRegisterTriggerFunc (arg : ℕ) (func : Option ℕ) :
    Option (AlarmReply (Entry ℕ EspAlarmInfo) × AlarmStore) :=
  match findHandle n handle c with
  | none => none
  | some none => some ({ code := .E_ALARM_NOTFOUND }, c)
  | some (some it) =>
    some ({ code := .E_ALARM_OK },
      { c with
        list := c.list.setVal it fun info ↦ { info with triggerArg := arg, triggerFunc := func } })

/-! ## Polling -/

/-- The results of `alarmTrigger`. -/
inductive TriggerType
  | ABS_SUCC
  | PER_TRIG
  | ESP_OK
  deriving DecidableEq

/-- `updatePerAlarm`. -/
def updatePerAlarm (info : EspAlarmInfo) : EspAlarmInfo :=
  let date := info.alarmInfo.date
  let pdate := info.alarmInfo.pdate
  { info with
    alarmInfo := { info.alarmInfo with
      date := ⟨date.y + pdate.y, date.m + pdate.m, date.d + pdate.d, date.h + pdate.h,
        date.mi + pdate.mi, date.s + pdate.s⟩ } }

/-- `alarmTrigger`, where the `k`-th call of `computeTimeDifference` finds the difference `diff k`
of a date to the current time. Each condition computes it anew. -/
def alarmTrigger (diff : ℕ → Date → ℤ) (k : ℕ) (info : EspAlarmInfo) :
    TriggerType × ℕ × EspAlarmInfo :=
  let date := info.alarmInfo.date
  if 0 < diff k date ∧ info.alarmInfo.alarmType = .ABS then
    if diff (k + 1) date < 3 then (.ABS_SUCC, k + 2, info) else (.ESP_OK, k + 2, info)
  else if 0 < diff (k + 1) date ∧ info.alarmInfo.alarmType = .PER then
    if diff (k + 2) date < 3 then (.PER_TRIG, k + 3, updatePerAlarm info)
    else (.ESP_OK, k + 3, info)
  else (.ESP_OK, k + 2, info)

/-- The body of the loop of `PollTimerCallback`, with the number of differences computed and the
trigger functions called so far. -/
def pollAlarm (diff : ℕ → Date → ℤ) (b : ℕ × List TriggerCall) (info : EspAlarmInfo) :
    (ℕ × List TriggerCall) × EspAlarmInfo :=
  let r := alarmTrigger diff b.1 info
  let it := r.2.2
  match r.1, it.triggerFunc with
  | .ABS_SUCC, some func =>
    if it.status = .A_running then
      ((r.2.1, b.2 ++ [⟨func, it.triggerArg, it.handle⟩]), { it with status := .A_idle })
    else ((r.2.1, b.2), it)
  | .PER_TRIG, some func =>
    if it.status = .A_running then
      ((r.2.1, b.2 ++ [⟨func, it.triggerArg, it.handle⟩]), it)
    else ((r.2.1, b.2), it)
  | _, _ => ((r.2.1, b.2), it)

/-- `PollTimerCallback`, with the trigger functions it calls. -/
def pollTimerCallback (diff : ℕ → Date → ℤ) : Option (List TriggerCall × AlarmStore) :=
  (ListMem.traverse (fun b it ↦ ((pollAlarm diff b it.val).1,
      { it with val := (pollAlarm diff b it.val).2 })) n c.list c.list.lhFirst (0, [])).map
    fun r ↦ (r.1.2, { c with list := r.2 })

end Ddmz.Alarm
