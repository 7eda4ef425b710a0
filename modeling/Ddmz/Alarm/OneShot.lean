import Ddmz.Alarm.Parser
import Ddmz.Alarm.Store
import Ddmz.Foundation.Runs

/-!
# Alarms that go off once

The poll timer expires every two seconds, and an alarm goes off with a poll in the two seconds from
its date on. So while the timer runs undisturbed exactly one poll comes in time for an alarm. But
every `esp_alarm_add` starts the timer anew: a poll for which an alarm is due, and that was to come
within these two seconds, comes up to two seconds later. `esp_alarm_edit` does not start the timer
anew, and may set an alarm to a date that is over.

In `Timed` the service runs with the clock and the timer, both in milliseconds, and for each handle
there is a `Course`, which is not in the source: the polls that an alarm has been in the list for,
and the times at which its function has been called. `Once` says that it has been called at the
first poll that did not come before its date, and at no other time. `once_of_run` is about the runs
in which no alarm is added while another one is due, and in which edits leave the links and the
handle of an alarm alone and set it to a date that the next poll is in time for.

`esp_alarm_add` and the call of `esp_alarm_register_trigger_func` for the new alarm are one step.
-/

namespace Ddmz.Alarm

/-! ## The service with its timer -/

/-- The period of the poll timer. -/
def POLL_PERIOD : ℕ := 2000

/-- What `time` answers at the time `t`. -/
def second (t : ℕ) : ℤ := (t / 1000 : ℕ)

/-- What has become of an alarm since it got its date. -/
structure Course where
  due : ℤ
  /-- The alarm is in the list, and it was running and had a function when it got its date. -/
  live : Bool
  /-- The polls with the alarm in the list. -/
  polls : List ℕ
  /-- When its function has been called. -/
  calls : List ℕ

/-- An alarm that is to go off. -/
def EspAlarmInfo.armed (info : EspAlarmInfo) : Bool :=
  info.status = .A_running && info.triggerFunc.isSome

namespace Course

variable (r : Course)

/-- The first poll that did not come before the date. -/
def firstPoll : Option ℕ := r.polls.find? fun t ↦ r.due ≤ second t

/-- The function has been called at this poll, and at no other time. -/
def Once : Prop := r.calls = r.firstPoll.toList

def Pending : Prop := r.live = true ∧ r.firstPoll = none

/-- An alarm that does not repeat gets its date. -/
def start (info : EspAlarmInfo) : Option Course :=
  if info.alarmInfo.alarmType = .ABS then some ⟨info.alarmInfo.date.due, info.armed, [], []⟩
  else none

/-- A poll makes some calls. -/
def polled (t : ℕ) (calls : List TriggerCall) (handle : UInt32) : Course where
  due := r.due
  live := r.live
  polls := if r.live then r.polls ++ [t] else r.polls
  calls := r.calls ++ (calls.filter fun x ↦ x.handle = handle).map fun _ ↦ t

def deleted : Course := { r with live := false }

end Course

structure Timed where
  store : AlarmStore
  clock : ℕ
  /-- When the poll timer expires, if it has been created. -/
  timer : Option ℕ
  courses : UInt32 → Option Course

def Timed.init (clock : ℕ) : Timed := ⟨.init, clock, none, fun _ ↦ none⟩

/-- What happens, and when: `n` bounds the loops in it. Polls come when the timer expires. -/
inductive TimedOp
  /-- `source` is the text that `parseAlarm` gets. -/
  | add (t n : ℕ) (x : AddCall) (source : List UInt8) (arg : ℕ) (func : Option ℕ)
  | edit (t n : ℕ) (alarmInfo : Entry ℕ EspAlarmInfo) (handle : UInt32)
  | delete (t n : ℕ) (handle : UInt32)
  | poll (n : ℕ)

namespace Timed

variable (s : Timed) (t n : ℕ)

/-- A call comes no earlier than the last step, and before the timer expires. -/
def mayCall : Bool := s.clock ≤ t && s.timer.all fun next ↦ t ≤ next

/-- `esp_alarm_add`, and `esp_alarm_register_trigger_func` with the new handle. `calloc` returns
memory that is not in use. -/
def add (x : AddCall) (source : List UInt8) (arg : ℕ) (func : Option ℕ) : Option Timed :=
  if (x.newEntry.bind s.store.list.entries).isSome then none
  else
    match parseAlarm n (fun _ ↦ second t) source with
    | none => none
    | some parsed =>
      let r := espAlarmAdd { x with parseAlarm := parsed } s.store
      match r.1.handle with
      | none => some { s with store := r.2, clock := t }
      | some handle =>
        (espAlarmRegisterTriggerFunc n handle r.2 arg func).map fun r' ↦
          { store := r'.2
            clock := t
            -- `xTimerStart` or `xTimerReset`
            timer := some (t + POLL_PERIOD)
            courses := Function.update s.courses handle (parsed.toOption.bind fun alarmInfo ↦
              Course.start { newAlarm alarmInfo handle with
                triggerArg := arg, triggerFunc := func }) }

/-- `esp_alarm_edit`. -/
def edit (alarmInfo : Entry ℕ EspAlarmInfo) (handle : UInt32) : Option Timed :=
  (findHandle n handle s.store).bind fun it ↦
    (espAlarmEdit n handle s.store alarmInfo).map fun r ↦
      { store := r.2
        clock := t
        timer := if r.1.code = .E_ALARM_OK then s.timer.map fun _ ↦ t + POLL_PERIOD else s.timer
        courses := if it.isSome then
            Function.update s.courses handle (Course.start alarmInfo.val)
          else s.courses }

/-- `esp_alarm_delete`. -/
def delete (handle : UInt32) : Option Timed :=
  (espAlarmDelete n handle s.store).map fun r ↦
    { s with
      store := r.2
      clock := t
      courses := if r.1.code = .E_ALARM_OK then
          Function.update s.courses handle ((s.courses handle).map Course.deleted)
        else s.courses }

/-- `PollTimerCallback`. -/
def poll : Option Timed :=
  s.timer.bind fun t ↦
    (pollTimerCallback n s.store fun _ ↦ computeTimeDifference (second t)).map fun r ↦
      { store := r.2
        clock := t
        timer := some (t + POLL_PERIOD)
        courses := fun handle ↦ (s.courses handle).map fun course ↦ course.polled t r.1 handle }

def step : TimedOp → Option Timed
  | .add t n x source arg func => if s.mayCall t then s.add t n x source arg func else none
  | .edit t n alarmInfo handle => if s.mayCall t then s.edit t n alarmInfo handle else none
  | .delete t n handle => if s.mayCall t then s.delete t n handle else none
  | .poll n => s.poll n

/-- Every function of an alarm that goes off once has been called as it should. -/
def Once : Prop := ∀ handle r, s.courses handle = some r → r.Once

/-- No alarm is added while another is due, nor when the next handle is still in use, and an edit
leaves links and handle as they are, and sets an alarm to a date that the next poll is in time
for. -/
def OnTime : TimedOp → Prop
  | .add t n x source _ _ =>
    ∀ parsed alarm, parseAlarm n (fun _ ↦ second t) source = some parsed →
      ({ x with parseAlarm := parsed } : AddCall).outcome = .ok alarm →
      (∀ handle r, s.courses handle = some r → r.Pending → second t < r.due) ∧
        ∀ l, s.store.list.Holds l → ∀ y ∈ l, y.2.handle ≠ s.store.lastHandle
  | .edit _ n alarmInfo handle =>
    ∀ p e, findHandle n handle s.store = some (some p) → s.store.list.entries p = some e →
      (alarmInfo.leNext = e.leNext ∧ alarmInfo.lePrev = e.lePrev) ∧ alarmInfo.val.handle = handle ∧
      (alarmInfo.val.armed = true → alarmInfo.val.alarmInfo.alarmType = .ABS →
        alarmInfo.val.alarmInfo.date.Fits ∧
        ∃ next, s.timer = some next ∧ second next < alarmInfo.val.alarmInfo.date.due + 2)
  | _ => True

end Timed

theorem second_add_period (t : ℕ) : second (t + POLL_PERIOD) = second t + 2 := by
  rw [second, second, POLL_PERIOD]
  omega

/-! ## A poll, alarm by alarm -/

section Polls

variable (d : Date → ℤ) (a : EspAlarmInfo)

/-- The calls that a poll makes for an alarm, where the clock does not advance during the poll. -/
def callsOf : List TriggerCall := (pollAlarm (fun _ ↦ d) (0, []) a).1.2

/-- The alarm after the poll. -/
def polledOf : EspAlarmInfo := (pollAlarm (fun _ ↦ d) (0, []) a).2

theorem pollAlarm_eq (b : ℕ × List TriggerCall) :
    (pollAlarm (fun _ ↦ d) b a).1.2 = b.2 ++ callsOf d a ∧
      (pollAlarm (fun _ ↦ d) b a).2 = polledOf d a := by
  have htrigger : (alarmTrigger (fun _ ↦ d) b.1 a).1 = (alarmTrigger (fun _ ↦ d) 0 a).1 ∧
      (alarmTrigger (fun _ ↦ d) b.1 a).2.2 = (alarmTrigger (fun _ ↦ d) 0 a).2.2 := by
    rw [alarmTrigger, alarmTrigger]
    split_ifs <;> exact ⟨rfl, rfl⟩
  rw [callsOf, polledOf, pollAlarm, pollAlarm, htrigger.1, htrigger.2]
  generalize (alarmTrigger (fun _ ↦ d) 0 a).2.2 = it
  cases (alarmTrigger (fun _ ↦ d) 0 a).1 with
  | ESP_OK => exact ⟨(List.append_nil _).symm, rfl⟩
  | ABS_SUCC | PER_TRIG =>
    cases it.triggerFunc with
    | none => exact ⟨(List.append_nil _).symm, rfl⟩
    | some func =>
      dsimp only
      split_ifs
      · exact ⟨rfl, rfl⟩
      · exact ⟨(List.append_nil _).symm, rfl⟩

theorem mapState_pollAlarm (b : ℕ × List TriggerCall) (alarms : List EspAlarmInfo) :
    (ListMem.mapState (pollAlarm fun _ ↦ d) b alarms).1.2 = b.2 ++ alarms.flatMap (callsOf d) ∧
      (ListMem.mapState (pollAlarm fun _ ↦ d) b alarms).2 = alarms.map (polledOf d) := by
  induction alarms generalizing b with
  | nil => exact ⟨(List.append_nil _).symm, rfl⟩
  | cons a alarms ih =>
    obtain ⟨hcalls, halarms⟩ := ih (pollAlarm (fun _ ↦ d) b a).1
    obtain ⟨hcall, halarm⟩ := pollAlarm_eq d a b
    rw [ListMem.mapState, hcalls, halarms, hcall, halarm, List.flatMap_cons, List.append_assoc]
    exact ⟨rfl, rfl⟩

variable {d a}

theorem handle_callsOf {x : TriggerCall} (hx : x ∈ callsOf d a) : x.handle = a.handle := by
  have hhandle := handle_alarmTrigger (fun _ ↦ d) 0 a
  rw [callsOf, pollAlarm] at hx
  split at hx
  · split at hx
    · rw [List.mem_singleton.mp hx]
      exact hhandle
    · cases hx
  · split at hx
    · rw [List.mem_singleton.mp hx]
      exact hhandle
    · cases hx
  · cases hx

theorem handle_polledOf : (polledOf d a).handle = a.handle := handle_pollAlarm _ _ _

theorem alarmType_polledOf : (polledOf d a).alarmInfo.alarmType = a.alarmInfo.alarmType := by
  have htype : (alarmTrigger (fun _ ↦ d) 0 a).2.2.alarmInfo.alarmType = a.alarmInfo.alarmType := by
    rw [alarmTrigger]
    split_ifs <;> rfl
  rw [← htype, polledOf, pollAlarm]
  split
  · split <;> rfl
  · split <;> rfl
  · rfl

theorem alarmTrigger_abs (habs : a.alarmInfo.alarmType = .ABS) :
    (alarmTrigger (fun _ ↦ d) 0 a).2.2 = a ∧ (alarmTrigger (fun _ ↦ d) 0 a).1
      = if 0 < d a.alarmInfo.date ∧ d a.alarmInfo.date < 3 then .ABS_SUCC else .ESP_OK := by
  rw [alarmTrigger]
  by_cases hpos : 0 < d a.alarmInfo.date
  · rw [if_pos ⟨hpos, habs⟩]
    split_ifs with hlt hwindow hwindow
    · exact ⟨rfl, rfl⟩
    · exact absurd ⟨hpos, hlt⟩ hwindow
    · exact absurd hwindow.2 hlt
    · exact ⟨rfl, rfl⟩
  · rw [if_neg fun hand ↦ hpos hand.1, if_neg fun hand ↦ hpos hand.1,
      if_neg fun hand ↦ hpos hand.1]
    exact ⟨rfl, rfl⟩

theorem alarmInfo_polledOf (habs : a.alarmInfo.alarmType = .ABS) :
    (polledOf d a).alarmInfo = a.alarmInfo := by
  rw [polledOf, pollAlarm, (alarmTrigger_abs habs).1]
  split
  · split <;> rfl
  · split <;> rfl
  · rfl

/-- Within its two seconds an alarm that is to go off does, and is not to go off any more. -/
theorem poll_armed (habs : a.alarmInfo.alarmType = .ABS) (harmed : a.armed = true)
    (hwindow : 0 < d a.alarmInfo.date ∧ d a.alarmInfo.date < 3) :
    (∃ x, callsOf d a = [x]) ∧ (polledOf d a).armed = false := by
  obtain ⟨hinfo, htrigger⟩ := alarmTrigger_abs (d := d) habs
  rw [if_pos hwindow] at htrigger
  rw [EspAlarmInfo.armed, Bool.and_eq_true, decide_eq_true_eq] at harmed
  obtain ⟨func, hfunc⟩ := Option.isSome_iff_exists.mp harmed.2
  rw [callsOf, polledOf, pollAlarm, htrigger, hinfo, hfunc]
  dsimp only
  rw [if_pos harmed.1]
  exact ⟨⟨_, rfl⟩, rfl⟩

/-- Otherwise nothing happens to it. -/
theorem poll_quiet (habs : a.alarmInfo.alarmType = .ABS)
    (hquiet : a.armed = true → ¬(0 < d a.alarmInfo.date ∧ d a.alarmInfo.date < 3)) :
    callsOf d a = [] ∧ polledOf d a = a := by
  obtain ⟨hinfo, htrigger⟩ := alarmTrigger_abs (d := d) habs
  rw [callsOf, polledOf, pollAlarm, hinfo]
  split
  · rename_i func htype hfunc
    rw [if_neg fun hrunning ↦ ?_]
    · exact ⟨rfl, rfl⟩
    · refine hquiet ?_ (by_contra fun hwindow ↦ ?_)
      · rw [EspAlarmInfo.armed, hrunning, hfunc]
        rfl
      · rw [htrigger, if_neg hwindow] at htype
        cases htype
  · rename_i htype hfunc
    rw [htrigger] at htype
    split_ifs at htype
  · exact ⟨rfl, rfl⟩

/-- The calls for one alarm are those with its handle. -/
theorem calls_of_notMem {handle : UInt32} {alarms : List EspAlarmInfo}
    (h : handle ∉ alarms.map EspAlarmInfo.handle) :
    ((alarms.flatMap (callsOf d)).filter fun x ↦ x.handle = handle) = [] := by
  rw [List.filter_eq_nil_iff]
  intro x hx heq
  obtain ⟨a, ha, hxa⟩ := List.mem_flatMap.mp hx
  refine h (List.mem_map.mpr ⟨a, ha, ?_⟩)
  rw [← handle_callsOf hxa, of_decide_eq_true heq]

theorem calls_of_mem {alarms : List EspAlarmInfo}
    (hnodup : (alarms.map EspAlarmInfo.handle).Nodup) (ha : a ∈ alarms) :
    ((alarms.flatMap (callsOf d)).filter fun x ↦ x.handle = a.handle) = callsOf d a := by
  obtain ⟨before, behind, rfl⟩ := List.append_of_mem ha
  rw [List.map_append, List.map_cons, List.nodup_append, List.nodup_cons] at hnodup
  obtain ⟨-, ⟨hbehind, -⟩, hdisjoint⟩ := hnodup
  have hbefore : a.handle ∉ before.map EspAlarmInfo.handle :=
    fun hmem ↦ hdisjoint _ hmem _ List.mem_cons_self rfl
  have hself : ((callsOf d a).filter fun x ↦ x.handle = a.handle) = callsOf d a :=
    List.filter_eq_self.mpr fun x hx ↦ decide_eq_true (handle_callsOf hx)
  rw [List.flatMap_append, List.flatMap_cons, List.filter_append, List.filter_append,
    calls_of_notMem hbefore, calls_of_notMem hbehind, hself, List.nil_append, List.append_nil]

end Polls

/-! ## The invariant -/

/-- All calls for this course have been made, whatever polls there will be. -/
def Course.Settled (r : Course) : Prop := r.Once ∧ (r.live = true → r.firstPoll ≠ none)

/-- How an alarm that goes off once stands: it is to go off, and the next poll will be in time for
it if it is not before its date; or it is not to go off any more. -/
inductive Stands (timer : Option ℕ) (a : EspAlarmInfo) (r : Course) : Prop
  | pending {next : ℕ} (pending : r.Pending) (calls : r.calls = []) (armed : a.armed = true)
      (fits : a.alarmInfo.date.Fits) (timer : timer = some next)
      (inTime : second next < r.due + 2)
  | settled (settled : r.Settled) (quiet : a.armed = false)

/-- What is kept of an alarm in the list. -/
inductive Followed (timer : Option ℕ) (a : EspAlarmInfo) : Option Course → Prop
  | per (per : a.alarmInfo.alarmType ≠ .ABS) : Followed timer a none
  | abs {r : Course} (abs : a.alarmInfo.alarmType = .ABS) (due : r.due = a.alarmInfo.date.due)
      (stands : Stands timer a r) : Followed timer a (some r)

section Courses

variable {timer : Option ℕ} {a : EspAlarmInfo} {r : Course} {o : Option Course} {t : ℕ}
  {calls : List TriggerCall} {handle : UInt32}

theorem Stands.once (h : Stands timer a r) : r.Once := by
  cases h with
  | pending pending calls => rw [Course.Once, calls, pending.2, Option.toList_none]
  | settled settled => exact settled.1

theorem Followed.once (h : Followed timer a (some r)) : r.Once := by
  cases h with
  | abs _ _ stands => exact stands.once

theorem Course.firstPoll_polled (h : r.live = true) (t : ℕ) (calls : List TriggerCall)
    (handle : UInt32) : (r.polled t calls handle).firstPoll
    = r.firstPoll.or (if r.due ≤ second t then some t else none) := by
  rw [firstPoll, polled, if_pos h, List.find?_append, firstPoll, List.find?_singleton]
  simp only [decide_eq_true_eq]

theorem Course.calls_polled (h : (calls.filter fun x ↦ x.handle = handle) = []) :
    (r.polled t calls handle).calls = r.calls := by
  rw [polled, h, List.map_nil, List.append_nil]

theorem Course.Settled.polled (h : r.Settled)
    (hcalls : (calls.filter fun x ↦ x.handle = handle) = []) :
    (r.polled t calls handle).Settled := by
  have hfirst : (r.polled t calls handle).firstPoll = r.firstPoll := by
    cases hlive : r.live with
    | false => rw [firstPoll, Course.polled, hlive, if_neg Bool.false_ne_true, firstPoll]
    | true =>
      obtain ⟨u, hu⟩ := Option.ne_none_iff_exists'.mp (h.2 hlive)
      rw [firstPoll_polled hlive, hu, Option.some_or]
  refine ⟨?_, fun hlive ↦ ?_⟩
  · rw [Once, hfirst, calls_polled hcalls]
    exact h.1
  · rw [hfirst]
    exact h.2 hlive

theorem Course.Settled.deleted (h : r.Once) : r.deleted.Settled := ⟨h, nofun⟩

theorem Stands.polled (h : Stands (some t) a r) (habs : a.alarmInfo.alarmType = .ABS)
    (hdue : r.due = a.alarmInfo.date.due)
    (hcalls : (calls.filter fun x ↦ x.handle = a.handle)
      = callsOf (computeTimeDifference (second t)) a) :
    Stands (some (t + POLL_PERIOD)) (polledOf (computeTimeDifference (second t)) a)
      (r.polled t calls a.handle) := by
  cases h with
  | settled settled quiet =>
    obtain ⟨hnone, hsame⟩ := poll_quiet (d := computeTimeDifference (second t)) habs
      fun harmed ↦ absurd (quiet.symm.trans harmed) Bool.false_ne_true
    rw [hnone] at hcalls
    rw [hsame]
    exact .settled (settled.polled hcalls) quiet
  | pending pending nocalls armed fits timer inTime =>
    obtain rfl := Option.some.inj timer
    have hfirst := Course.firstPoll_polled pending.1 t calls a.handle
    rw [pending.2, Option.none_or] at hfirst
    have hwindow := computeTimeDifference_window fits (second t)
    rw [← hdue] at hwindow
    by_cases hlate : r.due ≤ second t
    · obtain ⟨⟨x, hx⟩, hquiet⟩ := poll_armed habs armed (hwindow.mpr ⟨hlate, inTime⟩)
      rw [if_pos hlate] at hfirst
      rw [hx] at hcalls
      refine .settled ⟨?_, fun _ ↦ hfirst ▸ nofun⟩ hquiet
      rw [Course.Once, hfirst, Course.polled, nocalls, hcalls]
      rfl
    · obtain ⟨hnone, hsame⟩ := poll_quiet habs fun _ hand ↦ hlate (hwindow.mp hand).1
      rw [if_neg hlate] at hfirst
      rw [hnone] at hcalls
      rw [hsame]
      refine .pending ⟨pending.1, hfirst⟩ ((Course.calls_polled hcalls).trans nocalls) armed fits
        rfl ?_
      rw [second_add_period, Course.polled]
      dsimp only
      omega

theorem Followed.polled (h : Followed (some t) a o)
    (hcalls : (calls.filter fun x ↦ x.handle = a.handle)
      = callsOf (computeTimeDifference (second t)) a) :
    Followed (some (t + POLL_PERIOD)) (polledOf (computeTimeDifference (second t)) a)
      (o.map fun r ↦ r.polled t calls a.handle) := by
  cases h with
  | per per => exact .per (alarmType_polledOf.trans_ne per)
  | abs abs due stands =>
    refine .abs (alarmType_polledOf.trans abs) ?_ (stands.polled abs due hcalls)
    rw [alarmInfo_polledOf abs]
    exact due

/-- The timer is started anew while no alarm is due. -/
theorem Followed.restart (h : Followed timer a o)
    (hpending : ∀ r, o = some r → r.Pending → second t < r.due) :
    Followed (some (t + POLL_PERIOD)) a o := by
  cases h with
  | per per => exact .per per
  | abs abs due stands =>
    refine .abs abs due ?_
    cases stands with
    | settled settled quiet => exact .settled settled quiet
    | pending pending nocalls armed fits timer inTime =>
      have hnot := hpending _ rfl pending
      refine .pending pending nocalls armed fits rfl ?_
      rw [second_add_period]
      omega

/-- An alarm gets a date for which the next poll is in time. -/
theorem Followed.start (h : a.armed = true → a.alarmInfo.alarmType = .ABS →
    a.alarmInfo.date.Fits ∧ ∃ next, timer = some next ∧ second next < a.alarmInfo.date.due + 2) :
    Followed timer a (Course.start a) := by
  rw [Course.start]
  split_ifs with habs
  · refine .abs habs rfl ?_
    cases harmed : a.armed with
    | false => exact .settled ⟨rfl, nofun⟩ harmed
    | true =>
      obtain ⟨hfits, next, htimer, hin⟩ := h harmed habs
      exact .pending ⟨rfl, rfl⟩ rfl harmed hfits htimer hin
  · exact .per habs

end Courses

/-- The book of the list in memory, and what is kept of its alarms. -/
structure Kept (s : Timed) (b : AlarmBook) : Prop where
  refines : Refines s.store b
  nodup : b.handles.Nodup
  followed : ∀ a ∈ b.alarms, Followed s.timer a (s.courses a.handle)
  absent : ∀ handle r, handle ∉ b.handles → s.courses handle = some r → r.Settled

section Steps

variable {s s' : Timed} {b : AlarmBook} {t n : ℕ} {handle : UInt32}

theorem handles_eraseP (b : AlarmBook) (handle : UInt32) :
    (b.alarms.eraseP fun a ↦ handle == a.handle).map EspAlarmInfo.handle
      = b.handles.erase handle := by
  rw [List.erase_eq_eraseP, AlarmBook.handles, List.eraseP_map]
  rfl

theorem Kept.once (h : Kept s b) : s.Once := by
  intro handle r hr
  by_cases hmem : handle ∈ b.handles
  · obtain ⟨a, ha, rfl⟩ := List.mem_map.mp hmem
    exact (hr ▸ h.followed a ha).once
  · exact (h.absent handle r hmem hr).1

theorem Kept.poll (h : Kept s b) (hstep : s.poll n = some s') : ∃ b', Kept s' b' := by
  obtain ⟨t, htimer, hbind⟩ := Option.bind_eq_some_iff.mp hstep
  obtain ⟨r, hpoll, rfl⟩ := Option.map_eq_some_iff.mp hbind
  set d := computeTimeDifference (second t) with hd
  have hcall : s.store.call n (.poll fun _ ↦ d) = some (.polled r.1, r.2) :=
    congrArg (Option.map _) hpoll
  obtain ⟨hcalls, hrefines⟩ := (does_poll h.refines fun _ ↦ d).of_call hcall
  obtain ⟨hcalls', halarms⟩ := mapState_pollAlarm d (0, []) b.alarms
  have hr : r.1 = b.alarms.flatMap (callsOf d) := by
    rw [AlarmBook.call, hcalls'] at hcalls
    exact AlarmAnswer.polled.inj hcalls
  have hhandles : ((b.call (.poll fun _ ↦ d)).2).handles = b.handles :=
    handles_mapState (handle_pollAlarm _) _ _
  refine ⟨_, hrefines, hhandles ▸ h.nodup, fun a' ha' ↦ ?_, fun handle course' hmem hcourse' ↦ ?_⟩
  · rw [AlarmBook.call, halarms] at ha'
    obtain ⟨a, ha, rfl⟩ := List.mem_map.mp ha'
    have hfollowed := h.followed a ha
    rw [htimer] at hfollowed
    dsimp only
    rw [handle_polledOf]
    refine hfollowed.polled ?_
    rw [hr]
    exact calls_of_mem h.nodup ha
  · obtain ⟨course, hcourse, rfl⟩ := Option.map_eq_some_iff.mp hcourse'
    rw [hhandles] at hmem
    refine (h.absent handle course hmem hcourse).polled ?_
    rw [hr]
    exact calls_of_notMem hmem

theorem Kept.delete (h : Kept s b) (hstep : s.delete t n handle = some s') :
    ∃ b', Kept s' b' := by
  obtain ⟨r, hdelete, rfl⟩ := Option.map_eq_some_iff.mp hstep
  have hcall : s.store.call n (.delete handle) = some (.reply r.1, r.2) :=
    congrArg (Option.map _) hdelete
  obtain ⟨hanswer, hrefines⟩ := (does_delete h.refines handle).of_call hcall
  rw [AlarmBook.call] at hanswer hrefines
  by_cases hmem : handle ∈ b.handles
  · rw [withHandle_present hmem] at hanswer hrefines
    have hcode : r.1.code = .E_ALARM_OK :=
      congrArg AlarmReply.code (AlarmAnswer.reply.inj hanswer)
    have hhandles := handles_eraseP b handle
    rw [if_pos hcode]
    refine ⟨_, hrefines, ?_, fun a ha ↦ ?_, fun handle' course' hmem' hcourse' ↦ ?_⟩
    · rw [AlarmBook.handles, hhandles]
      exact h.nodup.erase handle
    · have hne : a.handle ≠ handle := by
        have hkept : a.handle ∈ b.handles.erase handle := hhandles ▸ List.mem_map_of_mem ha
        exact (h.nodup.mem_erase_iff.mp hkept).1
      dsimp only
      rw [Function.update_of_ne hne]
      exact h.followed a (List.mem_of_mem_eraseP ha)
    · rw [AlarmBook.handles, hhandles, h.nodup.mem_erase_iff, not_and'] at hmem'
      dsimp only at hcourse'
      by_cases heq : handle' = handle
      · rw [heq, Function.update_self] at hcourse'
        obtain ⟨course, hcourse, rfl⟩ := Option.map_eq_some_iff.mp hcourse'
        exact .deleted (h.once handle course hcourse)
      · rw [Function.update_of_ne heq] at hcourse'
        exact h.absent handle' course' (fun hin ↦ hmem' hin heq) hcourse'
  · rw [withHandle_absent hmem] at hanswer hrefines
    have hcode : r.1.code = .E_ALARM_NOTFOUND :=
      congrArg AlarmReply.code (AlarmAnswer.reply.inj hanswer)
    rw [if_neg (by rw [hcode]; decide)]
    exact ⟨b, hrefines, h.nodup, h.followed, h.absent⟩

theorem Kept.edit (h : Kept s b) {alarmInfo : Entry ℕ EspAlarmInfo}
    (hok : s.OnTime (.edit t n alarmInfo handle)) (hstep : s.edit t n alarmInfo handle = some s') :
    ∃ b', Kept s' b' := by
  obtain ⟨it, hit, hbind⟩ := Option.bind_eq_some_iff.mp hstep
  obtain ⟨r, hedit, rfl⟩ := Option.map_eq_some_iff.mp hbind
  have hcode : r.1.code = .E_ALARM_NOTFOUND := by
    obtain ⟨out, -, rfl⟩ := Option.map_eq_some_iff.mp hedit
    rfl
  have hcall : s.store.call n (.edit alarmInfo handle) = some (.reply r.1, r.2) :=
    congrArg (Option.map _) hedit
  -- the timer is not started anew
  rw [if_neg (by rw [hcode]; decide)]
  obtain ⟨l, hl, hb⟩ := h.refines.list
  rcases findHandle_cases hl hb handle with ⟨habsent, hfind⟩ |
    ⟨l₁, p, a, l₂, rfl, ha, -, hmem, hfind⟩
  · obtain rfl := findHandle_unique hit hfind
    obtain ⟨-, hrefines⟩ := (does_edit_absent h.refines alarmInfo habsent).of_call hcall
    rw [AlarmBook.call, withHandle_absent habsent] at hrefines
    exact ⟨b, hrefines, h.nodup, h.followed, h.absent⟩
  · obtain rfl := findHandle_unique hit hfind
    have hpa : (p, a) ∈ l₁ ++ (p, a) :: l₂ := List.mem_append_right _ List.mem_cons_self
    obtain ⟨next, prev, hentry⟩ := hl.chain.entry_of_mem hpa
    obtain ⟨hlinks, hhandle, hdate⟩ := hok p _ hit hentry
    have hrefines := espAlarmEdit_holds h.refines h.nodup (fun n' p' e hfind' hentry' ↦ by
      obtain rfl := Option.some.inj (findHandle_unique hit hfind')
      obtain rfl := Option.some.inj (hentry.symm.trans hentry')
      exact hlinks) hedit
    have hhandles := handles_change b handle (f := fun _ ↦ alarmInfo.val) fun _ _ ↦ hhandle
    refine ⟨_, hrefines, hhandles ▸ h.nodup, fun a' ha' ↦ ?_, fun handle' course hmem' hcourse ↦ ?_⟩
    · obtain ⟨a₀, ha₀, rfl⟩ := List.mem_map.mp ha'
      dsimp only
      rw [if_pos Option.isSome_some]
      split_ifs with heq
      · rw [hhandle, Function.update_self]
        exact .start hdate
      · rw [Function.update_of_ne heq]
        exact h.followed a₀ ha₀
    · rw [hhandles] at hmem'
      dsimp only at hcourse
      have hne : handle' ≠ handle := fun heq ↦ hmem' (heq ▸ hmem)
      rw [if_pos Option.isSome_some, Function.update_of_ne hne] at hcourse
      exact h.absent handle' course hmem' hcourse

theorem Kept.handle_free (h : Kept s b)
    (hunused : ∀ l, s.store.list.Holds l → ∀ y ∈ l, y.2.handle ≠ s.store.lastHandle) :
    b.nextHandle ∉ b.handles := by
  obtain ⟨l, hl, hb⟩ := h.refines.list
  intro hmem
  rw [AlarmBook.handles, ← hb, List.map_map] at hmem
  obtain ⟨y, hy, heq⟩ := List.mem_map.mp hmem
  exact hunused l hl y hy (heq.trans h.refines.lastHandle.symm)

/-- A function is registered for the latest alarm. -/
theorem refines_registered {c c' : AlarmStore} {a : EspAlarmInfo} {alarms : List EspAlarmInfo}
    {nextHandle : UInt32} {arg : ℕ} {func : Option ℕ} {r : AlarmReply (Entry ℕ EspAlarmInfo)}
    (hc : Refines c ⟨a :: alarms, nextHandle⟩)
    (hnodup : ((a :: alarms).map EspAlarmInfo.handle).Nodup)
    (hregister : espAlarmRegisterTriggerFunc n a.handle c arg func = some (r, c')) :
    Refines c' ⟨{ a with triggerArg := arg, triggerFunc := func } :: alarms, nextHandle⟩ := by
  have hcall : c.call n (.register arg a.handle func) = some (.reply r, c') :=
    congrArg (Option.map _) hregister
  obtain ⟨-, hrefines⟩ := (does_register hc hnodup arg a.handle func).of_call hcall
  rw [AlarmBook.call, withHandle_present List.mem_cons_self, AlarmBook.change, List.map_cons,
    if_pos rfl] at hrefines
  have hothers : (alarms.map fun a' ↦
      if a'.handle = a.handle then { a' with triggerArg := arg, triggerFunc := func } else a')
      = alarms := by
    refine (List.map_congr_left fun a' ha' ↦ if_neg fun heq ↦ ?_).trans (List.map_id _)
    exact (List.nodup_cons.mp hnodup).1 (heq ▸ List.mem_map_of_mem ha')
  rw [hothers] at hrefines
  exact hrefines

/-- The timer is started anew with a new alarm, while no other is due. -/
theorem Kept.added (h : Kept s b) {a : EspAlarmInfo} {store : AlarmStore} {nextHandle : UInt32}
    (hfree : a.handle ∉ b.handles) (hrefines : Refines store ⟨a :: b.alarms, nextHandle⟩)
    (hpending : ∀ handle r, s.courses handle = some r → r.Pending → second t < r.due)
    (hdate : a.alarmInfo.alarmType = .ABS →
      a.alarmInfo.date.Fits ∧ second t < a.alarmInfo.date.due) :
    Kept ⟨store, t, some (t + POLL_PERIOD), Function.update s.courses a.handle (Course.start a)⟩
      ⟨a :: b.alarms, nextHandle⟩ where
  refines := hrefines
  nodup := List.nodup_cons.mpr ⟨hfree, h.nodup⟩
  followed a' ha' := by
    dsimp only at ha' ⊢
    rcases List.mem_cons.mp ha' with rfl | ha'
    · rw [Function.update_self]
      refine .start fun _ habs ↦ ⟨(hdate habs).1, _, rfl, ?_⟩
      rw [second_add_period]
      exact Int.add_lt_add_right (hdate habs).2 2
    · have hmem : a'.handle ∈ b.handles := List.mem_map_of_mem ha'
      rw [Function.update_of_ne (ne_of_mem_of_not_mem hmem hfree)]
      exact (h.followed a' ha').restart fun r hr hp ↦ hpending _ r hr hp
  absent handle r hmem hr := by
    obtain ⟨hne, hmem⟩ : handle ≠ a.handle ∧ handle ∉ b.handles :=
      not_or.mp (List.mem_cons.not.mp hmem)
    dsimp only at hr
    rw [Function.update_of_ne hne] at hr
    exact h.absent handle r hmem hr

theorem Kept.add (h : Kept s b) {x : AddCall} {source : List UInt8} {arg : ℕ} {func : Option ℕ}
    (hok : s.OnTime (.add t n x source arg func)) (hstep : s.add t n x source arg func = some s') :
    ∃ b', Kept s' b' := by
  unfold Timed.add at hstep
  split_ifs at hstep with hlive
  cases hparse : parseAlarm n (fun _ ↦ second t) source with
  | none =>
    rw [hparse] at hstep
    cases hstep
  | some parsed =>
    rw [hparse] at hstep
    dsimp only at hstep
    set x' : AddCall := { x with parseAlarm := parsed } with hx'
    cases hnew : x.newEntry with
    | none =>
      obtain ⟨hhandle, hstore⟩ := espAlarmAdd_newEntry_none (c := s.store) (x := x') hnew
      rw [hhandle] at hstep
      obtain rfl := Option.some.inj hstep
      refine ⟨b, ?_, h.nodup, h.followed, h.absent⟩
      rw [hstore]
      exact h.refines
    | some p =>
      have hfresh : s.store.list.entries p = none := by
        rw [hnew, Option.bind_some, Option.not_isSome_iff_eq_none] at hlive
        exact hlive
      obtain ⟨-, hrefines⟩ := (does_add h.refines (x := x') hnew hfresh).of_call (n := 0) rfl
      have hadd := espAlarmAdd_eq s.store (x := x') hnew
      cases hout : x'.outcome with
      | error code =>
        rw [hout] at hadd
        rw [AlarmBook.call, hout] at hrefines
        rw [hadd.1] at hstep
        obtain rfl := Option.some.inj hstep
        exact ⟨b, hrefines, h.nodup, h.followed, h.absent⟩
      | ok alarm =>
        obtain ⟨hpending, hunused⟩ := hok parsed alarm hparse hout
        rw [hout] at hadd
        have hparsed : parsed = .ok alarm := parseAlarm_of_outcome hout
        have hhandle : (espAlarmAdd x' s.store).1.handle = some b.nextHandle := by
          rw [hadd, h.refines.lastHandle]
        rw [hhandle] at hstep
        obtain ⟨r, hregister, rfl⟩ := Option.map_eq_some_iff.mp hstep
        have hfree : b.nextHandle ∉ b.handles := h.handle_free hunused
        rw [AlarmBook.call, hout] at hrefines
        have hnodup : (b.nextHandle :: b.handles).Nodup := List.nodup_cons.mpr ⟨hfree, h.nodup⟩
        rw [hparsed] at hparse ⊢
        refine ⟨_, h.added hfree (refines_registered hrefines hnodup hregister) hpending ?_⟩
        intro habs
        have hdiff := (parseAlarm_accepts hparse).abs_not_over habs
        exact (diffTime_nonpos (Int.natCast_nonneg _)).mp hdiff

/-! ## Runs -/

theorem kept_init (clock : ℕ) : Kept (.init clock) .init where
  refines := refines_init
  nodup := List.nodup_nil
  followed _ ha := absurd ha List.not_mem_nil
  absent _ _ _ hr := nomatch show none = some _ from hr

theorem Kept.step (h : Kept s b) {op : TimedOp} (hok : s.OnTime op) (hstep : s.step op = some s') :
    ∃ b', Kept s' b' := by
  cases op with
  | add t n x source arg func =>
    rw [Timed.step] at hstep
    split_ifs at hstep
    exact h.add hok hstep
  | edit t n alarmInfo handle =>
    rw [Timed.step] at hstep
    split_ifs at hstep
    exact h.edit hok hstep
  | delete t n handle =>
    rw [Timed.step] at hstep
    split_ifs at hstep
    exact h.delete hstep
  | poll n => exact h.poll hstep

/-- **Every alarm goes off at the first poll from its date on, and at no other.** -/
theorem once_of_run {clock : ℕ} {ops : List TimedOp} {s : Timed}
    (h : Run Timed.step Timed.OnTime (.init clock) ops s) : s.Once := by
  obtain ⟨b, hkept⟩ := h.invariant_exists
    (fun _ _ _ _ hkept hok hstep ↦ hkept.step hok hstep) (kept_init clock)
  exact hkept.once

end Steps

/-- `"ABS 2017-12-16 11:10:03"`. -/
def absBuf : List UInt8 :=
  [65, 66, 83, 32, 50, 48, 49, 55, 45, 49, 50, 45, 49, 54, 32, 49, 49, 58, 49, 48, 58, 48, 51]

/-- A call that adds an alarm with this text, in an entry at address `p`. -/
def absExample (p : ℕ) : AddCall where
  alarmBuf := some absBuf
  handleGiven := true
  tmYear := 117
  newEntry := some p
  parseAlarm := .error .E_ALARM_ARG

/-- The first alarm may be added at any time. -/
theorem onTime_init (clock : ℕ) {t n : ℕ} {x : AddCall} {source : List UInt8} {arg : ℕ}
    {func : Option ℕ} : (Timed.init clock).OnTime (.add t n x source arg func) := by
  refine fun _ _ _ _ ↦ ⟨fun _ _ hr ↦ (nomatch show none = some _ from hr), fun l hl y hy ↦ ?_⟩
  cases l with
  | nil => cases hy
  | cons x l => exact nomatch show none = some _ from hl.chain.1

/-- The alarm is added at 11:10:00, and goes off with the second poll. -/
theorem once_secondPoll : ∃ s, Run Timed.step Timed.OnTime (.init 1513393800000)
    [.add 1513393800000 2 (absExample 1) absBuf 0 (some 7), .poll 2, .poll 2] s ∧ s.Once ∧
    (s.courses 0).map Course.calls = some [1513393804000] := by
  have hrun : Run Timed.step Timed.OnTime (.init 1513393800000)
      [.add 1513393800000 2 (absExample 1) absBuf 0 (some 7), .poll 2, .poll 2] _ :=
    .cons (onTime_init _) rfl <| .cons trivial rfl <| .cons trivial rfl <| .nil _
  exact ⟨_, hrun, once_of_run hrun, rfl⟩

/-- At 11:10:03.5 another alarm is added, and the poll after that comes at 11:10:05.5. -/
theorem not_once_addedWhileDue : ¬∀ ops s, AnyRun Timed.step (.init 1513393800000) ops s →
    s.Once := by
  intro h
  have honce := h [.add 1513393800000 2 (absExample 1) absBuf 0 (some 7), .poll 2,
    .add 1513393803500 3 ⟨some perBuf, true, 117, some 2, .error .E_ALARM_ARG⟩ perBuf 0 (some 7),
    .poll 3] _ (anyRun_of_foldlM rfl) 0 _ rfl
  exact nomatch show [] = [_] from honce

end Ddmz.Alarm
