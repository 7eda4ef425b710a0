import Ddmz.Alarm.Parser
import Ddmz.Alarm.Store
import Ddmz.Foundation.Runs

/-!
# Alarms that repeat

An alarm that repeats is moved forward by its period when a poll comes in the two seconds after it
is due, and by nothing else. So if the polls miss these two seconds once, because they come late or
because the period is shorter than the time between them, the date stays where it is and the alarm
never goes off again.

`Ahead` says that after each poll the date of the alarm is not more than one second past, and
`ahead_iff` that this is so exactly if no poll comes later than one second after the alarm is due.
The alarm is one that `parseAlarm` has accepted, in a list with any others, and the polls may come
at any times.
-/

namespace Ddmz.Alarm

/-! ## One poll -/

/-- What a poll at the time `now` does to an alarm that repeats. -/
def AlarmT.polled (now : ℤ) (alarm : AlarmT) : AlarmT :=
  if 0 < computeTimeDifference now alarm.date ∧ computeTimeDifference now alarm.date < 3 then
    { alarm with date := alarm.date.plus alarm.pdate }
  else alarm

/-- An alarm that repeats, with a date that `get_Date` can have given it and a period that is not
negative. -/
structure AlarmT.Recurring (alarm : AlarmT) : Prop where
  per : alarm.alarmType = .PER
  date : Date.FieldsLE ⟨2016, 0, 0, 0, 0, 0⟩ alarm.date
  forward : alarm.pdate.Forward

section OnePoll

variable {alarm : AlarmT}

theorem alarmInfo_pollAlarm {info : EspAlarmInfo} (h : info.alarmInfo.alarmType = .PER) (now : ℤ)
    (b : ℕ × List TriggerCall) :
    (pollAlarm (fun _ ↦ computeTimeDifference now) b info).2.alarmInfo
      = info.alarmInfo.polled now := by
  have htrigger : (alarmTrigger (fun _ ↦ computeTimeDifference now) b.1 info).2.2.alarmInfo
      = info.alarmInfo.polled now := by
    have habs : info.alarmInfo.alarmType ≠ .ABS := by rw [h]; decide
    rw [alarmTrigger, AlarmT.polled, if_neg fun hand ↦ habs hand.2]
    by_cases hpos : 0 < computeTimeDifference now info.alarmInfo.date
    · rw [if_pos ⟨hpos, h⟩]
      by_cases hlt : computeTimeDifference now info.alarmInfo.date < 3
      · rw [if_pos hlt, if_pos ⟨hpos, hlt⟩]
        rfl
      · rw [if_neg hlt, if_neg fun hand ↦ hlt hand.2]
    · rw [if_neg fun hand ↦ hpos hand.1, if_neg fun hand ↦ hpos hand.1]
  rw [← htrigger, pollAlarm]
  split
  · split <;> rfl
  · split <;> rfl
  · rfl

theorem AlarmT.Recurring.polled (h : alarm.Recurring) (now : ℤ) : (alarm.polled now).Recurring := by
  rw [AlarmT.polled]
  split_ifs
  · have hplus := h.forward.le_plus alarm.date
    exact ⟨h.per, ⟨h.date.y.trans hplus.y, h.date.m.trans hplus.m, h.date.d.trans hplus.d,
      h.date.h.trans hplus.h, h.date.mi.trans hplus.mi, h.date.s.trans hplus.s⟩, h.forward⟩
  · exact h

/-- The dates of alarms are long after 1970. -/
theorem AlarmT.Recurring.two_le_due (h : alarm.Recurring) : 2 ≤ alarm.date.due :=
  le_trans (by decide) h.date.due_le_due

/-- **A poll keeps an alarm ahead of the clock exactly if it does not come too late for it.** -/
theorem AlarmT.Recurring.ahead_polled (h : alarm.Recurring) (now : ℤ) :
    now - 2 < (alarm.polled now).date.due ↔ now < alarm.date.due + 2 := by
  have hdue := h.two_le_due
  have hplus := Date.due_le_due_plus h.forward alarm.date
  rw [AlarmT.polled]
  split_ifs with hwindow
  · -- the alarm goes off, and what was not too late for the old date is not for the new one
    have hlate : now < alarm.date.due + 2 := by
      by_cases hfits : alarm.date.Fits
      · exact ((computeTimeDifference_window hfits now).mp hwindow).2
      · rw [computeTimeDifference_of_not_fits hfits] at hwindow
        omega
    refine iff_of_true ?_ hlate
    dsimp only
    omega
  · omega

end OnePoll

/-! ## Runs -/

/-- The service, and the time of the last poll. -/
structure Polled where
  store : AlarmStore
  lastPoll : Option ℤ

/-- A poll, with a bound on the number of alarms that it visits. -/
structure Poll where
  rounds : ℕ
  now : ℤ

def pollStep (s : Polled) (a : Poll) : Option Polled :=
  (pollTimerCallback a.rounds s.store fun _ ↦ computeTimeDifference a.now).map
    fun r ↦ ⟨r.2, some a.now⟩

/-- The alarm in the entry `p` is not more than a second late after the last poll. -/
def Ahead (p : ℕ) (s : Polled) : Prop :=
  ∃ e, s.store.list.entries p = some e ∧ ∀ now ∈ s.lastPoll, now - 2 < e.val.alarmInfo.date.due

/-- A poll does not come when the time for which the alarm in the entry `p` goes off is over. -/
def InTime (p : ℕ) (s : Polled) (a : Poll) : Prop :=
  ∀ e, s.store.list.entries p = some e → a.now < e.val.alarmInfo.date.due + 2

/-- There is an alarm that repeats in the entry `p`. -/
structure Repeats (p : ℕ) (s : Polled) (info : EspAlarmInfo) : Prop where
  list : ∃ l, s.store.list.Holds l ∧ (p, info) ∈ l
  recurring : info.alarmInfo.Recurring

section Runs

variable {p : ℕ} {s t : Polled} {a : Poll} {info : EspAlarmInfo}

theorem Repeats.entry (h : Repeats p s info) :
    ∃ e, s.store.list.entries p = some e ∧ e.val = info := by
  obtain ⟨l, hl, hmem⟩ := h.list
  obtain ⟨next, prev, hentry⟩ := hl.chain.entry_of_mem hmem
  exact ⟨_, hentry, rfl⟩

/-- What is known of the alarm from the memory. -/
theorem Repeats.ahead_iff_lastPoll (h : Repeats p s info) :
    Ahead p s ↔ ∀ now ∈ s.lastPoll, now - 2 < info.alarmInfo.date.due := by
  obtain ⟨e, he, rfl⟩ := h.entry
  constructor
  · rintro ⟨e', he', hahead⟩
    obtain rfl := Option.some.inj (he.symm.trans he')
    exact hahead
  · exact fun hahead ↦ ⟨e, he, hahead⟩

theorem Repeats.inTime_iff (h : Repeats p s info) :
    InTime p s a ↔ a.now < info.alarmInfo.date.due + 2 := by
  obtain ⟨e, he, rfl⟩ := h.entry
  constructor
  · exact fun hin ↦ hin e he
  · intro hlt e' he'
    obtain rfl := Option.some.inj (he.symm.trans he')
    exact hlt

/-- A poll leaves the alarm in its entry, and moves it forward if it is time to. -/
theorem Repeats.step (h : Repeats p s info) (hstep : pollStep s a = some t) :
    ∃ info', Repeats p t info' ∧ info'.alarmInfo = info.alarmInfo.polled a.now ∧
      t.lastPoll = some a.now := by
  obtain ⟨r', hpoll, rfl⟩ := Option.map_eq_some_iff.mp hstep
  obtain ⟨l, hl, hmem⟩ := h.list
  obtain ⟨r, -, hunique, -, -, l', hl', hfst, hsnd⟩ :=
    pollTimerCallback_holds hl fun _ ↦ computeTimeDifference a.now
  obtain rfl := hunique _ _ hpoll
  obtain ⟨b, hmem'⟩ := ListMem.mem_of_mapState hfst hsnd hmem
  have hinfo := alarmInfo_pollAlarm h.recurring.per a.now b
  exact ⟨_, ⟨⟨l', hl', hmem'⟩, hinfo ▸ h.recurring.polled a.now⟩, hinfo, rfl⟩

/-- The alarm that `esp_alarm_add` adds is in the list with the others. -/
theorem repeats_added {c : AlarmStore} {b : AlarmBook} {x : AddCall} {n : ℕ} {clock : ℕ → ℤ}
    {source : List UInt8} {alarm : AlarmT} (hc : Refines c b)
    (hfresh : c.list.entries p = none) (hnew : x.newEntry = some p)
    (hparse : parseAlarm n clock source = some x.parseAlarm) (hadd : x.outcome = .ok alarm)
    (hper : alarm.alarmType = .PER) (hforward : alarm.pdate.Forward) :
    Repeats p ⟨(espAlarmAdd x c).2, none⟩ (newAlarm alarm c.lastHandle) := by
  have hok : x.parseAlarm = .ok alarm := parseAlarm_of_outcome hadd
  rw [hok] at hparse
  have haccepts := parseAlarm_accepts hparse
  obtain ⟨l, hl, -⟩ := hc.list
  exact ⟨⟨_, holds_added hl hfresh hnew hadd, List.mem_cons_self⟩, hper,
    haccepts.fieldsLE hforward, hforward⟩

/-- **An alarm that repeats is never left behind exactly if no poll comes too late for it.** -/
theorem ahead_iff {c : AlarmStore} {b : AlarmBook} {x : AddCall} {n : ℕ} {clock : ℕ → ℤ}
    {source : List UInt8} {alarm : AlarmT} {polls : List Poll} (hc : Refines c b)
    (hfresh : c.list.entries p = none) (hnew : x.newEntry = some p)
    (hparse : parseAlarm n clock source = some x.parseAlarm) (hadd : x.outcome = .ok alarm)
    (hper : alarm.alarmType = .PER) (hforward : alarm.pdate.Forward)
    (hrun : AnyRun pollStep ⟨(espAlarmAdd x c).2, none⟩ polls s) :
    Always pollStep (Ahead p) ⟨(espAlarmAdd x c).2, none⟩ polls
      ↔ Run pollStep (InTime p) ⟨(espAlarmAdd x c).2, none⟩ polls s := by
  have hinit := repeats_added hc hfresh hnew hparse hadd hper hforward
  refine Run.always_iff (J := fun s ↦ ∃ info, Repeats p s info) ?_ ?_ hrun ⟨_, hinit⟩
    (hinit.ahead_iff_lastPoll.mpr nofun)
  · rintro s a t ⟨info, h⟩ hstep
    obtain ⟨info', h', -, -⟩ := h.step hstep
    exact ⟨info', h'⟩
  · rintro s a t ⟨info, h⟩ - hstep
    obtain ⟨info', h', hinfo, hlast⟩ := h.step hstep
    have hexact := h.recurring.ahead_polled a.now
    rw [← hinfo] at hexact
    rw [h'.ahead_iff_lastPoll, h.inTime_iff, hlast, ← hexact]
    simp only [Option.mem_some_iff, forall_eq']

end Runs

/-- The service with one alarm, for 16 December 2017, 11:10:07, and every 63 seconds from then. -/
def perExample : Polled := ⟨(espAlarmAdd (addExample 1) .init).2, none⟩

/-- It goes off with the poll at 11:10:08. -/
theorem ahead_perExample :
    Always pollStep (Ahead 1) perExample [⟨2, 1513393806⟩, ⟨2, 1513393808⟩] :=
  (ahead_iff refines_init rfl rfl
    (rfl : parseAlarm 1 (fun _ ↦ 1513393800) perBuf = some (addExample 1).parseAlarm) rfl
    rfl ⟨by decide, by decide, by decide, by decide, by decide, by decide⟩
    (.cons trivial rfl <| .cons trivial rfl <| .nil _)).mpr <|
  .cons (fun e he ↦ by cases he; decide) rfl <|
  .cons (fun e he ↦ by cases he; decide) rfl <| .nil _

/-- Here the poll that comes after 11:10:06 comes at 11:10:09. -/
theorem not_ahead_latePoll : ¬∀ polls s, polls.Pairwise (fun a b ↦ a.now ≤ b.now) →
    AnyRun pollStep perExample polls s → Always pollStep (Ahead 1) perExample polls := by
  intro h
  have hrun : AnyRun pollStep perExample [⟨2, 1513393806⟩, ⟨2, 1513393809⟩] _ :=
    .cons trivial rfl <| .cons trivial rfl <| .nil _
  obtain ⟨e, he, hahead⟩ := h _ _ (by simp) hrun _ [] _ rfl hrun
  cases he
  exact absurd (hahead 1513393809 rfl) (by decide)

end Ddmz.Alarm
