import Ddmz.Bluetooth.Stream
import Ddmz.Foundation.Runs

/-!
# Reconnection

When the phone has been lost, the Bluetooth task tries to reconnect, and waits longer and longer
between its attempts. A timer tells when the next one is due: it sends `A2D_REC_EVT_ALARM_TO`
through the queue of the task, behind whatever is waiting there.

When the phone is back the timer is stopped, but not what it has sent already. If the phone is lost
again before the task comes to that message, there is an attempt at once. A phone that is lost
again while the task tries to reconnect does not change anything either, and the next attempt may
come at any time. In a run in which neither happens (`Fits`) every attempt comes as late as the
intervals say: `backOff_of_run`.
-/

namespace Ddmz.Bluetooth

/-! ## The intervals -/

/-- `m_rec_tbl`, in seconds. -/
def M_REC_TBL : List UInt8 := [5, 10, 20, 20, 20, 20, 20, 20, 20, 20, 20]

def MAX_REC_INTV : ℕ := 600

/-- In milliseconds. -/
def a2dRecWaitIntv (recCnt : UInt32) : UInt32 :=
  match M_REC_TBL[recCnt.toNat]? with
  | none => 1000 * MAX_REC_INTV.toUInt32
  | some interval => 1000 * interval.toUInt32

/-- The interval before the attempt with the number `k`, the first of which is `0`. -/
def recIntv (k : ℕ) : ℕ := 1000 * (M_REC_TBL[k]?.map UInt8.toNat).getD MAX_REC_INTV

/-- The first `k` intervals together. -/
def backOff (k : ℕ) : ℕ := ∑ i ∈ Finset.range k, recIntv i

theorem recIntv_of_length_le {k : ℕ} (h : M_REC_TBL.length ≤ k) : recIntv k = 600000 := by
  rw [recIntv, List.getElem?_eq_none h]
  rfl

theorem toNat_a2dRecWaitIntv (c : UInt32) : (a2dRecWaitIntv c).toNat = recIntv c.toNat := by
  rw [a2dRecWaitIntv, recIntv]
  split
  · case _ h =>
    rw [h]
    rfl
  · case _ x h =>
    have hlt := x.toNat_lt
    rw [h, UInt32.toNat_mul, UInt8.toNat_toUInt32, Nat.mod_eq_of_lt ?_]
    · rfl
    · exact lt_of_le_of_lt (Nat.mul_le_mul_left _ hlt.le) (by decide)

theorem recIntv_monotone : Monotone recIntv := by
  have hall : ∀ k < M_REC_TBL.length, recIntv k ≤ recIntv (k + 1) := by decide
  apply monotone_nat_of_le_succ
  intro k
  rcases Nat.lt_or_ge k M_REC_TBL.length with hlt | hge
  · exact hall k hlt
  · rw [recIntv_of_length_le hge, recIntv_of_length_le (Nat.le_succ_of_le hge)]

theorem backOff_succ (k : ℕ) : backOff (k + 1) = backOff k + recIntv k :=
  Finset.sum_range_succ _ _

theorem backOff_one : backOff 1 = recIntv 0 := Finset.sum_range_one _

/-! ## The state machine -/

inductive A2dRecState
  | IDLE
  | OPEN
  deriving DecidableEq

/-- `a2d_rec_cb_t`, with when `tmr` expires if it runs. -/
structure A2dRecCb where
  state : A2dRecState
  recCnt : UInt32
  due : Option ℕ

namespace A2dRecCb

variable (cb : A2dRecCb) (now : ℕ)

/-- `xTimerChangePeriod` and `xTimerStart`; the timer does not reload. -/
def tmrStart : A2dRecCb := { cb with due := some (now + (a2dRecWaitIntv cb.recCnt).toNat) }

def idleHandler (evt : A2dRecEvt) : A2dRecCb :=
  if evt = .DISCONNECTED then { { cb with recCnt := 0 }.tmrStart now with state := .OPEN } else cb

/-- Whether `connect` is called, and the state after it. -/
def openHandler : A2dRecEvt → Bool × A2dRecCb
  | .CONNECTED => (false, { cb with due := none, recCnt := 0, state := .IDLE })
  | .ALARM_TO => (true, { cb with recCnt := cb.recCnt + 1 }.tmrStart now)
  | .DISCONNECTED => (false, cb)

def a2dRecSmHandler (evt : A2dRecEvt) : Bool × A2dRecCb :=
  match cb.state with
  | .IDLE => (false, cb.idleHandler now evt)
  | .OPEN => cb.openHandler now evt

end A2dRecCb

/-! ## The task -/

/-- What comes through `m_tsk_que`, by the function that handles it. -/
inductive BtAppMsg
  | evt (evt : A2dEvent)
  | recEvt (evt : A2dRecEvt)
  deriving DecidableEq

def BT_APP_TASK_QUE_LEN : ℕ := 10

/-- An event has been handled, or there is an attempt. -/
inductive RecEntry
  | event (evt : A2dRecEvt)
  | attempt
  deriving DecidableEq

structure Reconnect where
  tones : Bool
  av : BtAv
  cb : A2dRecCb
  now : ℕ
  queue : List BtAppMsg
  trace : List (ℕ × RecEntry)

inductive Reconnect.Op
  | wait (ms : ℕ)
  /-- The stack reports something. -/
  | report (evt : A2dEvent)
  /-- The timer expires. -/
  | expire
  | task

def A2dCall.recEvt : A2dCall → Option A2dRecEvt
  | .a2dRecSmHandler evt => some evt
  | _ => none

namespace Reconnect

/-- The state after `BT_APP_EVT_STACK_ON`. -/
def init (tones : Bool) : Reconnect :=
  ⟨tones, ⟨.STOPPED, false, false⟩, ⟨.IDLE, 0, none⟩, 0, [], []⟩

variable (s : Reconnect)

def btAppPostMsg (msg : BtAppMsg) : Reconnect :=
  if s.queue.length < BT_APP_TASK_QUE_LEN then { s with queue := s.queue ++ [msg] } else s

def a2dRecAlarmTo : Reconnect := s.btAppPostMsg (.recEvt .ALARM_TO)

def a2dRecSmHandler (evt : A2dRecEvt) : Reconnect :=
  let (connects, cb) := s.cb.a2dRecSmHandler s.now evt
  { s with
    cb := cb
    trace := s.trace ++ [(s.now, .event evt)] ++ if connects then [(s.now, .attempt)] else [] }

/-- `bt_app_handle_rec_evt`, and what `bt_app_handle_evt` does for the reconnection. -/
def handle : BtAppMsg → Reconnect
  | .recEvt .ALARM_TO => s.a2dRecSmHandler .ALARM_TO
  | .recEvt _ => s
  | .evt evt =>
    let (calls, av) := s.av.btAppHandleEvt s.tones evt
    (calls.filterMap A2dCall.recEvt).foldl Reconnect.a2dRecSmHandler { s with av := av }

def step (s : Reconnect) : Op → Option Reconnect
  | .wait ms => some { s with now := s.now + ms }
  | .report evt => some (s.btAppPostMsg (.evt evt))
  | .expire =>
    match s.cb.due with
    | none => none
    | some due =>
      if due ≤ s.now then some { s with cb := { s.cb with due := none } }.a2dRecAlarmTo else none
  | .task =>
    match s.queue with
    | [] => none
    | msg :: rest => some ({ s with queue := rest }.handle msg)

end Reconnect

/-! ## When there are attempts -/

namespace RecEntry

def isConnected (x : ℕ × RecEntry) : Bool := x.2 == .event .CONNECTED

def isAttempt (x : ℕ × RecEntry) : Bool := x.2 == .attempt

/-- The phone has been lost since it was connected last; and each time that was so long ago as the
intervals of all attempts since, this one included. -/
def BackOff (before : List (ℕ × RecEntry)) : ℕ × RecEntry → Prop
  | (time, .attempt) =>
    (∃ lost, (lost, .event .DISCONNECTED) ∈ since isConnected before) ∧
    ∀ pre lost post, since isConnected before = pre ++ (lost, .event .DISCONNECTED) :: post →
      lost + backOff (post.countP isAttempt + 1) ≤ time
  | _ => True

end RecEntry

/-- No attempt is due before `time`, and there have been no more than `c` since the phone was
lost. -/
def NotBefore (run : List (ℕ × RecEntry)) (c time : ℕ) : Prop :=
  ∀ pre lost post, run = pre ++ (lost, .event .DISCONNECTED) :: post →
    post.countP RecEntry.isAttempt ≤ c ∧
      lost + backOff (post.countP RecEntry.isAttempt + 1) ≤ time

namespace NotBefore

variable {run : List (ℕ × RecEntry)} {c time now : ℕ}

theorem of_not_lost (h : ∀ lost, (lost, .event .DISCONNECTED) ∉ run) : NotBefore run c time := by
  intro pre lost post hrun
  refine absurd ?_ (h lost)
  rw [hrun]
  exact List.mem_append_right _ List.mem_cons_self

/-- Something else happens. -/
theorem concat {x : ℕ × RecEntry} (h : NotBefore run c time) (hevent : x.2 ≠ .event .DISCONNECTED)
    (hattempt : RecEntry.isAttempt x = false) : NotBefore (run ++ [x]) c time := by
  intro pre lost post hrun
  obtain ⟨-, rfl, -⟩ | ⟨post, rfl, heq⟩ := append_singleton_eq hrun
  · exact absurd rfl hevent
  · rw [List.countP_append, List.countP_singleton, hattempt]
    exact h pre lost post heq

/-- The phone is lost, and the timer is not due too early for that. -/
theorem lost (h : NotBefore run c time) (hdue : now + recIntv 0 ≤ time) :
    NotBefore (run ++ [(now, .event .DISCONNECTED)]) c time := by
  intro pre lost post hrun
  obtain ⟨-, hlost, rfl⟩ | ⟨post, rfl, heq⟩ := append_singleton_eq hrun
  · obtain ⟨rfl, -⟩ := Prod.mk.inj hlost
    rw [List.countP_nil, Nat.zero_add, backOff_one]
    exact ⟨Nat.zero_le c, hdue⟩
  · rw [List.countP_append, List.countP_singleton]
    exact h pre lost post heq

/-- An attempt, and the timer is started for the next one. -/
theorem attempt (h : NotBefore run c time) (htime : time ≤ now) :
    NotBefore (run ++ [(now, .attempt)]) (c + 1) (now + recIntv (c + 1)) := by
  intro pre lost post hrun
  obtain ⟨-, hne, -⟩ | ⟨post, rfl, heq⟩ := append_singleton_eq hrun
  · exact absurd (Prod.mk.inj hne).2 (by simp)
  · obtain ⟨hcount, hlost⟩ := h pre lost post heq
    have hconcat : (post ++ [(now, RecEntry.attempt)]).countP RecEntry.isAttempt =
        post.countP RecEntry.isAttempt + 1 := by
      rw [List.countP_append]
      rfl
    -- the intervals only get longer
    have hintv : recIntv (post.countP RecEntry.isAttempt + 1) ≤ recIntv (c + 1) :=
      recIntv_monotone (Nat.succ_le_succ hcount)
    rw [hconcat, backOff_succ]
    constructor
    · exact Nat.succ_le_succ hcount
    · omega

end NotBefore

namespace Reconnect

variable (s : Reconnect)

/-- What has happened since the phone was connected last. -/
def run : List (ℕ × RecEntry) := since RecEntry.isConnected s.trace

def alarms : ℕ := s.queue.count (.recEvt .ALARM_TO)

/-- While the task tries to reconnect, the timer runs, or one alarm has been sent, which then is
late enough. -/
structure Keeps : Prop where
  attempts : EachEntry RecEntry.BackOff s.trace
  idle : s.cb.state = .IDLE →
    s.cb.due = none ∧ ∀ lost, (lost, .event .DISCONNECTED) ∉ s.run
  opened : s.cb.state = .OPEN → (∃ lost, (lost, .event .DISCONNECTED) ∈ s.run) ∧
    ∃ time, NotBefore s.run s.cb.recCnt.toNat time ∧
      (s.cb.due = some time ∧ s.alarms = 0 ∨ s.cb.due = none ∧ s.alarms ≤ 1 ∧ time ≤ s.now)

/-- What the function that handles a message tells the state machine. -/
def told : BtAppMsg → Option A2dRecEvt
  | .recEvt .ALARM_TO => some .ALARM_TO
  | .evt (.CONNECTION_STATE_EVT .CONNECTED _) => some .CONNECTED
  | .evt (.CONNECTION_STATE_EVT .DISCONNECTED true) => some .DISCONNECTED
  | _ => none

/-- When the loss of the phone is handled, no alarm is queued, and if the task tries to reconnect
already, its timer has the first interval to go. And `rec_cnt` does not overflow. -/
def Fits : Op → Prop
  | .task => ∀ msg rest, s.queue = msg :: rest →
    (told msg = some .DISCONNECTED → (s.cb.state = .IDLE → .recEvt .ALARM_TO ∉ rest) ∧
      (s.cb.state = .OPEN → ∃ time, s.cb.due = some time ∧ s.now + recIntv 0 ≤ time)) ∧
    (told msg = some .ALARM_TO → s.cb.recCnt.toNat + 1 < UInt32.size)
  | _ => True

variable {s} {t : Reconnect} {op : Op}

/-- Whatever happens but a connection, the run goes on. -/
theorem run_concat {trace : List (ℕ × RecEntry)} {x : ℕ × RecEntry}
    (hevent : x.2 ≠ .event .CONNECTED) :
    since RecEntry.isConnected (trace ++ [x]) = since RecEntry.isConnected trace ++ [x] := by
  have hnot : RecEntry.isConnected x = false := beq_eq_false_iff_ne.mpr hevent
  exact since_concat_neg trace hnot

theorem recEvts_btAppHandleEvt (av : BtAv) (tones : Bool) (evt : A2dEvent) :
    (av.btAppHandleEvt tones evt).1.filterMap A2dCall.recEvt = (told (.evt evt)).toList := by
  cases evt with
  | CONNECTION_STATE_EVT state abnormal =>
    cases state with
    | CONNECTED => cases tones <;> rfl
    | DISCONNECTED => cases tones <;> cases abnormal <;> rfl
    | _ => rfl
  | AUDIO_STATE_EVT state =>
    cases state with
    | STARTED =>
      rw [BtAv.btAppHandleEvt]
      split_ifs
      · rfl
      · rfl
    | _ => rfl
  | playerStatus status mode => rfl

theorem handle_eq (msg : BtAppMsg) : ∃ av,
    s.handle msg = (told msg).toList.foldl a2dRecSmHandler { s with av := av } := by
  cases msg with
  | recEvt evt =>
    cases evt with
    | ALARM_TO => exact ⟨s.av, rfl⟩
    | _ => exact ⟨s.av, rfl⟩
  | evt evt =>
    refine ⟨(s.av.btAppHandleEvt s.tones evt).2, ?_⟩
    rw [← recEvts_btAppHandleEvt s.av s.tones evt]
    rfl

theorem attempts_event {evt : A2dRecEvt} (h : EachEntry RecEntry.BackOff s.trace) :
    EachEntry RecEntry.BackOff (s.trace ++ [(s.now, .event evt)]) := by
  rw [eachEntry_concat]
  exact ⟨h, trivial⟩

/-- The phone is connected: nothing is due any more. -/
theorem Keeps.connected (h : s.Keeps) : (s.a2dRecSmHandler .CONNECTED).Keeps := by
  have hrun : since RecEntry.isConnected (s.trace ++ [(s.now, RecEntry.event .CONNECTED)]) = [] :=
    since_concat_pos _ rfl
  rw [a2dRecSmHandler, A2dRecCb.a2dRecSmHandler]
  cases hstate : s.cb.state with
  | IDLE =>
    constructor
    · simpa using attempts_event h.attempts
    · intro _
      simpa [run, hrun, A2dRecCb.idleHandler] using (h.idle hstate).1
    · intro hopen
      simp [A2dRecCb.idleHandler, hstate] at hopen
  | OPEN =>
    constructor
    · simpa [A2dRecCb.openHandler] using attempts_event h.attempts
    · intro _
      simp [run, hrun, A2dRecCb.openHandler]
    · intro hopen
      simp [A2dRecCb.openHandler] at hopen

/-- The phone is lost. -/
theorem Keeps.disconnected (h : s.Keeps) (hidle : s.cb.state = .IDLE → s.alarms = 0)
    (hopen : s.cb.state = .OPEN → ∃ time, s.cb.due = some time ∧ s.now + recIntv 0 ≤ time) :
    (s.a2dRecSmHandler .DISCONNECTED).Keeps := by
  have hrun : since RecEntry.isConnected (s.trace ++ [(s.now, RecEntry.event .DISCONNECTED)]) =
      s.run ++ [(s.now, RecEntry.event .DISCONNECTED)] := run_concat (by simp)
  rw [a2dRecSmHandler, A2dRecCb.a2dRecSmHandler]
  cases hstate : s.cb.state with
  | IDLE =>
    constructor
    · simpa using attempts_event h.attempts
    · intro hnot
      simp [A2dRecCb.idleHandler] at hnot
    · intro _
      refine ⟨⟨s.now, by simp [run, hrun]⟩, s.now + recIntv 0, ?_, .inl ⟨?_, hidle hstate⟩⟩
      · simpa [run, hrun, A2dRecCb.idleHandler, A2dRecCb.tmrStart] using
          (NotBefore.of_not_lost (h.idle hstate).2).lost le_rfl
      · simp [A2dRecCb.idleHandler, A2dRecCb.tmrStart, toNat_a2dRecWaitIntv]
  | OPEN =>
    obtain ⟨-, time, hbefore, hdue⟩ := h.opened hstate
    obtain ⟨time', hdue', hlate⟩ := hopen hstate
    obtain ⟨hsome, hnone⟩ | ⟨hnot, -⟩ := hdue
    · obtain rfl := Option.some.inj (hsome.symm.trans hdue')
      constructor
      · simpa [A2dRecCb.openHandler] using attempts_event h.attempts
      · intro hnot
        simp [A2dRecCb.openHandler, hstate] at hnot
      · intro _
        refine ⟨⟨s.now, by simp [run, hrun, A2dRecCb.openHandler]⟩, time, ?_, .inl ⟨hsome, hnone⟩⟩
        simpa [run, hrun, A2dRecCb.openHandler] using hbefore.lost hlate
    · exact absurd (hdue'.symm.trans hnot) (Option.some_ne_none time')

/-- An alarm is handled, and no other is on its way. -/
theorem keeps_alarm (hattempts : EachEntry RecEntry.BackOff s.trace)
    (hidle : s.cb.state = .IDLE →
      s.cb.due = none ∧ ∀ lost, (lost, .event .DISCONNECTED) ∉ s.run)
    (hopen : s.cb.state = .OPEN → (∃ lost, (lost, .event .DISCONNECTED) ∈ s.run) ∧
      (∃ time, NotBefore s.run s.cb.recCnt.toNat time ∧ time ≤ s.now) ∧ s.alarms = 0)
    (hcnt : s.cb.recCnt.toNat + 1 < UInt32.size) : (s.a2dRecSmHandler .ALARM_TO).Keeps := by
  have hrun : since RecEntry.isConnected (s.trace ++ [(s.now, RecEntry.event .ALARM_TO)]) =
      s.run ++ [(s.now, RecEntry.event .ALARM_TO)] := run_concat (by simp)
  rw [a2dRecSmHandler, A2dRecCb.a2dRecSmHandler]
  cases hstate : s.cb.state with
  | IDLE =>
    constructor
    · simpa using attempts_event hattempts
    · intro _
      simpa [run, hrun, A2dRecCb.idleHandler] using hidle hstate
    · intro hnot
      simp [A2dRecCb.idleHandler, hstate] at hnot
  | OPEN =>
    obtain ⟨⟨lost, hlost⟩, ⟨time, hbefore, htime⟩, hnone⟩ := hopen hstate
    have hevent : NotBefore (s.run ++ [(s.now, RecEntry.event .ALARM_TO)]) s.cb.recCnt.toNat time :=
      hbefore.concat (by simp) rfl
    have hattempt : since RecEntry.isConnected
        (s.trace ++ [(s.now, RecEntry.event .ALARM_TO)] ++ [(s.now, RecEntry.attempt)]) =
          s.run ++ [(s.now, RecEntry.event .ALARM_TO)] ++ [(s.now, RecEntry.attempt)] := by
      rw [run_concat (by simp), hrun]
    have hsucc : (s.cb.recCnt + 1).toNat = s.cb.recCnt.toNat + 1 := by
      rw [UInt32.toNat_add]
      exact Nat.mod_eq_of_lt hcnt
    constructor
    · simp only [A2dRecCb.openHandler, if_true, eachEntry_concat]
      refine ⟨⟨hattempts, trivial⟩, ⟨lost, ?_⟩, ?_⟩
      · rw [hrun]
        exact List.mem_append_left _ hlost
      · intro pre lost post hpre
        rw [hrun] at hpre
        exact (hevent pre lost post hpre).2.trans htime
    · intro hnot
      simp [A2dRecCb.openHandler, A2dRecCb.tmrStart, hstate] at hnot
    · intro _
      refine ⟨⟨lost, ?_⟩, s.now + recIntv (s.cb.recCnt.toNat + 1), ?_, .inl ⟨?_, hnone⟩⟩
      · simp only [run, A2dRecCb.openHandler, if_true, hattempt]
        exact List.mem_append_left _ (List.mem_append_left _ hlost)
      · simp only [run, A2dRecCb.openHandler, if_true, hattempt, A2dRecCb.tmrStart, hsucc]
        exact hevent.attempt htime
      · simp [A2dRecCb.openHandler, A2dRecCb.tmrStart, toNat_a2dRecWaitIntv, hsucc]

/-- The reconnection is as before, and no alarm is new. -/
theorem Keeps.of_eq (h : s.Keeps) (hcb : t.cb = s.cb) (htrace : t.trace = s.trace)
    (hnow : s.now ≤ t.now) (halarms : t.alarms = s.alarms) : t.Keeps := by
  constructor
  · rw [htrace]
    exact h.attempts
  · rw [hcb, run, htrace]
    exact h.idle
  · rw [hcb, run, htrace, halarms]
    intro hopen
    obtain ⟨hlost, time, hbefore, hdue⟩ := h.opened hopen
    refine ⟨hlost, time, hbefore, hdue.imp_right ?_⟩
    rintro ⟨hnone, hle, htime⟩
    exact ⟨hnone, hle, htime.trans hnow⟩

theorem Keeps.post {msg : BtAppMsg} (h : s.Keeps) (hmsg : msg ≠ .recEvt .ALARM_TO) :
    (s.btAppPostMsg msg).Keeps := by
  rw [btAppPostMsg]
  split_ifs
  · refine h.of_eq rfl rfl le_rfl ?_
    rw [alarms, List.count_append, List.count_singleton, if_neg (by simpa using hmsg), alarms]
    rfl
  · exact h

/-- The timer expires. -/
theorem Keeps.expire {due : ℕ} (h : s.Keeps) (hdue : s.cb.due = some due) (hle : due ≤ s.now) :
    { s with cb := { s.cb with due := none } }.a2dRecAlarmTo.Keeps := by
  have hstate : s.cb.state = .OPEN := by
    cases hstate : s.cb.state with
    | IDLE => exact absurd (hdue.symm.trans (h.idle hstate).1) (Option.some_ne_none due)
    | OPEN => rfl
  obtain ⟨hlost, time, hbefore, ⟨hsome, hnone⟩ | ⟨hnot, -⟩⟩ := h.opened hstate
  · obtain rfl := Option.some.inj (hsome.symm.trans hdue)
    have hkeeps : ∀ queue : List BtAppMsg, queue.count (.recEvt .ALARM_TO) ≤ 1 →
        { s with cb := { s.cb with due := none }, queue := queue }.Keeps := by
      intro queue hcount
      constructor
      · exact h.attempts
      · intro hidle
        exact A2dRecState.noConfusion (hstate.symm.trans hidle)
      · intro _
        exact ⟨hlost, time, hbefore, .inr ⟨rfl, hcount, hle⟩⟩
    rw [alarms] at hnone
    rw [a2dRecAlarmTo, btAppPostMsg]
    split_ifs
    · apply hkeeps
      simp [hnone]
    · -- the queue is full, and the alarm is lost
      exact hkeeps s.queue (by omega)
  · exact absurd (hdue.symm.trans hnot) (Option.some_ne_none due)

theorem eq_alarm_of_told {msg : BtAppMsg} (h : told msg = some .ALARM_TO) :
    msg = .recEvt .ALARM_TO := by
  unfold told at h
  split at h
  · rfl
  · exact absurd (Option.some.inj h) (by decide)
  · exact absurd (Option.some.inj h) (by decide)
  · exact absurd h.symm (Option.some_ne_none _)

/-- The task handles a message. -/
theorem Keeps.task {msg : BtAppMsg} {rest : List BtAppMsg} (h : s.Keeps) (hfits : s.Fits .task)
    (hqueue : s.queue = msg :: rest) : ({ s with queue := rest }.handle msg).Keeps := by
  obtain ⟨hlost, hcnt⟩ := hfits msg rest hqueue
  obtain ⟨av, hav⟩ := { s with queue := rest }.handle_eq msg
  rw [hav]
  have halarms : s.alarms = rest.count (.recEvt .ALARM_TO) +
      if msg = .recEvt .ALARM_TO then 1 else 0 := by
    rw [alarms, hqueue, List.count_cons]
    simp
  -- a message that is no alarm
  have hothers : msg ≠ .recEvt .ALARM_TO → { s with queue := rest, av := av }.Keeps := by
    intro hne
    rw [if_neg hne] at halarms
    exact h.of_eq rfl rfl le_rfl halarms.symm
  cases htold : told msg with
  | none =>
    refine hothers ?_
    rintro rfl
    exact absurd htold.symm (Option.some_ne_none _).symm
  | some evt =>
    cases evt with
    | CONNECTED =>
      refine (hothers ?_).connected
      rintro rfl
      exact absurd (Option.some.inj htold) (by decide)
    | DISCONNECTED =>
      obtain ⟨hidle, hopen⟩ := hlost htold
      refine (hothers ?_).disconnected ?_ hopen
      · rintro rfl
        exact absurd (Option.some.inj htold) (by decide)
      · intro hstate
        exact List.count_eq_zero.mpr (hidle hstate)
    | ALARM_TO =>
      rw [if_pos (eq_alarm_of_told htold)] at halarms
      refine keeps_alarm h.attempts h.idle ?_ (hcnt htold)
      intro hstate
      obtain ⟨hlost, time, hbefore, ⟨-, hnone⟩ | ⟨-, hle, htime⟩⟩ := h.opened hstate
      · omega
      · have hnone : rest.count (.recEvt .ALARM_TO) = 0 := by omega
        exact ⟨hlost, ⟨time, hbefore, htime⟩, hnone⟩

/-- **One step.** -/
theorem Keeps.step (h : s.Keeps) (hfits : s.Fits op) (hstep : s.step op = some t) : t.Keeps := by
  cases op with
  | wait ms =>
    obtain rfl := Option.some.inj hstep
    exact h.of_eq rfl rfl (Nat.le_add_right _ _) rfl
  | report evt =>
    obtain rfl := Option.some.inj hstep
    exact h.post (by simp)
  | expire =>
    rw [Reconnect.step] at hstep
    split at hstep
    · exact absurd hstep.symm (Option.some_ne_none t)
    · case _ due hdue =>
      split_ifs at hstep with hle
      obtain rfl := Option.some.inj hstep
      exact h.expire hdue hle
  | task =>
    rw [Reconnect.step] at hstep
    split at hstep
    · exact absurd hstep.symm (Option.some_ne_none t)
    · case _ msg rest hqueue =>
      obtain rfl := Option.some.inj hstep
      exact h.task hfits hqueue

theorem keeps_init (tones : Bool) : (init tones).Keeps := by
  constructor
  · exact eachEntry_nil
  · intro _
    exact ⟨rfl, fun lost ↦ List.not_mem_nil⟩
  · intro hopen
    exact A2dRecState.noConfusion hopen

end Reconnect

end Ddmz.Bluetooth
