import Ddmz.Alert.Balance
import Ddmz.Foundation.Mutex

/-!
# Handing alerts to the worker threads

`duer_dcs_tone_alert_set_handler` puts an alert into `s_alert_queue` and starts a worker thread if
the queue was empty; a worker takes alerts out of the queue until it finds none. Both look at the
queue under `s_queue_mutex`, and a worker does its work with the mutex given back, so that there
may be several of them.

Here a step is one statement of one thread. Threads can be created and the handler finds memory;
what the calls of a worker return, and whether it finds memory, is part of its steps.

The queue hands over what it takes in in order, `HandOff.Inv.fifo`, and a worker keeps what it has
taken until it has reported on it, `HandOff.Inv.reports`. That no alert is left lying is
`HandOff.Inv.awake`: while there is something in the queue a worker has yet to look at it, or is
about to be created. That no alert is left unreported comes from a measure, `HandOff.weight`: the
threads come to an end, and by then there has been one report on every alert.
-/

namespace Ddmz.Alert

/-! ## The threads -/

inductive Thread
  | handler
  | worker (i : ℕ)
  deriving DecidableEq

/-- Where `duer_dcs_tone_alert_set_handler` is. -/
inductive HandlerPc
  | idle
  /-- The alert has been created, and the mutex is to be taken. -/
  | lock (alert : AlertData)
  | test (alert : AlertData)
  | push (alert : AlertData) (empty : Bool)
  /-- A thread is to be created. -/
  | create
  | unlock

/-- Where `duer_alert_thread` is. -/
inductive WorkerPc
  | absent
  /-- `rs` is not `DUER_OK`, which is to be reported. -/
  | fail (n : ℕ)
  | lock
  | look
  | unlock (alert : Option ℕ)
  | check (alert : Option ℕ)
  /-- The timer is to be set. -/
  | time (n : ℕ)
  | push (n : ℕ)
  | success (n : ℕ)
  | exited

/-- The thread has the mutex. -/
def HandlerPc.inside : HandlerPc → Bool
  | .test _ | .push _ _ | .create | .unlock => true
  | _ => false

/-- The thread has the mutex. -/
def WorkerPc.inside : WorkerPc → Bool
  | .look | .unlock _ => true
  | _ => false

/-- The alert that the thread is at work on. -/
def WorkerPc.held : WorkerPc → Option ℕ
  | .fail n | .time n | .push n | .success n => some n
  | .unlock alert | .check alert => alert
  | _ => none

/-- The thread is alive and has yet to look at the queue. -/
def WorkerPc.yetToLook : WorkerPc → Bool
  | .absent | .exited => false
  | .unlock alert | .check alert => alert.isSome
  | _ => true

/-- What the calls that set the timer of an alert return. -/
structure TimerCalls where
  /-- `duer_dcs_get_time_stamp`, as an `int`. -/
  timeStamp : ℤ
  /-- `duer_ntp_client`, for each of `s_ntp_server_tab`. -/
  ntp : Fin 4 → ℤ
  /-- The time is not behind the current one. -/
  expired : Bool
  /-- `duer_timer_acquire` does not return a null pointer. -/
  handle : Bool
  /-- `duer_timer_start`, where `DUER_OK` is `0`. -/
  start : ℤ

/-- The timer is started. -/
def TimerCalls.succeed (calls : TimerCalls) : Bool :=
  if calls.timeStamp < 0 then false
  else if (List.finRange 4).all fun i ↦ calls.ntp i < 0 then false
  else if calls.expired then false
  else if calls.handle = false then false
  else calls.start = 0

/-! ## The system -/

structure HandOff where
  player : AlertPlayer
  queueMutex : Option Thread
  handler : HandlerPc
  worker : ℕ → WorkerPc
  /-- How many workers have been created. -/
  workers : ℕ
  /-- Which worker has taken which alert. -/
  taken : List (ℕ × ℕ)

inductive HandOffAction
  | call (directive : Option Payload)
  | handler
  | worker (i : ℕ) (calls : TimerCalls) (pushed : Bool)

/-- A directive arrives; the other steps are those of a thread that has begun. -/
def HandOffAction.isCall : HandOffAction → Bool
  | .call _ => true
  | _ => false

/-- What the thread has yet to do, at most. -/
def HandlerPc.weight : HandlerPc → ℕ
  | .idle => 0
  | .unlock => 1
  | .create => 6
  | .push _ _ => 14
  | .test _ => 15
  | .lock _ => 16

/-- What the thread has yet to do, at most, if it finds no alert in the queue again. -/
def WorkerPc.weight : WorkerPc → ℕ
  | .absent | .exited => 0
  | .check none => 1
  | .unlock none => 2
  | .look => 3
  | .lock => 4
  | .success _ | .fail _ => 5
  | .push _ => 6
  | .time _ => 7
  | .check (some _) => 8
  | .unlock (some _) => 9

/-- An alert gets a number, and into the queue. -/
def AlertPlayer.enqueue (s : AlertPlayer) (alert : AlertData) : AlertPlayer :=
  { s.write s.created (some alert) with
    alertQueue := s.alertQueue ++ [s.created]
    created := s.created + 1 }

/-- `duer_dcs_report_alert_event`. -/
def AlertPlayer.reportOn (s : AlertPlayer) (n : ℕ) (event : AlertEvent) : AlertPlayer :=
  s.emit (.report (some n) ((s.data n).map fun alert ↦ alert.alertInfo.token) event)

def AlertPlayer.setStage (s : AlertPlayer) (n : ℕ) (stage : Stage) : AlertPlayer :=
  s.write n ((s.data n).map fun alert ↦ { alert with stage })

namespace HandOff

def init : HandOff := ⟨.init, none, .idle, fun _ ↦ .absent, 0, []⟩

def moveTo (s : HandOff) (i : ℕ) (pc : WorkerPc) : HandOff :=
  { s with worker := Function.update s.worker i pc }

/-- `duer_dcs_tone_alert_set_handler` is called. A directive that is bad, or of which no alert can
be made, is done with at once. -/
def call (s : HandOff) (directive : Option Payload) : HandOff :=
  match directive with
  | none => s
  | some payload =>
    match payload.token, payload.scheduledTime, payload.type with
    | some token, some time, some type =>
      match duerCreateAlertData type time token payload with
      | none => { s with player := s.player.emit (.report none token .SET_ALERT_FAIL) }
      | some alert => { s with handler := .lock alert }
    | _, _, _ => s

def handlerStep (s : HandOff) : Option HandOff :=
  match s.handler with
  | .idle => none
  | .lock alert =>
    if s.queueMutex = none then
      some { s with queueMutex := some .handler, handler := .test alert }
    else none
  | .test alert => some { s with handler := .push alert (s.player.alertQueue = []) }
  | .push alert empty =>
    some { s with
      player := s.player.enqueue alert
      handler := if empty then .create else .unlock }
  | .create =>
    some { s.moveTo s.workers .lock with workers := s.workers + 1, handler := .unlock }
  | .unlock => some { s with queueMutex := none, handler := .idle }

def workerStep (s : HandOff) (i : ℕ) (calls : TimerCalls) (pushed : Bool) : Option HandOff :=
  match s.worker i with
  | .absent => none
  | .fail n =>
    some { s.moveTo i .lock with player := (s.player.reportOn n .SET_ALERT_FAIL).write n none }
  | .lock =>
    if s.queueMutex = none then
      some { s.moveTo i .look with queueMutex := some (.worker i) }
    else none
  | .look =>
    match s.player.alertQueue with
    | [] => some (s.moveTo i (.unlock none))
    | n :: queue =>
      some { s.moveTo i (.unlock (some n)) with
        player := { s.player.setStage n .taken with alertQueue := queue }
        taken := s.taken ++ [(i, n)] }
  | .unlock alert => some { s.moveTo i (.check alert) with queueMutex := none }
  | .check none => some (s.moveTo i .exited)
  | .check (some n) => some (s.moveTo i (.time n))
  | .time n =>
    if calls.succeed then
      some { s.moveTo i (.push n) with player := s.player.setStage n .started }
    else some (s.moveTo i (.fail n))
  | .push n =>
    if pushed then
      some { s.moveTo i (.success n) with
        player := { s.player.setStage n .listed with
          alertList := s.player.alertList ++ [n] } }
    else some (s.moveTo i (.fail n))
  | .success n =>
    some { s.moveTo i .lock with player := s.player.reportOn n .SET_ALERT_SUCCESS }
  | .exited => none

def step (s : HandOff) : HandOffAction → Option HandOff
  | .call directive =>
    match s.handler with
    | .idle => some (s.call directive)
    | _ => none
  | .handler => s.handlerStep
  | .worker i calls pushed => s.workerStep i calls pushed

/-! ## What is invariant -/

/-- The thread has `s_queue_mutex`. -/
def inside (s : HandOff) : Thread → Prop
  | .handler => s.handler.inside
  | .worker i => (s.worker i).inside

/-- How often the setting of the alert has been reported on. -/
def setReports (s : HandOff) (n : ℕ) : ℕ :=
  s.player.reports n .SET_ALERT_SUCCESS + s.player.reports n .SET_ALERT_FAIL

/-- A worker is at work on the alert. -/
def Held (s : HandOff) (n : ℕ) : Prop := ∃ i, (s.worker i).held = some n

/-- A worker has taken the alert, and is done with it. -/
def Processed (s : HandOff) (n : ℕ) : Prop := n ∈ s.taken.map Prod.snd ∧ ¬s.Held n

/-- Only a directive could make something happen. -/
def AtRest (s : HandOff) : Prop := ∀ a t, s.step a = some t → a.isCall = true

/-- What the threads have yet to do, at most. -/
def weight (s : HandOff) : ℕ :=
  s.handler.weight + 7 * s.player.alertQueue.length
    + ∑ i ∈ Finset.range s.workers, (s.worker i).weight

structure Inv (s : HandOff) : Prop where
  guards : Guards s.queueMutex s.inside
  spawned : ∀ i, s.workers ≤ i → s.worker i = .absent
  empty : ∀ alert e, s.handler = .push alert e → (e = true ↔ s.player.alertQueue = [])
  awake : s.player.alertQueue = [] ∨ s.handler = .create ∨ ∃ i, (s.worker i).yetToLook = true
  fifo : s.taken.map Prod.snd ++ s.player.alertQueue = List.range s.player.created
  held : ∀ i n, (s.worker i).held = some n → (i, n) ∈ s.taken
  unreported : ∀ i n, (s.worker i).held = some n → s.setReports n = 0
  reported : ∀ n, ¬s.Held n → s.setReports n = (s.taken.map Prod.snd).count n

theorem inv_init : Inv .init where
  guards := guards_none fun t ↦ by cases t <;> exact Bool.false_ne_true
  spawned _ _ := rfl
  empty := nofun
  awake := .inl rfl
  fifo := rfl
  held := nofun
  unreported := nofun
  reported _ _ := rfl

section Inv

variable {s t : HandOff} {i j n : ℕ} {pc pc' : WorkerPc}

/-- No alert is taken twice. -/
theorem Inv.nodup_taken (h : Inv s) : (s.taken.map Prod.snd).Nodup := by
  have hnodup : (s.taken.map Prod.snd ++ s.player.alertQueue).Nodup := by
    rw [h.fifo]
    exact List.nodup_range
  exact (List.nodup_append.mp hnodup).1

/-- No alert that is in the queue has been taken. -/
theorem Inv.not_taken (h : Inv s) (hn : n ∈ s.player.alertQueue) : n ∉ s.taken.map Prod.snd := by
  have hnodup : (s.taken.map Prod.snd ++ s.player.alertQueue).Nodup := by
    rw [h.fifo]
    exact List.nodup_range
  exact fun hmem ↦ (List.nodup_append.mp hnodup).2.2 n hmem n hn rfl

theorem Inv.taken_inj (h : Inv s) (hi : (i, n) ∈ s.taken) (hj : (j, n) ∈ s.taken) : i = j :=
  (Prod.mk.inj (List.inj_on_of_nodup_map h.nodup_taken hi hj rfl)).1

/-- A worker that has been created is one of those that have been. -/
theorem Inv.lt_workers (h : Inv s) (hpc : s.worker i ≠ .absent) : i < s.workers :=
  Nat.lt_of_not_le fun hle ↦ hpc (h.spawned i hle)

/-! ### Steps of a worker -/

theorem inside_of_ne (hworker : t.worker = Function.update s.worker i pc')
    (hhandler : t.handler = s.handler) (u : Thread) (hu : u ≠ .worker i) :
    t.inside u ↔ s.inside u := by
  cases u with
  | handler => rw [inside, inside, hhandler]
  | worker j =>
    have hj : j ≠ i := fun hj ↦ hu (by rw [hj])
    rw [inside, inside, hworker, Function.update_of_ne hj]

theorem inside_self (hworker : t.worker = Function.update s.worker i pc') :
    t.inside (.worker i) ↔ pc'.inside = true := by
  rw [inside, hworker, Function.update_self]

/-- A step of a worker that goes neither in nor out leaves the mutex alone. -/
theorem Inv.guards_stay (h : Inv s) (hpc : s.worker i = pc)
    (hworker : t.worker = Function.update s.worker i pc') (hhandler : t.handler = s.handler)
    (hinside : pc'.inside = pc.inside) (hmutex : t.queueMutex = s.queueMutex) :
    Guards t.queueMutex t.inside := by
  rw [hmutex]
  refine h.guards.congr fun u ↦ ?_
  by_cases hu : u = .worker i
  · rw [hu, inside_self hworker, inside, hpc, hinside]
  · exact inside_of_ne hworker hhandler u hu

/-- What the worker holds afterwards, and what the others do. -/
theorem held_cases (hworker : t.worker = Function.update s.worker i pc') {m : ℕ}
    (hm : (t.worker j).held = some m) :
    (j = i ∧ pc'.held = some m) ∨ (j ≠ i ∧ (s.worker j).held = some m) := by
  rw [hworker] at hm
  by_cases hj : j = i
  · rw [hj, Function.update_self] at hm
    exact .inl ⟨hj, hm⟩
  · rw [Function.update_of_ne hj] at hm
    exact .inr ⟨hj, hm⟩

theorem Held.of_ne (hworker : t.worker = Function.update s.worker i pc') (hj : j ≠ i) {m : ℕ}
    (hm : (s.worker j).held = some m) : t.Held m :=
  ⟨j, by rwa [hworker, Function.update_of_ne hj]⟩

theorem Held.self (hworker : t.worker = Function.update s.worker i pc') {m : ℕ}
    (hm : pc'.held = some m) : t.Held m :=
  ⟨i, by rwa [hworker, Function.update_self]⟩

/-- While there is something in the queue, the worker that is awake stays so. -/
theorem Inv.awake_stay (h : Inv s) (hpc : s.worker i = pc)
    (hworker : t.worker = Function.update s.worker i pc') (hhandler : t.handler = s.handler)
    (hqueue : s.player.alertQueue = [] → t.player.alertQueue = [])
    (hyet : pc.yetToLook = true → pc'.yetToLook = true ∨ t.player.alertQueue = []) :
    t.player.alertQueue = [] ∨ t.handler = .create ∨ ∃ i, (t.worker i).yetToLook = true := by
  rcases h.awake with hempty | hcreate | ⟨j, hj⟩
  · exact .inl (hqueue hempty)
  · exact .inr (.inl (hhandler.trans hcreate))
  · by_cases hji : j = i
    · rw [hji, hpc] at hj
      rcases hyet hj with hyet' | hempty
      · exact .inr (.inr ⟨i, by rwa [hworker, Function.update_self]⟩)
      · exact .inl hempty
    · exact .inr (.inr ⟨j, by rwa [hworker, Function.update_of_ne hji]⟩)

theorem spawned_stay (h : Inv s) (hpc : s.worker i ≠ .absent)
    (hworker : t.worker = Function.update s.worker i pc') (hworkers : t.workers = s.workers) :
    ∀ j, t.workers ≤ j → t.worker j = .absent := by
  intro j hj
  rw [hworkers] at hj
  have hji : j ≠ i := (Nat.lt_of_lt_of_le (h.lt_workers hpc) hj).ne'
  rw [hworker, Function.update_of_ne hji]
  exact h.spawned j hj

/-- A worker goes on with what it holds. -/
theorem Inv.goOn (h : Inv s) (hpc : s.worker i = pc) (hcreated : pc ≠ .absent)
    (hworker : t.worker = Function.update s.worker i pc') (hhandler : t.handler = s.handler)
    (hworkers : t.workers = s.workers) (htaken : t.taken = s.taken)
    (hqueue : t.player.alertQueue = s.player.alertQueue)
    (hcount : t.player.created = s.player.created) (hreports : ∀ m, t.setReports m = s.setReports m)
    (hguards : Guards t.queueMutex t.inside) (hheld : pc'.held = pc.held)
    (hyet : pc.yetToLook = true → pc'.yetToLook = true ∨ t.player.alertQueue = []) : Inv t where
  guards := hguards
  spawned := spawned_stay h (hpc ▸ hcreated) hworker hworkers
  empty alert e hpush := by
    rw [hqueue]
    exact h.empty alert e (hhandler.symm.trans hpush)
  awake := h.awake_stay hpc hworker hhandler hqueue.trans hyet
  fifo := by rw [htaken, hqueue, hcount, h.fifo]
  held j m hm := by
    rw [htaken]
    rcases held_cases hworker hm with ⟨rfl, hm⟩ | ⟨-, hm⟩
    · exact h.held j m (by rwa [hpc, ← hheld])
    · exact h.held j m hm
  unreported j m hm := by
    rw [hreports]
    rcases held_cases hworker hm with ⟨rfl, hm⟩ | ⟨-, hm⟩
    · exact h.unreported j m (by rwa [hpc, ← hheld])
    · exact h.unreported j m hm
  reported m hm := by
    rw [hreports, htaken]
    refine h.reported m fun ⟨j, hj⟩ ↦ hm ?_
    by_cases hji : j = i
    · exact .self hworker (by rw [hheld, ← hpc, ← hji, hj])
    · exact .of_ne hworker hji hj

/-- A worker goes on, and nothing else happens. -/
theorem Inv.moveTo (h : Inv s) (hpc : s.worker i = pc) (hcreated : pc ≠ .absent)
    (hinside : pc'.inside = pc.inside) (hheld : pc'.held = pc.held)
    (hyet : pc.yetToLook = true → pc'.yetToLook = true ∨ s.player.alertQueue = []) :
    Inv (s.moveTo i pc') :=
  h.goOn hpc hcreated rfl rfl rfl rfl rfl rfl (fun _ ↦ rfl) (h.guards_stay hpc rfl rfl hinside rfl)
    hheld hyet

/-- A worker reports on what it holds. -/
theorem Inv.letGo (h : Inv s) (hpc : s.worker i = pc) (hcreated : pc ≠ .absent)
    (hworker : t.worker = Function.update s.worker i pc') (hhandler : t.handler = s.handler)
    (hworkers : t.workers = s.workers) (htaken : t.taken = s.taken)
    (hqueue : t.player.alertQueue = s.player.alertQueue)
    (hcount : t.player.created = s.player.created)
    (hreports : ∀ m, t.setReports m = s.setReports m + if n = m then 1 else 0)
    (hguards : Guards t.queueMutex t.inside) (hheld : pc.held = some n) (hheld' : pc'.held = none)
    (hyet : pc'.yetToLook = true) : Inv t where
  guards := hguards
  spawned := spawned_stay h (hpc ▸ hcreated) hworker hworkers
  empty alert e hpush := by
    rw [hqueue]
    exact h.empty alert e (hhandler.symm.trans hpush)
  awake := h.awake_stay hpc hworker hhandler hqueue.trans fun _ ↦ .inl hyet
  fifo := by rw [htaken, hqueue, hcount, h.fifo]
  held j m hm := by
    rw [htaken]
    rcases held_cases hworker hm with ⟨-, hm⟩ | ⟨-, hm⟩
    · exact nomatch hheld'.symm.trans hm
    · exact h.held j m hm
  unreported j m hm := by
    rcases held_cases hworker hm with ⟨-, hm⟩ | ⟨hj, hm⟩
    · exact nomatch hheld'.symm.trans hm
    · -- the alert of another worker is another one
      have hnm : n ≠ m := by
        rintro rfl
        exact hj (h.taken_inj (h.held j n hm) (h.held i n (by rw [hpc, hheld])))
      rw [hreports, if_neg hnm, h.unreported j m hm]
  reported m hm := by
    rw [hreports, htaken]
    by_cases hnm : n = m
    · subst hnm
      have hmem : n ∈ s.taken.map Prod.snd :=
        List.mem_map_of_mem (f := Prod.snd) (h.held i n (by rw [hpc, hheld]))
      rw [if_pos rfl, h.unreported i n (by rw [hpc, hheld]),
        List.count_eq_one_of_mem h.nodup_taken hmem]
    · rw [if_neg hnm, Nat.add_zero]
      refine h.reported m fun ⟨j, hj⟩ ↦ hm ?_
      by_cases hji : j = i
      · rw [hji, hpc, hheld] at hj
        exact absurd (Option.some.inj hj) hnm
      · exact .of_ne hworker hji hj

/-- A worker takes the first alert of the queue. -/
theorem Inv.take (h : Inv s) (hpc : s.worker i = .look) {queue : List ℕ}
    (hq : s.player.alertQueue = n :: queue)
    (hworker : t.worker = Function.update s.worker i (.unlock (some n)))
    (hhandler : t.handler = s.handler) (hworkers : t.workers = s.workers)
    (htaken : t.taken = s.taken ++ [(i, n)]) (hqueue : t.player.alertQueue = queue)
    (hcount : t.player.created = s.player.created) (hreports : ∀ m, t.setReports m = s.setReports m)
    (hguards : Guards t.queueMutex t.inside) : Inv t where
  guards := hguards
  spawned := spawned_stay h (hpc ▸ nofun) hworker hworkers
  empty alert e hpush := by
    -- the handler is not inside
    have hinside : s.inside .handler := by
      rw [inside, ← hhandler, hpush]
      rfl
    have hworker' : s.inside (.worker i) := by
      rw [inside, hpc]
      rfl
    cases h.guards.exclusive hinside hworker'
  awake := .inr (.inr ⟨i, by rw [hworker, Function.update_self]; rfl⟩)
  fifo := by
    rw [htaken, hqueue, hcount, List.map_append, List.map_singleton, List.append_assoc,
      List.singleton_append, ← hq, h.fifo]
  held j m hm := by
    rw [htaken]
    rcases held_cases hworker hm with ⟨rfl, hm⟩ | ⟨-, hm⟩
    · cases hm
      exact List.mem_append_right _ (List.mem_singleton_self _)
    · exact List.mem_append_left _ (h.held j m hm)
  unreported j m hm := by
    rw [hreports]
    rcases held_cases hworker hm with ⟨rfl, hm⟩ | ⟨-, hm⟩
    · cases hm
      have hnot : n ∉ s.taken.map Prod.snd := h.not_taken (hq ▸ List.mem_cons_self)
      rw [h.reported n fun ⟨k, hk⟩ ↦ hnot (List.mem_map_of_mem (f := Prod.snd) (h.held k n hk)),
        List.count_eq_zero_of_not_mem hnot]
    · exact h.unreported j m hm
  reported m hm := by
    have hnm : n ≠ m := fun hnm ↦ hm (.self hworker (congrArg some hnm))
    have hm' : ¬s.Held m := by
      rintro ⟨j, hj⟩
      refine hm (.of_ne hworker (fun hji ↦ ?_) hj)
      rw [hji, hpc] at hj
      cases hj
    rw [hreports, htaken, h.reported m hm', List.map_append, List.count_append,
      List.map_singleton, List.count_singleton, if_neg (by simpa using hnm), Nat.add_zero]

theorem setReports_reportOn (s : HandOff) (n m : ℕ) {e : AlertEvent}
    (he : e = .SET_ALERT_SUCCESS ∨ e = .SET_ALERT_FAIL) :
    (s.player.reportOn n e).reports m .SET_ALERT_SUCCESS
        + (s.player.reportOn n e).reports m .SET_ALERT_FAIL
      = s.setReports m + if n = m then 1 else 0 := by
  rw [AlertPlayer.reportOn, AlertPlayer.reports_emit, AlertPlayer.reports_emit,
    AlertPlayer.isReport_report, AlertPlayer.isReport_report, setReports]
  by_cases hnm : n = m
  · rcases he with rfl | rfl
    · simp [hnm, Nat.add_right_comm]
    · simp [hnm, Nat.add_assoc]
  · simp [hnm]

theorem Inv.workerStep (h : Inv s) {calls : TimerCalls} {pushed : Bool}
    (hstep : s.workerStep i calls pushed = some t) : Inv t := by
  rw [HandOff.workerStep] at hstep
  cases hpc : s.worker i with
  | absent =>
    rw [hpc] at hstep
    cases hstep
  | fail n =>
    rw [hpc] at hstep
    cases hstep
    exact h.letGo hpc nofun rfl rfl rfl rfl rfl rfl
      (fun m ↦ setReports_reportOn s n m (.inr rfl)) (h.guards_stay hpc rfl rfl rfl rfl) rfl rfl rfl
  | lock =>
    rw [hpc] at hstep
    obtain ⟨hfree, hstep⟩ := Option.ite_none_right_eq_some.mp hstep
    cases hstep
    have hguards := h.guards
    rw [hfree] at hguards
    refine h.goOn hpc nofun rfl rfl rfl rfl rfl rfl (fun _ ↦ rfl) ?_ rfl fun _ ↦ .inl rfl
    exact hguards.acquire ((inside_self rfl).mpr rfl) (inside_of_ne rfl rfl)
  | look =>
    rw [hpc] at hstep
    cases hq : s.player.alertQueue with
    | nil =>
      rw [hq] at hstep
      cases hstep
      exact h.moveTo hpc nofun rfl rfl fun _ ↦ .inr hq
    | cons n queue =>
      rw [hq] at hstep
      cases hstep
      exact h.take hpc hq rfl rfl rfl rfl rfl rfl (fun _ ↦ rfl) (h.guards_stay hpc rfl rfl rfl rfl)
  | unlock alert =>
    rw [hpc] at hstep
    cases hstep
    refine h.goOn hpc nofun rfl rfl rfl rfl rfl rfl (fun _ ↦ rfl) ?_ rfl .inl
    refine h.guards.release (t := .worker i) ?_ ?_ (inside_of_ne rfl rfl)
    · rw [inside, hpc]
      rfl
    · exact fun hinside ↦ nomatch (inside_self rfl).mp hinside
  | check alert =>
    rw [hpc] at hstep
    cases alert with
    | none =>
      cases hstep
      exact h.moveTo hpc nofun rfl rfl .inl
    | some n =>
      cases hstep
      exact h.moveTo hpc nofun rfl rfl .inl
  | time n =>
    rw [hpc] at hstep
    dsimp only at hstep
    split at hstep
    · cases hstep
      exact h.goOn hpc nofun rfl rfl rfl rfl rfl rfl (fun _ ↦ rfl)
        (h.guards_stay hpc rfl rfl rfl rfl) rfl .inl
    · cases hstep
      exact h.moveTo hpc nofun rfl rfl .inl
  | push n =>
    rw [hpc] at hstep
    dsimp only at hstep
    split at hstep
    · cases hstep
      exact h.goOn hpc nofun rfl rfl rfl rfl rfl rfl (fun _ ↦ rfl)
        (h.guards_stay hpc rfl rfl rfl rfl) rfl .inl
    · cases hstep
      exact h.moveTo hpc nofun rfl rfl .inl
  | success n =>
    rw [hpc] at hstep
    cases hstep
    exact h.letGo hpc nofun rfl rfl rfl rfl rfl rfl
      (fun m ↦ setReports_reportOn s n m (.inl rfl)) (h.guards_stay hpc rfl rfl rfl rfl) rfl rfl rfl
  | exited =>
    rw [hpc] at hstep
    cases hstep

/-! ### Steps of the handler -/

theorem handler_inside_of_ne (hworker : t.worker = s.worker) (u : Thread) (hu : u ≠ .handler) :
    t.inside u ↔ s.inside u := by
  cases u with
  | handler => exact absurd rfl hu
  | worker j => rw [inside, inside, hworker]

theorem Inv.handler_stay (h : Inv s) (hworker : t.worker = s.worker)
    (hinside : t.handler.inside = s.handler.inside) (hmutex : t.queueMutex = s.queueMutex) :
    Guards t.queueMutex t.inside := by
  rw [hmutex]
  refine h.guards.congr fun u ↦ ?_
  by_cases hu : u = .handler
  · rw [hu, inside, inside, hinside]
  · exact handler_inside_of_ne hworker u hu

/-- The handler goes on, and leaves the queue and the workers alone. -/
theorem Inv.handlerOn (h : Inv s) (hworker : t.worker = s.worker) (hworkers : t.workers = s.workers)
    (htaken : t.taken = s.taken) (hqueue : t.player.alertQueue = s.player.alertQueue)
    (hcount : t.player.created = s.player.created) (hreports : ∀ m, t.setReports m = s.setReports m)
    (hguards : Guards t.queueMutex t.inside) (hcreate : s.handler ≠ .create)
    (hempty : ∀ alert e, t.handler = .push alert e → (e = true ↔ s.player.alertQueue = [])) :
    Inv t where
  guards := hguards
  spawned := by
    rw [hworker, hworkers]
    exact h.spawned
  empty := by
    rw [hqueue]
    exact hempty
  awake := by
    rw [hqueue, hworker]
    rcases h.awake with hempty | hcreate' | hawake
    · exact .inl hempty
    · exact absurd hcreate' hcreate
    · exact .inr (.inr hawake)
  fifo := by rw [htaken, hqueue, hcount, h.fifo]
  held := by
    rw [hworker, htaken]
    exact h.held
  unreported j m hm := by
    rw [hreports]
    exact h.unreported j m (by rwa [← hworker])
  reported m hm := by
    rw [hreports, htaken]
    exact h.reported m fun ⟨j, hj⟩ ↦ hm ⟨j, by rwa [hworker]⟩

/-- The alert that the handler has created gets into the queue, while it is inside. -/
theorem Inv.push (h : Inv s) {alert : AlertData} {empty : Bool}
    (hpc : s.handler = .push alert empty) :
    Inv { s with
      player := s.player.enqueue alert
      handler := if empty then .create else .unlock } where
  guards := by
    refine h.handler_stay rfl ?_ rfl
    rw [hpc]
    cases empty <;> rfl
  spawned := h.spawned
  empty alert' e hpush := by
    cases empty <;> cases hpush
  awake := by
    cases empty with
    | true => exact .inr (.inl rfl)
    | false =>
      -- the queue was not empty, and so a worker was awake
      rcases h.awake with hempty | hcreate | hawake
      · exact nomatch (h.empty alert false hpc).mpr hempty
      · exact nomatch hpc.symm.trans hcreate
      · exact .inr (.inr hawake)
  fifo := by
    rw [AlertPlayer.enqueue, List.range_succ, ← h.fifo, List.append_assoc]
  held := h.held
  unreported := h.unreported
  reported := h.reported

/-- A worker is created. -/
theorem Inv.create (h : Inv s) (hpc : s.handler = .create)
    (hworker : t.worker = Function.update s.worker s.workers .lock)
    (hworkers : t.workers = s.workers + 1) (hhandler : t.handler = .unlock)
    (htaken : t.taken = s.taken) (hplayer : t.player = s.player)
    (hmutex : t.queueMutex = s.queueMutex) : Inv t where
  guards := by
    rw [hmutex]
    refine h.guards.congr fun u ↦ ?_
    cases u with
    | handler => rw [inside, inside, hpc, hhandler]; rfl
    | worker j =>
      by_cases hj : j = s.workers
      · rw [hj, inside_self hworker, inside, h.spawned _ le_rfl]
        rfl
      · rw [inside, inside, hworker, Function.update_of_ne hj]
  spawned j hj := by
    rw [hworkers] at hj
    have hne : j ≠ s.workers := (Nat.lt_of_succ_le hj).ne'
    rw [hworker, Function.update_of_ne hne]
    exact h.spawned j (Nat.le_of_succ_le hj)
  empty alert e hpush := nomatch hhandler.symm.trans hpush
  awake := .inr (.inr ⟨s.workers, by rw [hworker, Function.update_self]; rfl⟩)
  fifo := by
    rw [htaken, hplayer]
    exact h.fifo
  held j m hm := by
    rw [htaken]
    rcases held_cases hworker hm with ⟨-, hm⟩ | ⟨-, hm⟩
    · cases hm
    · exact h.held j m hm
  unreported j m hm := by
    rw [setReports, hplayer]
    rcases held_cases hworker hm with ⟨-, hm⟩ | ⟨-, hm⟩
    · cases hm
    · exact h.unreported j m hm
  reported m hm := by
    rw [setReports, hplayer, htaken]
    refine h.reported m fun ⟨j, hj⟩ ↦ hm (.of_ne hworker (fun hji ↦ ?_) hj)
    rw [hji, h.spawned _ le_rfl] at hj
    cases hj

theorem Inv.handlerStep (h : Inv s) (hstep : s.handlerStep = some t) : Inv t := by
  rw [HandOff.handlerStep] at hstep
  cases hpc : s.handler with
  | idle =>
    rw [hpc] at hstep
    cases hstep
  | lock alert =>
    rw [hpc] at hstep
    obtain ⟨hfree, hstep⟩ := Option.ite_none_right_eq_some.mp hstep
    cases hstep
    have hguards := h.guards
    rw [hfree] at hguards
    refine h.handlerOn rfl rfl rfl rfl rfl (fun _ ↦ rfl) ?_ (hpc ▸ nofun) nofun
    refine hguards.acquire (t := .handler) ?_ fun u hu ↦ ?_
    · rfl
    · refine handler_inside_of_ne ?_ u hu
      rfl
  | test alert =>
    rw [hpc] at hstep
    cases hstep
    refine h.handlerOn rfl rfl rfl rfl rfl (fun _ ↦ rfl) ?_ (hpc ▸ nofun) ?_
    · exact h.handler_stay rfl (by rw [hpc]; rfl) rfl
    · rintro _ _ ⟨⟩
      exact decide_eq_true_iff
  | push alert empty =>
    rw [hpc] at hstep
    cases hstep
    exact h.push hpc
  | create =>
    rw [hpc] at hstep
    cases hstep
    exact h.create hpc rfl rfl rfl rfl rfl rfl
  | unlock =>
    rw [hpc] at hstep
    cases hstep
    refine h.handlerOn rfl rfl rfl rfl rfl (fun _ ↦ rfl) ?_ (hpc ▸ nofun) nofun
    refine h.guards.release (t := .handler) ?_ Bool.false_ne_true fun u hu ↦ ?_
    · rw [inside, hpc]
      rfl
    · refine handler_inside_of_ne ?_ u hu
      rfl

/-- A directive is done with, or an alert has been created; in the end it is what the handler does
when nothing comes between. -/
theorem call_cases (s : HandOff) (directive : Option Payload) :
    (∃ player, (s.player.duerDcsToneAlertSetHandler directive).2 = player ∧
      s.call directive = { s with player } ∧ (player = s.player ∨
        ∃ token, player = s.player.emit (.report none token .SET_ALERT_FAIL))) ∨
      ∃ alert, (s.player.duerDcsToneAlertSetHandler directive).2 = s.player.enqueue alert ∧
        s.call directive = { s with handler := .lock alert } := by
  cases directive with
  | none => exact .inl ⟨_, rfl, rfl, .inl rfl⟩
  | some payload =>
    obtain ⟨token, time, type, playOrder, loopCount, assets⟩ := payload
    cases token with
    | none => exact .inl ⟨_, rfl, rfl, .inl rfl⟩
    | some token =>
      cases time with
      | none => exact .inl ⟨_, rfl, rfl, .inl rfl⟩
      | some time =>
        cases type with
        | none => exact .inl ⟨_, rfl, rfl, .inl rfl⟩
        | some type =>
          rw [call, AlertPlayer.duerDcsToneAlertSetHandler]
          dsimp only
          cases duerCreateAlertData type time token
              ⟨some token, some time, some type, playOrder, loopCount, assets⟩ with
          | none => exact .inl ⟨_, rfl, rfl, .inr ⟨token, rfl⟩⟩
          | some alert => exact .inr ⟨alert, rfl, rfl⟩

theorem Inv.call (h : Inv s) (hpc : s.handler = .idle) (directive : Option Payload) :
    Inv (s.call directive) := by
  rcases s.call_cases directive with ⟨player, -, heq, rfl | ⟨token, rfl⟩⟩ | ⟨alert, -, heq⟩
  · rwa [heq]
  · rw [heq]
    refine h.handlerOn rfl rfl rfl rfl rfl (fun m ↦ ?_) (h.handler_stay rfl rfl rfl)
      (hpc ▸ nofun) ?_
    · rw [setReports, AlertPlayer.reports_emit, AlertPlayer.reports_emit]
      rfl
    · exact fun alert e hpush ↦ nomatch hpc.symm.trans hpush
  · rw [heq]
    exact h.handlerOn rfl rfl rfl rfl rfl (fun _ ↦ rfl)
      (h.handler_stay rfl (by rw [hpc]; rfl) rfl) (hpc ▸ nofun) nofun

/-- When nothing comes between, the steps of the handler are the handler. -/
theorem handler_alone (hpc : s.handler = .idle) (hfree : s.queueMutex = none)
    (directive : Option Payload) : ∃ as t, AnyRun HandOff.step s (.call directive :: as) t ∧
      t.handler = .idle ∧ t.queueMutex = none ∧
      t.player = (s.player.duerDcsToneAlertSetHandler directive).2 := by
  have hcall : s.step (.call directive) = some (s.call directive) := by rw [HandOff.step, hpc]
  rcases s.call_cases directive with ⟨player, hset, heq, -⟩ | ⟨alert, hset, heq⟩
  · rw [heq] at hcall
    exact ⟨[], _, .cons trivial hcall (.nil _), hpc, hfree, hset.symm⟩
  · rw [heq] at hcall
    have hlock : HandOff.step { s with handler := .lock alert } .handler
        = some { s with queueMutex := some .handler, handler := .test alert } := if_pos hfree
    have hpush (empty : Bool) : ∃ as t, AnyRun HandOff.step
        { s with queueMutex := some .handler, handler := .push alert empty } as t ∧
        t.handler = .idle ∧ t.queueMutex = none ∧ t.player = s.player.enqueue alert := by
      cases empty with
      | true =>
        exact ⟨[.handler, .handler, .handler], _, anyRun_of_foldlM rfl, rfl, rfl, rfl⟩
      | false =>
        exact ⟨[.handler, .handler], _, .cons trivial rfl <| .cons trivial rfl <| .nil _,
          rfl, rfl, rfl⟩
    obtain ⟨as, t, hrun, hidle, hmutex, hplayer⟩ := hpush (s.player.alertQueue = [])
    exact ⟨.handler :: .handler :: as, t, .cons trivial hcall <| .cons trivial hlock <|
      .cons trivial rfl hrun, hidle, hmutex, hplayer.trans hset.symm⟩

theorem Inv.step (h : Inv s) {a : HandOffAction} (hstep : s.step a = some t) : Inv t := by
  cases a with
  | call directive =>
    rw [HandOff.step] at hstep
    cases hpc : s.handler with
    | idle =>
      rw [hpc] at hstep
      cases hstep
      exact h.call hpc directive
    | lock _ | test _ | push _ _ | create | unlock =>
      rw [hpc] at hstep
      cases hstep
  | handler => exact h.handlerStep hstep
  | worker i calls pushed => exact h.workerStep hstep

theorem inv_of_run {as : List HandOffAction} (hrun : AnyRun HandOff.step .init as s) : Inv s :=
  hrun.invariant (fun _ _ _ h _ hstep ↦ h.step hstep) inv_init

/-! ## The threads come to an end -/

/-- A thread can go on, unless it waits for the mutex. -/
theorem handler_goesOn (hidle : s.handler ≠ .idle)
    (hlock : (∃ alert, s.handler = .lock alert) → s.queueMutex = none) :
    ∃ t, s.step .handler = some t := by
  rw [HandOff.step, HandOff.handlerStep]
  cases hpc : s.handler with
  | idle => exact absurd hpc hidle
  | lock alert => exact ⟨_, if_pos (hlock ⟨alert, hpc⟩)⟩
  | test _ | push _ _ | create | unlock => exact ⟨_, rfl⟩

theorem worker_goesOn (hpc : s.worker i = pc) (habsent : pc ≠ .absent) (hexited : pc ≠ .exited)
    (hlock : pc = .lock → s.queueMutex = none) (calls : TimerCalls) (pushed : Bool) :
    ∃ t, s.step (.worker i calls pushed) = some t := by
  rw [HandOff.step, HandOff.workerStep, hpc]
  cases pc with
  | absent => exact absurd rfl habsent
  | exited => exact absurd rfl hexited
  | lock => exact ⟨_, if_pos (hlock rfl)⟩
  | look => cases s.player.alertQueue <;> exact ⟨_, rfl⟩
  | check alert => cases alert <;> exact ⟨_, rfl⟩
  | time _ => cases calls.succeed <;> exact ⟨_, rfl⟩
  | push _ => cases pushed <;> exact ⟨_, rfl⟩
  | fail _ | unlock _ | success _ => exact ⟨_, rfl⟩

/-- Without the mutex no thread waits for it. -/
theorem Inv.free_of_atRest (h : Inv s) (hrest : s.AtRest) : s.queueMutex = none := by
  cases howner : s.queueMutex with
  | none => rfl
  | some u =>
    have hinside : s.inside u := (h.guards u).mpr howner
    cases u with
    | handler =>
      rw [inside] at hinside
      obtain ⟨t, hstep⟩ := handler_goesOn (s := s)
        (fun hidle ↦ by rw [hidle] at hinside; cases hinside)
        (fun ⟨alert, hlock⟩ ↦ by rw [hlock] at hinside; cases hinside)
      exact nomatch hrest _ t hstep
    | worker i =>
      rw [inside] at hinside
      obtain ⟨t, hstep⟩ := worker_goesOn (s := s) (i := i) rfl
        (fun habsent ↦ by rw [habsent] at hinside; cases hinside)
        (fun hexited ↦ by rw [hexited] at hinside; cases hinside)
        (fun hlock ↦ by rw [hlock] at hinside; cases hinside) ⟨0, fun _ ↦ 0, false, true, 0⟩ true
      exact nomatch hrest _ t hstep

theorem Inv.idle_of_atRest (h : Inv s) (hrest : s.AtRest) : s.handler = .idle := by
  by_contra hidle
  obtain ⟨t, hstep⟩ := handler_goesOn hidle fun _ ↦ h.free_of_atRest hrest
  exact nomatch hrest _ t hstep

theorem Inv.exited_of_atRest (h : Inv s) (hrest : s.AtRest) (i : ℕ) :
    s.worker i = .absent ∨ s.worker i = .exited := by
  by_contra hpc
  obtain ⟨habsent, hexited⟩ := not_or.mp hpc
  obtain ⟨t, hstep⟩ := worker_goesOn rfl habsent hexited (fun _ ↦ h.free_of_atRest hrest)
    ⟨0, fun _ ↦ 0, false, true, 0⟩ true
  exact nomatch hrest _ t hstep

/-- When the threads have come to an end, every alert has been processed. -/
theorem Inv.processed_of_atRest (h : Inv s) (hrest : s.AtRest) (hn : n < s.player.created) :
    s.Processed n := by
  have hqueue : s.player.alertQueue = [] := by
    rcases h.awake with hempty | hcreate | ⟨i, hi⟩
    · exact hempty
    · exact nomatch hcreate.symm.trans (h.idle_of_atRest hrest)
    · rcases h.exited_of_atRest hrest i with hpc | hpc <;> · rw [hpc] at hi; cases hi
  constructor
  · have hfifo := h.fifo
    rw [hqueue, List.append_nil] at hfifo
    rw [hfifo]
    exact List.mem_range.mpr hn
  · rintro ⟨i, hi⟩
    rcases h.exited_of_atRest hrest i with hpc | hpc <;> · rw [hpc] at hi; cases hi

/-- A worker goes on, and the queue stays as it is. -/
theorem weight_goOn (h : Inv s) (hpc : s.worker i = pc) (hcreated : pc ≠ .absent)
    (hworker : t.worker = Function.update s.worker i pc') (hworkers : t.workers = s.workers)
    (hhandler : t.handler = s.handler) (hqueue : t.player.alertQueue = s.player.alertQueue)
    (hlower : pc'.weight < pc.weight) : t.weight < s.weight := by
  have hsum := sum_update_add s.worker WorkerPc.weight (h.lt_workers (hpc ▸ hcreated)) pc'
  rw [hpc] at hsum
  rw [weight, weight, hworker, hworkers, hhandler, hqueue]
  omega

/-- An alert that is taken weighs less than in the queue. -/
theorem weight_take (h : Inv s) (hpc : s.worker i = .look) {queue : List ℕ}
    (hq : s.player.alertQueue = n :: queue)
    (hworker : t.worker = Function.update s.worker i (.unlock (some n)))
    (hworkers : t.workers = s.workers) (hhandler : t.handler = s.handler)
    (hqueue : t.player.alertQueue = queue) : t.weight < s.weight := by
  have hcreated : s.worker i ≠ .absent := by
    rw [hpc]
    nofun
  have hsum := sum_update_add s.worker WorkerPc.weight (h.lt_workers hcreated) (.unlock (some n))
  rw [hpc, WorkerPc.weight, WorkerPc.weight] at hsum
  rw [weight, weight, hworker, hworkers, hhandler, hqueue, hq, List.length_cons]
  omega

theorem Inv.weight_workerStep (h : Inv s) {calls : TimerCalls} {pushed : Bool}
    (hstep : s.workerStep i calls pushed = some t) : t.weight < s.weight := by
  rw [HandOff.workerStep] at hstep
  cases hpc : s.worker i with
  | absent | exited =>
    rw [hpc] at hstep
    cases hstep
  | lock =>
    rw [hpc] at hstep
    obtain ⟨-, hstep⟩ := Option.ite_none_right_eq_some.mp hstep
    cases hstep
    exact weight_goOn h hpc nofun rfl rfl rfl rfl (by decide : 3 < 4)
  | look =>
    rw [hpc] at hstep
    cases hq : s.player.alertQueue with
    | nil =>
      rw [hq] at hstep
      cases hstep
      exact weight_goOn h hpc nofun rfl rfl rfl rfl (by decide : 2 < 3)
    | cons n queue =>
      rw [hq] at hstep
      cases hstep
      exact weight_take h hpc hq rfl rfl rfl rfl
  | unlock alert =>
    rw [hpc] at hstep
    cases hstep
    cases alert with
    | none => exact weight_goOn h hpc nofun rfl rfl rfl rfl (by decide : 1 < 2)
    | some n => exact weight_goOn h hpc nofun rfl rfl rfl rfl (by decide : 8 < 9)
  | check alert =>
    rw [hpc] at hstep
    cases alert with
    | none =>
      cases hstep
      exact weight_goOn h hpc nofun rfl rfl rfl rfl (by decide : 0 < 1)
    | some n =>
      cases hstep
      exact weight_goOn h hpc nofun rfl rfl rfl rfl (by decide : 7 < 8)
  | time n =>
    rw [hpc] at hstep
    dsimp only at hstep
    split at hstep
    · cases hstep
      exact weight_goOn h hpc nofun rfl rfl rfl rfl (by decide : 6 < 7)
    · cases hstep
      exact weight_goOn h hpc nofun rfl rfl rfl rfl (by decide : 5 < 7)
  | push n =>
    rw [hpc] at hstep
    dsimp only at hstep
    split at hstep <;> cases hstep <;>
      exact weight_goOn h hpc nofun rfl rfl rfl rfl (by decide : 5 < 6)
  | fail n | success n =>
    rw [hpc] at hstep
    cases hstep
    exact weight_goOn h hpc nofun rfl rfl rfl rfl (by decide : 4 < 5)

/-- The handler goes on, and the queue stays as it is. -/
theorem weight_handlerOn {pc pc' : HandlerPc} (hpc : s.handler = pc) (hhandler : t.handler = pc')
    (hworker : t.worker = s.worker) (hworkers : t.workers = s.workers)
    (hqueue : t.player.alertQueue = s.player.alertQueue) (hlower : pc'.weight < pc.weight) :
    t.weight < s.weight := by
  rw [weight, weight, hworker, hworkers, hhandler, hqueue, hpc]
  omega

/-- A new worker weighs less than its creation. -/
theorem weight_create (hpc : s.handler = .create) (hhandler : t.handler = .unlock)
    (hworker : t.worker = Function.update s.worker s.workers .lock)
    (hworkers : t.workers = s.workers + 1) (hqueue : t.player.alertQueue = s.player.alertQueue) :
    t.weight < s.weight := by
  have hsum : ∑ j ∈ Finset.range s.workers, (Function.update s.worker s.workers .lock j).weight
      = ∑ j ∈ Finset.range s.workers, (s.worker j).weight :=
    Finset.sum_congr rfl fun j hj ↦ by rw [Function.update_of_ne (Finset.mem_range.mp hj).ne]
  rw [weight, weight, hworker, hworkers, hhandler, hqueue, hpc, Finset.sum_range_succ,
    Function.update_self, hsum, WorkerPc.weight, HandlerPc.weight, HandlerPc.weight]
  omega

theorem weight_handlerStep (hstep : s.handlerStep = some t) : t.weight < s.weight := by
  rw [HandOff.handlerStep] at hstep
  cases hpc : s.handler with
  | idle =>
    rw [hpc] at hstep
    cases hstep
  | lock alert =>
    rw [hpc] at hstep
    obtain ⟨-, hstep⟩ := Option.ite_none_right_eq_some.mp hstep
    cases hstep
    exact weight_handlerOn hpc rfl rfl rfl rfl (by decide : 15 < 16)
  | test alert =>
    rw [hpc] at hstep
    cases hstep
    exact weight_handlerOn hpc rfl rfl rfl rfl (by decide : 14 < 15)
  | push alert empty =>
    rw [hpc] at hstep
    cases hstep
    have hlength : (s.player.enqueue alert).alertQueue.length = s.player.alertQueue.length + 1 :=
      List.length_append
    rw [weight, weight, hpc]
    dsimp only
    rw [hlength]
    cases empty with
    | true =>
      rw [if_pos rfl, HandlerPc.weight, HandlerPc.weight]
      omega
    | false =>
      rw [if_neg Bool.false_ne_true, HandlerPc.weight, HandlerPc.weight]
      omega
  | create =>
    rw [hpc] at hstep
    cases hstep
    exact weight_create hpc rfl rfl rfl rfl
  | unlock =>
    rw [hpc] at hstep
    cases hstep
    exact weight_handlerOn hpc rfl rfl rfl rfl (by decide : 0 < 1)

theorem Inv.weight_step (h : Inv s) {a : HandOffAction} (ha : a.isCall = false)
    (hstep : s.step a = some t) : t.weight < s.weight := by
  cases a with
  | call directive => cases ha
  | handler => exact weight_handlerStep hstep
  | worker i calls pushed => exact h.weight_workerStep hstep

end Inv

/-! ## What the queue is for -/

/-- Every alert that has been accepted is handed to one worker, and reported on once. -/
structure Delivers (s : HandOff) : Prop where
  awake : s.queueMutex = none → s.player.alertQueue ≠ [] → ∃ i, (s.worker i).yetToLook = true
  once : (s.taken.map Prod.snd).Nodup
  waiting : ∀ n ∈ s.player.alertQueue, n ∉ s.taken.map Prod.snd
  reported : ∀ n, s.Processed n → s.setReports n = 1
  unreported : ∀ n, ¬s.Processed n → s.setReports n = 0
  /-- Without further directives the threads come to an end. -/
  ends : ∃ k, ∀ bs t, Run step (fun _ a ↦ a.isCall = false) s bs t → bs.length ≤ k
  /-- And then every alert has been processed. -/
  processed : s.AtRest → ∀ n < s.player.created, s.Processed n

theorem Inv.delivers {s : HandOff} (h : Inv s) : Delivers s where
  awake hfree hqueue := by
    rcases h.awake with hempty | hcreate | hawake
    · exact absurd hempty hqueue
    · -- the handler has the mutex
      have hinside : s.inside .handler := by
        rw [inside, hcreate]
        rfl
      exact nomatch hfree.symm.trans ((h.guards _).mp hinside)
    · exact hawake
  once := h.nodup_taken
  waiting _ hn := h.not_taken hn
  reported n hn := by rw [h.reported n hn.2, List.count_eq_one_of_mem h.nodup_taken hn.1]
  unreported n hn := by
    by_cases hheld : s.Held n
    · obtain ⟨i, hi⟩ := hheld
      exact h.unreported i n hi
    · rw [h.reported n hheld, List.count_eq_zero_of_not_mem fun hmem ↦ hn ⟨hmem, hheld⟩]
  ends := by
    refine ⟨s.weight, fun bs t hrun ↦ (Nat.le_add_right _ t.weight).trans ?_⟩
    exact hrun.length_add_le (fun _ _ _ hs _ hstep ↦ hs.step hstep)
      (fun _ _ _ hs ha hstep ↦ hs.weight_step ha hstep) h
  processed hrest _ hn := h.processed_of_atRest hrest hn

end HandOff

/-- **Every alert that is accepted is handed to one worker and reported on once**, whatever the
order in which the threads take their steps. -/
theorem delivers_of_run {s : HandOff} (as : List HandOffAction)
    (hrun : AnyRun HandOff.step .init as s) : s.Delivers :=
  (HandOff.inv_of_run hrun).delivers

/-- A directive with one tone. -/
def oneTonePayload : Payload where
  token := some (some [1])
  scheduledTime := some (some [2])
  type := some (some [3])
  assetPlayOrder := some [some [1]]
  loopCount := some 1
  assets := some [⟨some [1], some [1, 1]⟩]

/-- A worker goes on, and what it calls succeeds. -/
def workerGoes (i : ℕ) : HandOffAction := .worker i ⟨0, fun _ ↦ 0, false, true, 0⟩ true

/-- An alert is put into the queue, and a worker created that takes it and reports success. -/
theorem delivers_oneTone : ∃ s : HandOff, s.Processed 0 ∧ s.Delivers := by
  refine ⟨_, ⟨?_, ?_⟩, delivers_of_run [.call (some oneTonePayload), .handler, .handler, .handler,
    .handler, .handler, workerGoes 0, workerGoes 0, workerGoes 0, workerGoes 0, workerGoes 0,
    workerGoes 0, workerGoes 0] (anyRun_of_foldlM rfl)⟩
  · exact List.mem_singleton_self 0
  · rintro ⟨i, hi⟩
    cases i with
    | zero => cases hi
    | succ i => cases hi

end Ddmz.Alert
