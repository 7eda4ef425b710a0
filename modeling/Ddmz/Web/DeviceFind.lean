import Ddmz.Foundation.Runs

/-!
# Discovery

A task answers those who look for the device in the network. It is started when the network is there
and is told to stop, by a message, when the network is gone. When the task has taken that message it
closes its socket, deletes the queue, and forgets the queue and its own handle, one after the other.

All that time `user_devicefind_start` takes it for a task that goes on, or finds the handle but not
the queue, or neither although the task is still there. The calls do what they are for if a start
comes only when the task that has been told to stop is gone: `follows_of_run`.
-/

namespace Ddmz.Web

inductive FindCall
  | start
  | stop
  deriving DecidableEq

/-- Where `user_devicefind_task` is. -/
inductive FindPlace
  /-- Before it closes a socket that is there already. -/
  | start
  | socket
  | bind
  /-- At `xQueueReceive`, and at `recvfrom` or after it. -/
  | receive
  | recvfrom
  | close
  | clearSock
  | deleteQueue
  | clearQueue
  | clearHandle
  | delete
  deriving DecidableEq

/-- The task has taken the message to stop. -/
def FindPlace.exits : FindPlace → Bool
  | .close | .clearSock | .deleteQueue | .clearQueue | .clearHandle | .delete => true
  | _ => false

/-- Where the caller is: in between, in `user_devicefind_start` after the queue, or in
`user_devicefind_stop` before `xQueueSend`. -/
inductive FindCaller
  | idle
  | create
  | send
  deriving DecidableEq

/-- A queue for one message. -/
structure StopQueue where
  pending : Bool
  deleted : Bool
  deriving DecidableEq

structure DeviceFind where
  queDeviceFindStop : Option StopQueue
  /-- `deviceFindHandle` is not `NULL`. -/
  deviceFindHandle : Bool
  sockFd : ℤ
  /-- The sockets that are open. -/
  sockets : List ℤ
  tasks : List FindPlace
  caller : FindCaller
  lastCall : Option FindCall
  /-- A queue has been used that was not there, or not any more. -/
  misused : Bool

inductive DeviceFind.Op
  | call (call : FindCall)
  /-- The call goes on. -/
  | caller
  /-- A task goes on; `ret` is what the system call returns. -/
  | task (i : ℕ) (ret : ℤ)

namespace DeviceFind

def init : DeviceFind := ⟨none, false, 0, [], [], .idle, none, false⟩

variable (s : DeviceFind)

def userDevicefindStart : DeviceFind :=
  { s with
    queDeviceFindStop := some (s.queDeviceFindStop.getD ⟨false, false⟩)
    caller := .create
    lastCall := some .start }

def create : DeviceFind :=
  if s.deviceFindHandle then { s with caller := .idle }
  else { s with tasks := s.tasks ++ [.start], deviceFindHandle := true, caller := .idle }

def userDevicefindStop : DeviceFind :=
  match s.queDeviceFindStop with
  | none => { s with lastCall := some .stop }
  | some _ => { s with caller := .send, lastCall := some .stop }

/-- `xQueueSend`, which does nothing if there is a message already. -/
def send : DeviceFind :=
  match s.queDeviceFindStop with
  | some ⟨_, false⟩ => { s with queDeviceFindStop := some ⟨true, false⟩, caller := .idle }
  | _ => { s with misused := true, caller := .idle }

def goto (i : ℕ) (place : FindPlace) : DeviceFind := { s with tasks := s.tasks.set i place }

def userDevicefindTask (i : ℕ) (ret : ℤ) : Option DeviceFind :=
  match s.tasks[i]? with
  | none => none
  | some .start =>
    let sockets := if 0 < s.sockFd then s.sockets.erase s.sockFd else s.sockets
    some ({ s with sockets := sockets }.goto i .socket)
  | some .socket =>
    if ret = -1 then some { s with sockFd := -1 }
    else if 0 ≤ ret ∧ ret ∉ s.sockets then
      some ({ s with sockFd := ret, sockets := ret :: s.sockets }.goto i .bind)
    else none
  | some .bind => some (if ret = 0 then s.goto i .receive else s)
  | some .receive =>
    match s.queDeviceFindStop with
    | some ⟨true, false⟩ =>
      some ({ s with queDeviceFindStop := some ⟨false, false⟩ }.goto i .close)
    | some ⟨false, false⟩ => some (s.goto i .recvfrom)
    | _ => some { s with misused := true }
  | some .recvfrom => some (s.goto i .receive)
  | some .close => some ({ s with sockets := s.sockets.erase s.sockFd }.goto i .clearSock)
  | some .clearSock => some ({ s with sockFd := 0 }.goto i .deleteQueue)
  | some .deleteQueue =>
    match s.queDeviceFindStop with
    | some ⟨pending, false⟩ =>
      some ({ s with queDeviceFindStop := some ⟨pending, true⟩ }.goto i .clearQueue)
    | _ => some { s with misused := true }
  | some .clearQueue => some ({ s with queDeviceFindStop := none }.goto i .clearHandle)
  | some .clearHandle => some ({ s with deviceFindHandle := false }.goto i .delete)
  | some .delete => some { s with tasks := s.tasks.eraseIdx i }

/-- Starts and stops alternate, and one call is over before the next. -/
def step (s : DeviceFind) : Op → Option DeviceFind
  | .call call =>
    if s.caller = .idle ∧ s.lastCall ≠ some call then
      match call with
      | .start => some s.userDevicefindStart
      | .stop => some s.userDevicefindStop
    else none
  | .caller =>
    match s.caller with
    | .idle => none
    | .create => some s.create
    | .send => some s.send
  | .task i ret => s.userDevicefindTask i ret

/-- Nothing is left to be done: no call, no message, and no task that exits. -/
structure Settled : Prop where
  caller : s.caller = .idle
  handled : ∀ queue, s.queDeviceFindStop = some queue → queue.pending = false
  exited : ∀ place ∈ s.tasks, place.exits = false

structure Follows : Prop where
  oneTask : s.tasks.length ≤ 1
  oneSocket : s.sockets.length ≤ 1
  unharmed : s.misused = false
  running : s.Settled → (s.tasks ≠ [] ↔ s.lastCall = some .start)

/-- A start finds neither the queue nor a task of the time before. -/
def Fits : Op → Prop
  | .call .start => s.queDeviceFindStop = none
  | .caller => s.caller = .create → s.tasks = []
  | _ => True

/-- How far the calls and the task have come; `o` is the task. -/
inductive Phase :
    FindCaller → Option StopQueue → Option FindCall → Option FindPlace → Prop
  | quiet {call : Option FindCall} (h : call ≠ some .start) : Phase .idle none call none
  | starting {o : Option FindPlace} (h : ∀ place ∈ o, place = .clearHandle ∨ place = .delete) :
      Phase .create (some ⟨false, false⟩) (some .start) o
  | running {place : FindPlace} (h : place.exits = false) :
      Phase .idle (some ⟨false, false⟩) (some .start) (some place)
  | stopping {place : FindPlace} (h : place.exits = false) :
      Phase .send (some ⟨false, false⟩) (some .stop) (some place)
  | pending {place : FindPlace} (h : place.exits = false) :
      Phase .idle (some ⟨true, false⟩) (some .stop) (some place)
  | exiting {place : FindPlace}
      (h : place = .close ∨ place = .clearSock ∨ place = .deleteQueue) :
      Phase .idle (some ⟨false, false⟩) (some .stop) (some place)
  | deleted : Phase .idle (some ⟨false, true⟩) (some .stop) (some .clearQueue)
  | leaving {place : FindPlace} (h : place = .clearHandle ∨ place = .delete) :
      Phase .idle none (some .stop) (some place)

/-- The socket of the task. -/
def Holds (o : Option FindPlace) : Prop :=
  match o with
  | some .bind | some .receive | some .recvfrom | some .close => s.sockets = [s.sockFd]
  | some .clearSock => s.sockets = []
  | _ => s.sockets = [] ∧ s.sockFd ≤ 0

/-- There is one task at most, and the queue, the handle and the socket are as it needs them. -/
structure Keeps (o : Option FindPlace) : Prop where
  tasks : s.tasks = o.toList
  phase : Phase s.caller s.queDeviceFindStop s.lastCall o
  holds : s.Holds o
  handle : s.deviceFindHandle = true ↔ ∃ place, o = some place ∧ place ≠ .delete
  unharmed : s.misused = false

variable {s} {t : DeviceFind} {o : Option FindPlace} {op : Op}

namespace Phase

variable {caller : FindCaller} {queue : Option StopQueue} {call : Option FindCall}
  {place place' : FindPlace}

theorem settled (h : Phase .idle queue call o)
    (hqueue : ∀ q, queue = some q → q.pending = false) (hplace : ∀ p ∈ o, p.exits = false) :
    o ≠ none ↔ call = some .start := by
  cases h with
  | quiet hcall => exact iff_of_false (fun hne ↦ hne rfl) hcall
  | running _ => exact iff_of_true (Option.some_ne_none _) rfl
  | pending _ => exact absurd (hqueue _ rfl) Bool.true_eq_false.mp
  | exiting hexit =>
    have hnot := hplace _ rfl
    rcases hexit with rfl | rfl | rfl <;> exact absurd hnot Bool.true_eq_false.mp
  | deleted => exact absurd (hplace _ rfl) Bool.true_eq_false.mp
  | leaving hexit =>
    have hnot := hplace _ rfl
    rcases hexit with rfl | rfl <;> exact absurd hnot Bool.true_eq_false.mp

/-- A step before the end. -/
theorem goto (h : Phase caller queue call (some place)) (hplace : place.exits = false)
    (hplace' : place'.exits = false) : Phase caller queue call (some place') := by
  cases h with
  | starting hexit =>
    rcases hexit place rfl with rfl | rfl <;> exact absurd hplace Bool.true_eq_false.mp
  | running _ => exact .running hplace'
  | stopping _ => exact .stopping hplace'
  | pending _ => exact .pending hplace'
  | exiting hexit => rcases hexit with rfl | rfl | rfl <;> exact absurd hplace Bool.true_eq_false.mp
  | deleted => exact absurd hplace Bool.true_eq_false.mp
  | leaving hexit => rcases hexit with rfl | rfl <;> exact absurd hplace Bool.true_eq_false.mp

theorem start (h : Phase .idle none call o) :
    Phase .create (some ⟨false, false⟩) (some .start) o := by
  cases h with
  | quiet _ =>
    refine .starting ?_
    intro p hp
    exact absurd hp.symm (Option.some_ne_none p)
  | leaving hexit =>
    refine .starting ?_
    intro p hp
    rwa [← Option.some.inj hp]

theorem create (h : Phase .create queue call none) : Phase .idle queue call (some .start) := by
  cases h with
  | starting _ => exact .running rfl

theorem stop_none (h : Phase .idle none call o) (hcall : call ≠ some .stop) :
    Phase .idle none (some .stop) o := by
  cases h with
  | quiet _ => exact .quiet (by simp)
  | leaving _ => exact absurd rfl hcall

theorem stop_some {q : StopQueue} (h : Phase .idle (some q) call o) (hcall : call ≠ some .stop) :
    Phase .send (some q) (some .stop) o := by
  cases h with
  | running hplace => exact .stopping hplace
  | _ => exact absurd rfl hcall

theorem send (h : Phase .send queue call o) :
    queue = some ⟨false, false⟩ ∧ Phase .idle (some ⟨true, false⟩) call o := by
  cases h with
  | stopping hplace => exact ⟨rfl, .pending hplace⟩

theorem receive (h : Phase caller queue call (some .receive)) :
    queue = some ⟨false, false⟩ ∨
      queue = some ⟨true, false⟩ ∧ Phase caller (some ⟨false, false⟩) call (some .close) := by
  cases h with
  | running _ => exact .inl rfl
  | stopping _ => exact .inl rfl
  | pending _ => exact .inr ⟨rfl, .exiting (.inl rfl)⟩
  | starting hexit => rcases hexit _ rfl with hnot | hnot <;> exact FindPlace.noConfusion hnot
  | exiting hexit => rcases hexit with hnot | hnot | hnot <;> exact FindPlace.noConfusion hnot
  | leaving hexit => rcases hexit with hnot | hnot <;> exact FindPlace.noConfusion hnot

/-- The task has not deleted the queue yet. -/
theorem exiting_of (h : Phase caller queue call (some place))
    (hplace : place = .close ∨ place = .clearSock ∨ place = .deleteQueue) :
    caller = .idle ∧ queue = some ⟨false, false⟩ ∧ call = some .stop := by
  have hexits : place.exits ≠ false := by rcases hplace with rfl | rfl | rfl <;> decide
  cases h with
  | starting hexit => rcases hexit _ rfl with rfl | rfl <;> simp at hplace
  | running hnot => exact absurd hnot hexits
  | stopping hnot => exact absurd hnot hexits
  | pending hnot => exact absurd hnot hexits
  | exiting _ => exact ⟨rfl, rfl, rfl⟩
  | deleted => simp at hplace
  | leaving hexit => rcases hexit with rfl | rfl <;> simp at hplace

theorem deleted_of (h : Phase caller queue call (some .clearQueue)) :
    caller = .idle ∧ call = some .stop := by
  cases h with
  | starting hexit => rcases hexit _ rfl with hnot | hnot <;> exact FindPlace.noConfusion hnot
  | running hnot => exact absurd hnot Bool.true_eq_false.mp
  | stopping hnot => exact absurd hnot Bool.true_eq_false.mp
  | pending hnot => exact absurd hnot Bool.true_eq_false.mp
  | exiting hexit => rcases hexit with hnot | hnot | hnot <;> exact FindPlace.noConfusion hnot
  | deleted => exact ⟨rfl, rfl⟩
  | leaving hexit => rcases hexit with hnot | hnot <;> exact FindPlace.noConfusion hnot

/-- The task has forgotten the queue, and a start may have come. -/
theorem leaving_of (h : Phase caller queue call (some place))
    (hplace : place = .clearHandle ∨ place = .delete) :
    (caller = .idle ∧ queue = none ∧ call = some .stop) ∨
      (caller = .create ∧ queue = some ⟨false, false⟩ ∧ call = some .start) := by
  have hexits : place.exits ≠ false := by rcases hplace with rfl | rfl <;> decide
  cases h with
  | starting _ => exact .inr ⟨rfl, rfl, rfl⟩
  | running hnot => exact absurd hnot hexits
  | stopping hnot => exact absurd hnot hexits
  | pending hnot => exact absurd hnot hexits
  | exiting hexit => rcases hexit with rfl | rfl | rfl <;> simp at hplace
  | deleted => simp at hplace
  | leaving _ => exact .inl ⟨rfl, rfl, rfl⟩

theorem clearHandle (h : Phase caller queue call (some .clearHandle)) :
    Phase caller queue call (some .delete) := by
  obtain ⟨rfl, rfl, rfl⟩ | ⟨rfl, rfl, rfl⟩ := h.leaving_of (.inl rfl)
  · exact .leaving (.inr rfl)
  · refine .starting ?_
    intro p hp
    exact .inr (Option.some.inj hp).symm

theorem delete (h : Phase caller queue call (some .delete)) : Phase caller queue call none := by
  obtain ⟨rfl, rfl, rfl⟩ | ⟨rfl, rfl, rfl⟩ := h.leaving_of (.inr rfl)
  · exact .quiet (by simp)
  · refine .starting ?_
    intro p hp
    exact absurd hp.symm (Option.some_ne_none p)

end Phase

theorem Holds.length_le (h : s.Holds o) : s.sockets.length ≤ 1 := by
  unfold Holds at h
  split at h
  all_goals simp [h]

theorem Keeps.follows (h : s.Keeps o) : s.Follows := by
  constructor
  · rw [h.tasks]
    exact Option.length_toList_le
  · exact h.holds.length_le
  · exact h.unharmed
  · rintro ⟨hcaller, hhandled, hexited⟩
    have hphase := h.phase
    rw [hcaller] at hphase
    rw [h.tasks] at hexited ⊢
    rw [← hphase.settled hhandled fun p hp ↦ hexited p (Option.mem_toList.mpr hp), ne_eq,
      Option.toList_eq_nil_iff]

/-- The handle of the task. -/
theorem Keeps.handle_none (h : s.Keeps none) : s.deviceFindHandle = false := by
  by_contra hhandle
  obtain ⟨place, hplace, -⟩ := h.handle.mp (Bool.eq_true_of_not_eq_false hhandle)
  exact Option.some_ne_none place hplace.symm

/-! ### The calls -/

theorem Keeps.start (h : s.Keeps o) (hfits : s.Fits (.call .start)) (hidle : s.caller = .idle) :
    s.userDevicefindStart.Keeps o := by
  have hqueue : s.queDeviceFindStop = none := hfits
  have hphase := h.phase
  rw [hidle, hqueue] at hphase
  constructor
  · exact h.tasks
  · simpa [userDevicefindStart, hqueue] using hphase.start
  · exact h.holds
  · exact h.handle
  · exact h.unharmed

theorem Keeps.stop (h : s.Keeps o) (hidle : s.caller = .idle) (hcall : s.lastCall ≠ some .stop) :
    s.userDevicefindStop.Keeps o := by
  have hphase := h.phase
  rw [hidle] at hphase
  rw [userDevicefindStop]
  split
  · case _ hqueue =>
    rw [hqueue] at hphase
    refine ⟨h.tasks, ?_, h.holds, h.handle, h.unharmed⟩
    simpa [hidle, hqueue] using hphase.stop_none hcall
  · case _ queue hqueue =>
    rw [hqueue] at hphase
    refine ⟨h.tasks, ?_, h.holds, h.handle, h.unharmed⟩
    simpa [hqueue] using hphase.stop_some hcall

theorem Keeps.create (h : s.Keeps o) (hfits : s.Fits .caller) (hcaller : s.caller = .create) :
    s.create.Keeps (some .start) := by
  have hnone : o = none := by
    rw [← Option.toList_eq_nil_iff, ← h.tasks]
    exact hfits hcaller
  subst hnone
  have hphase := h.phase
  rw [hcaller] at hphase
  rw [DeviceFind.create, if_neg (Bool.eq_false_iff.mp h.handle_none)]
  constructor
  · rw [h.tasks]
    rfl
  · exact hphase.create
  · exact h.holds
  · simp
  · exact h.unharmed

theorem Keeps.send (h : s.Keeps o) (hcaller : s.caller = .send) : s.send.Keeps o := by
  have hphase := h.phase
  rw [hcaller] at hphase
  obtain ⟨hqueue, hpending⟩ := hphase.send
  rw [DeviceFind.send, hqueue]
  exact ⟨h.tasks, hpending, h.holds, h.handle, h.unharmed⟩

/-! ### The task -/

theorem Keeps.handle_some {place : FindPlace} (h : s.Keeps (some place))
    (hplace : place ≠ .delete) : s.deviceFindHandle = true :=
  h.handle.mpr ⟨place, rfl, hplace⟩

/-- The task goes to another place, and may have done something with the queue or the socket. -/
theorem Keeps.move {place place' : FindPlace} (h : s.Keeps (some place))
    (htasks : t.tasks = s.tasks) (hhandle : t.deviceFindHandle = s.deviceFindHandle)
    (hunharmed : t.misused = s.misused) (hplace : place ≠ .delete) (hplace' : place' ≠ .delete)
    (hphase : Phase t.caller t.queDeviceFindStop t.lastCall (some place'))
    (hholds : t.Holds (some place')) : (t.goto 0 place').Keeps (some place') := by
  constructor
  · rw [goto, htasks, h.tasks]
    rfl
  · exact hphase
  · exact hholds
  · exact iff_of_true (hhandle.trans (h.handle_some hplace)) ⟨place', rfl, hplace'⟩
  · exact hunharmed.trans h.unharmed

/-- The task before it takes the message to stop, apart from the queue. -/
theorem Keeps.goto {place place' : FindPlace} (h : s.Keeps (some place))
    (hplace : place.exits = false) (hplace' : place'.exits = false)
    (hholds : s.Holds (some place')) : (s.goto 0 place').Keeps (some place') := by
  refine h.move rfl rfl rfl ?_ ?_ (h.phase.goto hplace hplace') hholds
  · rintro rfl
    exact Bool.true_eq_false.mp hplace
  · rintro rfl
    exact Bool.true_eq_false.mp hplace'

/-- The task opens its socket. -/
theorem Keeps.socket {ret : ℤ} (h : s.Keeps (some .socket)) :
    ({ s with sockFd := ret, sockets := ret :: s.sockets }.goto 0 .bind).Keeps (some .bind) := by
  refine h.move rfl rfl rfl nofun nofun (h.phase.goto rfl rfl) ?_
  have hnone : s.sockets = [] := h.holds.1
  rw [Holds, hnone]

/-- A step of the task at its place. -/
theorem Keeps.place {place : FindPlace} {ret : ℤ} (h : s.Keeps (some place))
    (ht : s.userDevicefindTask 0 ret = some t) : ∃ o', t.Keeps o' := by
  have hget : s.tasks[0]? = some place := by
    rw [h.tasks]
    rfl
  rw [userDevicefindTask, hget] at ht
  cases place with
  | start =>
    obtain rfl := Option.some.inj ht
    obtain ⟨hnone, hle⟩ : s.sockets = [] ∧ s.sockFd ≤ 0 := h.holds
    rw [if_neg hle.not_gt]
    exact ⟨_, h.goto rfl rfl h.holds⟩
  | socket =>
    simp only at ht
    split_ifs at ht with hret hopen
    · obtain rfl := Option.some.inj ht
      refine ⟨some .socket, h.tasks, h.phase, ⟨h.holds.1, ?_⟩, h.handle, h.unharmed⟩
      exact (by decide : (-1 : ℤ) ≤ 0)
    · obtain rfl := Option.some.inj ht
      exact ⟨_, h.socket⟩
  | bind =>
    obtain rfl := Option.some.inj ht
    split_ifs
    · exact ⟨_, h.goto rfl rfl h.holds⟩
    · exact ⟨_, h⟩
  | receive =>
    obtain hqueue | ⟨hqueue, hphase⟩ := h.phase.receive
    · rw [hqueue] at ht
      obtain rfl := Option.some.inj ht
      exact ⟨_, h.goto rfl rfl h.holds⟩
    · rw [hqueue] at ht
      obtain rfl := Option.some.inj ht
      exact ⟨_, h.move rfl rfl rfl nofun nofun hphase h.holds⟩
  | recvfrom =>
    obtain rfl := Option.some.inj ht
    exact ⟨_, h.goto rfl rfl h.holds⟩
  | close =>
    obtain rfl := Option.some.inj ht
    obtain ⟨hcaller, hqueue, hcall⟩ := h.phase.exiting_of (.inl rfl)
    have hopen : s.sockets = [s.sockFd] := h.holds
    refine ⟨_, h.move rfl rfl rfl nofun nofun ?_ ?_⟩
    · rw [hcaller, hqueue, hcall]
      exact .exiting (.inr (.inl rfl))
    · simp [Holds, hopen]
  | clearSock =>
    obtain rfl := Option.some.inj ht
    obtain ⟨hcaller, hqueue, hcall⟩ := h.phase.exiting_of (.inr (.inl rfl))
    refine ⟨_, h.move rfl rfl rfl nofun nofun ?_ ⟨h.holds, le_rfl⟩⟩
    rw [hcaller, hqueue, hcall]
    exact .exiting (.inr (.inr rfl))
  | deleteQueue =>
    obtain ⟨hcaller, hqueue, hcall⟩ := h.phase.exiting_of (.inr (.inr rfl))
    rw [hqueue] at ht
    obtain rfl := Option.some.inj ht
    refine ⟨_, h.move rfl rfl rfl nofun nofun ?_ h.holds⟩
    rw [hcaller, hcall]
    exact .deleted
  | clearQueue =>
    obtain rfl := Option.some.inj ht
    obtain ⟨hcaller, hcall⟩ := h.phase.deleted_of
    refine ⟨_, h.move rfl rfl rfl nofun nofun ?_ h.holds⟩
    rw [hcaller, hcall]
    exact .leaving (.inl rfl)
  | clearHandle =>
    obtain rfl := Option.some.inj ht
    refine ⟨some .delete, ?_, h.phase.clearHandle, h.holds, ?_, h.unharmed⟩
    · rw [DeviceFind.goto, h.tasks]
      rfl
    · simp [DeviceFind.goto]
  | delete =>
    obtain rfl := Option.some.inj ht
    refine ⟨none, ?_, h.phase.delete, h.holds, ?_, h.unharmed⟩
    · rw [h.tasks]
      rfl
    · simpa using h.handle

theorem Keeps.task {i : ℕ} {ret : ℤ} (h : s.Keeps o) (ht : s.userDevicefindTask i ret = some t) :
    ∃ o', t.Keeps o' := by
  have htasks := h.tasks
  cases o with
  | none =>
    rw [userDevicefindTask, htasks, Option.toList_none, List.getElem?_nil] at ht
    exact absurd ht.symm (Option.some_ne_none t)
  | some place =>
    cases i with
    | succ i =>
      rw [userDevicefindTask, htasks, Option.toList_some, List.getElem?_cons_succ,
        List.getElem?_nil] at ht
      exact absurd ht.symm (Option.some_ne_none t)
    | zero => exact h.place ht

/-- **One step.** -/
theorem Keeps.step (h : s.Keeps o) (hfits : s.Fits op) (hstep : s.step op = some t) :
    ∃ o', t.Keeps o' := by
  cases op with
  | call call =>
    cases call with
    | start =>
      rw [DeviceFind.step] at hstep
      split_ifs at hstep with hcall
      obtain rfl := Option.some.inj hstep
      exact ⟨o, h.start hfits hcall.1⟩
    | stop =>
      rw [DeviceFind.step] at hstep
      split_ifs at hstep with hcall
      obtain rfl := Option.some.inj hstep
      exact ⟨o, h.stop hcall.1 hcall.2⟩
  | caller =>
    rw [DeviceFind.step] at hstep
    split at hstep
    · exact absurd hstep.symm (Option.some_ne_none t)
    · case _ hcaller =>
      obtain rfl := Option.some.inj hstep
      exact ⟨_, h.create hfits hcaller⟩
    · case _ hcaller =>
      obtain rfl := Option.some.inj hstep
      exact ⟨_, h.send hcaller⟩
  | task i ret => exact h.task hstep

theorem keeps_init : init.Keeps none := by
  constructor
  · rfl
  · exact .quiet (by simp [init])
  · exact ⟨rfl, le_rfl⟩
  · simp [init]
  · rfl

end DeviceFind

/-- **In a run whose steps are as in `Fits`, there is one task at most and one socket, no queue is
used that is not there, and the task runs exactly if the last call was a start.** -/
theorem follows_of_run {ops : List DeviceFind.Op} {s : DeviceFind}
    (h : Run DeviceFind.step DeviceFind.Fits .init ops s) : s.Follows := by
  obtain ⟨o, ho⟩ := h.invariant_exists
    (fun _ _ _ _ hs hfits hstep ↦ hs.step hfits hstep) DeviceFind.keeps_init
  exact ho.follows

/-- The network comes, and the task opens its socket; when the network has gone it closes the socket
and exits, and when the network is there again there is a new task. -/
theorem follows_once : ∃ s, Run DeviceFind.step DeviceFind.Fits .init
      [.call .start, .caller, .task 0 0, .task 0 3, .task 0 0, .call .stop, .caller, .task 0 0,
        .task 0 0, .task 0 0, .task 0 0, .task 0 0, .task 0 0, .task 0 0, .call .start, .caller,
        .task 0 0] s ∧
    s.Settled ∧ s.tasks ≠ [] ∧ s.Follows := by
  have hrun : Run DeviceFind.step DeviceFind.Fits .init
      [.call .start, .caller, .task 0 0, .task 0 3, .task 0 0, .call .stop, .caller, .task 0 0,
        .task 0 0, .task 0 0, .task 0 0, .task 0 0, .task 0 0, .task 0 0, .call .start, .caller,
        .task 0 0] _ :=
    .cons rfl rfl <| .cons (fun _ ↦ rfl) rfl <| .cons trivial rfl <| .cons trivial rfl <|
    .cons trivial rfl <| .cons trivial rfl <| .cons (fun h ↦ FindCaller.noConfusion h) rfl <|
    .cons trivial rfl <| .cons trivial rfl <| .cons trivial rfl <| .cons trivial rfl <|
    .cons trivial rfl <| .cons trivial rfl <| .cons trivial rfl <| .cons rfl rfl <|
    .cons (fun _ ↦ rfl) rfl <| .cons trivial rfl <| .nil _
  refine ⟨_, hrun, ⟨rfl, ?_, ?_⟩, by decide, follows_of_run hrun⟩
  · intro queue hqueue
    obtain rfl := Option.some.inj hqueue
    rfl
  · intro place hplace
    obtain rfl := List.mem_singleton.mp hplace
    rfl

/-- The network is there again before the task has taken the message to stop: the start finds the
task running, and the task exits. -/
theorem not_follows_restart : ¬∀ ops s, AnyRun DeviceFind.step .init ops s → s.Follows := by
  intro h
  have hfollows := h [.call .start, .caller, .task 0 0, .task 0 3, .task 0 0, .call .stop, .caller,
      .call .start, .caller, .task 0 0, .task 0 0, .task 0 0, .task 0 0, .task 0 0, .task 0 0,
      .task 0 0] ⟨none, false, 0, [], [], .idle, some .start, false⟩ <| anyRun_of_foldlM rfl
  have hsettled : DeviceFind.Settled ⟨none, false, 0, [], [], .idle, some .start, false⟩ := by
    constructor
    · rfl
    · intro queue hqueue
      exact absurd hqueue.symm (Option.some_ne_none queue)
    · intro place hplace
      exact absurd hplace List.not_mem_nil
  exact (hfollows.running hsettled).mpr rfl rfl

end Ddmz.Web
