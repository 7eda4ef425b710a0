import Ddmz.Duer.Task

/-!
# Logging in

After `DUER_CMD_LOGIN` the task is connecting, and takes no other login until the SDK answers; after
`DUER_CMD_QUIT` it starts the retry timer, for twice as long each time. So a login must not come to
nothing, and while the task is idle after a quit, a login must be on its way.

Two things break this. If `duer_load_profile` returns nothing, nobody has been asked, and no answer
comes. And the callback of the timer stops the timer after it has sent its command: if the login is
over by then, and the task has started the timer again, there is nothing left. Otherwise all is
well: `unstuck_iff`.
-/

namespace Ddmz.Duer

open Service

/-- A quit after which the task tries again. -/
structure Quit where
  /-- How many there have been since the task was last connected. -/
  count : ℕ
  time : ℕ
  /-- When the timer expires that has been started for it. -/
  due : Option ℕ

/-- The service, and the history of its logins. -/
structure Login where
  service : Service
  /-- `duer_start` has been called since the task was last idle. -/
  started : Bool
  /-- How many quits have come since the task was last connected, other than those on which the
  user sets up Wi-Fi. -/
  quits : ℕ
  /-- The quit by which the task has last become idle, if it was one of the first seven of these. -/
  quit : Option Quit

namespace Login

def init : Login := ⟨.init, false, 0, none⟩

variable (s : Login)

/-- The command that is taken in a step. -/
def taken : Op → Option Cmd
  | .receive _ => s.service.next
  | _ => none

def count : Cmd → ℕ
  | .CONNECTED => 0
  | .QUIT => if s.service.setWifiFlag then s.quits else s.quits + 1
  | _ => s.quits

def lastQuit (t : Service) : Cmd → Option Quit
  | .QUIT =>
    if s.service.setWifiFlag = false ∧ s.quits + 1 ≤ 7 then
      some ⟨s.quits + 1, s.service.clock, t.timer⟩
    else none
  | _ => s.quit

def step (op : Op) : Option Login :=
  (s.service.step op).map fun r ↦ {
    service := r.2
    started := decide (r.2.state ≠ .IDLE) && (s.started || r.1.contains .duerStart)
    quits := (s.taken op).elim s.quits s.count
    quit := (s.taken op).elim s.quit (s.lastQuit r.2) }

/-- A login is on its way whenever it should be. -/
structure Unstuck : Prop where
  started : s.service.state = .CONNECTING → s.started = true
  scheduled : ∀ q, s.quit = some q → q.due = some (q.time + 2 ^ q.count * RETRY_TIME)
  pending : ∀ q, s.quit = some q → s.service.state = .IDLE → .LOGIN ∈ s.service.queue ∨
    s.service.timer = q.due ∨ s.service.callback = some .send

/-- The profile is there when the task logs in, and the callback does not stop the timer of an idle
task, unless there is a login in the queue. -/
def Spares : Op → Prop
  | .receive profile => s.service.next = some .LOGIN → s.service.state = .IDLE → profile = true
  | .callback => s.service.callback = some .stop → s.quit ≠ none → s.service.state = .IDLE →
    .LOGIN ∈ s.service.queue
  | _ => True

/-- The number that the task doubles says how many quits there have been. -/
structure Counted : Prop where
  idle : s.service.state = .IDLE → s.started = false
  retryNum : s.service.place ≠ .exited → s.service.retryNum = 2 ^ s.quits ∧ s.quits ≤ 7
  scheduled : ∀ q, s.quit = some q → q.due = some (q.time + 2 ^ q.count * RETRY_TIME)

variable {s} {t : Login} {op : Op}

theorem counted_init : init.Counted := ⟨fun _ ↦ rfl, fun _ ↦ ⟨rfl, Nat.zero_le 7⟩, nofun⟩

theorem unstuck_init : init.Unstuck := ⟨nofun, nofun, nofun⟩

/-! ## Steps without a command -/

/-- A step that leaves the state of the task as it is, and calls nothing. -/
theorem Unstuck.same (hs : s.Unstuck) {u : Service} (hstate : u.state = s.service.state)
    (hpending : ∀ q, s.quit = some q → s.service.state = .IDLE → .LOGIN ∈ u.queue ∨
      u.timer = q.due ∨ u.callback = some .send) :
    Unstuck ⟨u, decide (u.state ≠ .IDLE) && (s.started || ([] : List Call).contains .duerStart),
      s.quits, s.quit⟩ := by
  refine ⟨fun hconnecting ↦ ?_, hs.scheduled, fun q hq hidle ↦ ?_⟩
  · have hstarted := hs.started (hstate.symm.trans hconnecting)
    dsimp only at hconnecting ⊢
    rw [hconnecting, hstarted]
    rfl
  · exact hpending q hq (hstate.symm.trans hidle)

theorem started_of_idle {u : Service} {b : Bool} (h : u.state = .IDLE) :
    (decide (u.state ≠ .IDLE) && b) = false := by
  rw [decide_eq_false (not_not.mpr h), Bool.false_and]

theorem Counted.same (hs : s.Counted) {u : Service} {b : Bool}
    (hplace : s.service.place = .exited → u.place = .exited)
    (hretry : u.retryNum = s.service.retryNum) :
    Counted ⟨u, decide (u.state ≠ .IDLE) && b, s.quits, s.quit⟩ :=
  ⟨started_of_idle, fun hu ↦ hretry ▸ hs.retryNum fun h ↦ hu (hplace h), hs.scheduled⟩

theorem step_eq_some (h : s.step op = some t) : ∃ calls u,
    s.service.step op = some (calls, u) ∧
      t = ⟨u, decide (u.state ≠ .IDLE) && (s.started || calls.contains .duerStart),
        (s.taken op).elim s.quits s.count, (s.taken op).elim s.quit (s.lastQuit u)⟩ := by
  obtain ⟨⟨calls, u⟩, hu, rfl⟩ := Option.map_eq_some_iff.mp h
  exact ⟨calls, u, hu, rfl⟩

theorem spares_of_isOther (h : op.isOther = true) : s.Spares op := by
  cases op with
  | expire | callback | receive profile | proceed => cases h
  | _ => trivial

theorem taken_of_isOther (h : op.isOther = true) : s.taken op = none := by
  cases op with
  | receive profile => cases h
  | _ => rfl

/-! ## Taking a command -/

/-- What has come of a command. -/
def after (calls : List Call) (u : Service) (cmd : Cmd) : Login :=
  ⟨u, decide (u.state ≠ .IDLE) && (s.started || calls.contains .duerStart), s.count cmd,
    s.lastQuit u cmd⟩

/-- While the task is not idle, only a login says whether it is all right. -/
theorem unstuck_of_ne {u : Service} {started : Bool} {quits : ℕ} {q : Option Quit}
    (hidle : u.state ≠ .IDLE) (hstarted : u.state = .CONNECTING → started = true)
    (hscheduled : ∀ r, q = some r → r.due = some (r.time + 2 ^ r.count * RETRY_TIME)) :
    Unstuck ⟨u, started, quits, q⟩ :=
  ⟨hstarted, hscheduled, fun _ _ h ↦ absurd h hidle⟩

/-- A command that the task takes and does not act on. -/
theorem Unstuck.ignored (hs : s.Unstuck) {cmd : Cmd}
    (hqueue : s.service.queue = cmd :: s.service.queue.tail)
    (hcmd : cmd ≠ .LOGIN ∨ s.service.state ≠ .IDLE) :
    Unstuck ⟨s.service.pop,
      decide (s.service.state ≠ .IDLE) && (s.started || ([] : List Call).contains .duerStart),
      s.quits, s.quit⟩ := by
  refine hs.same (u := s.service.pop) rfl fun q hq hidle ↦ ?_
  refine (hs.pending q hq hidle).imp_left fun hmem ↦ ?_
  -- a login that waits is not the command that is taken, unless the task is not idle
  rw [hqueue] at hmem
  obtain hcmd | hne := hcmd
  · exact (List.mem_cons.mp hmem).resolve_left (Ne.symm hcmd)
  · exact absurd hidle hne

/-- The quit doubles the number and starts the timer, if there have been fewer than seven. -/
theorem Counted.quit (hs : s.Counted) (hwaiting : s.service.place = .waiting) :
    (s.after [] s.service.pop.quit .QUIT).Unstuck ∧
      (s.after [] s.service.pop.quit .QUIT).Counted := by
  obtain ⟨hretry, hle⟩ := hs.retryNum (hwaiting ▸ nofun)
  by_cases hflag : s.service.setWifiFlag = true
  · -- while the user sets up Wi-Fi the quit does not count
    have hquits : s.count .QUIT = s.quits := if_pos hflag
    have hquit (u : Service) : s.lastQuit u .QUIT = none :=
      if_neg fun h ↦ Bool.false_ne_true (h.1.symm.trans hflag)
    rw [after, quit_flag (s := s.service.pop) hflag, hquits, hquit]
    exact ⟨⟨nofun, nofun, nofun⟩, fun _ ↦ rfl, fun _ ↦ ⟨hretry, hle⟩, nofun⟩
  have hquits : s.count .QUIT = s.quits + 1 := if_neg hflag
  -- the number is a power of two, and comes to 128 with the seventh quit
  by_cases hlt : s.quits < 7
  · have hquit (u : Service) :
        s.lastQuit u .QUIT = some ⟨s.quits + 1, s.service.clock, u.timer⟩ :=
      if_pos ⟨Bool.not_eq_true _ ▸ hflag, hlt⟩
    have hdue : some (s.service.clock + RETRY_TIME * (s.service.retryNum * 2))
        = some (s.service.clock + 2 ^ (s.quits + 1) * RETRY_TIME) := by
      rw [hretry, pow_succ, Nat.mul_comm RETRY_TIME]
    have hsmall : s.service.retryNum < 128 :=
      hretry ▸ (Nat.pow_lt_pow_right (by decide) hlt : 2 ^ s.quits < 2 ^ 7)
    rw [after, quit_retry (s := s.service.pop) hflag hsmall, hquits, hquit]
    refine ⟨⟨nofun, ?_, ?_⟩, fun _ ↦ rfl, fun _ ↦ ⟨?_, hlt⟩, ?_⟩
    · rintro q ⟨⟩
      exact hdue
    · rintro q ⟨⟩ -
      exact .inr (.inl rfl)
    · exact (congrArg (· * 2) hretry).trans (pow_succ 2 s.quits).symm
    · rintro q ⟨⟩
      exact hdue
  · have hseven : s.quits = 7 := by omega
    have hquit (u : Service) : s.lastQuit u .QUIT = none := if_neg fun h ↦ hlt h.2
    have hbig : ¬s.service.retryNum < 128 := by
      rw [hretry, hseven]
      decide
    rw [after, quit_giveUp (s := s.service.pop) hflag hbig, hquits, hquit]
    exact ⟨⟨nofun, nofun, nofun⟩, fun _ ↦ rfl, fun h ↦ absurd rfl h, nofun⟩

theorem Counted.receive (hs : s.Counted) {cmd : Cmd} {profile : Bool} {calls : List Call}
    {u : Service} (hnext : s.service.next = some cmd)
    (h : s.service.pop.process profile cmd = (calls, u)) : (s.after calls u cmd).Counted := by
  have hwaiting := (next_eq_some hnext).1
  have hexited : s.service.place = .exited → u.place = .exited :=
    fun hexited ↦ nomatch hwaiting.symm.trans hexited
  cases cmd with
  | LOGIN | START | STOP =>
    rw [process] at h
    split_ifs at h
    · obtain ⟨rfl, rfl⟩ := Prod.mk.inj h
      exact hs.same hexited rfl
    · obtain ⟨rfl, rfl⟩ := Prod.mk.inj h
      exact hs.same hexited rfl
  | CONNECTED =>
    obtain ⟨rfl, rfl⟩ := Prod.mk.inj h
    exact ⟨nofun, fun _ ↦ ⟨rfl, Nat.zero_le 7⟩, hs.scheduled⟩
  | QUIT =>
    obtain ⟨rfl, rfl⟩ := Prod.mk.inj h
    exact (hs.quit hwaiting).2

/-- **What a command does**: only a login for which there is no profile does harm. -/
theorem Unstuck.receive (hs : s.Unstuck) (hcounted : s.Counted) {cmd : Cmd} {profile : Bool}
    {calls : List Call} {u : Service} (hnext : s.service.next = some cmd)
    (h : s.service.pop.process profile cmd = (calls, u)) :
    (s.after calls u cmd).Unstuck ↔
      (s.service.next = some .LOGIN → s.service.state = .IDLE → profile = true) := by
  obtain ⟨hwaiting, hqueue⟩ := next_eq_some hnext
  rw [hnext]
  cases cmd with
  | LOGIN =>
    rw [process] at h
    split_ifs at h with hidle
    · obtain ⟨rfl, rfl⟩ := Prod.mk.inj h
      -- an idle task has not asked anybody, so it is `duer_start` now or not at all
      refine ⟨fun hunstuck _ _ ↦ ?_, fun hprofile ↦ ?_⟩
      · have hstarted := hunstuck.started rfl
        rw [after, hcounted.idle hidle, duerLogin] at hstarted
        cases profile with
        | true => rfl
        | false => cases hstarted
      · refine unstuck_of_ne nofun (fun _ ↦ ?_) hs.scheduled
        rw [hprofile rfl hidle, duerLogin]
        exact Bool.or_true s.started
    · obtain ⟨rfl, rfl⟩ := Prod.mk.inj h
      exact iff_of_true (hs.ignored hqueue (.inr hidle)) fun _ h ↦ absurd h hidle
  | CONNECTED =>
    obtain ⟨rfl, rfl⟩ := Prod.mk.inj h
    exact iff_of_true (unstuck_of_ne nofun nofun hs.scheduled) nofun
  | START =>
    rw [process] at h
    split_ifs at h with hstate
    · obtain ⟨rfl, rfl⟩ := Prod.mk.inj h
      exact iff_of_true (hs.ignored hqueue (.inl nofun)) nofun
    · obtain ⟨rfl, rfl⟩ := Prod.mk.inj h
      refine iff_of_true (unstuck_of_ne ?_ ?_ hs.scheduled) nofun
      · exact fun hidle ↦ hstate (by rw [hidle]; decide)
      · exact fun hconnecting ↦ absurd (by rw [hconnecting]; decide) hstate
  | STOP =>
    rw [process] at h
    split_ifs at h with hstate
    · obtain ⟨rfl, rfl⟩ := Prod.mk.inj h
      refine iff_of_true (unstuck_of_ne ?_ ?_ hs.scheduled) nofun
      · exact fun hidle ↦ nomatch hidle.symm.trans hstate
      · exact fun hconnecting ↦ nomatch hconnecting.symm.trans hstate
    · obtain ⟨rfl, rfl⟩ := Prod.mk.inj h
      exact iff_of_true (hs.ignored hqueue (.inl nofun)) nofun
  | QUIT =>
    obtain ⟨rfl, rfl⟩ := Prod.mk.inj h
    exact iff_of_true (hcounted.quit hwaiting).1 nofun

/-! ## Runs -/

theorem taken_receive {profile : Bool} {cmd : Cmd} (h : s.service.next = some cmd)
    (calls : List Call) (u : Service) :
    Login.mk u (decide (u.state ≠ .IDLE) && (s.started || calls.contains .duerStart))
      ((s.taken (.receive profile)).elim s.quits s.count)
      ((s.taken (.receive profile)).elim s.quit (s.lastQuit u)) = s.after calls u cmd := by
  rw [taken, h, Option.elim_some, Option.elim_some, after]

theorem Counted.step (hs : s.Counted) (h : s.step op = some t) : t.Counted := by
  obtain ⟨calls, u, hu, rfl⟩ := step_eq_some h
  by_cases hother : op.isOther = true
  · have hkeeps := (step_keeps hother hu).2
    rw [taken_of_isOther hother]
    exact hs.same (fun h ↦ hkeeps.place.trans h) hkeeps.retryNum
  cases op with
  | expire =>
    obtain ⟨rfl, rfl⟩ := step_expire hu
    exact hs.same id rfl
  | callback =>
    obtain ⟨rfl, p, -, rfl⟩ := step_callback hu
    cases p with
    | _ => exact hs.same id rfl
  | receive profile =>
    obtain ⟨cmd, hnext, hprocess⟩ := step_receive hu
    rw [taken_receive hnext]
    exact hs.receive hnext hprocess
  | proceed =>
    obtain ⟨rfl, ⟨hplace, rfl⟩ | ⟨hplace, rfl⟩ | ⟨hplace, rfl⟩⟩ := step_proceed hu
    all_goals exact hs.same (fun hexited ↦ absurd (hplace.symm.trans hexited) (by decide)) rfl
  | _ => exact absurd rfl hother

/-- A step keeps logins on their way if and only if it meets the condition. -/
theorem Unstuck.step (hs : s.Unstuck) (hcounted : s.Counted) (hroom : s.service.HasRoom op)
    (h : s.step op = some t) : t.Unstuck ↔ s.Spares op := by
  obtain ⟨calls, u, hu, rfl⟩ := step_eq_some h
  by_cases hother : op.isOther = true
  · obtain ⟨rfl, hkeeps⟩ := step_keeps hother hu
    rw [taken_of_isOther hother]
    refine iff_of_true (hs.same hkeeps.state fun q hq hidle ↦ ?_) (spares_of_isOther hother)
    rw [hkeeps.timer, hkeeps.callback]
    exact (hs.pending q hq hidle).imp_left fun hmem ↦ hkeeps.queue.subset hmem
  cases op with
  | expire =>
    obtain ⟨rfl, rfl⟩ := step_expire hu
    refine iff_of_true (hs.same ?_ fun q hq hidle ↦ .inr (.inr ?_)) trivial
    · rfl
    · rfl
  | callback =>
    obtain ⟨rfl, p, hp, rfl⟩ := step_callback hu
    cases p with
    | send =>
      -- the callback has found room for its login
      have hmem := s.service.mem_send .LOGIN (hroom (decide_eq_true hp))
      refine iff_of_true (hs.same ?_ fun q hq hidle ↦ .inl hmem) fun hstop ↦ ?_
      · rfl
      · exact absurd (hp.symm.trans hstop) (by decide)
    | stop =>
      constructor
      · -- the callback is over and the timer stopped, which leaves the queue
        intro ht _ hquit hidle
        obtain ⟨q, hq⟩ := Option.ne_none_iff_exists'.mp hquit
        obtain hmem | htimer | hsend := ht.pending q hq hidle
        · exact hmem
        · exact absurd (htimer.trans (hs.scheduled q hq)).symm (Option.some_ne_none _)
        · cases hsend
      · intro hspares
        refine hs.same ?_ fun q hq hidle ↦ .inl ?_
        · rfl
        · exact hspares hp (hq ▸ Option.some_ne_none q) hidle
  | receive profile =>
    obtain ⟨cmd, hnext, hprocess⟩ := step_receive hu
    rw [taken_receive hnext]
    exact hs.receive hcounted hnext hprocess
  | proceed =>
    obtain ⟨rfl, ⟨hplace, rfl⟩ | ⟨hplace, rfl⟩ | ⟨hplace, rfl⟩⟩ := step_proceed hu
    · refine iff_of_true (unstuck_of_ne ?_ ?_ hs.scheduled) trivial
      · exact DuerState.noConfusion
      · exact DuerState.noConfusion
    · refine iff_of_true (hs.same ?_ hs.pending) trivial
      rfl
    · refine iff_of_true (unstuck_of_ne ?_ ?_ hs.scheduled) trivial
      · exact DuerState.noConfusion
      · exact DuerState.noConfusion
  | _ => exact absurd rfl hother

end Login

/-- **While commands find room in the queue, logins are on their way throughout a run if and only
if there is a profile for each, and the callback does not stop the timer of an idle task.** -/
theorem unstuck_iff {ops : List Op} {s : Login}
    (h : Run Login.step (fun s op ↦ s.service.HasRoom op) .init ops s) :
    Always Login.step Login.Unstuck .init ops ↔ Run Login.step Login.Spares .init ops s :=
  h.always_iff_of (J := Login.Counted) (fun _ _ _ hs _ hstep ↦ hs.step hstep)
    (fun _ _ _ hcounted hs hroom hstep ↦ hs.step hcounted hroom hstep) Login.counted_init
    Login.unstuck_init

/-- The server turns the first login down. -/
theorem unstuck_turnedDown : Always Login.step Login.Unstuck .init
    [.notify .WIFI_GOT_IP, .access, .receive true, .event .STOPPED, .receive true] := by
  have hrun : Run Login.step (fun s op ↦ s.service.HasRoom op) .init
      [.notify .WIFI_GOT_IP, .access, .receive true, .event .STOPPED, .receive true] _ :=
    .cons nofun rfl <| .cons (fun _ ↦ by decide) rfl <| .cons nofun rfl <|
    .cons (fun _ ↦ by decide) rfl <| .cons nofun rfl <| .nil _
  exact (unstuck_iff hrun).mpr <|
    .cons trivial rfl <| .cons trivial rfl <| .cons (fun _ _ ↦ rfl) rfl <|
    .cons trivial rfl <| .cons (fun _ _ ↦ rfl) rfl <| .nil _

/-- There is no profile, and the task connects to nobody. -/
theorem not_unstuck_noProfile : ¬∀ ops s,
    Run Login.step (fun s op ↦ s.service.HasRoom op) .init ops s → s.Unstuck := by
  intro h
  have hunstuck := h [.notify .WIFI_GOT_IP, .access, .receive false] _ <|
    .cons nofun rfl <| .cons (fun _ ↦ by decide) rfl <| .cons nofun rfl <| .nil _
  exact Bool.false_ne_true (hunstuck.started rfl)

end Ddmz.Duer
