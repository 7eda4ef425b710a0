import Ddmz.Duer.Task
import Ddmz.Foundation.Traces

/-!
# Recordings

When the user begins to speak the recorder sends `DUER_CMD_START`, and `DUER_CMD_STOP` at the end;
the task starts and stops the recording. The recorder leaves out the end if `duer_state` does not
say yet that there is a recording, or if Wi-Fi has gone, and the queue may be full. Then the task
starts the next recording although this one has not been stopped; and a quit, or an answer to a
login, makes it forget the recording.

As long as the task takes nothing but logins and ends while there is a recording, starts and stops
alternate: `paired_of_run`.
-/

namespace Ddmz.Duer

open Service

inductive VoiceCall
  | start
  | stop
  deriving DecidableEq

def Call.voice : Call → Option VoiceCall
  | .voiceStart => some .start
  | .voiceStop => some .stop
  | .duerStart => none

/-- Between one start and the next there is one stop, and a stop has a start that has not been
stopped. -/
structure Paired (calls : List VoiceCall) : Prop where
  between : ∀ before mid after, calls = before ++ .start :: (mid ++ .start :: after) →
    VoiceCall.start ∉ mid → mid.count .stop = 1
  matched : ∀ before after, calls = before ++ .stop :: after →
    before.count .stop < before.count .start

/-- One session after the other, the last of which may be open. -/
inductive Sessions : List VoiceCall → Bool → Prop
  | nil : Sessions [] false
  | start {calls : List VoiceCall} (h : Sessions calls false) : Sessions (calls ++ [.start]) true
  | stop {calls : List VoiceCall} (h : Sessions calls true) : Sessions (calls ++ [.stop]) false

section Sessions

variable {calls : List VoiceCall} {isOpen : Bool}

theorem Sessions.count (h : Sessions calls isOpen) :
    calls.count .start = calls.count .stop + isOpen.toNat := by
  induction h with
  | nil => rfl
  | start _ ih | stop _ ih =>
    rw [List.count_append, List.count_append, ih]
    rfl

/-- There is a stop after the last start if and only if the session is not open. -/
theorem Sessions.count_last {before mid : List VoiceCall}
    (h : Sessions calls isOpen) (hcalls : calls = before ++ .start :: mid)
    (hmid : VoiceCall.start ∉ mid) : mid.count .stop = (!isOpen).toNat := by
  induction h generalizing mid with
  | nil => exact absurd hcalls.symm (List.append_ne_nil_of_right_ne_nil _ (List.cons_ne_nil _ _))
  | start _ ih =>
    obtain ⟨-, -, rfl⟩ | ⟨mid', rfl, -⟩ := append_singleton_eq hcalls
    · rfl
    · exact absurd (List.mem_append_right mid' (List.mem_singleton_self _)) hmid
  | stop _ ih =>
    obtain ⟨-, hne, -⟩ | ⟨mid', rfl, hcalls'⟩ := append_singleton_eq hcalls
    · cases hne
    · rw [List.count_append, ih hcalls' fun h ↦ hmid (List.mem_append_left _ h)]
      rfl

theorem Sessions.paired (h : Sessions calls isOpen) : Paired calls := by
  constructor
  · intro before mid after hcalls hmid
    -- the last call is the second start, or it comes after it
    induction h generalizing after with
    | nil => exact absurd hcalls.symm (List.append_ne_nil_of_right_ne_nil _ (List.cons_ne_nil _ _))
    | start h ih =>
      rw [← List.cons_append, ← List.append_assoc] at hcalls
      obtain ⟨hl, -, -⟩ | ⟨after', -, hl⟩ := append_singleton_eq hcalls
      · exact h.count_last hl hmid
      · rw [List.append_assoc, List.cons_append] at hl
        exact ih after' hl
    | stop h ih =>
      rw [← List.cons_append, ← List.append_assoc] at hcalls
      obtain ⟨-, hne, -⟩ | ⟨after', -, hl⟩ := append_singleton_eq hcalls
      · cases hne
      · rw [List.append_assoc, List.cons_append] at hl
        exact ih after' hl
  · intro before after hcalls
    induction h generalizing after with
    | nil => exact absurd hcalls.symm (List.append_ne_nil_of_right_ne_nil _ (List.cons_ne_nil _ _))
    | start h ih =>
      obtain ⟨-, hne, -⟩ | ⟨after', -, hl⟩ := append_singleton_eq hcalls
      · cases hne
      · exact ih after' hl
    | stop h ih =>
      obtain ⟨rfl, -, -⟩ | ⟨after', -, hl⟩ := append_singleton_eq hcalls
      · rw [h.count]
        exact Nat.lt_succ_self _
      · exact ih after' hl

end Sessions

/-! ## Runs -/

/-- The service, and the calls that start and stop recordings. -/
structure Voice where
  service : Service
  calls : List VoiceCall

namespace Voice

def init : Voice := ⟨.init, []⟩

variable (s : Voice)

def step (op : Op) : Option Voice :=
  (s.service.step op).map fun r ↦ ⟨r.2, s.calls ++ r.1.filterMap Call.voice⟩

/-- While there is a recording the task takes only logins and ends. -/
def Closes : Op → Prop
  | .receive _ => ∀ cmd, s.service.next = some cmd → s.service.state = .START →
    cmd = .LOGIN ∨ cmd = .STOP
  | _ => True

/-- There is a recording: it has been started, and `duer_state` says so or is about to. -/
def recording (u : Service) : Bool :=
  decide (u.place = .started) || decide (u.state = .START) && decide (u.place ≠ .stopped)

variable {s} {t : Voice} {op : Op}

theorem recording_iff {u : Service} (h : u.place = .waiting) :
    recording u = decide (u.state = .START) := by
  rw [recording, h]
  exact Bool.and_true _

theorem recording_eq_false {u : Service} (hplace : u.place ≠ .started) (hstate : u.state ≠ .START) :
    recording u = false := by
  rw [recording, decide_eq_false hplace, decide_eq_false hstate]
  rfl

theorem recording_quit {u : Service} (h : u.place = .waiting) : recording u.quit = false := by
  have hplace : u.place ≠ .started := fun hstarted ↦ nomatch h.symm.trans hstarted
  by_cases hflag : u.setWifiFlag = true
  · rw [quit_flag hflag]
    exact recording_eq_false hplace nofun
  · by_cases hlt : u.retryNum < 128
    · rw [quit_retry hflag hlt]
      exact recording_eq_false hplace nofun
    · rw [quit_giveUp hflag hlt]
      exact recording_eq_false nofun nofun

/-- No call, and nothing changes about the recording. -/
theorem sessions_same {b : Bool} (hs : Sessions s.calls b) {u : Service} (h : recording u = b) :
    Sessions (s.calls ++ ([] : List Call).filterMap Call.voice) (recording u) := by
  rw [List.filterMap_nil, List.append_nil, h]
  exact hs

/-- A command that meets the condition keeps sessions apart. -/
theorem sessions_receive (hs : Sessions s.calls (recording s.service)) {cmd : Cmd}
    {profile : Bool} {calls : List Call} {u : Service} (hnext : s.service.next = some cmd)
    (hok : s.service.state = .START → cmd = .LOGIN ∨ cmd = .STOP)
    (h : s.service.pop.process profile cmd = (calls, u)) :
    Sessions (s.calls ++ calls.filterMap Call.voice) (recording u) := by
  have hwaiting := (next_eq_some hnext).1
  have hpop : s.service.pop.place = .waiting := hwaiting
  have hplace : s.service.place ≠ .started := fun h ↦ nomatch hwaiting.symm.trans h
  have hignored : recording s.service.pop = recording s.service := by
    rw [recording_iff hpop, recording_iff hwaiting]
    rfl
  cases cmd with
  | LOGIN =>
    rw [process] at h
    split_ifs at h with hidle
    · obtain ⟨rfl, rfl⟩ := Prod.mk.inj h
      -- an idle task has no recording
      rw [recording_eq_false hplace fun h ↦ nomatch hidle.symm.trans h] at hs
      have hcalls : (duerLogin profile).filterMap Call.voice = [] := by
        rw [duerLogin]
        split_ifs <;> rfl
      rw [hcalls, ← List.filterMap_nil]
      exact sessions_same hs (recording_eq_false hplace nofun)
    · obtain ⟨rfl, rfl⟩ := Prod.mk.inj h
      exact sessions_same hs hignored
  | CONNECTED =>
    obtain ⟨rfl, rfl⟩ := Prod.mk.inj h
    rw [recording_eq_false hplace fun h ↦ (hok h).elim nofun nofun] at hs
    exact sessions_same hs (recording_eq_false hplace nofun)
  | START =>
    rw [process] at h
    split_ifs at h
    · obtain ⟨rfl, rfl⟩ := Prod.mk.inj h
      exact sessions_same hs hignored
    · obtain ⟨rfl, rfl⟩ := Prod.mk.inj h
      rw [recording_eq_false hplace fun h ↦ (hok h).elim nofun nofun] at hs
      exact hs.start
  | STOP =>
    rw [process] at h
    split_ifs at h with hstate
    · obtain ⟨rfl, rfl⟩ := Prod.mk.inj h
      have hstate : s.service.state = .START := hstate
      rw [recording_iff hwaiting, decide_eq_true hstate] at hs
      -- the recording is over before `duer_state` says so
      have hstopped : recording { s.service.pop with place := .stopped } = false := by
        rw [recording]
        exact Bool.and_false _
      rw [hstopped]
      exact hs.stop
    · obtain ⟨rfl, rfl⟩ := Prod.mk.inj h
      exact sessions_same hs hignored
  | QUIT =>
    obtain ⟨rfl, rfl⟩ := Prod.mk.inj h
    rw [recording_eq_false hplace fun h ↦ (hok h).elim nofun nofun] at hs
    exact sessions_same hs (recording_quit hpop)

theorem sessions_step (hs : Sessions s.calls (recording s.service)) (hok : s.Closes op)
    (h : s.step op = some t) : Sessions t.calls (recording t.service) := by
  obtain ⟨⟨calls, u⟩, hu, rfl⟩ := Option.map_eq_some_iff.mp h
  by_cases hother : op.isOther = true
  · obtain ⟨rfl, hkeeps⟩ := step_keeps hother hu
    exact sessions_same hs (by rw [recording, recording, hkeeps.place, hkeeps.state])
  cases op with
  | expire =>
    obtain ⟨rfl, rfl⟩ := step_expire hu
    exact sessions_same hs rfl
  | callback =>
    obtain ⟨rfl, p, -, rfl⟩ := step_callback hu
    cases p with
    | _ => exact sessions_same hs rfl
  | receive profile =>
    obtain ⟨cmd, hnext, hprocess⟩ := step_receive hu
    exact sessions_receive hs hnext (hok cmd hnext) hprocess
  | proceed =>
    obtain ⟨rfl, ⟨hplace, rfl⟩ | ⟨hplace, rfl⟩ | ⟨hplace, rfl⟩⟩ := step_proceed hu
    · -- the task goes on, and the recording is as before
      refine sessions_same hs ?_
      rw [recording, recording, hplace]
      rfl
    · refine sessions_same hs ?_
      rw [recording, recording, hplace]
      rfl
    · refine sessions_same hs ?_
      rw [recording, recording, hplace]
      exact (Bool.and_false _).symm
  | _ => exact absurd rfl hother

end Voice

/-- Each beginning of speech has an end before the next. -/
def delimited (speaking : Bool) : List Op → Bool
  | [] => !speaking
  | .record .VAD_START :: ops => !speaking && delimited true ops
  | .record .VAD_STOP :: ops | .record .WAKEUP_END :: ops => delimited false ops
  | _ :: ops => delimited speaking ops

/-- **Starts and stops are paired in a run in which the task takes nothing but logins and ends while
there is a recording.** -/
theorem paired_of_run {ops : List Op} {s : Voice} (h : Run Voice.step Voice.Closes .init ops s) :
    Paired s.calls := by
  refine (h.invariant (I := fun s ↦ Sessions s.calls (Voice.recording s.service)) ?_ .nil).paired
  exact fun s op t hs hok hstep ↦ Voice.sessions_step hs hok hstep

/-- The user says one thing, the task keeps up, and the user says another. -/
theorem paired_twice : ∃ s, Run Voice.step Voice.Closes .init
    [.notify .WIFI_GOT_IP, .access, .access, .access, .receive true, .event .STARTED,
      .receive true, .record .VAD_START, .receive true, .proceed, .proceed, .record .VAD_STOP,
      .recordSend, .receive true, .proceed, .record .VAD_START, .receive true] s ∧
    Paired s.calls := by
  have hrun : Run Voice.step Voice.Closes .init
      [.notify .WIFI_GOT_IP, .access, .access, .access, .receive true, .event .STARTED,
        .receive true, .record .VAD_START, .receive true, .proceed, .proceed, .record .VAD_STOP,
        .recordSend, .receive true, .proceed, .record .VAD_START, .receive true] _ :=
    .cons trivial rfl <| .cons trivial rfl <| .cons trivial rfl <| .cons trivial rfl <|
    .cons (fun _ _ ↦ nofun) rfl <| .cons trivial rfl <| .cons (fun _ _ ↦ nofun) rfl <|
    .cons trivial rfl <| .cons (fun _ _ ↦ nofun) rfl <| .cons trivial rfl <|
    .cons trivial rfl <| .cons trivial rfl <| .cons trivial rfl <|
    .cons (fun _ hnext _ ↦ .inr (Option.some.inj hnext).symm) rfl <| .cons trivial rfl <|
    .cons trivial rfl <| .cons (fun _ _ ↦ nofun) rfl <| .nil _
  exact ⟨_, hrun, paired_of_run hrun⟩

/-- The user says one word, which is over before the task takes the start. -/
theorem not_paired_oneWord : ¬∀ ops s, delimited false ops = true →
    AnyRun Voice.step .init ops s → Paired s.calls := by
  intro h
  have hpaired := h [.notify .WIFI_GOT_IP, .access, .access, .access, .receive true,
      .event .STARTED, .receive true, .record .VAD_START, .record .VAD_STOP, .receive true,
      .proceed, .proceed, .record .VAD_START, .record .VAD_STOP, .receive true] _ rfl <|
    anyRun_of_foldlM rfl
  exact absurd (hpaired.between [] [] [] rfl List.not_mem_nil) (by decide)

end Ddmz.Duer
