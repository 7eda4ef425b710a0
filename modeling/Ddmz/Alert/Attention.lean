import Ddmz.Alert.Balance
import Ddmz.Audio.Wrapper

/-!
# What rings is attended to

The alerts and the playbacks together. An alert rings until `alert_paly_status_callback` hears that
its playback has ended, which `duer_audio_wrapper_task` tells it with the type that `speech_type`
has by then. While something rings, no other alert begins; so if the task reads another type the
alert rings for ever, and is the last one.

A handler of the alerts has its effect when it takes `s_alert_mutex`, calls the player and writes
`speech_type` statement by statement, and then gives the mutex back. The task is in the callback
until the callback has done so. All else goes on in between.

`Attended` is that somebody will look after what rings. It rests on the type: while something rings
`speech_type` is that of an alert, or is about to be written, or the callback has been called
already. The condition on a run is that nobody else writes it meanwhile.
-/

namespace Ddmz.Alert

open Audio

/-! ## The system -/

/-- What the handlers of the alerts ask of the player. -/
def Output.stmts : Output → List Stmt
  | .play _ type => duerAudioWrapperAlertPlay type
  | .stop => duerAudioWrapperAlertStop
  | .report _ _ _ => []

/-- What a handler has asked for. -/
def AlertPlayer.asked (s t : AlertPlayer) : List Stmt :=
  (t.log.drop s.log.length).flatMap Output.stmts

/-- Where the task is with `alert_paly_status_callback`. -/
inductive Callback
  | idle
  /-- It has been called, and is to take the mutex. -/
  | called (player : PlayerStatus) (type : AudioType)
  /-- It has the mutex. -/
  | running

/-- The mutex is given back. If it is the callback that had it, the callback returns. -/
def Callback.back : Callback → Callback
  | .running => .idle
  | callback => callback

theorem Callback.back_eq_called {callback : Callback} {player : PlayerStatus} {type : AudioType} :
    callback.back = .called player type ↔ callback = .called player type := by
  cases callback with
  | running => exact iff_of_false nofun nofun
  | _ => exact Iff.rfl

structure Attention where
  player : AlertPlayer
  audio : Wrapper
  callback : Callback
  /-- What the handler that has `s_alert_mutex` has yet to do, if there is one. -/
  handler : Option (List Stmt)

inductive AttentionAction
  /-- A step of the player, of the task, or of a request that is not an alert's. -/
  | audio (a : WrapperAction)
  /-- A step of the alerts, but for the player's callback. -/
  | alert (a : AlertAction)
  | callback
  | handler

/-- The handler takes `s_alert_mutex`. -/
def AlertAction.locks : AlertAction → Bool
  | .push _ | .expire _ | .delete _ => true
  | _ => false

/-- The player's callback is called by the task only. -/
def AlertAction.isStatus : AlertAction → Bool
  | .status _ _ => true
  | _ => false

/-- Alerts are played by their handlers only. -/
def isAlertRequest : WrapperAction → Bool
  | .request _ (.alert _) => true
  | _ => false

namespace Attention

def init : Attention := ⟨.init, .init, .idle, none⟩

/-- The callback is called, if it has something to do. -/
def callbackOf (s : Attention) : Callback :=
  match s.audio.task with
  | .callback player =>
    if isAlert s.audio.speechType ∧ isTerminal player.status then
      .called player s.audio.speechType
    else .idle
  | _ => .idle

/-- The task goes on, unless it is in the callback. -/
def taskStep (s : Attention) : Option Attention :=
  match s.callback with
  | .idle => s.audio.taskStep.map fun audio ↦
      { s with audio := audio, callback := s.callbackOf }
  | _ => none

def audioStep (s : Attention) (a : WrapperAction) : Option Attention :=
  match a with
  | .task => s.taskStep
  | _ =>
    if isAlertRequest a then none else (s.audio.step a).map fun audio ↦ { s with audio := audio }

def alertStep (s : Attention) (a : AlertAction) : Option Attention :=
  if a.isStatus then none
  else if a.locks then
    match s.handler with
    | none => (s.player.step a).map fun player ↦
        { s with player := player, handler := some (s.player.asked player) }
    | some _ => none
  else (s.player.step a).map fun player ↦ { s with player := player }

def callbackStep (s : Attention) : Option Attention :=
  match s.callback, s.handler with
  | .called status type, none =>
    let player := s.player.alertPalyStatusCallback type status.status
    some { s with
      player := player
      callback := .running
      handler := some (s.player.asked player) }
  | _, _ => none

def handlerStep (s : Attention) : Option Attention :=
  match s.handler with
  | none => none
  | some [] => some { s with handler := none, callback := s.callback.back }
  | some (stmt :: rest) =>
    some { s with
      audio := (s.audio.exec rest stmt).1
      handler := some (s.audio.exec rest stmt).2 }

def step (s : Attention) : AttentionAction → Option Attention
  | .audio a => s.audioStep a
  | .alert a => s.alertStep a
  | .callback => s.callbackStep
  | .handler => s.handlerStep

/-! ## Attention -/

/-- What the handler that has the mutex has yet to do. -/
def stmts (s : Attention) : List Stmt := s.handler.getD []

/-- An alert is about to be played. -/
def AboutToPlay (s : Attention) : Prop := ∃ type, isAlert type = true ∧ .play type ∈ s.stmts

/-- `speech_type` is about to be that of an alert. -/
def AboutToWrite (s : Attention) : Prop := ∃ type, isAlert type = true ∧ .assign type ∈ s.stmts

/-- The terminal status of an alert's playback is being told, with the type of an alert. -/
def BeingTold (s : Attention) : Prop := ∃ player type, s.callback = .called player type ∧
  isAlert type = true ∧ isTerminal player.status = true ∧ isAlert player.playback.kind = true

/-- The terminal status of an alert's playback has been posted, and not told. -/
def Pending (s : Attention) : Prop :=
  ∃ p ∈ s.audio.que.flatMap PlayerStatus.ended ++ s.audio.task.inHand, isAlert p.kind = true

/-- Nothing rings that the type is needed for, or it will be written again. -/
def MayWrite (s : Attention) (type : AudioType) : Prop :=
  isAlert type = true ∨ s.player.ringingAlertNode = none ∨ s.BeingTold ∨ s.AboutToWrite

/-- The end of an alert's playback is told with the type of an alert, or is not what the alert that
rings is waiting for. -/
def MayTell (s : Attention) : Prop :=
  isAlert s.audio.speechType = true ∨ s.player.ringingAlertNode = none ∨ s.AboutToPlay ∨
    ∃ p ∈ s.audio.awaited, isAlert p.kind = true

/-- Nobody but an alert writes `speech_type` while an alert needs it, and the end of an alert's
playback is not told before its handler has written it. -/
def Undisturbed (s : Attention) : AttentionAction → Prop
  | .audio (.advance i) =>
    ∀ type rest, s.audio.request i = .assign type :: rest → s.MayWrite type
  | .audio .task =>
    match s.audio.task with
    | .setUnknown _ => s.MayWrite .UNKOWN
    | .callback player =>
      isTerminal player.status = true → isAlert player.playback.kind = true → s.MayTell
    | _ => True
  | _ => True

end Attention

/-! ## What the handlers ask for -/

namespace AlertPlayer

section Asked

variable {s t u : AlertPlayer} {n : ℕ} {alert : AlertData} {new : List Output}

theorem asked_eq (h : t.log = s.log ++ new) : s.asked t = new.flatMap Output.stmts := by
  rw [asked, h, List.drop_left]

/-- The player is asked to play for an alert. -/
def AsksToPlay (stmts : List Stmt) : Prop :=
  ∃ type, isAlert type = true ∧ stmts = duerAudioWrapperAlertPlay type

theorem asksToPlay_playback (alert : AlertData) : AsksToPlay alert.playback.stmts := by
  rw [AlertData.playback]
  split
  · exact ⟨.ALERT_SPEECH, rfl, rfl⟩
  · exact ⟨.ALERT_RINGING, rfl, rfl⟩

/-- There have been no more than reports. -/
def Reports (s t : AlertPlayer) : Prop :=
  ∃ new, t.log = s.log ++ new ∧ new.flatMap Output.stmts = []

theorem Reports.refl (s : AlertPlayer) : Reports s s := ⟨[], (List.append_nil _).symm, rfl⟩

theorem Reports.trans (h₁ : Reports s t) (h₂ : Reports t u) : Reports s u := by
  obtain ⟨new₁, hlog₁, hnew₁⟩ := h₁
  obtain ⟨new₂, hlog₂, hnew₂⟩ := h₂
  refine ⟨new₁ ++ new₂, by rw [hlog₂, hlog₁, List.append_assoc], ?_⟩
  rw [List.flatMap_append, hnew₁, hnew₂, List.append_nil]

/-- A report is one more, whatever else there is in the state. -/
theorem Reports.report (h : Reports s t) {a : Option ℕ} {token : Option Str} {e : AlertEvent}
    (hlog : u.log = t.log ++ [.report a token e]) : Reports s u :=
  h.trans ⟨_, hlog, rfl⟩

theorem Reports.asked (h : Reports s t) : s.asked t = [] := by
  obtain ⟨new, hlog, hnew⟩ := h
  rw [asked_eq hlog, hnew]

/-- What is asked for after that. -/
theorem Reports.asked_emit {o : Output} (h : Reports s t) (hlog : u.log = t.log ++ [o]) :
    s.asked u = o.stmts := by
  obtain ⟨new, ht, hnew⟩ := h
  have hu : u.log = s.log ++ (new ++ [o]) := by rw [hlog, ht, List.append_assoc]
  rw [asked_eq hu, List.flatMap_append, hnew, List.flatMap_singleton, List.nil_append]

theorem Reports.asked_play {url : Str} {type : AudioType} (h : Reports s t)
    (hlog : u.log = t.log ++ [.play url type]) : s.asked u = duerAudioWrapperAlertPlay type :=
  h.asked_emit hlog

theorem reports_deactivate (s : AlertPlayer) (n : ℕ) (alert : AlertData) :
    Reports s (s.deactivate n alert) := (Reports.refl s).report rfl

theorem reports_stopAll (s : AlertPlayer) : Reports s s.stopAll := by
  fun_induction stopAll s with
  | case1 s hfind => exact .refl s
  | case2 s n hfind hdata => exact .refl s
  | case3 s n hfind alert hdata ih => exact (s.reports_deactivate n alert).trans ih

/-- A callback of the player stops the ringing, or asks to play. -/
def Answers (s t : AlertPlayer) : Prop :=
  (t.ringingAlertNode = none ∧ s.asked t = []) ∨ AsksToPlay (s.asked t)

/-- The search for the next one is the last thing a callback does. -/
theorem answers_playNext (h : Placed t) (hreports : Reports s t) : Answers s t.playNext := by
  cases hfind : t.duerFindActiveAlert t.ringingAlertNode with
  | none =>
    rw [playNext_none hfind]
    exact .inl ⟨rfl, hreports.asked⟩
  | some n =>
    obtain ⟨alert, hdata, -⟩ := h.listed n (duerFindActiveAlert_some hfind).1
    rw [playNext_some hfind hdata]
    refine .inr ?_
    rw [hreports.asked_emit rfl]
    exact asksToPlay_playback alert

theorem answers_duerAudioPlayerOnFinish (h : Sound s) :
    Answers s s.duerAudioPlayerOnFinish := by
  cases hringing : s.ringingAlertNode with
  | none =>
    rw [onFinish_silent hringing]
    exact answers_playNext h.placed (.refl s)
  | some n =>
    obtain ⟨alert, hdata, -⟩ := isActive_eq_true.mp (h.ringing n hringing).2
    rw [onFinish_ringing hringing hdata]
    split
    · next hnext =>
      have hwrite : Reports s (s.write n (some (alert.nextTone hnext))) := .refl s
      exact .inr ⟨.ALERT_SPEECH, rfl, hwrite.asked_play rfl⟩
    · split
      · exact answers_playNext (h.placed.deactivate hdata rfl rfl) (s.reports_deactivate n _)
      · exact answers_playNext (h.overwrite alert.nextPass hdata rfl rfl rfl).placed (.refl s)

theorem answers_duerAudioPlayerOnError (h : Sound s) (type : AudioType) :
    Answers s (s.duerAudioPlayerOnError type) := by
  by_cases htype : type = .ALERT_RINGING
  · subst htype
    cases hringing : s.ringingAlertNode with
    | none =>
      rw [onError_silent hringing]
      exact answers_playNext h.placed (.refl s)
    | some n =>
      obtain ⟨alert, hdata, -⟩ := isActive_eq_true.mp (h.ringing n hringing).2
      rw [onError_ringing hringing hdata]
      exact answers_playNext (h.placed.deactivate hdata rfl rfl) (s.reports_deactivate n alert)
  · rw [onError_speech htype]
    exact .inr ⟨.ALERT_RINGING, rfl, (Reports.refl s).asked_play rfl⟩

/-- The callback answers what it is for. -/
theorem answers_alertPalyStatusCallback (h : Sound s) {type : AudioType} {status : AudioStatus}
    (htype : isAlert type = true) (hstatus : isTerminal status = true) :
    Answers s (s.alertPalyStatusCallback type status) := by
  unfold alertPalyStatusCallback
  rw [if_neg (by rw [← not_or, not_not]; exact isAlert_iff.mp htype)]
  cases status with
  | STOP => exact .inl ⟨rfl, (reports_stopAll s).asked⟩
  | FINISHED => exact answers_duerAudioPlayerOnFinish h
  | ERROR => exact answers_duerAudioPlayerOnError h type
  | UNKNOWN | PLAYING | PAUSED | AUX_IN => cases hstatus

/-- What the other handlers do: they leave what rings alone and ask for nothing, or they stop it, or
they begin to play. -/
def LeavesOrPlays (s t : AlertPlayer) : Prop :=
  (t.ringingAlertNode = s.ringingAlertNode ∧ s.asked t = []) ∨ t.ringingAlertNode = none ∨
    AsksToPlay (s.asked t)

theorem leavesOrPlays_expire (hstep : s.expire n = some t) : LeavesOrPlays s t := by
  obtain ⟨alert, hdata, -, rfl⟩ := onAlert_eq_some hstep
  have hstart : Reports s
      ((s.write n (some { alert with isActive := true, expired := true })).report n alert
        .ALERT_START) := (Reports.refl s).report rfl
  rw [duerAlertCallback]
  split
  · exact .inl ⟨rfl, hstart.asked⟩
  · split
    · refine .inr (.inr ?_)
      rw [hstart.asked_emit rfl]
      exact asksToPlay_playback alert
    · exact .inl ⟨rfl, hstart.asked⟩

theorem leavesOrPlays_delete (token : Str) :
    LeavesOrPlays s (s.duerDcsAlertDeleteHandler token) := by
  cases hfind : s.duerFindTargetAlertNode token with
  | none =>
    rw [delete_missing hfind]
    exact .inl ⟨rfl, Reports.asked ((Reports.refl s).report rfl)⟩
  | some n =>
    obtain ⟨-, alert, hdata, -⟩ := duerFindTargetAlertNode_some hfind
    have hringing := ringing_delete hfind hdata
    by_cases hn : s.ringingAlertNode = some n
    · exact .inr (.inl (hringing.trans (if_pos hn)))
    · rw [if_neg hn] at hringing
      refine .inl ⟨hringing, Reports.asked ?_⟩
      rw [delete_found hfind hdata, stopTarget, stopRinging, if_neg hn]
      split
      · exact ((Reports.refl s).report rfl).report rfl
      · exact (Reports.refl s).report rfl

theorem leavesOrPlays_of_locks {a : AlertAction} (hlocks : a.locks = true)
    (hstep : s.step a = some t) : LeavesOrPlays s t := by
  cases a with
  | push n =>
    obtain ⟨alert, hdata, -, rfl⟩ := onAlert_eq_some hstep
    exact .inl ⟨rfl, Reports.asked ((Reports.refl s).report rfl)⟩
  | expire n => exact leavesOrPlays_expire hstep
  | delete token =>
    obtain rfl := Option.some.inj hstep
    exact leavesOrPlays_delete token
  | set _ | take | fail _ | start _ | status _ _ => cases hlocks

/-- The rest of the steps leave what rings alone. -/
theorem ringing_of_not_locks {a : AlertAction} (hlocks : a.locks = false)
    (hstatus : a.isStatus = false) (hstep : s.step a = some t) :
    t.ringingAlertNode = s.ringingAlertNode := by
  cases a with
  | set directive =>
    obtain rfl := Option.some.inj hstep
    rcases s.set_cases directive with heq | ⟨token, heq⟩ | ⟨alert, -, heq⟩
    · rw [heq]
    · rw [heq]
      rfl
    · rw [heq]
      rfl
  | take =>
    rw [AlertPlayer.step, threadTake] at hstep
    split at hstep
    · cases hstep
    · obtain ⟨alert, -, rfl⟩ := Option.map_eq_some_iff.mp hstep
      rfl
  | fail n =>
    obtain ⟨alert, -, -, rfl⟩ := onAlert_eq_some hstep
    rfl
  | start n =>
    obtain ⟨alert, -, -, rfl⟩ := onAlert_eq_some hstep
    rfl
  | push _ | expire _ | delete _ => cases hlocks
  | status _ _ => cases hstatus

end Asked

end AlertPlayer

/-! ## What is invariant -/

namespace Attention

open AlertPlayer

/-- The end of an alert's playback has not been told. -/
def Outstanding (u : Wrapper) : Prop :=
  ∃ p ∈ u.task.inHand ++ u.awaited, isAlert p.kind = true

/-- What `Attended` rests on. -/
def Provided (s : Attention) : Prop :=
  s.AboutToPlay ∨ s.BeingTold ∨
    (Outstanding s.audio ∧ (isAlert s.audio.speechType = true ∨ s.AboutToWrite))

structure Inv (s : Attention) : Prop where
  sound : s.player.Sound
  ordered : s.audio.Ordered
  /-- The handler plays an alert, unless nothing rings. -/
  shape : s.player.ringingAlertNode = none ∨ s.stmts = [] ∨ ∃ type, isAlert type = true ∧
    (s.stmts = duerAudioWrapperAlertPlay type ∨ s.stmts = [.assign type])
  /-- The callback is called if it has something to do. -/
  called : ∀ player type, s.callback = .called player type →
    isAlert type = true ∧ isTerminal player.status = true
  provided : s.player.ringingAlertNode ≠ none → s.Provided

theorem inv_init : Inv init where
  sound := sound_init
  ordered := Wrapper.ordered_init
  shape := .inl rfl
  called := nofun
  provided h := absurd rfl h

section Inv

variable {s t : Attention} {u : Wrapper}

/-- No end is lost, and an alert's type is not overwritten. -/
theorem Inv.audio (h : Inv s) (hordered : u.Ordered)
    (hout : Outstanding s.audio → Outstanding u)
    (htype : isAlert s.audio.speechType = true → isAlert u.speechType = true) :
    Inv { s with audio := u } :=
  ⟨h.sound, hordered, h.shape, h.called, fun hringing ↦
    (h.provided hringing).imp_right (Or.imp_right (And.imp hout (Or.imp_left htype)))⟩

/-- The type is overwritten, which it may be. -/
theorem Inv.write {type : AudioType} (h : Inv s) (hordered : u.Ordered)
    (hout : Outstanding s.audio → Outstanding u) (hspeech : u.speechType = type)
    (hmay : s.MayWrite type) : Inv { s with audio := u } := by
  refine ⟨h.sound, hordered, h.shape, h.called, fun hringing ↦ ?_⟩
  rcases h.provided hringing with hplay | htold | ⟨hold, -⟩
  · exact .inl hplay
  · exact .inr (.inl htold)
  · rcases hmay with halert | hnone | htold | hwrite
    · exact .inr (.inr ⟨hout hold, .inl (hspeech ▸ halert)⟩)
    · exact absurd hnone hringing
    · exact .inr (.inl htold)
    · exact .inr (.inr ⟨hout hold, .inr hwrite⟩)

theorem outstanding_congr {v : Wrapper} (htask : v.task = u.task)
    (hawaited : v.awaited = u.awaited) : Outstanding u → Outstanding v := by
  rw [Outstanding, Outstanding, htask, hawaited]
  exact id

/-- A playback more. -/
theorem outstanding_play (kind : AudioType) (h : Outstanding u) : Outstanding
    { u with playing := u.playing ++ [⟨u.started, kind⟩], started := u.started + 1 } := by
  obtain ⟨p, hp, halert⟩ := h
  refine ⟨p, ?_, halert⟩
  rw [Wrapper.awaited] at hp ⊢
  simp only [List.mem_append] at hp ⊢
  tauto

theorem Inv.advance {i : ℕ} (h : Inv s)
    (hmay : ∀ type rest, s.audio.request i = .assign type :: rest → s.MayWrite type)
    (hstep : s.audio.advance i = some u) : Inv { s with audio := u } := by
  have hordered := h.ordered.advance hstep
  obtain ⟨stmt, rest, hrequest, rfl⟩ := Wrapper.advance_eq_some hstep
  rcases s.audio.exec_cases rest stmt with ⟨kind, -, heq⟩ | ⟨-, heq⟩ | ⟨type, rfl, heq⟩ | heq
  · rw [heq] at hordered ⊢
    exact h.audio hordered (outstanding_play kind) id
  · rw [heq] at hordered ⊢
    exact h.audio hordered id id
  · rw [heq] at hordered ⊢
    exact h.write hordered id rfl (hmay type rest hrequest)
  · rw [heq] at hordered ⊢
    exact h.audio hordered id id

/-- The task goes on, short of the callback. -/
theorem Inv.taskGoesOn (h : Inv s) (hstep : s.audio.TaskStep u)
    (hcallback : ∀ player, s.audio.task ≠ .callback player)
    (hmay : ∀ player, s.audio.task = .setUnknown player → s.MayWrite .UNKOWN) :
    Inv { s with audio := u } := by
  have hordered := h.ordered.task hstep
  have hout : Outstanding s.audio → Outstanding u := by
    rw [Outstanding, Outstanding, hstep.kept h.ordered hcallback]
    exact id
  rcases hstep.speechType_eq with htype | ⟨player, htask, htype⟩
  · exact h.audio hordered hout fun halert ↦ htype ▸ halert
  · exact h.write hordered hout htype (hmay player htask)

theorem called_of_callbackOf (s : Attention) (player : PlayerStatus) (type : AudioType)
    (h : s.callbackOf = .called player type) :
    isAlert type = true ∧ isTerminal player.status = true := by
  rw [callbackOf] at h
  split at h
  · split at h
    · next hhandles =>
      cases h
      exact hhandles
    · cases h
  · cases h

/-- The task tells the callback, or has nothing to tell. -/
theorem Inv.tell {player : PlayerStatus} (h : Inv s) (hidle : s.callback = .idle)
    (htask : s.audio.task = .callback player) (hstep : s.audio.taskStep = some u)
    (hmay : isTerminal player.status = true → isAlert player.playback.kind = true → s.MayTell) :
    Inv { s with audio := u, callback := s.callbackOf } := by
  have hordered := h.ordered.task (Wrapper.taskStep_eq_some hstep)
  rw [Wrapper.taskStep, htask] at hstep
  obtain rfl := Option.some.inj hstep
  refine ⟨h.sound, hordered, h.shape, s.called_of_callbackOf, fun hringing ↦ ?_⟩
  rcases h.provided hringing with hplay | ⟨_, _, hcalled, -⟩ | ⟨⟨p, hp, halert⟩, htype⟩
  · exact .inl hplay
  · rw [hidle] at hcalled
    cases hcalled
  · rw [htask] at hp
    rcases List.mem_append.mp hp with hp | hp
    · -- the end that the callback is called for is that of an alert
      obtain ⟨hterminal, hp⟩ := List.mem_ite_nil_right.mp hp
      rw [List.mem_singleton.mp hp] at halert
      by_cases hspeech : isAlert s.audio.speechType = true
      · refine .inr (.inl ⟨player, s.audio.speechType, ?_, hspeech, hterminal, halert⟩)
        rw [callbackOf, htask]
        exact if_pos ⟨hspeech, hterminal⟩
      · rcases hmay hterminal halert with hspeech' | hnone | hplay | ⟨q, hq, halert'⟩
        · exact absurd hspeech' hspeech
        · exact absurd hnone hringing
        · exact .inl hplay
        · exact .inr (.inr ⟨⟨q, hq, halert'⟩, htype⟩)
    · exact .inr (.inr ⟨⟨p, hp, halert⟩, htype⟩)

theorem taskStep_eq_some (h : s.taskStep = some t) : s.callback = .idle ∧
    ∃ u, s.audio.taskStep = some u ∧ t = { s with audio := u, callback := s.callbackOf } := by
  rw [taskStep] at h
  split at h
  · next hidle =>
    obtain ⟨u, hu, rfl⟩ := Option.map_eq_some_iff.mp h
    exact ⟨hidle, u, hu, rfl⟩
  · cases h

theorem Inv.task (h : Inv s) (hundisturbed : s.Undisturbed (.audio .task))
    (hstep : s.taskStep = some t) : Inv t := by
  obtain ⟨hidle, u, hu, rfl⟩ := taskStep_eq_some hstep
  rw [Undisturbed] at hundisturbed
  by_cases hcallback : ∃ player, s.audio.task = .callback player
  · obtain ⟨player, htask⟩ := hcallback
    rw [htask] at hundisturbed
    exact h.tell hidle htask hu hundisturbed
  · have hother : s.callbackOf = s.callback := by
      rw [callbackOf, hidle]
      split
      · next player htask => exact absurd ⟨player, htask⟩ hcallback
      · rfl
    rw [hother]
    refine h.taskGoesOn (Wrapper.taskStep_eq_some hu) (not_exists.mp hcallback) ?_
    intro player htask
    rw [htask] at hundisturbed
    exact hundisturbed

theorem audioStep_eq_some {a : WrapperAction} (h : s.audioStep a = some t) (ha : a ≠ .task) :
    ∃ u, s.audio.step a = some u ∧ t = { s with audio := u } := by
  unfold Attention.audioStep at h
  split at h
  · exact absurd rfl ha
  · obtain ⟨-, h⟩ := Option.ite_none_left_eq_some.mp h
    obtain ⟨u, hu, rfl⟩ := Option.map_eq_some_iff.mp h
    exact ⟨u, hu, rfl⟩

theorem Inv.audioStep {a : WrapperAction} (h : Inv s) (hundisturbed : s.Undisturbed (.audio a))
    (hstep : s.audioStep a = some t) : Inv t := by
  cases a with
  | task => exact h.task hundisturbed hstep
  | request i request =>
    obtain ⟨u, hu, rfl⟩ := audioStep_eq_some hstep nofun
    have hordered := h.ordered.step hu
    obtain rfl := Wrapper.request_eq_some hu
    exact h.audio hordered id id
  | advance i =>
    obtain ⟨u, hu, rfl⟩ := audioStep_eq_some hstep nofun
    exact h.advance hundisturbed hu
  | post playback status =>
    obtain ⟨u, hu, rfl⟩ := audioStep_eq_some hstep nofun
    have hordered := h.ordered.step hu
    obtain ⟨playing, rfl, hawaited⟩ := Wrapper.post_eq_some hu
    exact h.audio hordered (outstanding_congr rfl hawaited) id

/-! ### Steps of the alerts -/

theorem not_aboutToPlay (h : s.stmts = []) : ¬s.AboutToPlay := by
  rintro ⟨type, -, hmem⟩
  rw [h] at hmem
  cases hmem

theorem not_aboutToWrite (h : s.stmts = []) : ¬s.AboutToWrite := by
  rintro ⟨type, -, hmem⟩
  rw [h] at hmem
  cases hmem

/-- A handler takes the mutex: it changes nothing, or nothing rings, or it begins to play. -/
theorem Inv.lock {player : AlertPlayer} {callback : Callback} (h : Inv s)
    (hfree : s.handler = none) (hsound : player.Sound)
    (hcallback : callback = s.callback ∨ callback = .running)
    (heffect : (player.ringingAlertNode = s.player.ringingAlertNode ∧
        s.player.asked player = [] ∧ callback = s.callback) ∨
      player.ringingAlertNode = none ∨ AsksToPlay (s.player.asked player)) :
    Inv { s with
      player := player, callback := callback, handler := some (s.player.asked player) } := by
  have hstmts : s.stmts = [] := by rw [stmts, hfree]; rfl
  refine ⟨hsound, h.ordered, ?_, fun status type hcalled ↦ ?_, fun hringing ↦ ?_⟩
  · rcases heffect with ⟨-, hasked, -⟩ | hnone | ⟨type, halert, hasked⟩
    · exact .inr (.inl hasked)
    · exact .inl hnone
    · exact .inr (.inr ⟨type, halert, .inl hasked⟩)
  · rcases hcallback with hcallback | hcallback
    · exact h.called status type (hcallback ▸ hcalled)
    · exact absurd (hcallback.symm.trans hcalled) nofun
  · rcases heffect with ⟨hsame, -, rfl⟩ | hnone | ⟨type, halert, hasked⟩
    · rcases h.provided (hsame ▸ hringing) with hplay | htold | ⟨hout, htype⟩
      · exact absurd hplay (not_aboutToPlay hstmts)
      · exact .inr (.inl htold)
      · exact .inr (.inr ⟨hout, .inl (htype.resolve_right (not_aboutToWrite hstmts))⟩)
    · exact absurd hnone hringing
    · refine .inl ⟨type, halert, ?_⟩
      rw [stmts, hasked]
      exact List.mem_cons_self

theorem Inv.alertStep {a : AlertAction} (h : Inv s) (hstep : s.alertStep a = some t) : Inv t := by
  obtain ⟨hstatus, hstep⟩ := Option.ite_none_left_eq_some.mp hstep
  split at hstep
  · next hlocks =>
    split at hstep
    · next hfree =>
      obtain ⟨player, hplayer, rfl⟩ := Option.map_eq_some_iff.mp hstep
      refine h.lock hfree (h.sound.step hplayer) (.inl rfl) ?_
      exact (leavesOrPlays_of_locks hlocks hplayer).imp_left fun heffect ↦
        ⟨heffect.1, heffect.2, rfl⟩
    · cases hstep
  · next hlocks =>
    obtain ⟨player, hplayer, rfl⟩ := Option.map_eq_some_iff.mp hstep
    have hringing := ringing_of_not_locks (Bool.eq_false_iff.mpr hlocks)
      (Bool.eq_false_iff.mpr hstatus) hplayer
    refine ⟨h.sound.step hplayer, h.ordered, ?_, h.called, fun hne ↦ ?_⟩
    · rw [hringing]
      exact h.shape
    · exact h.provided (hringing ▸ hne)

theorem Inv.callbackStep (h : Inv s) (hstep : s.callbackStep = some t) : Inv t := by
  rw [Attention.callbackStep] at hstep
  split at hstep
  · next status type hcallback hfree =>
    obtain rfl := Option.some.inj hstep
    obtain ⟨halert, hterminal⟩ := h.called status type hcallback
    exact h.lock hfree (h.sound.alertPalyStatusCallback type status.status) (.inr rfl)
      (.inr ((answers_alertPalyStatusCallback h.sound halert hterminal).imp_left And.left))
  · cases hstep

/-- The handler goes on, and gives the mutex back at the end. -/
theorem Inv.handlerStep (h : Inv s) (hstep : s.handlerStep = some t) : Inv t := by
  rw [Attention.handlerStep] at hstep
  split at hstep
  · cases hstep
  · next hdone =>
    obtain rfl := Option.some.inj hstep
    have hstmts : s.stmts = [] := by rw [stmts, hdone]; rfl
    refine ⟨h.sound, h.ordered, .inr (.inl rfl), fun player type hcalled ↦ ?_, fun hringing ↦ ?_⟩
    · exact h.called player type (Callback.back_eq_called.mp hcalled)
    · rcases h.provided hringing with hplay | ⟨player, type, hcalled, htold⟩ | ⟨hout, htype⟩
      · exact absurd hplay (not_aboutToPlay hstmts)
      · exact .inr (.inl ⟨player, type, Callback.back_eq_called.mpr hcalled, htold⟩)
      · exact .inr (.inr ⟨hout, .inl (htype.resolve_right (not_aboutToWrite hstmts))⟩)
  · next stmt rest hgoes =>
    obtain rfl := Option.some.inj hstep
    have hstmts : s.stmts = stmt :: rest := by rw [stmts, hgoes]; rfl
    have hordered := h.ordered.exec rest stmt
    rcases h.shape with hnone | hempty | ⟨type, halert, hplay | hwrite⟩
    · exact ⟨h.sound, hordered, .inl hnone, h.called, fun hringing ↦ absurd hnone hringing⟩
    · exact nomatch hstmts.symm.trans hempty
    · -- the playback is started
      obtain ⟨rfl, rfl⟩ := List.cons.inj (hstmts.symm.trans hplay)
      refine ⟨h.sound, hordered, .inr (.inr ⟨type, halert, .inr rfl⟩), h.called, fun _ ↦ ?_⟩
      refine .inr (.inr ⟨⟨⟨s.audio.started, type⟩, ?_, halert⟩, .inr ⟨type, halert, ?_⟩⟩)
      · exact List.mem_append_right _ (List.mem_append_right _
          (List.mem_append_right _ List.mem_cons_self))
      · exact List.mem_cons_self
    · -- the type is written
      obtain ⟨rfl, rfl⟩ := List.cons.inj (hstmts.symm.trans hwrite)
      refine ⟨h.sound, hordered, .inr (.inl rfl), h.called, fun hringing ↦ ?_⟩
      rcases h.provided hringing with ⟨type', -, hmem⟩ | htold | ⟨hout, -⟩
      · rw [hwrite] at hmem
        cases List.mem_singleton.mp hmem
      · exact .inr (.inl htold)
      · exact .inr (.inr ⟨hout, .inl halert⟩)

theorem Inv.step {a : AttentionAction} (h : Inv s) (hundisturbed : s.Undisturbed a)
    (hstep : s.step a = some t) : Inv t := by
  cases a with
  | audio a => exact h.audioStep hundisturbed hstep
  | alert a => exact h.alertStep hstep
  | callback => exact h.callbackStep hstep
  | handler => exact h.handlerStep hstep

end Inv

end Attention

end Ddmz.Alert
