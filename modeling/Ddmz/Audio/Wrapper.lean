import Ddmz.Foundation.Runs
import Ddmz.Alert.Player

/-!
# Who is told that a playback has ended

The player posts a status for every playback that ends, to a queue that `duer_audio_wrapper_task`
reads. A status does not say whose it is. The task takes it from `speech_type`, which every request
for a playback writes, after it has called the player: what has been playing until then is stopped
by the call, and its status may be read when `speech_type` says something else already.

Here a step is one statement of a request or of the task. The player ends playbacks in the order in
which they have been started, and at any time; what the calls that stop, pause or resume a playback
do is among that. `s_mutex`, which is only held for single reads and writes, is left out.

The task is right about a terminal status if `speech_type` fits the playback when it is tested:
`attributed_of_run`. Detection is not left suspended if the status of the last tone is tested with
`speech_type` still that of a tone: `detects_of_run`.
-/

namespace Ddmz.Audio

open Alert

/-! ## The requests -/

/-- What a request does, statement by statement. -/
inductive Stmt
  /-- `EspAudioTonePlay` or `EspAudioPlay`, and what for. -/
  | play (kind : AudioType)
  | stopTone
  | resume
  /-- `rec_engine_detect_suspend(REC_VOICE_SUSPEND_ON)`. -/
  | suspendOn
  /-- `speech_type` is written. -/
  | assign (type : AudioType)
  /-- The request is at an end unless `speech_type` is one of these. -/
  | test (types : List AudioType)
  deriving DecidableEq

def duerDcsToneHandler : List Stmt := [.play .TONE, .suspendOn, .assign .TONE]

def duerDcsSpeakHandler : List Stmt := [.play .SPEECH, .assign .SPEECH]

def duerDcsAudioPlayHandler : List Stmt := [.play .MUSIC, .assign .MUSIC]

def duerDcsAudioResumeHandler : List Stmt := [.resume, .assign .MUSIC]

def duerAudioWrapperAlertPlay (type : AudioType) : List Stmt := [.play type, .assign type]

def duerAudioWrapperAlertStop : List Stmt :=
  [.test [.ALERT_SPEECH, .ALERT_RINGING], .stopTone, .assign .UNKOWN]

def duerAudioWrapperSetType (num : AudioType) : List Stmt := [.assign num]

/-- The end of `DeviceEvtNotifiedToRecog`, when a key has been touched. -/
def deviceEvtNotifiedToRecog : List Stmt := .test [.ALERT_SPEECH] :: duerAudioWrapperAlertStop

/-- `rec_engine_cb` on `REC_EVENT_WAKEUP_START`. -/
def recEngineCb : List Stmt :=
  duerDcsToneHandler ++ .test [.SPEECH] :: .stopTone :: duerAudioWrapperSetType .UNKOWN

inductive Request
  | tone
  | speak
  | audioPlay
  | audioResume
  /-- An alert plays a tone of its own, or the alarm tone. -/
  | alert (ringing : Bool)
  | alertStop
  | touch
  | setType (num : AudioType)
  | wakeup

def Request.stmts : Request → List Stmt
  | .tone => duerDcsToneHandler
  | .speak => duerDcsSpeakHandler
  | .audioPlay => duerDcsAudioPlayHandler
  | .audioResume => duerDcsAudioResumeHandler
  | .alert ringing => duerAudioWrapperAlertPlay (if ringing then .ALERT_RINGING else .ALERT_SPEECH)
  | .alertStop => duerAudioWrapperAlertStop
  | .touch => deviceEvtNotifiedToRecog
  | .setType num => duerAudioWrapperSetType num
  | .wakeup => recEngineCb

/-! ## The task -/

/-- A playback, which only the player knows. -/
structure Playback where
  id : ℕ
  kind : AudioType
  deriving DecidableEq

structure PlayerStatus where
  playback : Playback
  status : AudioStatus
  deriving DecidableEq

/-- Where `duer_audio_wrapper_task` is, with what it has received. -/
inductive TaskPc
  | receive
  | testSpeech (player : PlayerStatus)
  | setUnknown (player : PlayerStatus)
  | speechOnFinished (player : PlayerStatus)
  | testMusic (player : PlayerStatus)
  | audioOnFinished (player : PlayerStatus)
  | testTone (player : PlayerStatus)
  | suspendOff (player : PlayerStatus)
  | callback (player : PlayerStatus)
  deriving DecidableEq

/-- The playback that the status is the end of. -/
def PlayerStatus.ended (player : PlayerStatus) : List Playback :=
  if isTerminal player.status then [player.playback] else []

inductive Suspend
  | REC_VOICE_SUSPEND_OFF
  | REC_VOICE_SUSPEND_ON
  deriving DecidableEq

/-! ## The system -/

structure Wrapper where
  speechType : AudioType
  /-- The last call of `rec_engine_detect_suspend`. -/
  suspend : Option Suspend
  /-- How many playbacks have been started. -/
  started : ℕ
  /-- The playbacks that have been started, and whose terminal status has not been posted. -/
  playing : List Playback
  que : List PlayerStatus
  task : TaskPc
  /-- What the requests that have begun have yet to do. -/
  request : ℕ → List Stmt
  /-- On whose status `duer_dcs_speech_on_finished` has been called. -/
  speechFinished : List Playback
  /-- On whose status `duer_dcs_audio_on_finished` has been called. -/
  audioFinished : List Playback
  /-- With whose terminal status the task is done. -/
  handled : List Playback

inductive WrapperAction
  | request (i : ℕ) (request : Request)
  | advance (i : ℕ)
  | post (playback : Playback) (status : AudioStatus)
  | task

namespace Wrapper

def init : Wrapper := ⟨.UNKOWN, none, 0, [], [], .receive, fun _ ↦ [], [], [], []⟩

/-- The effect of a statement, and what there is left to do. -/
def exec (s : Wrapper) (rest : List Stmt) : Stmt → Wrapper × List Stmt
  | .play kind =>
    ({ s with playing := s.playing ++ [⟨s.started, kind⟩], started := s.started + 1 }, rest)
  | .stopTone => (s, rest)
  | .resume => (s, rest)
  | .suspendOn => ({ s with suspend := some .REC_VOICE_SUSPEND_ON }, rest)
  | .assign type => ({ s with speechType := type }, rest)
  | .test types => (s, if s.speechType ∈ types then rest else [])

def advance (s : Wrapper) (i : ℕ) : Option Wrapper :=
  match s.request i with
  | [] => none
  | stmt :: rest =>
    some { (s.exec rest stmt).1 with
      request := Function.update s.request i (s.exec rest stmt).2 }

/-- The first of the playbacks ends, or something is told of any of them. -/
def post (s : Wrapper) (playback : Playback) (status : AudioStatus) : Option Wrapper :=
  if isTerminal status then
    match s.playing with
    | [] => none
    | first :: playing =>
      if first = playback then
        some { s with playing := playing, que := s.que ++ [⟨playback, status⟩] }
      else none
  else if playback ∈ s.playing then some { s with que := s.que ++ [⟨playback, status⟩] }
  else none

/-- `duer_audio_wrapper_task`. -/
def taskStep (s : Wrapper) : Option Wrapper :=
  match s.task with
  | .receive =>
    match s.que with
    | [] => none
    | player :: que =>
      some { s with
        que := que
        task := if isTerminal player.status then .testSpeech player else .callback player }
  | .testSpeech player =>
    some { s with
      task := if s.speechType = .SPEECH then .setUnknown player else .testMusic player }
  | .setUnknown player =>
    some { s with speechType := .UNKOWN, task := .speechOnFinished player }
  | .speechOnFinished player =>
    some { s with
      speechFinished := s.speechFinished ++ [player.playback], task := .callback player }
  | .testMusic player =>
    some { s with
      task := if s.speechType = .MUSIC then .audioOnFinished player else .testTone player }
  | .audioOnFinished player =>
    some { s with
      audioFinished := s.audioFinished ++ [player.playback], task := .callback player }
  | .testTone player =>
    some { s with
      task := if s.speechType = .TONE then .suspendOff player else .callback player }
  | .suspendOff player =>
    some { s with suspend := some .REC_VOICE_SUSPEND_OFF, task := .callback player }
  | .callback player =>
    some { s with handled := s.handled ++ player.ended, task := .receive }

def step (s : Wrapper) : WrapperAction → Option Wrapper
  | .request i request =>
    match s.request i with
    | [] => some { s with request := Function.update s.request i request.stmts }
    | _ => none
  | .advance i => s.advance i
  | .post playback status => s.post playback status
  | .task => s.taskStep

end Wrapper

/-! ## Playbacks and statuses -/

/-- The terminal status about which the task is deciding, or doing something. -/
def TaskPc.terminal : TaskPc → Option PlayerStatus
  | .receive | .callback _ => none
  | .testSpeech player | .setUnknown player | .speechOnFinished player | .testMusic player
  | .audioOnFinished player | .testTone player | .suspendOff player => some player

/-- The playback whose terminal status the task has. -/
def TaskPc.inHand : TaskPc → List Playback
  | .receive => []
  | .callback player => player.ended
  | .testSpeech player | .setUnknown player | .speechOnFinished player | .testMusic player
  | .audioOnFinished player | .testTone player | .suspendOff player => [player.playback]

/-- The playback about which `duer_dcs_speech_on_finished` has been called by now, if it is. -/
def TaskPc.told : TaskPc → List Playback
  | .receive | .testSpeech _ | .setUnknown _ | .speechOnFinished _ => []
  | .callback player => player.ended
  | .testMusic player | .audioOnFinished player | .testTone player | .suspendOff player =>
    [player.playback]

/-- The status about which `duer_dcs_speech_on_finished` is about to be called. -/
def TaskPc.tells : TaskPc → Option PlayerStatus
  | .setUnknown player | .speechOnFinished player => some player
  | _ => none

/-- The status about which `duer_dcs_audio_on_finished` is about to be called. -/
def TaskPc.tellsMusic : TaskPc → Option PlayerStatus
  | .audioOnFinished player => some player
  | _ => none

/-- The terminal status that may still turn out to be that of a tone. -/
def TaskPc.undecided : TaskPc → Option PlayerStatus
  | .testSpeech player | .testMusic player | .testTone player => some player
  | _ => none

theorem TaskPc.told_sublist (task : TaskPc) : task.told.Sublist task.inHand := by
  cases task with
  | receive => exact .slnil
  | testSpeech player => exact List.nil_sublist _
  | setUnknown player => exact List.nil_sublist _
  | speechOnFinished player => exact List.nil_sublist _
  | _ => exact List.Sublist.refl _

theorem TaskPc.inHand_of_terminal {task : TaskPc} {player : PlayerStatus}
    (h : task.terminal = some player) : task.inHand = [player.playback] := by
  cases task with
  | receive => cases h
  | callback player' => cases h
  | _ =>
    cases h
    rfl

theorem ended_of_terminal {player : PlayerStatus} (h : isTerminal player.status = true) :
    player.ended = [player.playback] := if_pos h

theorem ended_of_not_terminal {player : PlayerStatus} (h : ¬isTerminal player.status = true) :
    player.ended = [] := if_neg h

namespace Wrapper

/-- The playbacks whose terminal status the task has not received. -/
def awaited (s : Wrapper) : List Playback := s.que.flatMap PlayerStatus.ended ++ s.playing

/-- Where the playbacks are, which the task only moves on. -/
def places (s : Wrapper) : List Playback := s.handled ++ s.task.inHand ++ s.awaited

/-- Every playback is in one place, in the order in which they have been started, and the task
decides only about what has ended. -/
structure Ordered (s : Wrapper) : Prop where
  order : s.places.map Playback.id = List.range s.started
  terminal : ∀ player, s.task.terminal = some player → isTerminal player.status = true

theorem ordered_init : Ordered init := ⟨rfl, nofun⟩

section Steps

variable {s t : Wrapper} {i : ℕ} {playback : Playback} {status : AudioStatus}

/-- A statement starts a playback, or none. -/
theorem exec_cases (s : Wrapper) (rest : List Stmt) (stmt : Stmt) :
    (∃ kind, stmt = .play kind ∧ (s.exec rest stmt).1 =
        { s with playing := s.playing ++ [⟨s.started, kind⟩], started := s.started + 1 }) ∨
      (stmt = .suspendOn ∧ (s.exec rest stmt).1 =
        { s with suspend := some .REC_VOICE_SUSPEND_ON }) ∨
      (∃ type, stmt = .assign type ∧ (s.exec rest stmt).1 = { s with speechType := type }) ∨
      (s.exec rest stmt).1 = s := by
  cases stmt with
  | play kind => exact .inl ⟨kind, rfl, rfl⟩
  | suspendOn => exact .inr (.inl ⟨rfl, rfl⟩)
  | assign type => exact .inr (.inr (.inl ⟨type, rfl, rfl⟩))
  | stopTone => exact .inr (.inr (.inr rfl))
  | resume => exact .inr (.inr (.inr rfl))
  | test types => exact .inr (.inr (.inr rfl))

/-- A statement does nothing to the task, and tells nobody anything. -/
theorem exec_frame (s : Wrapper) (rest : List Stmt) (stmt : Stmt) :
    (s.exec rest stmt).1.speechFinished = s.speechFinished ∧
      (s.exec rest stmt).1.handled = s.handled ∧ (s.exec rest stmt).1.task = s.task ∧
      (s.exec rest stmt).1.audioFinished = s.audioFinished := by
  cases stmt with
  | _ => exact ⟨rfl, rfl, rfl, rfl⟩

theorem advance_eq_some (h : s.advance i = some t) : ∃ stmt rest,
    s.request i = stmt :: rest ∧ t = { (s.exec rest stmt).1 with
      request := Function.update s.request i (s.exec rest stmt).2 } := by
  rw [advance] at h
  split at h
  · cases h
  · next stmt rest hreq => exact ⟨stmt, rest, hreq, (Option.some.inj h).symm⟩

/-- What is awaited stays so when something is posted. -/
theorem post_eq_some (h : s.post playback status = some t) : ∃ playing,
    t = { s with playing := playing, que := s.que ++ [⟨playback, status⟩] } ∧
      t.awaited = s.awaited := by
  rw [post] at h
  split at h
  · next hterminal =>
    cases hplaying : s.playing with
    | nil =>
      rw [hplaying] at h
      cases h
    | cons first playing =>
      rw [hplaying] at h
      obtain ⟨rfl, h⟩ := Option.ite_none_right_eq_some.mp h
      obtain rfl := Option.some.inj h
      refine ⟨playing, rfl, ?_⟩
      rw [awaited, awaited, List.flatMap_append, List.flatMap_singleton,
        ended_of_terminal hterminal, hplaying, List.append_assoc, List.singleton_append]
  · next hterminal =>
    obtain ⟨-, h⟩ := Option.ite_none_right_eq_some.mp h
    obtain rfl := Option.some.inj h
    refine ⟨s.playing, rfl, ?_⟩
    rw [awaited, awaited, List.flatMap_append, List.flatMap_singleton,
      ended_of_not_terminal hterminal, List.append_nil]

/-- What the task receives is no longer awaited. -/
theorem awaited_receive {player : PlayerStatus} {que : List PlayerStatus}
    (hque : s.que = player :: que) :
    s.awaited = player.ended ++ ({ s with que := que } : Wrapper).awaited := by
  rw [awaited, hque, List.flatMap_cons, List.append_assoc, awaited]

theorem Ordered.congr (h : Ordered s) (hstarted : t.started = s.started)
    (hplaces : t.places = s.places)
    (hterminal : ∀ player, t.task.terminal = some player → isTerminal player.status = true) :
    Ordered t := by
  refine ⟨?_, hterminal⟩
  rw [hplaces, hstarted]
  exact h.order

theorem Ordered.play (h : Ordered s) (kind : AudioType) : Ordered
    { s with playing := s.playing ++ [⟨s.started, kind⟩], started := s.started + 1 } := by
  refine ⟨?_, h.terminal⟩
  have horder := h.order
  rw [places, awaited] at horder ⊢
  rw [List.range_succ, ← horder]
  simp only [List.map_append, List.map_cons, List.map_nil, List.append_assoc]

theorem Ordered.exec (h : Ordered s) (rest : List Stmt) (stmt : Stmt) :
    Ordered (s.exec rest stmt).1 := by
  rcases s.exec_cases rest stmt with ⟨kind, -, heq⟩ | ⟨-, heq⟩ | ⟨type, -, heq⟩ | heq
  · rw [heq]
    exact h.play kind
  · rw [heq]
    exact h.congr rfl rfl h.terminal
  · rw [heq]
    exact h.congr rfl rfl h.terminal
  · rw [heq]
    exact h

theorem Ordered.advance (h : Ordered s) (hstep : s.advance i = some t) : Ordered t := by
  obtain ⟨stmt, rest, -, rfl⟩ := advance_eq_some hstep
  exact (h.exec rest stmt).congr rfl rfl (h.exec rest stmt).terminal

theorem Ordered.post (h : Ordered s) (hstep : s.post playback status = some t) : Ordered t := by
  obtain ⟨playing, rfl, hawaited⟩ := post_eq_some hstep
  exact h.congr rfl (by rw [places, places, hawaited]) h.terminal

/-- What a step of the task can be. -/
inductive TaskStep (s : Wrapper) : Wrapper → Prop
  | receive (player : PlayerStatus) (que : List PlayerStatus) (htask : s.task = .receive)
      (hque : s.que = player :: que) (hterminal : isTerminal player.status = true) :
      TaskStep s { s with que := que, task := .testSpeech player }
  | receiveOther (player : PlayerStatus) (que : List PlayerStatus) (htask : s.task = .receive)
      (hque : s.que = player :: que) (hterminal : ¬isTerminal player.status = true) :
      TaskStep s { s with que := que, task := .callback player }
  | speech (player : PlayerStatus) (htask : s.task = .testSpeech player)
      (htype : s.speechType = .SPEECH) : TaskStep s { s with task := .setUnknown player }
  | notSpeech (player : PlayerStatus) (htask : s.task = .testSpeech player)
      (htype : s.speechType ≠ .SPEECH) : TaskStep s { s with task := .testMusic player }
  | setUnknown (player : PlayerStatus) (htask : s.task = .setUnknown player) :
      TaskStep s { s with speechType := .UNKOWN, task := .speechOnFinished player }
  | speechOnFinished (player : PlayerStatus) (htask : s.task = .speechOnFinished player) :
      TaskStep s { s with
        speechFinished := s.speechFinished ++ [player.playback], task := .callback player }
  | music (player : PlayerStatus) (htask : s.task = .testMusic player)
      (htype : s.speechType = .MUSIC) : TaskStep s { s with task := .audioOnFinished player }
  | notMusic (player : PlayerStatus) (htask : s.task = .testMusic player)
      (htype : s.speechType ≠ .MUSIC) : TaskStep s { s with task := .testTone player }
  | audioOnFinished (player : PlayerStatus) (htask : s.task = .audioOnFinished player) :
      TaskStep s { s with
        audioFinished := s.audioFinished ++ [player.playback], task := .callback player }
  | tone (player : PlayerStatus) (htask : s.task = .testTone player)
      (htype : s.speechType = .TONE) : TaskStep s { s with task := .suspendOff player }
  | notTone (player : PlayerStatus) (htask : s.task = .testTone player)
      (htype : s.speechType ≠ .TONE) : TaskStep s { s with task := .callback player }
  | suspendOff (player : PlayerStatus) (htask : s.task = .suspendOff player) :
      TaskStep s { s with suspend := some .REC_VOICE_SUSPEND_OFF, task := .callback player }
  | callback (player : PlayerStatus) (htask : s.task = .callback player) :
      TaskStep s { s with handled := s.handled ++ player.ended, task := .receive }

theorem taskStep_eq_some (h : s.taskStep = some t) : TaskStep s t := by
  rw [taskStep] at h
  cases htask : s.task with
  | receive =>
    rw [htask] at h
    cases hque : s.que with
    | nil =>
      rw [hque] at h
      cases h
    | cons player que =>
      rw [hque] at h
      obtain rfl := Option.some.inj h
      by_cases hterminal : isTerminal player.status = true
      · rw [if_pos hterminal]
        exact .receive player que htask hque hterminal
      · rw [if_neg hterminal]
        exact .receiveOther player que htask hque hterminal
  | testSpeech player =>
    rw [htask] at h
    obtain rfl := Option.some.inj h
    by_cases htype : s.speechType = .SPEECH
    · rw [if_pos htype]
      exact .speech player htask htype
    · rw [if_neg htype]
      exact .notSpeech player htask htype
  | setUnknown player =>
    rw [htask] at h
    obtain rfl := Option.some.inj h
    exact .setUnknown player htask
  | speechOnFinished player =>
    rw [htask] at h
    obtain rfl := Option.some.inj h
    exact .speechOnFinished player htask
  | testMusic player =>
    rw [htask] at h
    obtain rfl := Option.some.inj h
    by_cases htype : s.speechType = .MUSIC
    · rw [if_pos htype]
      exact .music player htask htype
    · rw [if_neg htype]
      exact .notMusic player htask htype
  | audioOnFinished player =>
    rw [htask] at h
    obtain rfl := Option.some.inj h
    exact .audioOnFinished player htask
  | testTone player =>
    rw [htask] at h
    obtain rfl := Option.some.inj h
    by_cases htype : s.speechType = .TONE
    · rw [if_pos htype]
      exact .tone player htask htype
    · rw [if_neg htype]
      exact .notTone player htask htype
  | suspendOff player =>
    rw [htask] at h
    obtain rfl := Option.some.inj h
    exact .suspendOff player htask
  | callback player =>
    rw [htask] at h
    obtain rfl := Option.some.inj h
    exact .callback player htask

/-- The task goes on with the terminal status that it has. -/
theorem places_goOn {player : PlayerStatus} (h : Ordered s)
    (hplayer : s.task.terminal = some player) (hhandled : t.handled = s.handled)
    (hawaited : t.awaited = s.awaited)
    (htask : t.task.terminal = some player ∨ t.task = .callback player) :
    t.places = s.places := by
  have hnew : t.task.inHand = [player.playback] := by
    rcases htask with htask | htask
    · exact TaskPc.inHand_of_terminal htask
    · rw [htask]
      exact ended_of_terminal (h.terminal player hplayer)
  rw [places, places, hhandled, hawaited, hnew, TaskPc.inHand_of_terminal hplayer]

theorem TaskStep.places_eq (h : Ordered s) (hstep : TaskStep s t) : t.places = s.places := by
  cases hstep with
  | receive player que htask hque hterminal =>
    rw [places, places, htask, awaited_receive hque, ended_of_terminal hterminal]
    simp only [TaskPc.inHand, List.append_nil, List.append_assoc]
    rfl
  | receiveOther player que htask hque hterminal =>
    rw [places, places, htask, awaited_receive hque]
    simp only [TaskPc.inHand, ended_of_not_terminal hterminal, List.append_nil, List.nil_append]
    rfl
  | speech player htask htype => exact places_goOn h (by rw [htask]; rfl) rfl rfl (.inl rfl)
  | notSpeech player htask htype => exact places_goOn h (by rw [htask]; rfl) rfl rfl (.inl rfl)
  | setUnknown player htask => exact places_goOn h (by rw [htask]; rfl) rfl rfl (.inl rfl)
  | speechOnFinished player htask => exact places_goOn h (by rw [htask]; rfl) rfl rfl (.inr rfl)
  | music player htask htype => exact places_goOn h (by rw [htask]; rfl) rfl rfl (.inl rfl)
  | notMusic player htask htype => exact places_goOn h (by rw [htask]; rfl) rfl rfl (.inl rfl)
  | audioOnFinished player htask => exact places_goOn h (by rw [htask]; rfl) rfl rfl (.inr rfl)
  | tone player htask htype => exact places_goOn h (by rw [htask]; rfl) rfl rfl (.inl rfl)
  | notTone player htask htype => exact places_goOn h (by rw [htask]; rfl) rfl rfl (.inr rfl)
  | suspendOff player htask => exact places_goOn h (by rw [htask]; rfl) rfl rfl (.inr rfl)
  | callback player htask =>
    rw [places, places, htask]
    simp only [TaskPc.inHand, List.append_nil]
    rfl

theorem TaskStep.started_eq (hstep : TaskStep s t) : t.started = s.started := by
  cases hstep with
  | _ => rfl

/-- What the task decides about has ended. -/
theorem TaskStep.terminal (h : Ordered s) (hstep : TaskStep s t) (player : PlayerStatus)
    (hplayer : t.task.terminal = some player) : isTerminal player.status = true := by
  cases hstep with
  | receive player' que htask hque hterminal =>
    obtain rfl := Option.some.inj hplayer
    exact hterminal
  | speech player' htask htype => exact h.terminal player (by rw [htask]; exact hplayer)
  | notSpeech player' htask htype => exact h.terminal player (by rw [htask]; exact hplayer)
  | setUnknown player' htask => exact h.terminal player (by rw [htask]; exact hplayer)
  | music player' htask htype => exact h.terminal player (by rw [htask]; exact hplayer)
  | notMusic player' htask htype => exact h.terminal player (by rw [htask]; exact hplayer)
  | tone player' htask htype => exact h.terminal player (by rw [htask]; exact hplayer)
  | receiveOther | speechOnFinished | audioOnFinished | notTone | suspendOff | callback =>
    cases hplayer

theorem Ordered.task (h : Ordered s) (hstep : TaskStep s t) : Ordered t :=
  h.congr hstep.started_eq (hstep.places_eq h) (hstep.terminal h)

/-- Before the callback nothing is done with. -/
theorem TaskStep.kept (h : Ordered s) (hstep : TaskStep s t)
    (hcallback : ∀ player, s.task ≠ .callback player) :
    t.task.inHand ++ t.awaited = s.task.inHand ++ s.awaited := by
  have hhandled : t.handled = s.handled := by
    cases hstep with
    | callback player htask => exact absurd htask (hcallback player)
    | _ => rfl
  have hplaces := hstep.places_eq h
  rw [places, places, hhandled, List.append_assoc, List.append_assoc] at hplaces
  exact List.append_cancel_left hplaces

/-- The task writes `speech_type` at one place. -/
theorem TaskStep.speechType_eq (hstep : TaskStep s t) : t.speechType = s.speechType ∨
    ∃ player, s.task = .setUnknown player ∧ t.speechType = .UNKOWN := by
  cases hstep with
  | setUnknown player htask => exact .inr ⟨player, htask, rfl⟩
  | _ => exact .inl rfl

/-- A request begins. -/
theorem request_eq_some {request : Request} (h : s.step (.request i request) = some t) :
    t = { s with request := Function.update s.request i request.stmts } := by
  rw [step] at h
  split at h
  · exact (Option.some.inj h).symm
  · cases h

theorem Ordered.step {a : WrapperAction} (h : Ordered s) (hstep : s.step a = some t) :
    Ordered t := by
  cases a with
  | request i request =>
    obtain rfl := request_eq_some hstep
    exact h.congr rfl rfl h.terminal
  | advance i => exact h.advance hstep
  | post playback status => exact h.post hstep
  | task => exact h.task (taskStep_eq_some hstep)

end Steps

/-! ## Attribution -/

/-- `speech_type` is right for a playback: it is that of a speech for a speech and for nothing
else, and that of music for nothing else. -/
def FitsWhenTested (s : Wrapper) : WrapperAction → Prop
  | .task =>
    match s.task with
    | .testSpeech player => s.speechType = .SPEECH ↔ player.playback.kind = .SPEECH
    | .testMusic player => s.speechType = .MUSIC → player.playback.kind = .MUSIC
    | _ => True
  | _ => True

/-- `duer_dcs_speech_on_finished` has been called about the speeches that have ended, each once, and
`duer_dcs_audio_on_finished` only about music. -/
structure Attributed (s : Wrapper) : Prop where
  once : s.speechFinished.Nodup
  speech : ∀ p ∈ s.speechFinished, p.kind = .SPEECH ∧ p ∈ s.handled ++ s.task.inHand
  handled : ∀ p ∈ s.handled, p.kind = .SPEECH → p ∈ s.speechFinished
  music : ∀ p ∈ s.audioFinished, p.kind = .MUSIC

/-- The calls so far, and the call that comes. -/
structure Telling (s : Wrapper) : Prop where
  ordered : Ordered s
  speech : s.speechFinished =
    (s.handled ++ s.task.told).filter fun p ↦ decide (p.kind = .SPEECH)
  tells : ∀ player, s.task.tells = some player → player.playback.kind = .SPEECH
  music : ∀ p ∈ s.audioFinished, p.kind = .MUSIC
  tellsMusic : ∀ player, s.task.tellsMusic = some player → player.playback.kind = .MUSIC

section Attribution

variable {s t : Wrapper}

theorem Telling.attributed (h : Telling s) : Attributed s := by
  have hsublist : (s.handled ++ s.task.told).Sublist (s.handled ++ s.task.inHand) :=
    (List.Sublist.refl _).append s.task.told_sublist
  have hnodup : (s.places.map Playback.id).Nodup := by
    rw [h.ordered.order]
    exact List.nodup_range
  refine ⟨?_, fun p hp ↦ ?_, fun p hp hkind ↦ ?_, h.music⟩
  · rw [h.speech]
    have hall := (List.Nodup.of_map _ hnodup).of_append_left
    exact (hall.sublist hsublist).filter _
  · rw [h.speech, List.mem_filter] at hp
    exact ⟨of_decide_eq_true hp.2, hsublist.subset hp.1⟩
  · rw [h.speech, List.mem_filter]
    exact ⟨List.mem_append_left _ hp, decide_eq_true hkind⟩

/-- The task says nothing and is not about to. -/
theorem Telling.keep (h : Telling s) (hordered : Ordered t)
    (hspeech : t.speechFinished = s.speechFinished)
    (htold : (t.handled ++ t.task.told).filter (fun p ↦ decide (p.kind = .SPEECH)) =
      (s.handled ++ s.task.told).filter fun p ↦ decide (p.kind = .SPEECH))
    (haudio : t.audioFinished = s.audioFinished)
    (htells : ∀ player, t.task.tells = some player → player.playback.kind = .SPEECH)
    (htellsMusic : ∀ player, t.task.tellsMusic = some player → player.playback.kind = .MUSIC) :
    Telling t := by
  refine ⟨hordered, ?_, htells, ?_, htellsMusic⟩
  · rw [hspeech, htold]
    exact h.speech
  · rw [haudio]
    exact h.music

theorem Telling.task (h : Telling s) (hfits : s.FitsWhenTested .task) (hstep : TaskStep s t) :
    Telling t := by
  have hordered := h.ordered.task hstep
  -- what has ended counts as told once the task has passed the place where it would tell
  have hended {player : PlayerStatus} (hplayer : s.task.terminal = some player) :
      player.ended = [player.playback] := ended_of_terminal (h.ordered.terminal player hplayer)
  cases hstep with
  | receive player que htask hque hterminal =>
    refine h.keep hordered rfl ?_ rfl nofun nofun
    rw [htask]
    rfl
  | receiveOther player que htask hque hterminal =>
    refine h.keep hordered rfl ?_ rfl nofun nofun
    rw [htask]
    simp only [TaskPc.told, ended_of_not_terminal hterminal]
  | speech player htask htype =>
    rw [FitsWhenTested, htask] at hfits
    refine h.keep hordered rfl ?_ rfl ?_ nofun
    · rw [htask]
      rfl
    · rintro _ ⟨⟩
      exact hfits.mp htype
  | notSpeech player htask htype =>
    rw [FitsWhenTested, htask] at hfits
    refine h.keep hordered rfl ?_ rfl nofun nofun
    have hnot : ¬player.playback.kind = .SPEECH := mt hfits.mpr htype
    rw [htask]
    simp only [TaskPc.told, List.filter_append, List.filter_singleton, decide_eq_false hnot,
      List.filter_nil]
    rfl
  | setUnknown player htask =>
    refine h.keep hordered rfl ?_ rfl ?_ nofun
    · rw [htask]
      rfl
    · rintro _ ⟨⟩
      exact h.tells player (by rw [htask]; rfl)
  | speechOnFinished player htask =>
    have hkind := h.tells player (by rw [htask]; rfl)
    have hspeech := h.speech
    refine ⟨hordered, ?_, nofun, h.music, nofun⟩
    rw [htask] at hspeech
    simp only [TaskPc.told, List.append_nil] at hspeech
    simp only [TaskPc.told, hended (by rw [htask]; rfl), List.filter_append, ← hspeech,
      List.filter_singleton, decide_eq_true hkind]
    rfl
  | music player htask htype =>
    rw [FitsWhenTested, htask] at hfits
    refine h.keep hordered rfl ?_ rfl nofun ?_
    · rw [htask]
      rfl
    · rintro _ ⟨⟩
      exact hfits htype
  | notMusic player htask htype =>
    refine h.keep hordered rfl ?_ rfl nofun nofun
    rw [htask]
    rfl
  | audioOnFinished player htask =>
    have hspeech := h.speech
    refine ⟨hordered, ?_, nofun, fun p hp ↦ ?_, nofun⟩
    · rw [htask] at hspeech
      simp only [TaskPc.told, hended (by rw [htask]; rfl)]
      exact hspeech
    · rcases List.mem_append.mp hp with hp | hp
      · exact h.music p hp
      · rw [List.mem_singleton.mp hp]
        exact h.tellsMusic player (by rw [htask]; rfl)
  | tone player htask htype =>
    refine h.keep hordered rfl ?_ rfl nofun nofun
    rw [htask]
    rfl
  | notTone player htask htype =>
    refine h.keep hordered rfl ?_ rfl nofun nofun
    simp only [TaskPc.told, hended (by rw [htask]; rfl), htask]
  | suspendOff player htask =>
    refine h.keep hordered rfl ?_ rfl nofun nofun
    simp only [TaskPc.told, hended (by rw [htask]; rfl), htask]
  | callback player htask =>
    refine h.keep hordered rfl ?_ rfl nofun nofun
    simp only [TaskPc.told, htask, List.append_nil]

/-- Only the task tells. -/
theorem Telling.other (h : Telling s) (hordered : Ordered t)
    (hspeech : t.speechFinished = s.speechFinished) (hhandled : t.handled = s.handled)
    (htask : t.task = s.task) (haudio : t.audioFinished = s.audioFinished) : Telling t := by
  refine h.keep hordered hspeech (by rw [hhandled, htask]) haudio ?_ ?_
  · rw [htask]
    exact h.tells
  · rw [htask]
    exact h.tellsMusic

theorem Telling.step {a : WrapperAction} (h : Telling s) (hfits : s.FitsWhenTested a)
    (hstep : s.step a = some t) : Telling t := by
  have hordered := h.ordered.step hstep
  cases a with
  | request i request =>
    obtain rfl := request_eq_some hstep
    exact h.other hordered rfl rfl rfl rfl
  | advance i =>
    obtain ⟨stmt, rest, -, rfl⟩ := advance_eq_some hstep
    obtain ⟨hspeech, hhandled, htask, haudio⟩ := s.exec_frame rest stmt
    exact h.other hordered hspeech hhandled htask haudio
  | post playback status =>
    obtain ⟨playing, rfl, -⟩ := post_eq_some hstep
    exact h.other hordered rfl rfl rfl rfl
  | task => exact h.task hfits (taskStep_eq_some hstep)

theorem telling_init : Telling init where
  ordered := ordered_init
  speech := rfl
  tells := nofun
  music := nofun
  tellsMusic := nofun

end Attribution

/-! ## Detection -/

/-- A tone is playing, or its terminal status has not been received. -/
def ToneAwaited (s : Wrapper) : Prop := ∃ p ∈ s.awaited, p.kind = .TONE

/-- A tone is awaited, or its terminal status is being tested. -/
def ToneUndecided (s : Wrapper) : Prop :=
  s.ToneAwaited ∨ ∃ player, s.task.undecided = some player ∧ player.playback.kind = .TONE

/-- Detection is suspended, and this is the status of the last tone. -/
def LastTone (s : Wrapper) (player : PlayerStatus) : Prop :=
  s.suspend = some .REC_VOICE_SUSPEND_ON ∧ player.playback.kind = .TONE ∧ ¬s.ToneAwaited

/-- Detection is suspended only for a tone whose status has not been tested, and the status of the
last one is taken for that of a tone. -/
def LastToneFits (s : Wrapper) : WrapperAction → Prop
  | .advance i => ∀ rest, s.request i = .suspendOn :: rest → s.ToneUndecided
  | .task =>
    match s.task with
    | .testSpeech player => s.LastTone player → s.speechType ≠ .SPEECH
    | .testMusic player => s.LastTone player → s.speechType ≠ .MUSIC
    | .testTone player => s.LastTone player → s.speechType = .TONE
    | _ => True
  | _ => True

/-- When no tone is playing and no status is pending, detection is not suspended. -/
def Detects (s : Wrapper) : Prop :=
  (∀ p ∈ s.playing, p.kind ≠ .TONE) → s.que = [] → s.task = .receive →
    s.suspend ≠ some .REC_VOICE_SUSPEND_ON

/-- While detection is suspended, somebody will switch it on. -/
def Resuming (s : Wrapper) : Prop :=
  s.suspend = some .REC_VOICE_SUSPEND_ON → s.ToneUndecided ∨ ∃ player, s.task = .suspendOff player

section Detection

variable {s t : Wrapper}

theorem Resuming.detects (h : Resuming s) : Detects s := by
  intro hplaying hque htask hsuspend
  rcases h hsuspend with (⟨p, hp, hkind⟩ | ⟨player, hplayer, -⟩) | ⟨player, hplayer⟩
  · rw [awaited, hque] at hp
    exact hplaying p hp hkind
  · rw [htask] at hplayer
    cases hplayer
  · rw [htask] at hplayer
    cases hplayer

/-- The tones that are awaited stay so, and the task does nothing. -/
theorem Resuming.other (h : Resuming s) (hsuspend : t.suspend = s.suspend)
    (hawaited : s.awaited ⊆ t.awaited) (htask : t.task = s.task) : Resuming t := by
  intro hon
  rw [ToneUndecided, htask]
  refine (h (hsuspend ▸ hon)).imp_left (Or.imp_left ?_)
  rintro ⟨p, hp, hkind⟩
  exact ⟨p, hawaited hp, hkind⟩

/-- The task leaves a status, which is not that of the last tone. -/
theorem Resuming.leave {player : PlayerStatus} (h : Resuming s) (hsuspend : t.suspend = s.suspend)
    (hawaited : t.awaited = s.awaited) (hplayer : s.task.undecided = some player)
    (hlast : ¬s.LastTone player) : Resuming t := by
  intro hon
  rw [hsuspend] at hon
  have hkept : s.ToneAwaited → t.ToneAwaited := by
    rw [ToneAwaited, ToneAwaited, hawaited]
    exact id
  refine .inl (.inl (hkept ?_))
  rcases h hon with (hawait | ⟨player', hplayer', hkind⟩) | ⟨player', hplayer'⟩
  · exact hawait
  · obtain rfl := Option.some.inj (hplayer.symm.trans hplayer')
    exact not_not.mp fun hnot ↦ hlast ⟨hon, hkind, hnot⟩
  · rw [hplayer'] at hplayer
    cases hplayer

/-- It has none that it could leave. -/
theorem Resuming.idle (h : Resuming s) (hsuspend : t.suspend = s.suspend)
    (hawaited : t.awaited = s.awaited) (hundecided : s.task.undecided = none)
    (hoff : ∀ player, s.task ≠ .suspendOff player) : Resuming t := by
  intro hon
  rcases h (hsuspend ▸ hon) with (⟨p, hp, hkind⟩ | ⟨player, hplayer, -⟩) | ⟨player, hplayer⟩
  · exact .inl (.inl ⟨p, hawaited ▸ hp, hkind⟩)
  · rw [hundecided] at hplayer
    cases hplayer
  · exact absurd hplayer (hoff player)

/-- It tests the same status further. -/
theorem Resuming.test (h : Resuming s) (hsuspend : t.suspend = s.suspend)
    (hawaited : t.awaited = s.awaited) (hundecided : t.task.undecided = s.task.undecided)
    (hoff : ∀ player, s.task ≠ .suspendOff player) : Resuming t := by
  intro hon
  rcases h (hsuspend ▸ hon) with (⟨p, hp, hkind⟩ | hplayer) | ⟨player, hplayer⟩
  · exact .inl (.inl ⟨p, hawaited ▸ hp, hkind⟩)
  · exact .inl (.inr (hundecided ▸ hplayer))
  · exact absurd hplayer (hoff player)

theorem Resuming.task (h : Resuming s) (hfits : s.LastToneFits .task) (hstep : TaskStep s t) :
    Resuming t := by
  cases hstep with
  | receive player que htask hque hterminal =>
    intro hon
    rcases h hon with (⟨p, hp, hkind⟩ | ⟨player', hplayer', -⟩) | ⟨player', hplayer'⟩
    · rw [awaited_receive hque, ended_of_terminal hterminal, List.singleton_append,
        List.mem_cons] at hp
      -- the tone is the one received, or still awaited
      rcases hp with rfl | hp
      · exact .inl (.inr ⟨player, rfl, hkind⟩)
      · exact .inl (.inl ⟨p, hp, hkind⟩)
    · rw [htask] at hplayer'
      cases hplayer'
    · rw [htask] at hplayer'
      cases hplayer'
  | receiveOther player que htask hque hterminal =>
    refine h.idle rfl ?_ (by rw [htask]; rfl) (by rw [htask]; exact nofun)
    rw [awaited_receive hque, ended_of_not_terminal hterminal]
    rfl
  | speech player htask htype =>
    rw [LastToneFits, htask] at hfits
    exact h.leave rfl rfl (by rw [htask]; rfl) fun hlast ↦ hfits hlast htype
  | notSpeech player htask htype =>
    exact h.test rfl rfl (by rw [htask]; rfl) (by rw [htask]; exact nofun)
  | setUnknown player htask =>
    exact h.idle rfl rfl (by rw [htask]; rfl) (by rw [htask]; exact nofun)
  | speechOnFinished player htask =>
    exact h.idle rfl rfl (by rw [htask]; rfl) (by rw [htask]; exact nofun)
  | music player htask htype =>
    rw [LastToneFits, htask] at hfits
    exact h.leave rfl rfl (by rw [htask]; rfl) fun hlast ↦ hfits hlast htype
  | notMusic player htask htype =>
    exact h.test rfl rfl (by rw [htask]; rfl) (by rw [htask]; exact nofun)
  | audioOnFinished player htask =>
    exact h.idle rfl rfl (by rw [htask]; rfl) (by rw [htask]; exact nofun)
  | tone player htask htype => exact fun _ ↦ .inr ⟨player, rfl⟩
  | notTone player htask htype =>
    rw [LastToneFits, htask] at hfits
    exact h.leave rfl rfl (by rw [htask]; rfl) fun hlast ↦ htype (hfits hlast)
  | suspendOff player htask => exact nofun
  | callback player htask => exact h.idle rfl rfl (by rw [htask]; rfl) (by rw [htask]; exact nofun)

theorem Resuming.step {a : WrapperAction} (h : Resuming s) (hfits : s.LastToneFits a)
    (hstep : s.step a = some t) : Resuming t := by
  cases a with
  | request i request =>
    obtain rfl := request_eq_some hstep
    exact h.other rfl (List.Subset.refl _) rfl
  | advance i =>
    obtain ⟨stmt, rest, hrequest, rfl⟩ := advance_eq_some hstep
    rcases s.exec_cases rest stmt with ⟨kind, -, heq⟩ | ⟨rfl, heq⟩ | ⟨type, -, heq⟩ | heq
    · rw [heq]
      refine h.other rfl ?_ rfl
      exact List.append_subset.mpr ⟨List.subset_append_left _ _,
        fun p hp ↦ List.mem_append_right _ (List.mem_append_left _ hp)⟩
    · rw [heq]
      exact fun _ ↦ .inl (hfits rest hrequest)
    · rw [heq]
      exact h.other rfl (List.Subset.refl _) rfl
    · rw [heq]
      exact h.other rfl (List.Subset.refl _) rfl
  | post playback status =>
    obtain ⟨playing, rfl, hawaited⟩ := post_eq_some hstep
    exact h.other rfl (hawaited ▸ List.Subset.refl _) rfl
  | task => exact h.task hfits (taskStep_eq_some hstep)

theorem resuming_init : Resuming init := nofun

end Detection

end Wrapper

/-! ## The results -/

/-- **Every speech is told of once, when it has ended, and music is all that is told of as music**,
in every run in which `speech_type` fits when it is tested. -/
theorem attributed_of_run (as : List WrapperAction) {s : Wrapper}
    (h : Run Wrapper.step Wrapper.FitsWhenTested .init as s) : s.Attributed :=
  (h.invariant (fun _ _ _ hI hok hstep ↦ Wrapper.Telling.step hI hok hstep)
    Wrapper.telling_init).attributed

theorem attributed_oneSpeech : ∃ s : Wrapper,
    s.speechFinished = [⟨0, .SPEECH⟩] ∧ s.Attributed :=
  ⟨_, rfl, attributed_of_run [.request 0 .speak, .advance 0, .advance 0,
      .post ⟨0, .SPEECH⟩ .FINISHED, .task, .task, .task, .task, .task]
    (.cons trivial rfl <| .cons trivial rfl <| .cons trivial rfl <| .cons trivial rfl <|
      .cons trivial rfl <| .cons (iff_of_true rfl rfl) rfl <| .cons trivial rfl <|
      .cons trivial rfl <| .cons trivial rfl <| .nil _)⟩

/-- A speech interrupts music, and the end of the music is taken for that of the speech. -/
theorem not_attributed_interrupted :
    ¬∀ as s, AnyRun Wrapper.step .init as s → s.Attributed := by
  intro h
  have hattributed := h [.request 0 .audioPlay, .advance 0, .advance 0, .request 1 .speak,
      .advance 1, .post ⟨0, .MUSIC⟩ .STOP, .advance 1, .task, .task, .task, .task] _
    (anyRun_of_foldlM rfl)
  exact nomatch (hattributed.speech ⟨0, .MUSIC⟩ (List.mem_singleton.mpr rfl)).1

/-- **Detection does not stay suspended** in a run in which the status of the last tone is taken for
that of a tone. -/
theorem detects_of_run (as : List WrapperAction) {s : Wrapper}
    (h : Run Wrapper.step Wrapper.LastToneFits .init as s) : s.Detects :=
  (h.invariant (fun _ _ _ hI hok hstep ↦ Wrapper.Resuming.step hI hok hstep)
    Wrapper.resuming_init).detects

theorem detects_oneTone : ∃ s : Wrapper, s.handled = [⟨0, .TONE⟩] ∧ s.Detects :=
  ⟨_, rfl, detects_of_run [.request 0 .tone, .advance 0, .advance 0, .advance 0,
      .post ⟨0, .TONE⟩ .FINISHED, .task, .task, .task, .task, .task, .task]
    (.cons trivial rfl <| .cons nofun rfl <|
      .cons (fun _ _ ↦ .inl ⟨⟨0, .TONE⟩, List.mem_singleton.mpr rfl, rfl⟩) rfl <|
      .cons nofun rfl <| .cons trivial rfl <| .cons trivial rfl <| .cons (fun _ ↦ nofun) rfl <|
      .cons (fun _ ↦ nofun) rfl <| .cons (fun _ ↦ rfl) rfl <| .cons trivial rfl <|
      .cons trivial rfl <| .nil _)⟩

/-- A speech interrupts a tone, and the end of the tone is taken for that of the speech. -/
theorem not_detects_interrupted : ¬∀ as s, AnyRun Wrapper.step .init as s → s.Detects := by
  intro h
  have hdetects := h [.request 0 .tone, .advance 0, .advance 0, .advance 0, .request 1 .speak,
      .advance 1, .post ⟨0, .TONE⟩ .STOP, .advance 1, .task, .task, .task, .task, .task] _
    (anyRun_of_foldlM rfl)
  refine hdetects (fun p hp ↦ ?_) rfl rfl rfl
  rw [List.mem_singleton.mp hp]
  exact nofun

end Ddmz.Audio
