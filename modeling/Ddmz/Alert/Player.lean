import Ddmz.Foundation.RoundRobin
import Ddmz.Foundation.Runs

/-!
# The alert player

`duerapp_alert.c` keeps the alerts that have been set in `s_alert_list`, and the node of the one
that is being played in `s_ringing_alert_node`. An alert becomes active when its timer expires. The
active ones take turns: when one has been played once through, the next active node in cyclic order
follows.

A step of the system is one handler, from taking `s_alert_mutex` to giving it back. A directive
puts an alert into `s_alert_queue`. A worker thread takes it from there, starts its timer, and only
then puts it into the list; there may be several such threads, and what they learn of the time is
part of their steps. Memory is always found.

An alert is known by the number it was created under, which is what its address is to the
program, and so is its node. What the handlers report and play is kept in a log, where a report
also carries the number of the alert that it is about.
-/

namespace Ddmz.Alert

/-! ## Alerts -/

/-- A string, without its terminator. -/
abbrev Str := List UInt8

/-- `duer_audio_type_t`. -/
inductive AudioType
  | UNKOWN
  | SPEECH
  | MUSIC
  | TONE
  | ALERT_SPEECH
  | ALERT_RINGING
  deriving DecidableEq

/-- `AudioStatus`. -/
inductive AudioStatus
  | UNKNOWN
  | PLAYING
  | PAUSED
  | FINISHED
  | STOP
  | ERROR
  | AUX_IN
  deriving DecidableEq

/-- `PlayerWorkingMode`. -/
inductive PlayerWorkingMode
  | NONE
  | MUSIC
  | TONE
  | RAW
  deriving DecidableEq

/-- `duer_dcs_alert_event_type`. -/
inductive AlertEvent
  | SET_ALERT_SUCCESS
  | SET_ALERT_FAIL
  | DELETE_ALERT_SUCCESS
  | DELETE_ALERT_FAIL
  | ALERT_START
  | ALERT_STOP
  deriving DecidableEq

/-- `duer_dcs_alert_info_type`. -/
structure AlertInfo where
  type : Str
  time : Str
  token : Str
  deriving DecidableEq

/-- How far a worker thread has got with an alert. -/
inductive Stage
  /-- It is in `s_alert_queue`. -/
  | queued
  /-- A worker has taken it. -/
  | taken
  /-- Its timer has been started. -/
  | started
  /-- It is in `s_alert_list`. -/
  | listed
  deriving DecidableEq

/-- `duerapp_alert_data`. The length of `tone_tab` is `tone_count`, and the current tone is one of
them. -/
structure AlertData where
  alertInfo : AlertInfo
  toneTab : List Str
  isActive : Bool
  currentToneIndex : ℕ
  loopCount : UInt8
  stage : Stage
  /-- Whether the timer has expired, which it does once. -/
  expired : Bool
  toneCount_lt : toneTab.length < 256
  index_lt : 0 < toneTab.length → currentToneIndex < toneTab.length
  deriving DecidableEq

/-- What the handlers do to the rest of the world. -/
inductive Output
  /-- `duer_audio_wrapper_alert_play`. -/
  | play (url : Str) (type : AudioType)
  /-- `duer_audio_wrapper_alert_stop`. -/
  | stop
  /-- `duer_dcs_report_alert_event`, and the alert it is about, if there is one. -/
  | report (alert : Option ℕ) (token : Option Str) (event : AlertEvent)
  deriving DecidableEq

/-- `tone_uri[TONE_TYPE_ALARM]`. -/
def TONE_URI_ALARM : Str := "flsh:///8_Alarm.mp3".toList.map fun c ↦ UInt8.ofNat c.toNat

/-- The playback of a tone, or of the alarm tone if the alert has none. -/
def AlertData.playback (alert : AlertData) : Output :=
  if h : 0 < alert.toneTab.length then
    .play (alert.toneTab.get ⟨alert.currentToneIndex, alert.index_lt h⟩) .ALERT_SPEECH
  else .play TONE_URI_ALARM .ALERT_RINGING

/-- The next tone. -/
def AlertData.nextTone (alert : AlertData)
    (h : alert.currentToneIndex + 1 < alert.toneTab.length) : AlertData :=
  { alert with currentToneIndex := alert.currentToneIndex + 1, index_lt := fun _ ↦ h }

/-- The first tone of the next pass, of which there is one less. The count wraps around. -/
def AlertData.nextPass (alert : AlertData) : AlertData :=
  { alert with currentToneIndex := 0, index_lt := id, loopCount := alert.loopCount - 1 }

theorem AlertData.loopCount_nextPass {alert : AlertData} :
    alert.nextPass.loopCount = 0 ↔ alert.loopCount = 1 := by
  rw [nextPass]
  exact sub_eq_zero

/-! ## The state -/

/-- The alerts that have not been freed, the globals, and the log. -/
structure AlertPlayer where
  data : ℕ → Option AlertData
  alertQueue : List ℕ
  alertList : List ℕ
  ringingAlertNode : Option ℕ
  log : List Output
  /-- The number of the next alert. -/
  created : ℕ

namespace AlertPlayer

def init : AlertPlayer := ⟨fun _ ↦ none, [], [], none, [], 0⟩

/-- Write an alert, or free it. -/
def write (s : AlertPlayer) (n : ℕ) (alert : Option AlertData) : AlertPlayer :=
  { s with data := Function.update s.data n alert }

def emit (s : AlertPlayer) (output : Output) : AlertPlayer := { s with log := s.log ++ [output] }

/-- `duer_dcs_report_alert_event` for an alert. -/
def report (s : AlertPlayer) (n : ℕ) (alert : AlertData) (event : AlertEvent) : AlertPlayer :=
  s.emit (.report (some n) (some alert.alertInfo.token) event)

/-- The alert is live and active. -/
def isActive (s : AlertPlayer) (n : ℕ) : Bool := (s.data n).any AlertData.isActive

/-- `duer_find_active_alert`: one loop over the nodes behind the given one, if there is one, and
one over the list. -/
def duerFindActiveAlert (s : AlertPlayer) (node : Option ℕ) : Option ℕ :=
  cyclicFind s.isActive s.alertList node

/-- An alert stops being active, which is reported. -/
def deactivate (s : AlertPlayer) (n : ℕ) (alert : AlertData) : AlertPlayer :=
  (s.write n (some { alert with isActive := false })).report n alert .ALERT_STOP

/-! ### Small facts -/

section Lemmas

variable {s : AlertPlayer} {n m : ℕ} {alert : AlertData} {x : Option AlertData} {o : Output}
  {e : AlertEvent}

@[simp] theorem data_write_self : (s.write n x).data n = x := Function.update_self _ _ _

theorem data_write_ne (h : m ≠ n) : (s.write n x).data m = s.data m := Function.update_of_ne h _ _

@[simp] theorem data_emit : (s.emit o).data = s.data := rfl

@[simp] theorem data_report : (s.report n alert e).data = s.data := rfl

@[simp] theorem alertList_deactivate : (s.deactivate n alert).alertList = s.alertList := rfl

@[simp] theorem ringing_write : (s.write n x).ringingAlertNode = s.ringingAlertNode := rfl

@[simp] theorem ringing_emit : (s.emit o).ringingAlertNode = s.ringingAlertNode := rfl

@[simp] theorem log_emit : (s.emit o).log = s.log ++ [o] := rfl

theorem isActive_eq_true :
    s.isActive n = true ↔ ∃ alert, s.data n = some alert ∧ alert.isActive := by
  rw [isActive, Option.any_eq_true]

theorem isActive_of_data (h : s.data n = some alert) : s.isActive n = alert.isActive := by
  rw [isActive, h]
  rfl

theorem isActive_of_none (h : s.data n = none) : s.isActive n = false := by
  rw [isActive, h]
  rfl

theorem isActive_congr {t : AlertPlayer} (h : s.data n = t.data n) :
    s.isActive n = t.isActive n := by
  rw [isActive, isActive, h]

theorem isActive_write_ne (h : m ≠ n) : (s.write n x).isActive m = s.isActive m :=
  isActive_congr (data_write_ne h)

@[simp] theorem isActive_write_self : (s.write n x).isActive n = x.any AlertData.isActive := by
  rw [isActive, data_write_self]

/-- What is overwritten by something equally active. -/
theorem isActive_write (hx : x.any AlertData.isActive = s.isActive n) (m : ℕ) :
    (s.write n x).isActive m = s.isActive m := by
  by_cases hmn : m = n
  · rw [hmn, isActive_write_self, hx]
  · exact isActive_write_ne hmn

@[simp] theorem isActive_deactivate_self : (s.deactivate n alert).isActive n = false := by
  rw [isActive, deactivate, data_report, data_write_self]
  rfl

theorem isActive_deactivate_ne (h : m ≠ n) : (s.deactivate n alert).isActive m = s.isActive m :=
  isActive_congr (data_write_ne h)

/-- A search finds an active node of the list. -/
theorem duerFindActiveAlert_some {node : Option ℕ} (h : s.duerFindActiveAlert node = some n) :
    n ∈ s.alertList ∧ s.isActive n = true := by
  cases node with
  | none => exact ⟨List.mem_of_find?_eq_some h, List.find?_some h⟩
  | some p =>
    rcases Option.or_eq_some_iff.mp h with hbehind | ⟨-, hstart⟩
    · refine ⟨?_, List.find?_some hbehind⟩
      have hmem := List.mem_of_mem_tail (List.mem_of_find?_eq_some hbehind)
      exact (List.dropWhile_sublist _).subset hmem
    · exact ⟨List.mem_of_find?_eq_some hstart, List.find?_some hstart⟩

/-- It finds one whenever there is one. -/
theorem duerFindActiveAlert_none {node : Option ℕ} (h : s.duerFindActiveAlert node = none) :
    ∀ m ∈ s.alertList, s.isActive m = false := by
  have hstart : s.alertList.find? s.isActive = none := by
    cases node with
    | none => exact h
    | some p => exact (Option.or_eq_none_iff.mp h).2
  exact fun m hm ↦ Bool.eq_false_iff.mpr (List.find?_eq_none.mp hstart m hm)

end Lemmas

/-! ## The player's callbacks -/

theorem countP_deactivate_lt {s : AlertPlayer} {n : ℕ} {alert : AlertData}
    (h : s.duerFindActiveAlert none = some n) :
    s.alertList.countP (s.deactivate n alert).isActive < s.alertList.countP s.isActive := by
  obtain ⟨hn, hactive⟩ := duerFindActiveAlert_some h
  obtain ⟨l₁, l₂, heq⟩ := List.append_of_mem hn
  -- no alert becomes active, and `n`, which is in the list, no longer is
  have hle (l : List ℕ) : l.countP (s.deactivate n alert).isActive ≤ l.countP s.isActive := by
    refine List.countP_mono_left fun m _ hm ↦ ?_
    by_cases hmn : m = n
    · rwa [hmn]
    · rwa [isActive_deactivate_ne hmn] at hm
  have h₁ := hle l₁
  have h₂ := hle l₂
  rw [heq, List.countP_append, List.countP_append,
    List.countP_cons_of_neg (by rw [isActive_deactivate_self]; exact Bool.false_ne_true),
    List.countP_cons_of_pos hactive]
  omega

/-- The loop of `duer_audio_player_on_stop`. -/
def stopAll (s : AlertPlayer) : AlertPlayer :=
  match _h : s.duerFindActiveAlert none with
  | none => s
  | some n =>
    match s.data n with
    | none => s
    | some alert => stopAll (s.deactivate n alert)
termination_by s.alertList.countP s.isActive
decreasing_by exact countP_deactivate_lt ‹_›

/-- `duer_audio_player_on_stop`. -/
def duerAudioPlayerOnStop (s : AlertPlayer) : AlertPlayer :=
  { s.stopAll with ringingAlertNode := none }

/-- The end of `duer_audio_player_on_finish` and of `duer_audio_player_on_error`. -/
def playNext (s : AlertPlayer) : AlertPlayer :=
  let s' := { s with ringingAlertNode := s.duerFindActiveAlert s.ringingAlertNode }
  match s'.ringingAlertNode.bind s'.data with
  | some alert => s'.emit alert.playback
  | none => s'

/-- `duer_audio_player_on_finish`. -/
def duerAudioPlayerOnFinish (s : AlertPlayer) : AlertPlayer :=
  match s.ringingAlertNode with
  | none => s.playNext
  | some n =>
    match s.data n with
    | none => s.playNext
    | some alert =>
      if h : alert.currentToneIndex + 1 < alert.toneTab.length then
        (s.write n (some (alert.nextTone h))).emit
          (.play (alert.toneTab.get ⟨alert.currentToneIndex + 1, h⟩) .ALERT_SPEECH)
      -- the count is lowered before it is tested
      else if alert.nextPass.loopCount = 0 then (s.deactivate n alert.nextPass).playNext
      else (s.write n (some alert.nextPass)).playNext

/-- `duer_audio_player_on_error`. -/
def duerAudioPlayerOnError (s : AlertPlayer) (type : AudioType) : AlertPlayer :=
  if type = .ALERT_RINGING then
    match s.ringingAlertNode with
    | none => s.playNext
    | some n =>
      match s.data n with
      | none => s.playNext
      | some alert => (s.deactivate n alert).playNext
  else s.emit (.play TONE_URI_ALARM .ALERT_RINGING)

section Lemmas

variable {s : AlertPlayer} {n : ℕ} {alert : AlertData}

theorem playNext_none (hfind : s.duerFindActiveAlert s.ringingAlertNode = none) :
    s.playNext = { s with ringingAlertNode := none } := by
  rw [playNext, hfind]
  rfl

theorem playNext_some (hfind : s.duerFindActiveAlert s.ringingAlertNode = some n)
    (hdata : s.data n = some alert) :
    s.playNext = ({ s with ringingAlertNode := some n } : AlertPlayer).emit alert.playback := by
  rw [playNext, hfind]
  dsimp only [Option.bind_some]
  rw [hdata]

/-- The search lets what it finds ring, and something may be played. -/
theorem playNext_eq (s : AlertPlayer) : ∃ log, s.playNext = { s with
    log := log
    ringingAlertNode := s.duerFindActiveAlert s.ringingAlertNode } := by
  rw [playNext]
  dsimp only
  split
  · exact ⟨_, rfl⟩
  · exact ⟨_, rfl⟩

theorem onFinish_silent (hringing : s.ringingAlertNode = none) :
    s.duerAudioPlayerOnFinish = s.playNext := by
  rw [duerAudioPlayerOnFinish, hringing]

theorem onFinish_ringing (hringing : s.ringingAlertNode = some n) (hdata : s.data n = some alert) :
    s.duerAudioPlayerOnFinish =
      if h : alert.currentToneIndex + 1 < alert.toneTab.length then
        (s.write n (some (alert.nextTone h))).emit
          (.play (alert.toneTab.get ⟨alert.currentToneIndex + 1, h⟩) .ALERT_SPEECH)
      else if alert.nextPass.loopCount = 0 then (s.deactivate n alert.nextPass).playNext
      else (s.write n (some alert.nextPass)).playNext := by
  rw [duerAudioPlayerOnFinish, hringing]
  dsimp only
  rw [hdata]

theorem onError_speech {type : AudioType} (htype : type ≠ .ALERT_RINGING) :
    s.duerAudioPlayerOnError type = s.emit (.play TONE_URI_ALARM .ALERT_RINGING) := by
  rw [duerAudioPlayerOnError, if_neg htype]

theorem onError_silent (hringing : s.ringingAlertNode = none) :
    s.duerAudioPlayerOnError .ALERT_RINGING = s.playNext := by
  rw [duerAudioPlayerOnError, if_pos rfl, hringing]

theorem onError_ringing (hringing : s.ringingAlertNode = some n) (hdata : s.data n = some alert) :
    s.duerAudioPlayerOnError .ALERT_RINGING = (s.deactivate n alert).playNext := by
  rw [duerAudioPlayerOnError, if_pos rfl, hringing]
  dsimp only
  rw [hdata]

end Lemmas

/-- `alert_paly_status_callback`. -/
def alertPalyStatusCallback (s : AlertPlayer) (type : AudioType) (status : AudioStatus) :
    AlertPlayer :=
  if type ≠ .ALERT_SPEECH ∧ type ≠ .ALERT_RINGING then s
  else
    match status with
    | .STOP => s.duerAudioPlayerOnStop
    | .FINISHED => s.duerAudioPlayerOnFinish
    | .ERROR => s.duerAudioPlayerOnError type
    | _ => s

/-! ### What the callbacks keep -/

def stageOf (s : AlertPlayer) (n : ℕ) : Option Stage := (s.data n).map AlertData.stage

/-- Alerts stay where they are, and what rings comes from the list. -/
structure Keeps (s t : AlertPlayer) : Prop where
  alertList : t.alertList = s.alertList
  alertQueue : t.alertQueue = s.alertQueue
  created : t.created = s.created
  stageOf : ∀ n, t.stageOf n = s.stageOf n
  ringing : ∀ n, t.ringingAlertNode = some n → s.ringingAlertNode = some n ∨ n ∈ s.alertList

section Lemmas

variable {s t u : AlertPlayer} {n m : ℕ} {alert : AlertData} {x : Option AlertData}

theorem stageOf_of_data (h : s.data n = some alert) : s.stageOf n = some alert.stage := by
  rw [stageOf, h]
  rfl

theorem stageOf_eq_none : s.stageOf n = none ↔ s.data n = none := Option.map_eq_none_iff

/-- An alert that has a stage is live. -/
theorem isSome_of_stageOf {stage : Stage} (h : s.stageOf n = some stage) : (s.data n).isSome := by
  obtain ⟨alert, hdata, -⟩ := Option.map_eq_some_iff.mp h
  rw [hdata]
  rfl

theorem stageOf_write_self : (s.write n x).stageOf n = x.map AlertData.stage := by
  rw [stageOf, data_write_self]

theorem stageOf_write_ne (h : m ≠ n) : (s.write n x).stageOf m = s.stageOf m := by
  rw [stageOf, data_write_ne h, stageOf]

theorem Keeps.refl (s : AlertPlayer) : Keeps s s := ⟨rfl, rfl, rfl, fun _ ↦ rfl, fun _ ↦ .inl⟩

theorem Keeps.trans (h₁ : Keeps s t) (h₂ : Keeps t u) : Keeps s u where
  alertList := h₂.alertList.trans h₁.alertList
  alertQueue := h₂.alertQueue.trans h₁.alertQueue
  created := h₂.created.trans h₁.created
  stageOf n := (h₂.stageOf n).trans (h₁.stageOf n)
  ringing n hn := (h₂.ringing n hn).elim (h₁.ringing n) fun hmem ↦ .inr (h₁.alertList ▸ hmem)

theorem Keeps.emit (h : Keeps s t) (o : Output) : Keeps s (t.emit o) :=
  ⟨h.alertList, h.alertQueue, h.created, h.stageOf, h.ringing⟩

theorem Keeps.ring {ringing : Option ℕ} (h : Keeps s t)
    (hmem : ∀ n, ringing = some n → n ∈ s.alertList) :
    Keeps s { t with ringingAlertNode := ringing } :=
  ⟨h.alertList, h.alertQueue, h.created, h.stageOf, fun n hn ↦ .inr (hmem n hn)⟩

/-- A live alert is overwritten by one in the same place. -/
theorem keeps_write (alert' : AlertData) (hdata : s.data n = some alert)
    (hstage : alert'.stage = alert.stage) : Keeps s (s.write n (some alert')) := by
  refine ⟨rfl, rfl, rfl, fun m ↦ ?_, fun _ ↦ .inl⟩
  by_cases hmn : m = n
  · rw [hmn, stageOf_write_self, stageOf_of_data hdata, Option.map_some, hstage]
  · exact stageOf_write_ne hmn

theorem keeps_deactivate (alert' : AlertData) (hdata : s.data n = some alert)
    (hstage : alert'.stage = alert.stage) : Keeps s (s.deactivate n alert') :=
  (keeps_write { alert' with isActive := false } hdata hstage).emit _

theorem keeps_stopAll (s : AlertPlayer) : Keeps s s.stopAll := by
  fun_induction stopAll s with
  | case1 s hfind => exact .refl s
  | case2 s n hfind hdata => exact .refl s
  | case3 s n hfind alert hdata ih => exact (keeps_deactivate alert hdata rfl).trans ih

theorem keeps_playNext (s : AlertPlayer) : Keeps s s.playNext := by
  obtain ⟨log, heq⟩ := s.playNext_eq
  rw [heq]
  exact ⟨rfl, rfl, rfl, fun _ ↦ rfl, fun n hn ↦ .inr (duerFindActiveAlert_some hn).1⟩

theorem keeps_duerAudioPlayerOnFinish (s : AlertPlayer) : Keeps s s.duerAudioPlayerOnFinish := by
  rw [duerAudioPlayerOnFinish]
  split
  · exact keeps_playNext s
  · split
    · exact keeps_playNext s
    · next alert hdata =>
      split
      · next hnext => exact (keeps_write (alert.nextTone hnext) hdata rfl).emit _
      · split
        · exact (keeps_deactivate alert.nextPass hdata rfl).trans (keeps_playNext _)
        · exact (keeps_write alert.nextPass hdata rfl).trans (keeps_playNext _)

theorem keeps_duerAudioPlayerOnError (s : AlertPlayer) (type : AudioType) :
    Keeps s (s.duerAudioPlayerOnError type) := by
  rw [duerAudioPlayerOnError]
  split
  · split
    · exact keeps_playNext s
    · split
      · exact keeps_playNext s
      · next alert hdata => exact (keeps_deactivate alert hdata rfl).trans (keeps_playNext _)
  · exact (Keeps.refl s).emit _

theorem keeps_alertPalyStatusCallback (s : AlertPlayer) (type : AudioType) (status : AudioStatus) :
    Keeps s (s.alertPalyStatusCallback type status) := by
  unfold AlertPlayer.alertPalyStatusCallback
  split
  · exact .refl s
  · cases status with
    | STOP => exact (keeps_stopAll s).ring nofun
    | FINISHED => exact keeps_duerAudioPlayerOnFinish s
    | ERROR => exact keeps_duerAudioPlayerOnError s type
    | _ => exact .refl s

end Lemmas

end AlertPlayer

/-- The types that `alert_paly_status_callback` is for. -/
def isAlert (type : AudioType) : Bool := type = .ALERT_SPEECH ∨ type = .ALERT_RINGING

/-- The statuses that end a playback. -/
def isTerminal : AudioStatus → Bool
  | .ERROR | .STOP | .FINISHED => true
  | _ => false

theorem isAlert_iff {type : AudioType} :
    isAlert type = true ↔ type = .ALERT_SPEECH ∨ type = .ALERT_RINGING := by
  rw [isAlert, decide_eq_true_iff]

/-! ## Setting an alert -/

/-- An element of the array `assets`. What is missing and what is not a string is `none`. -/
structure Asset where
  assetId : Option Str
  url : Option Str

/-- The payload of a directive: the fields that are there, where a string that has no value is a
null pointer. -/
structure Payload where
  token : Option (Option Str)
  scheduledTime : Option (Option Str)
  type : Option (Option Str)
  assetPlayOrder : Option (List (Option Str))
  loopCount : Option ℤ
  assets : Option (List Asset)

/-- `DEFAULT_ALERT_TONE_LOOP_COUNT`. -/
def DEFAULT_ALERT_TONE_LOOP_COUNT : UInt8 := 10

/-- `duer_find_target_url`. An asset without an `assetId` ends the search. -/
def duerFindTargetUrl : List Asset → Str → Option Str
  | [], _ => none
  | asset :: assets, assetId =>
    match asset.assetId with
    | none => none
    | some id => if id = assetId then asset.url else duerFindTargetUrl assets assetId

/-- `duer_set_alert_tone`: the tones up to the first one that is not found. -/
def duerSetAlertTone (assets : List Asset) : List (Option Str) → List Str
  | [] => []
  | none :: _ => []
  | some assetId :: playOrder =>
    match duerFindTargetUrl assets assetId with
    | none => []
    | some url => url :: duerSetAlertTone assets playOrder

theorem length_duerSetAlertTone_le (assets : List Asset) (playOrder : List (Option Str)) :
    (duerSetAlertTone assets playOrder).length ≤ playOrder.length := by
  induction playOrder with
  | nil => exact le_rfl
  | cons x playOrder ih =>
    cases x with
    | none => exact Nat.zero_le _
    | some assetId =>
      rw [duerSetAlertTone]
      split
      · exact Nat.zero_le _
      · exact Nat.succ_le_succ ih

/-- The tones of an alert, of which `tone_count` counts no more than 255. -/
def toneTabOf (assets : List Asset) (playOrder : List (Option Str)) : List Str :=
  duerSetAlertTone assets (playOrder.take (playOrder.length % 256))

theorem length_toneTabOf_lt (assets : List Asset) (playOrder : List (Option Str)) :
    (toneTabOf assets playOrder).length < 256 := by
  have hle := length_duerSetAlertTone_le assets (playOrder.take (playOrder.length % 256))
  rw [List.length_take] at hle
  have hmod := Nat.mod_lt playOrder.length (by decide : 0 < 256)
  rw [toneTabOf]
  omega

/-- The `loop_count` of an alert: the low byte of `loopCount`, or the default if it is zero. -/
def loopCountOf (loopCount : Option ℤ) : UInt8 :=
  let stored := (loopCount.map UInt8.ofInt).getD 0
  if stored = 0 then DEFAULT_ALERT_TONE_LOOP_COUNT else stored

/-- `duer_create_alert_data`. It fails where an array is missing or a string has no value. -/
def duerCreateAlertData (type time token : Option Str) (payload : Payload) : Option AlertData := do
  let playOrder ← payload.assetPlayOrder
  let type ← type
  let time ← time
  let token ← token
  let assets ← payload.assets
  return {
    alertInfo := ⟨type, time, token⟩
    toneTab := toneTabOf assets playOrder
    isActive := false
    currentToneIndex := 0
    loopCount := loopCountOf payload.loopCount
    stage := .queued
    expired := false
    toneCount_lt := length_toneTabOf_lt assets playOrder
    index_lt := id }

/-- `duer_status_t`. -/
inductive DuerStatus
  | DUER_OK
  | DUER_ERR_FAILED
  | DUER_MSG_RSP_BAD_REQUEST
  deriving DecidableEq

namespace AlertPlayer

/-- `duer_dcs_tone_alert_set_handler`. A directive without a payload is `none`. -/
def duerDcsToneAlertSetHandler (s : AlertPlayer) (directive : Option Payload) :
    DuerStatus × AlertPlayer :=
  match directive with
  | none => (.DUER_MSG_RSP_BAD_REQUEST, s)
  | some payload =>
    match payload.token, payload.scheduledTime, payload.type with
    | some token, some time, some type =>
      match duerCreateAlertData type time token payload with
      | none => (.DUER_ERR_FAILED, s.emit (.report none token .SET_ALERT_FAIL))
      | some alert =>
        (.DUER_OK, { s.write s.created (some alert) with
          alertQueue := s.alertQueue ++ [s.created]
          created := s.created + 1 })
    | _, _, _ => (.DUER_MSG_RSP_BAD_REQUEST, s)

theorem duerCreateAlertData_eq_some {type time token : Option Str} {payload : Payload}
    {alert : AlertData} (h : duerCreateAlertData type time token payload = some alert) :
    alert.stage = .queued ∧ alert.isActive = false ∧ alert.expired = false := by
  rw [duerCreateAlertData] at h
  simp only [Option.bind_eq_bind, Option.bind_eq_some_iff] at h
  obtain ⟨_, _, _, _, _, _, _, _, _, _, h⟩ := h
  cases h
  exact ⟨rfl, rfl, rfl⟩

/-- A directive is refused, or fails, or puts a new alert into the queue. -/
theorem set_cases (s : AlertPlayer) (directive : Option Payload) :
    (s.duerDcsToneAlertSetHandler directive).2 = s ∨
      (∃ token, (s.duerDcsToneAlertSetHandler directive).2 =
        s.emit (.report none token .SET_ALERT_FAIL)) ∨
      ∃ alert : AlertData,
        (alert.stage = .queued ∧ alert.isActive = false ∧ alert.expired = false) ∧
        (s.duerDcsToneAlertSetHandler directive).2 = { s.write s.created (some alert) with
          alertQueue := s.alertQueue ++ [s.created]
          created := s.created + 1 } := by
  cases directive with
  | none => exact .inl rfl
  | some payload =>
    obtain ⟨token, time, type, playOrder, loopCount, assets⟩ := payload
    cases token with
    | none => exact .inl rfl
    | some token =>
      cases time with
      | none => exact .inl rfl
      | some time =>
        cases type with
        | none => exact .inl rfl
        | some type =>
          rw [duerDcsToneAlertSetHandler]
          dsimp only
          cases hcreate : duerCreateAlertData type time token
              ⟨some token, some time, some type, playOrder, loopCount, assets⟩ with
          | none => exact .inr (.inl ⟨token, rfl⟩)
          | some alert => exact .inr (.inr ⟨alert, duerCreateAlertData_eq_some hcreate, rfl⟩)

/-! ## The worker threads -/

/-- `duer_alert_thread` takes the first alert from the queue. -/
def threadTake (s : AlertPlayer) : Option AlertPlayer :=
  match s.alertQueue with
  | [] => none
  | n :: queue =>
    (s.data n).map fun alert ↦
      { s.write n (some { alert with stage := .taken }) with alertQueue := queue }

/-- What happens with an alert that is in the right condition. -/
def onAlert (s : AlertPlayer) (n : ℕ) (ok : AlertData → Bool) (f : AlertData → AlertPlayer) :
    Option AlertPlayer :=
  match s.data n with
  | none => none
  | some alert => if ok alert then some (f alert) else none

theorem onAlert_eq_some {s t : AlertPlayer} {n : ℕ} {ok : AlertData → Bool}
    {f : AlertData → AlertPlayer} (h : s.onAlert n ok f = some t) :
    ∃ alert, s.data n = some alert ∧ ok alert = true ∧ f alert = t := by
  rw [onAlert] at h
  split at h
  · cases h
  · next alert hdata =>
    obtain ⟨hok, heq⟩ := Option.ite_none_right_eq_some.mp h
    exact ⟨alert, hdata, hok, Option.some.inj heq⟩

/-- The worker gives the alert up: its time is not a time or is past, no server tells the time, or
there is no timer. -/
def threadFail (s : AlertPlayer) (n : ℕ) : Option AlertPlayer :=
  s.onAlert n (fun alert ↦ alert.stage = .taken) fun alert ↦
    (s.report n alert .SET_ALERT_FAIL).write n none

/-- It starts the timer. -/
def threadStart (s : AlertPlayer) (n : ℕ) : Option AlertPlayer :=
  s.onAlert n (fun alert ↦ alert.stage = .taken) fun alert ↦
    s.write n (some { alert with stage := .started })

/-- It puts the alert into the list, and reports that. -/
def threadPush (s : AlertPlayer) (n : ℕ) : Option AlertPlayer :=
  s.onAlert n (fun alert ↦ alert.stage = .started) fun alert ↦
    ({ s.write n (some { alert with stage := .listed }) with
      alertList := s.alertList ++ [n] } : AlertPlayer).report n alert .SET_ALERT_SUCCESS

/-! ## The timer -/

/-- `duer_alert_callback`. -/
def duerAlertCallback (s : AlertPlayer) (n : ℕ) (alert : AlertData) : AlertPlayer :=
  let s' := (s.write n (some { alert with isActive := true, expired := true })).report n alert
    .ALERT_START
  -- an alert that waits is found by the search when what rings has finished
  if s.ringingAlertNode.isSome then s'
  else if n ∈ s.alertList then ({ s' with ringingAlertNode := some n }).emit alert.playback
  else s'

/-- A timer that has been started expires, once. -/
def expire (s : AlertPlayer) (n : ℕ) : Option AlertPlayer :=
  s.onAlert n (fun alert ↦ (alert.stage = .started ∨ alert.stage = .listed) ∧
    alert.expired = false) fun alert ↦ s.duerAlertCallback n alert

/-! ## Deleting an alert -/

/-- `duer_find_target_alert_node`. -/
def duerFindTargetAlertNode (s : AlertPlayer) (token : Str) : Option ℕ :=
  s.alertList.find? fun n ↦ (s.data n).any fun alert ↦ alert.alertInfo.token = token

/-- The target of `duer_dcs_alert_delete_handler` stops ringing, if it does. -/
def stopRinging (s : AlertPlayer) (n : ℕ) : AlertPlayer :=
  if s.ringingAlertNode = some n then ({ s with ringingAlertNode := none }).emit .stop else s

/-- It is reported to stop, if it is active. -/
def stopTarget (s : AlertPlayer) (n : ℕ) (alert : AlertData) : AlertPlayer :=
  if alert.isActive then (s.stopRinging n).report n alert .ALERT_STOP else s.stopRinging n

/-- `duer_dcs_alert_delete_handler`. -/
def duerDcsAlertDeleteHandler (s : AlertPlayer) (token : Str) : AlertPlayer :=
  match s.duerFindTargetAlertNode token with
  | none => s.emit (.report none (some token) .DELETE_ALERT_FAIL)
  | some n =>
    match s.data n with
    | none => s.emit (.report none (some token) .DELETE_ALERT_FAIL)
    | some alert =>
      ({ (s.stopTarget n alert).write n none with
        alertList := s.alertList.erase n } : AlertPlayer).report n alert .DELETE_ALERT_SUCCESS

section Lemmas

variable {s : AlertPlayer} {n m : ℕ} {alert : AlertData} {token : Str}

theorem duerFindTargetAlertNode_some (h : s.duerFindTargetAlertNode token = some n) :
    n ∈ s.alertList ∧ ∃ alert, s.data n = some alert ∧ alert.alertInfo.token = token := by
  have hfound := List.find?_some h
  obtain ⟨alert, hdata, htoken⟩ := (Option.any_eq_true _ _).mp hfound
  exact ⟨List.mem_of_find?_eq_some h, alert, hdata, of_decide_eq_true htoken⟩

theorem delete_missing (hfind : s.duerFindTargetAlertNode token = none) :
    s.duerDcsAlertDeleteHandler token = s.emit (.report none (some token) .DELETE_ALERT_FAIL) := by
  rw [duerDcsAlertDeleteHandler, hfind]

theorem delete_found (hfind : s.duerFindTargetAlertNode token = some n)
    (hdata : s.data n = some alert) : s.duerDcsAlertDeleteHandler token =
      ({ (s.stopTarget n alert).write n none with
        alertList := s.alertList.erase n } : AlertPlayer).report n alert .DELETE_ALERT_SUCCESS := by
  rw [duerDcsAlertDeleteHandler, hfind]
  dsimp only
  rw [hdata]

/-- What the handler does before the alert is freed is to the log, and to what rings. -/
theorem stopTarget_eq (s : AlertPlayer) (n : ℕ) (alert : AlertData) :
    ∃ log, s.stopTarget n alert = { s with
      log := log
      ringingAlertNode := if s.ringingAlertNode = some n then none else s.ringingAlertNode } := by
  by_cases hringing : s.ringingAlertNode = some n
  · rw [stopTarget, stopRinging, if_pos hringing, if_pos hringing]
    split
    · exact ⟨_, rfl⟩
    · exact ⟨_, rfl⟩
  · rw [stopTarget, stopRinging, if_neg hringing, if_neg hringing]
    split
    · exact ⟨_, rfl⟩
    · exact ⟨_, rfl⟩

theorem isActive_delete (hfind : s.duerFindTargetAlertNode token = some n)
    (hdata : s.data n = some alert) (m : ℕ) :
    (s.duerDcsAlertDeleteHandler token).isActive m = true ↔ m ≠ n ∧ s.isActive m = true := by
  obtain ⟨log, heq⟩ := s.stopTarget_eq n alert
  rw [delete_found hfind hdata, heq]
  by_cases hmn : m = n
  · have hfreed : (s.write n none).isActive m = false := by
      rw [hmn, isActive_write_self]
      rfl
    exact iff_of_false (fun hm ↦ Bool.false_ne_true (hfreed.symm.trans hm)) fun hm ↦ hm.1 hmn
  · have hkept : (s.write n none).isActive m = s.isActive m := isActive_write_ne hmn
    exact (Bool.eq_iff_iff.mp hkept).trans (and_iff_right hmn).symm

theorem ringing_delete (hfind : s.duerFindTargetAlertNode token = some n)
    (hdata : s.data n = some alert) : (s.duerDcsAlertDeleteHandler token).ringingAlertNode =
      if s.ringingAlertNode = some n then none else s.ringingAlertNode := by
  obtain ⟨log, heq⟩ := s.stopTarget_eq n alert
  rw [delete_found hfind hdata, heq]
  rfl

end Lemmas

/-! ## The system -/

end AlertPlayer

/-- What happens in a step. -/
inductive AlertAction
  | set (directive : Option Payload)
  | take
  | fail (n : ℕ)
  | start (n : ℕ)
  | push (n : ℕ)
  | expire (n : ℕ)
  | status (type : AudioType) (status : AudioStatus)
  | delete (token : Str)

namespace AlertPlayer

def step (s : AlertPlayer) : AlertAction → Option AlertPlayer
  | .set directive => some (s.duerDcsToneAlertSetHandler directive).2
  | .take => s.threadTake
  | .fail n => s.threadFail n
  | .start n => s.threadStart n
  | .push n => s.threadPush n
  | .expire n => s.expire n
  | .status type status => some (s.alertPalyStatusCallback type status)
  | .delete token => some (s.duerDcsAlertDeleteHandler token)

end AlertPlayer

end Ddmz.Alert
