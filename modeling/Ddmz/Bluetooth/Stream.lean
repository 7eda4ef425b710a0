import Ddmz.Alert.Player
import Ddmz.Foundation.Traces

/-!
# Streaming

The phone says when it starts and stops streaming, and the Bluetooth task starts and stops the
player. If a tone for the connection is still playing, it only remembers the start in `raw_start`,
and makes up for it when the player says that the tone is over.

Nothing takes that start back when the phone stops meanwhile, and then the player is started for
nothing. And before the player has reported a tone once, `tone_stopped` is not set although nothing
plays. What has to be avoided so that the player is started when the phone streams, and only then,
is `Fits`: `routed_iff`.
-/

namespace Ddmz.Bluetooth

open Alert (AudioStatus PlayerWorkingMode isTerminal)

/-- `esp_a2d_connection_state_t`. -/
inductive ConnectionState
  | DISCONNECTED
  | CONNECTING
  | CONNECTED
  | DISCONNECTING
  deriving DecidableEq

/-- `esp_a2d_audio_state_t`. -/
inductive AudioState
  | REMOTE_SUSPEND
  | STOPPED
  | STARTED
  deriving DecidableEq

/-- The events of the reconnection, see `reconnect_sm.c`. -/
inductive A2dRecEvt
  | CONNECTED
  | DISCONNECTED
  | ALARM_TO
  deriving DecidableEq

inductive Led
  | NetConnectOk
  | NetDisconnect
  deriving DecidableEq

inductive ToneType
  | BT_SUCCESS
  | BT_RECONNECT
  deriving DecidableEq

inductive MediaSrc
  | NULL
  | BT
  deriving DecidableEq

inductive A2dEvent
  /-- `abnormal` says whether the reason of a disconnect is `ESP_A2D_DISC_RSN_ABNORMAL`. -/
  | CONNECTION_STATE_EVT (state : ConnectionState) (abnormal : Bool)
  | AUDIO_STATE_EVT (state : AudioState)
  | playerStatus (status : AudioStatus) (mode : PlayerWorkingMode)
  deriving DecidableEq

inductive A2dCall
  | a2dRecSmHandler (evt : A2dRecEvt)
  | ledIndicatorSet (state : Led)
  | playTone (tone : ToneType)
  | espAudioPlayerSrcSet (src : MediaSrc)
  | rawStart
  | rawStop
  deriving DecidableEq

structure BtAv where
  audioState : AudioState
  toneStopped : Bool
  rawStart : Bool

namespace BtAv

variable (av : BtAv)

/-- The branches of `bt_app_handle_evt`. `tones` says whether there is `playTone`. -/
def btAppHandleEvt (tones : Bool) : A2dEvent → List A2dCall × BtAv
  | .CONNECTION_STATE_EVT .CONNECTED _ =>
    if tones then
      ([.a2dRecSmHandler .CONNECTED, .ledIndicatorSet .NetConnectOk, .playTone .BT_SUCCESS,
        .espAudioPlayerSrcSet .BT], { av with toneStopped := false })
    else
      ([.a2dRecSmHandler .CONNECTED, .ledIndicatorSet .NetConnectOk, .espAudioPlayerSrcSet .BT],
        { av with toneStopped := true })
  | .CONNECTION_STATE_EVT .DISCONNECTED abnormal =>
    let calls := (if abnormal then [.a2dRecSmHandler .DISCONNECTED] else []) ++
      [.espAudioPlayerSrcSet .NULL, .ledIndicatorSet .NetDisconnect]
    if tones then (calls ++ [.playTone .BT_RECONNECT], { av with toneStopped := false })
    else (calls, av)
  | .AUDIO_STATE_EVT .STARTED =>
    if av.toneStopped then ([.rawStart], { av with audioState := .STARTED })
    else ([], { av with rawStart := true, audioState := .STARTED })
  | .AUDIO_STATE_EVT .STOPPED => ([.rawStop], { av with audioState := .STOPPED })
  | .AUDIO_STATE_EVT state => ([], { av with audioState := state })
  | _ => ([], av)

def playerStatusUpdated (status : AudioStatus) (mode : PlayerWorkingMode) : List A2dCall × BtAv :=
  if (status = .STOP ∨ status = .ERROR) ∧ mode = .TONE then
    if av.rawStart then ([.rawStart], { av with toneStopped := true, rawStart := false })
    else ([], { av with toneStopped := true })
  else ([], av)

section Status

variable {av} {status : AudioStatus} {mode : PlayerWorkingMode}

theorem playerStatusUpdated_deferred (h : status = .STOP ∨ status = .ERROR)
    (hstart : av.rawStart = true) : av.playerStatusUpdated status .TONE =
      ([.rawStart], { av with toneStopped := true, rawStart := false }) := by
  rw [playerStatusUpdated, if_pos ⟨h, rfl⟩, if_pos hstart]

theorem playerStatusUpdated_over (h : status = .STOP ∨ status = .ERROR)
    (hstart : av.rawStart = false) :
    av.playerStatusUpdated status .TONE = ([], { av with toneStopped := true }) := by
  rw [playerStatusUpdated, if_pos ⟨h, rfl⟩, hstart, if_neg Bool.false_ne_true]

theorem playerStatusUpdated_other (h : ¬((status = .STOP ∨ status = .ERROR) ∧ mode = .TONE)) :
    av.playerStatusUpdated status mode = ([], av) :=
  if_neg h

end Status

/-- What the task does with an event or a message. -/
def handle (tones : Bool) : A2dEvent → List A2dCall × BtAv
  | .playerStatus status mode => av.playerStatusUpdated status mode
  | evt => av.btAppHandleEvt tones evt

end BtAv

/-! ## The history -/

inductive A2dEntry
  | event (evt : A2dEvent)
  | call (call : A2dCall)
  deriving DecidableEq

namespace A2dEntry

def isAudio : A2dEntry → Bool
  | event (.AUDIO_STATE_EVT _) => true
  | _ => false

def isStarted : A2dEntry → Bool
  | event (.AUDIO_STATE_EVT .STARTED) => true
  | _ => false

def started : A2dEntry := event (.AUDIO_STATE_EVT .STARTED)

/-- A tone has been begun, or the player says that one is over. -/
def isTone : A2dEntry → Bool
  | call (.playTone _) => true
  | event (.playerStatus status mode) => isTerminal status && mode == .TONE
  | _ => false

/-- A tone for the connection is playing. -/
def tonePlaying (trace : List A2dEntry) : Bool :=
  match lastOf isTone trace with
  | some (call _) => true
  | _ => false

/-- The player is started only if the phone streams, and once only for each time it starts to. -/
def Justified (trace : List A2dEntry) (x : A2dEntry) : Prop :=
  x = call .rawStart →
    lastOf isAudio trace = some started ∧ call .rawStart ∉ since isStarted trace

/-- The player runs exactly while the phone streams, tones apart. -/
structure Routed (trace : List A2dEntry) : Prop where
  justified : EachEntry Justified trace
  streams : lastOf isAudio trace = some started → tonePlaying trace = false →
    call .rawStart ∈ since isAudio trace

end A2dEntry

structure Streaming where
  /-- There is `playTone`. -/
  tones : Bool
  av : BtAv
  trace : List A2dEntry

namespace Streaming

open A2dEntry

def init (tones : Bool) : Streaming := ⟨tones, ⟨.STOPPED, false, false⟩, []⟩

variable (s : Streaming)

def step (evt : A2dEvent) : Option Streaming :=
  let r := s.av.handle s.tones evt
  some { s with av := r.2, trace := s.trace ++ event evt :: r.1.map call }

/-- The phone starts to stream only when a tone is playing or has been stopped; when a tone is over,
a start that has been put off is for a phone that streams, and the tone has not just finished. -/
def Fits : A2dEvent → Prop
  | .AUDIO_STATE_EVT .STARTED => s.av.toneStopped = true ∨ tonePlaying s.trace = true
  | .playerStatus status .TONE =>
    ((status = .STOP ∨ status = .ERROR) → s.av.rawStart = true → s.av.audioState = .STARTED) ∧
      (status = .FINISHED → s.av.rawStart = true → s.av.audioState ≠ .STARTED)
  | _ => True

/-- What the task knows of the history, as long as all is well. -/
structure Knows : Prop where
  audio : s.av.audioState = .STARTED ↔ lastOf isAudio s.trace = some started
  stopped : s.av.toneStopped = true → tonePlaying s.trace = false
  deferred : s.av.rawStart = true → s.av.toneStopped = false ∧ s.tones = true
  tones : tonePlaying s.trace = true → s.tones = true
  called : s.av.audioState = .STARTED →
    (s.av.rawStart = false ↔ call .rawStart ∈ since isAudio s.trace)

variable {s} {t : Streaming} {evt : A2dEvent}

theorem justified_of_ne {trace : List A2dEntry} {x : A2dEntry} (h : x ≠ call .rawStart) :
    Justified trace x :=
  fun hx ↦ absurd hx h

theorem tonePlaying_append {trace l : List A2dEntry} (h : l.any isTone = false) :
    tonePlaying (trace ++ l) = tonePlaying trace := by
  rw [tonePlaying, tonePlaying, lastOf_append_of_not_any _ h]

theorem tonePlaying_call {trace l : List A2dEntry} {c : A2dCall}
    (h : lastOf isTone l = some (call c)) : tonePlaying (trace ++ l) = true := by
  rw [tonePlaying, lastOf_append, h, Option.some_or]

theorem tonePlaying_event {trace l : List A2dEntry} {evt : A2dEvent}
    (h : lastOf isTone l = some (event evt)) : tonePlaying (trace ++ l) = false := by
  rw [tonePlaying, lastOf_append, h, Option.some_or]

/-! ### Nothing about the stream

The step is neither a change of the stream nor a start of the player. -/

section Quiet

variable {l : List A2dEntry}

theorem Knows.quiet (hs : s.Knows) (ht : t.trace = s.trace ++ l) (hl : l.any isAudio = false)
    (hstart : call .rawStart ∉ l) (haudio : t.av.audioState = s.av.audioState)
    (hdeferred : t.av.rawStart = s.av.rawStart)
    (hstopped : t.av.toneStopped = true → tonePlaying t.trace = false)
    (hpending : s.av.rawStart = true → t.av.toneStopped = false ∧ t.tones = true)
    (htones : tonePlaying t.trace = true → t.tones = true) : t.Knows := by
  constructor
  · rw [haudio, ht, lastOf_append_of_not_any _ hl]
    exact hs.audio
  · exact hstopped
  · rw [hdeferred]
    exact hpending
  · exact htones
  · rw [haudio, hdeferred, ht, since_append_of_not_any _ hl, List.mem_append, or_iff_left hstart]
    exact hs.called

theorem routed_quiet (hs : s.Knows) (hrouted : Routed s.trace) (ht : t.trace = s.trace ++ l)
    (hl : l.any isAudio = false) (hstart : call .rawStart ∉ l) :
    Routed t.trace ↔ (s.av.audioState = .STARTED → s.av.rawStart = true →
      tonePlaying t.trace = true) := by
  have hlast : lastOf isAudio t.trace = lastOf isAudio s.trace := by
    rw [ht, lastOf_append_of_not_any _ hl]
  constructor
  · intro h haudio hdeferred
    by_contra htone
    have hmem := h.streams (hlast.trans (hs.audio.mp haudio)) (Bool.eq_false_of_not_eq_true htone)
    rw [ht, since_append_of_not_any _ hl, List.mem_append, or_iff_left hstart,
      ← hs.called haudio, hdeferred] at hmem
    exact absurd hmem Bool.true_eq_false.mp
  · intro h
    constructor
    · rw [ht, eachEntry_append_of]
      · exact hrouted.justified
      · intro x hx before
        exact justified_of_ne fun heq ↦ hstart (heq ▸ hx)
    · intro hstarted htone
      have haudio := hs.audio.mpr (hlast.symm.trans hstarted)
      have hnot : s.av.rawStart = false := by
        by_contra hdeferred
        rw [h haudio (Bool.eq_true_of_not_eq_false hdeferred)] at htone
        exact absurd htone Bool.true_eq_false.mp
      rw [ht, since_append_of_not_any _ hl]
      exact List.mem_append_left _ ((hs.called haudio).mp hnot)

/-- A step that changes nothing at all. -/
theorem routed_same (hs : s.Knows) (hrouted : Routed s.trace)
    (ht : t = { s with trace := s.trace ++ l }) (hl : l.any isAudio = false)
    (hstart : call .rawStart ∉ l) (htone : l.any isTone = false) : Routed t.trace ∧ t.Knows := by
  subst ht
  have hplaying : tonePlaying (s.trace ++ l) = tonePlaying s.trace := tonePlaying_append htone
  constructor
  · rw [routed_quiet (t := { s with trace := _ }) hs hrouted rfl hl hstart, hplaying]
    exact (routed_quiet (l := []) hs hrouted (List.append_nil _).symm rfl List.not_mem_nil).mp
      hrouted
  · refine hs.quiet rfl hl hstart rfl rfl ?_ hs.deferred ?_
    · rw [hplaying]
      exact hs.stopped
    · rw [hplaying]
      exact hs.tones

/-- A tone begins, and `tone_stopped` is cleared for it. -/
theorem routed_tone {c : A2dCall} (hs : s.Knows) (hrouted : Routed s.trace)
    (htones : s.tones = true)
    (ht : t = { s with av := { s.av with toneStopped := false }, trace := s.trace ++ l })
    (hl : l.any isAudio = false) (hstart : call .rawStart ∉ l)
    (htone : lastOf isTone l = some (call c)) : Routed t.trace ∧ t.Knows := by
  subst ht
  have hplaying : tonePlaying (s.trace ++ l) = true := tonePlaying_call htone
  constructor
  · rw [routed_quiet (t := { s with av := _, trace := _ }) hs hrouted rfl hl hstart]
    intro _ _
    exact hplaying
  · refine hs.quiet rfl hl hstart rfl rfl ?_ ?_ ?_
    · intro hstopped
      exact absurd hstopped Bool.false_ne_true
    · intro _
      exact ⟨rfl, htones⟩
    · intro _
      exact htones

/-- No tone is playing, and `tone_stopped` is set. -/
theorem routed_stopped (hs : s.Knows) (hrouted : Routed s.trace) (hdeferred : s.av.rawStart = false)
    (ht : t = { s with av := { s.av with toneStopped := true }, trace := s.trace ++ l })
    (hl : l.any isAudio = false) (hstart : call .rawStart ∉ l)
    (htone : tonePlaying (s.trace ++ l) = false) : Routed t.trace ∧ t.Knows := by
  subst ht
  have hnot : s.av.rawStart ≠ true := by simp [hdeferred]
  constructor
  · rw [routed_quiet (t := { s with av := _, trace := _ }) hs hrouted rfl hl hstart]
    intro _ h
    exact absurd h hnot
  · refine hs.quiet rfl hl hstart rfl rfl ?_ ?_ ?_
    · intro _
      exact htone
    · intro h
      exact absurd h hnot
    · intro h
      exact absurd (htone.symm.trans h) Bool.false_ne_true

end Quiet

/-! ### The events -/

theorem step_eq {calls : List A2dCall} {av : BtAv} (h : s.step evt = some t)
    (hr : s.av.handle s.tones evt = (calls, av)) :
    t = { s with av, trace := s.trace ++ event evt :: calls.map call } := by
  rw [step, hr] at h
  exact (Option.some.inj h).symm

theorem connection_spec (hs : s.Knows) (hrouted : Routed s.trace) {state : ConnectionState}
    {abnormal : Bool} (h : s.step (.CONNECTION_STATE_EVT state abnormal) = some t) :
    Routed t.trace ∧ t.Knows := by
  by_cases htones : s.tones = true
  · cases state with
    | CONNECTED =>
      have ht := step_eq h (if_pos htones)
      exact routed_tone hs hrouted htones ht rfl (by simp) rfl
    | DISCONNECTED =>
      cases abnormal with
      | _ =>
        have ht := step_eq h (if_pos htones)
        exact routed_tone hs hrouted htones ht rfl (by simp) rfl
    | _ => exact routed_same hs hrouted (step_eq h rfl) rfl (by simp) rfl
  · cases state with
    | CONNECTED =>
      have hplaying : tonePlaying s.trace = false := by
        by_contra hplaying
        exact htones (hs.tones (Bool.eq_true_of_not_eq_false hplaying))
      have hdeferred : s.av.rawStart = false := by
        by_contra hdeferred
        exact htones (hs.deferred (Bool.eq_true_of_not_eq_false hdeferred)).2
      exact routed_stopped hs hrouted hdeferred (step_eq h (if_neg htones)) rfl (by simp)
        ((tonePlaying_append rfl).trans hplaying)
    | DISCONNECTED =>
      cases abnormal with
      | _ => exact routed_same hs hrouted (step_eq h (if_neg htones)) rfl (by simp) rfl
    | _ => exact routed_same hs hrouted (step_eq h rfl) rfl (by simp) rfl

/-- The stream stops, or is suspended. -/
theorem routed_unstarted (calls : List A2dCall) (hs : s.Knows) (hrouted : Routed s.trace)
    {state : AudioState} (hstate : state ≠ .STARTED)
    (ht : t = { s with
      av := { s.av with audioState := state }
      trace := s.trace ++ event (.AUDIO_STATE_EVT state) :: calls.map call })
    (hstart : A2dCall.rawStart ∉ calls) (htone : (calls.map call).any isTone = false) :
    Routed t.trace ∧ t.Knows := by
  subst ht
  have hnone : (calls.map call).any isAudio = false := by
    rw [List.any_map, List.any_eq_false]
    intro c _
    exact Bool.false_ne_true
  have hlast : lastOf isAudio (s.trace ++ event (.AUDIO_STATE_EVT state) :: calls.map call) =
      some (event (.AUDIO_STATE_EVT state)) := by
    rw [List.append_cons, lastOf_append_of_not_any _ hnone, lastOf_concat_pos _ rfl]
  have hplaying : tonePlaying (s.trace ++ event (.AUDIO_STATE_EVT state) :: calls.map call) =
      tonePlaying s.trace := tonePlaying_append htone
  have hne : some (event (.AUDIO_STATE_EVT state)) ≠ some started := by
    intro heq
    injection heq with heq
    injection heq with heq
    injection heq with heq
    exact hstate heq
  constructor
  · constructor
    · rw [eachEntry_append_of]
      · exact hrouted.justified
      · intro x hx before
        refine justified_of_ne ?_
        rintro rfl
        simp [hstart] at hx
    · intro hstarted
      exact absurd (hlast.symm.trans hstarted) hne
  · constructor
    · rw [hlast]
      exact iff_of_false hstate hne
    · rw [hplaying]
      exact hs.stopped
    · exact hs.deferred
    · rw [hplaying]
      exact hs.tones
    · intro hstarted
      exact absurd hstarted hstate

/-- The player is started, once, for a phone that streams. -/
theorem routed_start {trace : List A2dEntry} (h : EachEntry Justified trace)
    (hlast : lastOf isAudio trace = some started)
    (hsince : call .rawStart ∉ since isStarted trace) : Routed (trace ++ [call .rawStart]) := by
  constructor
  · rw [eachEntry_concat]
    exact ⟨h, fun _ ↦ ⟨hlast, hsince⟩⟩
  · intro _ _
    rw [since_concat_neg _ rfl]
    exact List.mem_append_right _ (List.mem_singleton_self _)

theorem isStarted_of_not_isAudio {x : A2dEntry} (h : x.isAudio = false) : x.isStarted = false := by
  by_contra hstarted
  cases x with
  | call => exact hstarted rfl
  | event evt =>
    cases evt with
    | AUDIO_STATE_EVT => exact absurd h Bool.true_eq_false.mp
    | _ => exact hstarted rfl

theorem eachEntry_started {trace : List A2dEntry} (h : Routed trace) :
    EachEntry Justified (trace ++ [started]) := by
  rw [eachEntry_concat]
  exact ⟨h.justified, justified_of_ne A2dEntry.noConfusion⟩

/-- A phone begins to stream while no tone plays, and the player is started. -/
theorem started_spec (hs : s.Knows) (hrouted : Routed s.trace) (hstopped : s.av.toneStopped = true)
    (h : s.step (.AUDIO_STATE_EVT .STARTED) = some t) : Routed t.trace ∧ t.Knows := by
  have hlast : lastOf isAudio (s.trace ++ [started]) = some started := lastOf_concat_pos _ rfl
  have ht := step_eq h (if_pos hstopped)
  have htrace : t.trace = s.trace ++ [started] ++ [call .rawStart] := by
    rw [ht, List.append_assoc]
    rfl
  have hplaying : tonePlaying t.trace = tonePlaying s.trace := by
    rw [htrace, List.append_assoc, tonePlaying_append rfl]
  have hdeferred : s.av.rawStart = false := by
    by_contra hdeferred
    have hnot := (hs.deferred (Bool.eq_true_of_not_eq_false hdeferred)).1
    exact Bool.false_ne_true (hnot.symm.trans hstopped)
  constructor
  · rw [htrace]
    refine routed_start (eachEntry_started hrouted) hlast ?_
    rw [since_concat_pos _ rfl]
    exact List.not_mem_nil
  · constructor
    · rw [htrace, lastOf_concat_neg _ rfl, hlast, ht]
      exact iff_of_true rfl rfl
    · rw [hplaying, ht]
      exact hs.stopped
    · rw [ht]
      exact hs.deferred
    · rw [hplaying, ht]
      exact hs.tones
    · intro _
      rw [htrace, since_concat_neg _ rfl, ht]
      exact iff_of_true hdeferred (List.mem_append_right _ (List.mem_singleton_self _))

/-- A phone begins to stream while the task counts a tone, and the start is put off. -/
theorem started_deferred_spec (hs : s.Knows) (hrouted : Routed s.trace)
    (hstopped : ¬s.av.toneStopped = true) (h : s.step (.AUDIO_STATE_EVT .STARTED) = some t) :
    (Routed t.trace ↔ tonePlaying s.trace = true) ∧ (Routed t.trace → t.Knows) := by
  have hlast : lastOf isAudio (s.trace ++ [started]) = some started := lastOf_concat_pos _ rfl
  have ht := step_eq h (if_neg hstopped)
  have htrace : t.trace = s.trace ++ [started] := by rw [ht]; rfl
  have hplaying : tonePlaying t.trace = tonePlaying s.trace := by
    rw [htrace, tonePlaying_append rfl]
  have hsince : call .rawStart ∉ since isAudio t.trace := by
    rw [htrace, since_concat_pos _ rfl]
    exact List.not_mem_nil
  have hfits : Routed t.trace ↔ tonePlaying s.trace = true := by
    constructor
    · intro hrouted'
      by_contra htone
      refine hsince (hrouted'.streams (htrace ▸ hlast) ?_)
      rw [hplaying]
      exact Bool.eq_false_of_not_eq_true htone
    · intro htone
      constructor
      · rw [htrace]
        exact eachEntry_started hrouted
      · intro _ hnot
        exact absurd (hnot.symm.trans (hplaying.trans htone)) Bool.false_ne_true
  refine ⟨hfits, fun hrouted' ↦ ?_⟩
  constructor
  · rw [htrace, hlast, ht]
    exact iff_of_true rfl rfl
  · rw [hplaying, ht]
    exact hs.stopped
  · intro _
    rw [ht]
    exact ⟨Bool.eq_false_of_not_eq_true hstopped, hs.tones (hfits.mp hrouted')⟩
  · rw [hplaying, ht]
    exact hs.tones
  · intro _
    rw [ht] at hsince ⊢
    exact iff_of_false Bool.true_eq_false.mp hsince

theorem audio_spec (hs : s.Knows) (hrouted : Routed s.trace) {state : AudioState}
    (h : s.step (.AUDIO_STATE_EVT state) = some t) :
    (Routed t.trace ↔ s.Fits (.AUDIO_STATE_EVT state)) ∧ (Routed t.trace → t.Knows) := by
  cases state with
  | STARTED =>
    by_cases hstopped : s.av.toneStopped = true
    · obtain ⟨ht, hknows⟩ := started_spec hs hrouted hstopped h
      exact ⟨iff_of_true ht (.inl hstopped), fun _ ↦ hknows⟩
    · obtain ⟨hfits, hknows⟩ := started_deferred_spec hs hrouted hstopped h
      exact ⟨hfits.trans (or_iff_right hstopped).symm, hknows⟩
  | STOPPED =>
    obtain ⟨ht, hknows⟩ := routed_unstarted [.rawStop] hs hrouted AudioState.noConfusion
      (step_eq h rfl) (by simp) rfl
    exact ⟨iff_of_true ht trivial, fun _ ↦ hknows⟩
  | REMOTE_SUSPEND =>
    obtain ⟨ht, hknows⟩ := routed_unstarted [] hs hrouted AudioState.noConfusion
      (step_eq h rfl) (by simp) rfl
    exact ⟨iff_of_true ht trivial, fun _ ↦ hknows⟩

/-- The player says that a tone has been stopped, or has failed. -/
theorem toneOver_spec (hs : s.Knows) (hrouted : Routed s.trace) {status : AudioStatus}
    (hover : status = .STOP ∨ status = .ERROR) (h : s.step (.playerStatus status .TONE) = some t) :
    (Routed t.trace ↔ (s.av.rawStart = true → s.av.audioState = .STARTED)) ∧
      (Routed t.trace → t.Knows) := by
  have htone : (event (.playerStatus status .TONE)).isTone = true := by
    rcases hover with rfl | rfl
    · rfl
    · rfl
  by_cases hdeferred : s.av.rawStart = true
  · have ht := step_eq h (BtAv.playerStatusUpdated_deferred hover hdeferred)
    have htrace : t.trace =
        s.trace ++ [event (.playerStatus status .TONE)] ++ [call .rawStart] := by
      rw [ht, List.append_assoc]
      rfl
    have hlast : lastOf isAudio t.trace = lastOf isAudio s.trace := by
      rw [htrace, lastOf_concat_neg _ rfl, lastOf_concat_neg _ rfl]
    have hplaying : tonePlaying t.trace = false := by
      rw [htrace, tonePlaying_append rfl, tonePlaying, lastOf_concat_pos _ htone]
    refine ⟨⟨fun hrouted' _ ↦ ?_, fun hstarted ↦ ?_⟩, fun _ ↦ ?_⟩
    · have hall := hrouted'.justified
      rw [htrace, eachEntry_concat] at hall
      have hstarted := (hall.2 rfl).1
      rw [lastOf_concat_neg _ rfl] at hstarted
      exact hs.audio.mpr hstarted
    · have haudio := hs.audio.mp (hstarted hdeferred)
      obtain ⟨-, hsince⟩ := lastOf_since_of_imp s.trace
        (fun _ ↦ isStarted_of_not_isAudio) rfl haudio
      rw [htrace]
      refine routed_start ?_ ?_ ?_
      · rw [eachEntry_concat]
        exact ⟨hrouted.justified, justified_of_ne A2dEntry.noConfusion⟩
      · rw [lastOf_concat_neg _ rfl]
        exact haudio
      · -- the start has been put off since the phone began to stream
        have hnot : call .rawStart ∉ since isAudio s.trace := by
          intro hmem
          have hfalse := (hs.called (hstarted hdeferred)).mpr hmem
          exact Bool.false_ne_true (hfalse.symm.trans hdeferred)
        rw [since_concat_neg _ rfl, hsince, List.mem_append, not_or]
        exact ⟨hnot, by simp⟩
    · constructor
      · rw [hlast, ht]
        exact hs.audio
      · intro _
        exact hplaying
      · intro hnot
        rw [ht] at hnot
        exact absurd hnot Bool.false_ne_true
      · intro hnot
        exact absurd (hplaying.symm.trans hnot) Bool.false_ne_true
      · intro _
        rw [htrace, since_concat_neg _ rfl, ht]
        exact iff_of_true rfl (List.mem_append_right _ (List.mem_singleton_self _))
  · have hnot := Bool.eq_false_of_not_eq_true hdeferred
    have ht := step_eq h (BtAv.playerStatusUpdated_over hover hnot)
    have hplaying : tonePlaying (s.trace ++ [event (.playerStatus status .TONE)]) = false := by
      rw [tonePlaying, lastOf_concat_pos _ htone]
    obtain ⟨hrouted', hknows⟩ := routed_stopped hs hrouted hnot ht rfl (by simp) hplaying
    exact ⟨iff_of_true hrouted' fun h ↦ absurd h hdeferred, fun _ ↦ hknows⟩

/-- The player says that a tone has finished. -/
theorem toneFinished_spec (hs : s.Knows) (hrouted : Routed s.trace)
    (h : s.step (.playerStatus .FINISHED .TONE) = some t) :
    (Routed t.trace ↔ (s.av.rawStart = true → s.av.audioState ≠ .STARTED)) ∧
      (Routed t.trace → t.Knows) := by
  have ht := step_eq h (BtAv.playerStatusUpdated_other (by simp))
  have hplaying : tonePlaying t.trace = false := by
    rw [ht]
    exact tonePlaying_event rfl
  have htrace : t.trace = s.trace ++ [event (.playerStatus .FINISHED .TONE)] := by
    rw [ht]
    rfl
  have hstart : call .rawStart ∉ [event (.playerStatus .FINISHED .TONE)] := by simp
  constructor
  · rw [routed_quiet hs hrouted htrace rfl hstart, hplaying]
    constructor
    · intro hstarted hdeferred haudio
      exact Bool.false_ne_true (hstarted haudio hdeferred)
    · intro hne haudio hdeferred
      exact absurd haudio (hne hdeferred)
  · intro _
    refine hs.quiet htrace rfl hstart (by rw [ht]) (by rw [ht]) ?_ ?_ ?_
    · intro _
      exact hplaying
    · rw [ht]
      exact hs.deferred
    · intro hnot
      exact absurd (hplaying.symm.trans hnot) Bool.false_ne_true

theorem status_spec (hs : s.Knows) (hrouted : Routed s.trace) {status : AudioStatus}
    {mode : PlayerWorkingMode} (h : s.step (.playerStatus status mode) = some t) :
    (Routed t.trace ↔ s.Fits (.playerStatus status mode)) ∧ (Routed t.trace → t.Knows) := by
  by_cases hmode : mode = .TONE
  · subst hmode
    by_cases hover : status = .STOP ∨ status = .ERROR
    · obtain ⟨hiff, hknows⟩ := toneOver_spec hs hrouted hover h
      refine ⟨hiff.trans ⟨fun hstart ↦ ⟨fun _ ↦ hstart, ?_⟩, fun hfits ↦ hfits.1 hover⟩, hknows⟩
      rintro rfl
      exact absurd hover (by simp)
    · by_cases hfinished : status = .FINISHED
      · subst hfinished
        obtain ⟨hiff, hknows⟩ := toneFinished_spec hs hrouted h
        refine ⟨hiff.trans ⟨fun hne ↦ ⟨fun hnot ↦ absurd hnot hover, fun _ ↦ hne⟩, ?_⟩, hknows⟩
        exact fun hfits ↦ hfits.2 rfl
      · have ht := step_eq h (BtAv.playerStatusUpdated_other fun hand ↦ hover hand.1)
        have htone : (event (.playerStatus status .TONE)).isTone = false := by
          cases status <;> simp_all [isTone, isTerminal]
        obtain ⟨hrouted', hknows⟩ := routed_same hs hrouted ht rfl (by simp) (by simp [htone])
        refine ⟨iff_of_true hrouted' ⟨fun hnot ↦ absurd hnot hover, ?_⟩, fun _ ↦ hknows⟩
        exact fun hnot ↦ absurd hnot hfinished
  · have ht := step_eq h (BtAv.playerStatusUpdated_other fun hand ↦ hmode hand.2)
    have htone : (event (.playerStatus status mode)).isTone = false := by
      simp [isTone, hmode]
    obtain ⟨hrouted', hknows⟩ := routed_same hs hrouted ht rfl (by simp) (by simp [htone])
    refine ⟨iff_of_true hrouted' ?_, fun _ ↦ hknows⟩
    cases mode with
    | TONE => exact absurd rfl hmode
    | _ => trivial

theorem step_spec (hs : s.Knows) (hrouted : Routed s.trace) (h : s.step evt = some t) :
    (Routed t.trace ↔ s.Fits evt) ∧ (Routed t.trace → t.Knows) := by
  cases evt with
  | CONNECTION_STATE_EVT state abnormal =>
    obtain ⟨hrouted', hknows⟩ := connection_spec hs hrouted h
    exact ⟨iff_of_true hrouted' trivial, fun _ ↦ hknows⟩
  | AUDIO_STATE_EVT state => exact audio_spec hs hrouted h
  | playerStatus status mode => exact status_spec hs hrouted h

theorem knows_init (tones : Bool) : (init tones).Knows := by
  constructor
  · exact iff_of_false AudioState.noConfusion (Option.some_ne_none _).symm
  · intro _
    rfl
  · intro h
    exact absurd h Bool.false_ne_true
  · intro h
    exact absurd h Bool.false_ne_true
  · intro h
    exact AudioState.noConfusion h

theorem routed_init (tones : Bool) : Routed (init tones).trace := by
  constructor
  · exact eachEntry_nil
  · intro h
    exact absurd h (Option.some_ne_none _).symm

end Streaming

/-- **The player runs while the phone streams, and only then, throughout a run whose steps are as in
`Fits`, and in no other.** -/
theorem routed_iff {tones : Bool} {evts : List A2dEvent} {s : Streaming}
    (h : AnyRun Streaming.step (.init tones) evts s) :
    Always Streaming.step (fun s ↦ A2dEntry.Routed s.trace) (.init tones) evts ↔
      Run Streaming.step Streaming.Fits (.init tones) evts s := by
  refine h.always_iff_while (J := Streaming.Knows) ?_ ?_ (Streaming.knows_init tones)
    (Streaming.routed_init tones)
  · intro s evt t hs hrouted hrouted' _ hstep
    exact (Streaming.step_spec hs hrouted hstep).2 hrouted'
  · intro s evt t hs hrouted _ hstep
    exact (Streaming.step_spec hs hrouted hstep).1

/-- The phone is connected, and streams before the tone is over. -/
theorem routed_iff_early : Always Streaming.step (fun s ↦ A2dEntry.Routed s.trace) (.init true)
    [.CONNECTION_STATE_EVT .CONNECTED false, .AUDIO_STATE_EVT .STARTED, .playerStatus .STOP .TONE,
      .AUDIO_STATE_EVT .STOPPED] := by
  refine (routed_iff (anyRun_of_foldlM rfl)).mpr ?_
  exact .cons trivial rfl <| .cons (.inr rfl) rfl <| .cons ⟨fun _ _ ↦ rfl, nofun⟩ rfl <|
    .cons trivial rfl <| .nil _

/-- The phone streams before the tone is over, but not any more when it is. -/
theorem not_routed_brief : ¬∀ tones evts s, AnyRun Streaming.step (.init tones) evts s →
    A2dEntry.Routed s.trace := by
  intro h
  have hrouted := h true
    [.CONNECTION_STATE_EVT .CONNECTED false, .AUDIO_STATE_EVT .STARTED, .AUDIO_STATE_EVT .STOPPED,
      .playerStatus .STOP .TONE] _ <| anyRun_of_foldlM rfl
  have hlast := hrouted.justified [.event (.CONNECTION_STATE_EVT .CONNECTED false),
      .call (.a2dRecSmHandler .CONNECTED), .call (.ledIndicatorSet .NetConnectOk),
      .call (.playTone .BT_SUCCESS), .call (.espAudioPlayerSrcSet .BT),
      .event (.AUDIO_STATE_EVT .STARTED), .event (.AUDIO_STATE_EVT .STOPPED), .call .rawStop,
      .event (.playerStatus .STOP .TONE)] (.call .rawStart) [] rfl rfl
  exact absurd hlast.1 (by decide)

end Ddmz.Bluetooth
