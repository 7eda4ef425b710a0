import Ddmz.Cloud.Tts
import Ddmz.Foundation.Runs

/-!
# The hand-over of an answer to the speech task

Two tasks of the firmware share the globals `tts_text_state` and `tts_text_nlp_txt`: the cloud task
runs recognition sessions, in which `tts_text_start` resets them and `tts_text_finish` sets them,
and `ddhttp_task` speaks the text when a message tells it to. The message carries no data. It goes
through a queue of five, and is dropped if the queue is full.

## The steps

The tasks interleave statement by statement, where a statement reads or writes what they share. A
memory block that is cleared or written at once here is not read meanwhile in the runs that the
main result is about.

## What can go wrong

A message stands for whatever session owns the globals when it is received, not for the one that
sent it. So an answer is lost if a new session starts before its message has been looked at, or if
its message is dropped; it is garbled if a new session clears the text while it is being read; and
a message of a failed session that is looked at in the state of another one speaks for the wrong
session. `Undisturbed` is the absence of these four, step by step, and
`handedOver_of_undisturbed` says that nothing else goes wrong.

Messages and requests carry the number of the session that caused them. The tasks never look at it.
-/

namespace Ddmz.Cloud

/-- `_tts_text_state`. -/
inductive TtsTextState
  | start
  | run
  | finish
  | err
  deriving DecidableEq

/-- The length of the queue of `DdHttpServiceCreate`. -/
def TTS_QUEUE_LENGTH : ℕ := 5

/-- A `DD_CMD_TTS_EVT` message, with the session that sent it and the answer of that session, if it
ended in `tts_text_state_finish`. -/
structure TtsEvt where
  session : ℕ
  answer : Option AnswerText

/-- Where the cloud task is. -/
inductive CloudPhase
  /-- Between two sessions. -/
  | idle
  /-- In `tts_text_start`, before the texts are cleared. -/
  | starting
  /-- Receiving the response. -/
  | receiving
  /-- In `tts_text_finish`, with the answer that has been stored, if any. -/
  | parsing (stored : Option AnswerText)
  /-- Before `ddOSEvtSend`, with both texts found. -/
  | accepted (answer : AnswerText)
  /-- Before `ddOSEvtSend`, on the error path. -/
  | refused

/-- Where the speech task is. -/
inductive SpeechPhase
  /-- In `xQueueReceive`. -/
  | waiting
  /-- Before the test of `tts_text_state`. -/
  | received (evt : TtsEvt)
  /-- Before `strlen(tts_text_nlp_txt)`. -/
  | checked (evt : TtsEvt)
  /-- In `ddcloud_http_xunfei_tts`, with the size it was called with and the bytes read so far. -/
  | reading (evt : TtsEvt) (size : ℕ) (text : List UInt8)
  /-- In `esp_http_client_perform`, for as long as it takes. -/
  | performing

/-- The two tasks, what they share, and a record of what has happened. -/
structure Handover where
  cloud : CloudPhase
  speech : SpeechPhase
  ttsTextState : TtsTextState
  ttsTextNlpTxt : Buffer
  que : List TtsEvt
  /-- The number of the current session. -/
  session : ℕ
  /-- The sessions that ended in `tts_text_state_finish`, with their answers. -/
  answered : List (ℕ × List UInt8)
  /-- The sessions that ended in `tts_text_state_err`. -/
  failed : List ℕ
  /-- The speech requests. -/
  spoken : List (ℕ × List UInt8)

/-- Before the first session. -/
def Handover.init (memory : ℕ → UInt8) : Handover where
  cloud := .idle
  speech := .waiting
  ttsTextState := .start
  ttsTextNlpTxt := Buffer.mk memory 0
  que := []
  session := 0
  answered := []
  failed := []
  spoken := []

/-! ## The cloud task -/

/-- `ddOSEvtSend`, with its timeout of zero. -/
def ddOSEvtSend (evt : TtsEvt) (que : List TtsEvt) : List TtsEvt :=
  if que.length < TTS_QUEUE_LENGTH then que ++ [evt] else que

/-- The first statement of `tts_text_start` that is shared. -/
def ttsTextStart (s : Handover) : Option Handover :=
  match s.cloud with
  | .idle =>
    some { s with cloud := .starting, session := s.session + 1, ttsTextState := .start }
  | _ => none

/-- The rest of `tts_text_start`. -/
def ttsTextStartClear (s : Handover) : Option Handover :=
  match s.cloud with
  | .starting =>
    some { s with cloud := .receiving, ttsTextNlpTxt := s.ttsTextNlpTxt.clear NLP_TXT_SIZE }
  | _ => none

def ttsTextPush (s : Handover) : Option Handover :=
  match s.cloud with
  | .receiving => some { s with ttsTextState := .run }
  | _ => none

/-- The first statement of `tts_text_finish`. -/
def ttsTextFinish (s : Handover) : Option Handover :=
  match s.cloud with
  | .receiving => some { s with cloud := .parsing none, ttsTextState := .finish }
  | _ => none

/-- `tts_text_finish` finds the answer and stores it. -/
def ttsTextFinishStore (answer : AnswerText) (s : Handover) : Option Handover :=
  match s.cloud with
  | .parsing none =>
    some { s with
      cloud := .parsing (some answer)
      ttsTextNlpTxt := s.ttsTextNlpTxt.write 0 (answer.bytes ++ [0]) }
  | _ => none

/-- `tts_text_finish` has found both texts. -/
def ttsTextFinishAccept (s : Handover) : Option Handover :=
  match s.cloud with
  | .parsing (some answer) => some { s with cloud := .accepted answer }
  | _ => none

/-- `tts_text_finish` reaches `err`, whatever it has found. -/
def ttsTextFinishErr (s : Handover) : Option Handover :=
  match s.cloud with
  | .parsing _ => some { s with cloud := .refused, ttsTextState := .err }
  | _ => none

/-- The last statement of `tts_text_finish`, on either path. -/
def ttsTextFinishSend (s : Handover) : Option Handover :=
  match s.cloud with
  | .accepted answer =>
    some { s with
      cloud := .idle
      que := ddOSEvtSend ⟨s.session, some answer⟩ s.que
      answered := s.answered ++ [(s.session, answer.bytes)] }
  | .refused =>
    some { s with
      cloud := .idle
      que := ddOSEvtSend ⟨s.session, none⟩ s.que
      failed := s.failed ++ [s.session] }
  | _ => none

/-! ## The speech task -/

/-- `xQueueReceive`. -/
def ddhttpReceive (s : Handover) : Option Handover :=
  match s.speech, s.que with
  | .waiting, evt :: que => some { s with speech := .received evt, que }
  | _, _ => none

/-- The test of `tts_text_state`. -/
def ddhttpCheck (s : Handover) : Option Handover :=
  match s.speech with
  | .received evt =>
    some { s with speech := if s.ttsTextState = .finish then .checked evt else .waiting }
  | _ => none

/-- The call of `ddcloud_http_xunfei_tts`. -/
def ddhttpStrlen (s : Handover) : Option Handover :=
  match s.speech with
  | .checked evt =>
    some { s with speech := .reading evt (s.ttsTextNlpTxt.strlen 0 NLP_TXT_SIZE) [] }
  | _ => none

/-- `URLEncode` reads a byte. -/
def ddhttpReadByte (s : Handover) : Option Handover :=
  match s.speech with
  | .reading evt size text =>
    if text.length < size then
      some { s with speech := .reading evt size (text ++ [s.ttsTextNlpTxt.cells text.length]) }
    else none
  | _ => none

/-- The request is made. -/
def ddhttpPerform (s : Handover) : Option Handover :=
  match s.speech with
  | .reading evt size text =>
    if text.length < size then none
    else some { s with speech := .performing, spoken := s.spoken ++ [(evt.session, text)] }
  | _ => none

/-- The request is over. -/
def ddhttpPerformed (s : Handover) : Option Handover :=
  match s.speech with
  | .performing => some { s with speech := .waiting }
  | _ => none

inductive HandoverAction
  | start
  | startClear
  | push
  | finish
  | store (answer : AnswerText)
  | accept
  | err
  | send
  | receive
  | check
  | strlen
  | readByte
  | perform
  | performed

/-- A step of either task. -/
def Handover.step (s : Handover) : HandoverAction → Option Handover
  | .start => ttsTextStart s
  | .startClear => ttsTextStartClear s
  | .push => ttsTextPush s
  | .finish => ttsTextFinish s
  | .store answer => ttsTextFinishStore answer s
  | .accept => ttsTextFinishAccept s
  | .err => ttsTextFinishErr s
  | .send => ttsTextFinishSend s
  | .receive => ddhttpReceive s
  | .check => ddhttpCheck s
  | .strlen => ddhttpStrlen s
  | .readByte => ddhttpReadByte s
  | .perform => ddhttpPerform s
  | .performed => ddhttpPerformed s

/-! ## The contract -/

/-- The message whose test is the next statement. -/
def SpeechPhase.next : SpeechPhase → List TtsEvt
  | .received evt => [evt]
  | _ => []

/-- The messages whose test is still to come. -/
def Handover.unchecked (s : Handover) : List TtsEvt := s.speech.next ++ s.que

/-- The speech task has seen `tts_text_state_finish` and is still to read the text, or the rest
of it. -/
def SpeechPhase.readsOn : SpeechPhase → Bool
  | .checked _ => true
  | .reading _ size text => decide (text.length < size)
  | _ => false

/-- What a step must not do, in the state before it. -/
def Undisturbed (s : Handover) : HandoverAction → Prop
  -- a session starts while the message of an answer has not been looked at
  | .start => ∀ evt ∈ s.unchecked, evt.answer = none
  -- the text is cleared before the last byte of it has been read
  | .startClear => s.speech.readsOn = false
  -- the message of an answer is dropped
  | .send => ∀ answer, s.cloud = .accepted answer → s.que.length < TTS_QUEUE_LENGTH
  -- the message of a failed session is looked at in the state of another one
  | .check => ∀ evt, s.speech = .received evt → evt.answer = none → s.ttsTextState ≠ .finish
  | _ => True

/-! ## What each step does -/

section Inversion

variable {s t : Handover}

theorem ttsTextStart_eq_some (h : ttsTextStart s = some t) : s.cloud = .idle ∧
    t = { s with cloud := .starting, session := s.session + 1, ttsTextState := .start } := by
  rw [ttsTextStart] at h
  split at h
  · exact ⟨‹_›, (Option.some.inj h).symm⟩
  · cases h

theorem ttsTextStartClear_eq_some (h : ttsTextStartClear s = some t) : s.cloud = .starting ∧
    t = { s with
      cloud := .receiving, ttsTextNlpTxt := s.ttsTextNlpTxt.clear NLP_TXT_SIZE } := by
  rw [ttsTextStartClear] at h
  split at h
  · exact ⟨‹_›, (Option.some.inj h).symm⟩
  · cases h

theorem ttsTextPush_eq_some (h : ttsTextPush s = some t) :
    s.cloud = .receiving ∧ t = { s with ttsTextState := .run } := by
  rw [ttsTextPush] at h
  split at h
  · exact ⟨‹_›, (Option.some.inj h).symm⟩
  · cases h

theorem ttsTextFinish_eq_some (h : ttsTextFinish s = some t) : s.cloud = .receiving ∧
    t = { s with cloud := .parsing none, ttsTextState := .finish } := by
  rw [ttsTextFinish] at h
  split at h
  · exact ⟨‹_›, (Option.some.inj h).symm⟩
  · cases h

theorem ttsTextFinishStore_eq_some {answer : AnswerText}
    (h : ttsTextFinishStore answer s = some t) : s.cloud = .parsing none ∧
    t = { s with
      cloud := .parsing (some answer)
      ttsTextNlpTxt := s.ttsTextNlpTxt.write 0 (answer.bytes ++ [0]) } := by
  rw [ttsTextFinishStore] at h
  split at h
  · exact ⟨‹_›, (Option.some.inj h).symm⟩
  · cases h

theorem ttsTextFinishAccept_eq_some (h : ttsTextFinishAccept s = some t) :
    ∃ answer, s.cloud = .parsing (some answer) ∧ t = { s with cloud := .accepted answer } := by
  rw [ttsTextFinishAccept] at h
  split at h
  · exact ⟨_, ‹_›, (Option.some.inj h).symm⟩
  · cases h

theorem ttsTextFinishErr_eq_some (h : ttsTextFinishErr s = some t) :
    ∃ stored, s.cloud = .parsing stored ∧
      t = { s with cloud := .refused, ttsTextState := .err } := by
  rw [ttsTextFinishErr] at h
  split at h
  · exact ⟨_, ‹_›, (Option.some.inj h).symm⟩
  · cases h

theorem ttsTextFinishSend_eq_some (h : ttsTextFinishSend s = some t) :
    (∃ answer, s.cloud = .accepted answer ∧
      t = { s with
        cloud := .idle
        que := ddOSEvtSend ⟨s.session, some answer⟩ s.que
        answered := s.answered ++ [(s.session, answer.bytes)] }) ∨
    (s.cloud = .refused ∧
      t = { s with
        cloud := .idle
        que := ddOSEvtSend ⟨s.session, none⟩ s.que
        failed := s.failed ++ [s.session] }) := by
  rw [ttsTextFinishSend] at h
  split at h
  · exact Or.inl ⟨_, ‹_›, (Option.some.inj h).symm⟩
  · exact Or.inr ⟨‹_›, (Option.some.inj h).symm⟩
  · cases h

theorem ddhttpReceive_eq_some (h : ddhttpReceive s = some t) :
    ∃ evt que, s.speech = .waiting ∧ s.que = evt :: que ∧
      t = { s with speech := .received evt, que } := by
  rw [ddhttpReceive] at h
  split at h
  · exact ⟨_, _, ‹_›, ‹_›, (Option.some.inj h).symm⟩
  · cases h

theorem ddhttpCheck_eq_some (h : ddhttpCheck s = some t) : ∃ evt, s.speech = .received evt ∧
    t = { s with speech := if s.ttsTextState = .finish then .checked evt else .waiting } := by
  rw [ddhttpCheck] at h
  split at h
  · exact ⟨_, ‹_›, (Option.some.inj h).symm⟩
  · cases h

theorem ddhttpStrlen_eq_some (h : ddhttpStrlen s = some t) : ∃ evt, s.speech = .checked evt ∧
    t = { s with speech := .reading evt (s.ttsTextNlpTxt.strlen 0 NLP_TXT_SIZE) [] } := by
  rw [ddhttpStrlen] at h
  split at h
  · exact ⟨_, ‹_›, (Option.some.inj h).symm⟩
  · cases h

theorem ddhttpReadByte_eq_some (h : ddhttpReadByte s = some t) :
    ∃ evt size text, s.speech = .reading evt size text ∧ text.length < size ∧
      t = { s with
        speech := .reading evt size (text ++ [s.ttsTextNlpTxt.cells text.length]) } := by
  rw [ddhttpReadByte] at h
  split at h
  · split at h
    · exact ⟨_, _, _, ‹_›, ‹_›, (Option.some.inj h).symm⟩
    · cases h
  · cases h

theorem ddhttpPerform_eq_some (h : ddhttpPerform s = some t) :
    ∃ evt size text, s.speech = .reading evt size text ∧ ¬text.length < size ∧
      t = { s with
        speech := .performing, spoken := s.spoken ++ [(evt.session, text)] } := by
  rw [ddhttpPerform] at h
  split at h
  · split at h
    · cases h
    · exact ⟨_, _, _, ‹_›, ‹_›, (Option.some.inj h).symm⟩
  · cases h

theorem ddhttpPerformed_eq_some (h : ddhttpPerformed s = some t) :
    s.speech = .performing ∧ t = { s with speech := .waiting } := by
  rw [ddhttpPerformed] at h
  split at h
  · exact ⟨‹_›, (Option.some.inj h).symm⟩
  · cases h

end Inversion

/-! ## The numbers of the sessions -/

/-- The sessions that are over. -/
def Handover.ended (s : Handover) : List ℕ := s.answered.map Prod.fst ++ s.failed

/-- Every session ends once. -/
structure Numbered (s : Handover) : Prop where
  nodup : s.ended.Nodup
  le : ∀ k ∈ s.ended, k ≤ s.session
  lt : s.cloud ≠ .idle → ∀ k ∈ s.ended, k < s.session

variable {s t : Handover} {a : HandoverAction}

/-- A step within a session. -/
theorem Numbered.congr (h : Numbered s) (hended : t.ended = s.ended)
    (hsession : t.session = s.session) (hcloud : t.cloud ≠ .idle → s.cloud ≠ .idle) :
    Numbered t where
  nodup := hended ▸ h.nodup
  le := by rw [hended, hsession]; exact h.le
  lt hidle := by rw [hended, hsession]; exact h.lt (hcloud hidle)

/-- The end of a session. -/
theorem Numbered.snoc (h : Numbered s) (hidle : s.cloud ≠ .idle)
    (hended : t.ended.Perm (s.session :: s.ended)) (hsession : t.session = s.session)
    (hcloud : t.cloud = .idle) : Numbered t where
  nodup := by
    rw [hended.nodup_iff, List.nodup_cons]
    exact ⟨fun hmem ↦ Nat.lt_irrefl _ (h.lt hidle _ hmem), h.nodup⟩
  le k hk := by
    rw [hsession]
    rcases List.mem_cons.mp (hended.mem_iff.mp hk) with rfl | hk
    · exact le_rfl
    · exact h.le k hk
  lt hne := absurd hcloud hne

theorem Numbered.step (h : Numbered s) (hstep : s.step a = some t) : Numbered t := by
  cases a with
  | start =>
    obtain ⟨-, rfl⟩ := ttsTextStart_eq_some hstep
    exact ⟨h.nodup, fun k hk ↦ (h.le k hk).trans (Nat.le_succ _),
      fun _ k hk ↦ Nat.lt_succ_of_le (h.le k hk)⟩
  | startClear =>
    obtain ⟨hcloud, rfl⟩ := ttsTextStartClear_eq_some hstep
    exact h.congr rfl rfl fun _ ↦ by rw [hcloud]; simp
  | push =>
    obtain ⟨hcloud, rfl⟩ := ttsTextPush_eq_some hstep
    exact h.congr rfl rfl fun _ ↦ by rw [hcloud]; simp
  | finish =>
    obtain ⟨hcloud, rfl⟩ := ttsTextFinish_eq_some hstep
    exact h.congr rfl rfl fun _ ↦ by rw [hcloud]; simp
  | store answer =>
    obtain ⟨hcloud, rfl⟩ := ttsTextFinishStore_eq_some hstep
    exact h.congr rfl rfl fun _ ↦ by rw [hcloud]; simp
  | accept =>
    obtain ⟨answer, hcloud, rfl⟩ := ttsTextFinishAccept_eq_some hstep
    exact h.congr rfl rfl fun _ ↦ by rw [hcloud]; simp
  | err =>
    obtain ⟨stored, hcloud, rfl⟩ := ttsTextFinishErr_eq_some hstep
    exact h.congr rfl rfl fun _ ↦ by rw [hcloud]; simp
  | send =>
    rcases ttsTextFinishSend_eq_some hstep with ⟨answer, hcloud, rfl⟩ | ⟨hcloud, rfl⟩
    · refine h.snoc (by rw [hcloud]; simp) ?_ rfl rfl
      simp only [Handover.ended, List.map_append, List.map_singleton, List.append_assoc,
        List.singleton_append]
      exact List.perm_middle
    · refine h.snoc (by rw [hcloud]; simp) ?_ rfl rfl
      simp only [Handover.ended, ← List.append_assoc]
      exact List.perm_append_singleton _ _
  | receive =>
    obtain ⟨evt, que, -, -, rfl⟩ := ddhttpReceive_eq_some hstep
    exact h.congr rfl rfl id
  | check =>
    obtain ⟨evt, -, rfl⟩ := ddhttpCheck_eq_some hstep
    exact h.congr rfl rfl id
  | strlen =>
    obtain ⟨evt, -, rfl⟩ := ddhttpStrlen_eq_some hstep
    exact h.congr rfl rfl id
  | readByte =>
    obtain ⟨evt, size, text, -, -, rfl⟩ := ddhttpReadByte_eq_some hstep
    exact h.congr rfl rfl id
  | perform =>
    obtain ⟨evt, size, text, -, -, rfl⟩ := ddhttpPerform_eq_some hstep
    exact h.congr rfl rfl id
  | performed =>
    obtain ⟨-, rfl⟩ := ddhttpPerformed_eq_some hstep
    exact h.congr rfl rfl id

/-! ## The invariant of an undisturbed run -/

/-- A message as what it should lead to. -/
def TtsEvt.due (evt : TtsEvt) : Option (ℕ × List UInt8) :=
  evt.answer.map fun answer ↦ (evt.session, answer.bytes)

/-- The message that the speech task is dealing with. -/
def SpeechPhase.current : SpeechPhase → List TtsEvt
  | .received evt => [evt]
  | .checked evt => [evt]
  | .reading evt _ _ => [evt]
  | _ => []

theorem mem_ddOSEvtSend {evt e : TtsEvt} {que : List TtsEvt} (h : e ∈ ddOSEvtSend evt que) :
    e ∈ que ∨ e = evt := by
  rw [ddOSEvtSend] at h
  split at h
  · exact (List.mem_append.mp h).imp_right List.mem_singleton.mp
  · exact Or.inl h

/-- It does not matter whether the message of a failed session is dropped. -/
theorem filterMap_due_ddOSEvtSend_none (k : ℕ) (que : List TtsEvt) :
    (ddOSEvtSend ⟨k, none⟩ que).filterMap TtsEvt.due = que.filterMap TtsEvt.due := by
  rw [ddOSEvtSend]
  split
  · rw [List.filterMap_append]
    exact List.append_nil _
  · rfl

/-- What is still to be spoken. -/
def Handover.outstanding (s : Handover) : List (ℕ × List UInt8) :=
  (s.speech.current ++ s.que).filterMap TtsEvt.due

/-- The text is that of an answer. -/
structure Holds (nlpTxt : Buffer) (answer : AnswerText) : Prop where
  text : nlpTxt.read 0 answer.bytes.length = answer.bytes
  terminator : nlpTxt.cells (0 + answer.bytes.length) = 0

/-- The cloud task leaves the text alone. -/
def CloudPhase.isOutside : CloudPhase → Bool
  | .idle => true
  | .starting => true
  | _ => false

/-- The state is `tts_text_state_finish`. -/
def CloudPhase.isFinishing : CloudPhase → Bool
  | .parsing _ => true
  | .accepted _ => true
  | _ => false

/-- The answer that has been stored. -/
def CloudPhase.found : CloudPhase → Option AnswerText
  | .parsing stored => stored
  | .accepted answer => some answer
  | _ => none

/-- The speech task has read nothing but the text that it is to speak, and what it has not read
yet is there. -/
def SpeechPhase.ReadsOwn (nlpTxt : Buffer) : SpeechPhase → Prop
  | .checked evt => ∃ answer, evt.answer = some answer ∧ Holds nlpTxt answer
  | .reading evt size text => ∃ answer, evt.answer = some answer ∧
      size = answer.bytes.length ∧ text <+: answer.bytes ∧
      (text.length < size → Holds nlpTxt answer)
  | _ => True

/-- Once the last byte has been read, the text does not matter. -/
theorem SpeechPhase.ReadsOwn.of_not_readsOn {speech : SpeechPhase} {nlpTxt nlpTxt' : Buffer}
    (h : speech.ReadsOwn nlpTxt) (hread : speech.readsOn = false) : speech.ReadsOwn nlpTxt' := by
  cases speech with
  | checked evt => cases hread
  | reading evt size text =>
    obtain ⟨answer, hanswer, hsize, hpre, -⟩ := h
    exact ⟨answer, hanswer, hsize, hpre, fun hlt ↦ absurd hlt (of_decide_eq_false hread)⟩
  | _ => trivial

/-- **The invariant of an undisturbed run.** The answers are those that have been spoken and those
that are still to be spoken, in this order; and what is still to be spoken is where the speech task
will look for it. -/
structure Handing (s : Handover) : Prop where
  answered : s.answered = s.spoken ++ s.outstanding
  /-- As long as the message of an answer has not been looked at, the globals stay as they were
  when it was sent. -/
  unchecked : ∀ evt ∈ s.unchecked, ∀ answer, evt.answer = some answer →
    s.cloud = .idle ∧ s.ttsTextState = .finish ∧ Holds s.ttsTextNlpTxt answer
  outside : s.speech.readsOn = true → s.cloud.isOutside = true
  reads : s.speech.ReadsOwn s.ttsTextNlpTxt
  finishing : s.cloud.isFinishing = true → s.ttsTextState = .finish
  found : ∀ answer, s.cloud.found = some answer → Holds s.ttsTextNlpTxt answer

/-- Nothing of what the cloud task may change is still needed. -/
structure Quiet (s : Handover) : Prop where
  notReading : s.speech.readsOn = false
  noAnswer : ∀ evt ∈ s.unchecked, evt.answer = none

theorem Handing.quiet (h : Handing s) (hcloud : s.cloud.isOutside = false) : Quiet s where
  notReading := by
    by_contra hreading
    rw [h.outside (Bool.eq_true_of_not_eq_false hreading)] at hcloud
    cases hcloud
  noAnswer evt hevt := by
    by_contra hsome
    obtain ⟨answer, hanswer⟩ := Option.ne_none_iff_exists'.mp hsome
    rw [(h.unchecked evt hevt answer hanswer).1] at hcloud
    cases hcloud

/-- A step of the cloud task while nothing is needed. -/
theorem Handing.cloudStep (h : Handing s) (hquiet : Quiet s) {cloud : CloudPhase}
    {ttsTextState : TtsTextState} {ttsTextNlpTxt : Buffer} {session : ℕ}
    (hfinishing : cloud.isFinishing = true → ttsTextState = .finish)
    (hfound : ∀ answer, cloud.found = some answer → Holds ttsTextNlpTxt answer) :
    Handing { s with cloud, ttsTextState, ttsTextNlpTxt, session } where
  answered := h.answered
  unchecked evt hevt answer hanswer := by
    rw [hquiet.noAnswer evt hevt] at hanswer
    cases hanswer
  outside hreading := by
    rw [hquiet.notReading] at hreading
    cases hreading
  reads := h.reads.of_not_readsOn hquiet.notReading
  finishing := hfinishing
  found := hfound

/-- A step of the speech task. -/
theorem Handing.speechStep (h : Handing s) {speech : SpeechPhase} {que : List TtsEvt}
    {spoken : List (ℕ × List UInt8)} (hanswered : s.spoken ++ s.outstanding
      = spoken ++ (speech.current ++ que).filterMap TtsEvt.due)
    (hunchecked : ({ s with speech, que, spoken } : Handover).unchecked ⊆ s.unchecked)
    (houtside : speech.readsOn = true → s.cloud.isOutside = true)
    (hreads : speech.ReadsOwn s.ttsTextNlpTxt) :
    Handing { s with speech, que, spoken } where
  answered := h.answered.trans hanswered
  unchecked evt hevt answer hanswer := h.unchecked evt (hunchecked hevt) answer hanswer
  outside := houtside
  reads := hreads
  finishing := h.finishing
  found := h.found

/-- A step after which the task has the same message at hand. -/
theorem Handing.speechStay (h : Handing s) {speech : SpeechPhase}
    (hcurrent : speech.current = s.speech.current)
    (hnext : speech.next = s.speech.next)
    (houtside : speech.readsOn = true → s.cloud.isOutside = true)
    (hreads : speech.ReadsOwn s.ttsTextNlpTxt) : Handing { s with speech } := by
  refine h.speechStep ?_ ?_ houtside hreads
  · rw [Handover.outstanding, hcurrent]
  · rw [Handover.unchecked, Handover.unchecked, hnext]
    exact List.Subset.refl _

theorem holds_write (nlpTxt : Buffer) (answer : AnswerText) :
    Holds (nlpTxt.write 0 (answer.bytes ++ [0])) answer where
  text := by
    have hread := Buffer.read_prefix (Buffer.read_write nlpTxt 0 (answer.bytes ++ [0]))
      (m := answer.bytes.length) (by rw [List.length_append]; exact Nat.le_add_right _ _)
    rwa [List.take_left' rfl] at hread
  terminator := Buffer.cells_write_last

theorem Holds.strlen {nlpTxt : Buffer} {answer : AnswerText} (h : Holds nlpTxt answer) :
    nlpTxt.strlen 0 NLP_TXT_SIZE = answer.bytes.length :=
  Buffer.strlen_eq h.text answer.noNul h.terminator answer.length_lt

/-- An answer that finds room in the queue is still to be spoken. -/
theorem Handing.sendAnswer (h : Handing s) {answer : AnswerText}
    (hcloud : s.cloud = .accepted answer) (hroom : s.que.length < TTS_QUEUE_LENGTH) :
    Handing { s with
      cloud := .idle
      que := ddOSEvtSend ⟨s.session, some answer⟩ s.que
      answered := s.answered ++ [(s.session, answer.bytes)] } := by
  have hque : ddOSEvtSend ⟨s.session, some answer⟩ s.que = s.que ++ [⟨s.session, some answer⟩] :=
    if_pos hroom
  have hquiet := h.quiet (by rw [hcloud]; rfl)
  rw [hque]
  refine ⟨?_, fun evt hevt answer' hanswer' ↦ ?_, fun _ ↦ rfl, h.reads, nofun, nofun⟩
  · have hdue : TtsEvt.due ⟨s.session, some answer⟩ = some (s.session, answer.bytes) := rfl
    simp only [h.answered, Handover.outstanding, List.filterMap_append, List.filterMap_cons,
      List.filterMap_nil, hdue, List.append_assoc]
  · -- the only message of an answer is the new one, and nothing has touched its text yet
    rw [Handover.unchecked, ← List.append_assoc] at hevt
    rcases List.mem_append.mp hevt with hold | hnew
    · rw [hquiet.noAnswer evt hold] at hanswer'
      cases hanswer'
    · rw [List.mem_singleton.mp hnew] at hanswer'
      obtain rfl : answer = answer' := Option.some.inj hanswer'
      exact ⟨rfl, h.finishing (by rw [hcloud]; rfl), h.found answer (by rw [hcloud]; rfl)⟩

/-- The message of a failed session is nothing to be spoken. -/
theorem Handing.sendFailure (h : Handing s) (hcloud : s.cloud = .refused) :
    Handing { s with
      cloud := .idle
      que := ddOSEvtSend ⟨s.session, none⟩ s.que
      failed := s.failed ++ [s.session] } := by
  have hquiet := h.quiet (by rw [hcloud]; rfl)
  refine ⟨?_, fun evt hevt answer' hanswer' ↦ ?_, fun _ ↦ rfl, h.reads, nofun, nofun⟩
  · simp only [h.answered, Handover.outstanding, List.filterMap_append,
      filterMap_due_ddOSEvtSend_none]
  · have hnone : evt.answer = none := by
      rcases List.mem_append.mp hevt with hnext | hque
      · exact hquiet.noAnswer evt (List.mem_append_left _ hnext)
      · rcases mem_ddOSEvtSend hque with hold | rfl
        · exact hquiet.noAnswer evt (List.mem_append_right _ hold)
        · rfl
    rw [hnone] at hanswer'
    cases hanswer'

/-- The message that is looked at is one of an answer exactly if the state is
`tts_text_state_finish`. -/
theorem Handing.check (h : Handing s) {evt : TtsEvt} (hspeech : s.speech = .received evt)
    (hok : evt.answer = none → s.ttsTextState ≠ .finish) :
    Handing { s with speech := if s.ttsTextState = .finish then .checked evt else .waiting } := by
  have hmem : evt ∈ s.unchecked := by
    rw [Handover.unchecked, hspeech]
    exact List.mem_cons_self
  have hsub : s.que ⊆ s.unchecked := by
    rw [Handover.unchecked, hspeech]
    exact List.subset_cons_self _ _
  cases hanswer : evt.answer with
  | none =>
    rw [if_neg (hok hanswer)]
    refine h.speechStep ?_ hsub nofun trivial
    rw [Handover.outstanding, hspeech]
    simp [SpeechPhase.current, TtsEvt.due, hanswer]
  | some answer =>
    obtain ⟨hcloud, hstate, hholds⟩ := h.unchecked evt hmem answer hanswer
    rw [if_pos hstate]
    refine h.speechStep ?_ hsub (fun _ ↦ by rw [hcloud]; rfl) ⟨answer, hanswer, hholds⟩
    rw [Handover.outstanding, hspeech]
    rfl

theorem Handing.strlen (h : Handing s) {evt : TtsEvt} (hspeech : s.speech = .checked evt) :
    Handing { s with speech := .reading evt (s.ttsTextNlpTxt.strlen 0 NLP_TXT_SIZE) [] } := by
  have hreads := h.reads
  rw [hspeech] at hreads
  obtain ⟨answer, hanswer, hholds⟩ := hreads
  exact h.speechStay (by rw [hspeech]; rfl) (by rw [hspeech]; rfl)
    (fun _ ↦ h.outside (by rw [hspeech]; rfl))
    ⟨answer, hanswer, hholds.strlen, List.nil_prefix, fun _ ↦ hholds⟩

/-- The next byte is the next one of the answer. -/
theorem Holds.read_next {nlpTxt : Buffer} {answer : AnswerText} (h : Holds nlpTxt answer)
    {text : List UInt8} (hpre : text <+: answer.bytes)
    (hlt : text.length < answer.bytes.length) :
    text ++ [nlpTxt.cells text.length] <+: answer.bytes := by
  have htext : nlpTxt.read 0 text.length = text :=
    (Buffer.read_prefix h.text hlt.le).trans (List.prefix_iff_eq_take.mp hpre).symm
  have hnext := Buffer.read_prefix h.text (Nat.succ_le_of_lt hlt)
  rw [Nat.succ_eq_add_one, Buffer.read_add, htext, Nat.zero_add, Buffer.read_succ,
    Buffer.read_zero] at hnext
  exact hnext ▸ List.take_prefix _ _

theorem Handing.readByte (h : Handing s) {evt : TtsEvt} {size : ℕ} {text : List UInt8}
    (hspeech : s.speech = .reading evt size text) (hlt : text.length < size) :
    Handing { s with
      speech := .reading evt size (text ++ [s.ttsTextNlpTxt.cells text.length]) } := by
  have hreads := h.reads
  rw [hspeech] at hreads
  obtain ⟨answer, hanswer, hsize, hpre, hholds⟩ := hreads
  refine h.speechStay (by rw [hspeech]; rfl) (by rw [hspeech]; rfl)
    (fun _ ↦ h.outside (by rw [hspeech]; exact decide_eq_true hlt))
    ⟨answer, hanswer, hsize, ?_, fun _ ↦ hholds hlt⟩
  exact (hholds hlt).read_next hpre (hsize ▸ hlt)

/-- What has been read when the request is made is the whole answer. -/
theorem Handing.perform (h : Handing s) {evt : TtsEvt} {size : ℕ} {text : List UInt8}
    (hspeech : s.speech = .reading evt size text) (hlt : ¬text.length < size) :
    Handing { s with
      speech := .performing, spoken := s.spoken ++ [(evt.session, text)] } := by
  have hreads := h.reads
  rw [hspeech] at hreads
  obtain ⟨answer, hanswer, hsize, hpre, -⟩ := hreads
  have hwhole : text = answer.bytes :=
    hpre.eq_of_length_le (hsize ▸ Nat.le_of_not_lt hlt)
  refine h.speechStep ?_ ?_ nofun trivial
  · rw [Handover.outstanding, hspeech, hwhole]
    simp [SpeechPhase.current, TtsEvt.due, hanswer]
  · rw [Handover.unchecked, Handover.unchecked, hspeech]
    exact List.Subset.refl _

theorem Handing.step (h : Handing s) (hok : Undisturbed s a) (hstep : s.step a = some t) :
    Handing t := by
  cases a with
  | start =>
    obtain ⟨hcloud, rfl⟩ := ttsTextStart_eq_some hstep
    refine ⟨h.answered, fun evt hevt answer hanswer ↦ ?_, fun _ ↦ rfl, h.reads, nofun, nofun⟩
    rw [hok evt hevt] at hanswer
    cases hanswer
  | startClear =>
    obtain ⟨hcloud, rfl⟩ := ttsTextStartClear_eq_some hstep
    refine h.cloudStep ⟨hok, fun evt hevt ↦ ?_⟩ nofun nofun
    by_contra hsome
    obtain ⟨answer, hanswer⟩ := Option.ne_none_iff_exists'.mp hsome
    rw [(h.unchecked evt hevt answer hanswer).1] at hcloud
    cases hcloud
  | push =>
    obtain ⟨hcloud, rfl⟩ := ttsTextPush_eq_some hstep
    refine h.cloudStep (h.quiet (by rw [hcloud]; rfl)) ?_ h.found
    rw [hcloud]
    exact nofun
  | finish =>
    obtain ⟨hcloud, rfl⟩ := ttsTextFinish_eq_some hstep
    exact h.cloudStep (h.quiet (by rw [hcloud]; rfl)) (fun _ ↦ rfl) nofun
  | store answer =>
    obtain ⟨hcloud, rfl⟩ := ttsTextFinishStore_eq_some hstep
    have hstate := h.finishing (by rw [hcloud]; rfl)
    refine h.cloudStep (h.quiet (by rw [hcloud]; rfl)) (fun _ ↦ hstate) ?_
    rintro _ ⟨⟩
    exact holds_write _ _
  | accept =>
    obtain ⟨answer, hcloud, rfl⟩ := ttsTextFinishAccept_eq_some hstep
    have hstate := h.finishing (by rw [hcloud]; rfl)
    refine h.cloudStep (h.quiet (by rw [hcloud]; rfl)) (fun _ ↦ hstate) fun answer' hanswer' ↦ ?_
    exact h.found answer' (by rw [hcloud]; exact hanswer')
  | err =>
    obtain ⟨stored, hcloud, rfl⟩ := ttsTextFinishErr_eq_some hstep
    exact h.cloudStep (h.quiet (by rw [hcloud]; rfl)) nofun nofun
  | send =>
    rcases ttsTextFinishSend_eq_some hstep with ⟨answer, hcloud, rfl⟩ | ⟨hcloud, rfl⟩
    · exact h.sendAnswer hcloud (hok answer hcloud)
    · exact h.sendFailure hcloud
  | receive =>
    obtain ⟨evt, que, hspeech, hque, rfl⟩ := ddhttpReceive_eq_some hstep
    refine h.speechStep ?_ ?_ nofun trivial
    · rw [Handover.outstanding, hspeech, hque]
      rfl
    · rw [Handover.unchecked, Handover.unchecked, hspeech, hque]
      exact List.Subset.refl _
  | check =>
    obtain ⟨evt, hspeech, rfl⟩ := ddhttpCheck_eq_some hstep
    exact h.check hspeech (hok evt hspeech)
  | strlen =>
    obtain ⟨evt, hspeech, rfl⟩ := ddhttpStrlen_eq_some hstep
    exact h.strlen hspeech
  | readByte =>
    obtain ⟨evt, size, text, hspeech, hlt, rfl⟩ := ddhttpReadByte_eq_some hstep
    exact h.readByte hspeech hlt
  | perform =>
    obtain ⟨evt, size, text, hspeech, hlt, rfl⟩ := ddhttpPerform_eq_some hstep
    exact h.perform hspeech hlt
  | performed =>
    obtain ⟨hspeech, rfl⟩ := ddhttpPerformed_eq_some hstep
    exact h.speechStay (by rw [hspeech]; rfl) (by rw [hspeech]; rfl) nofun trivial

/-! ## The result -/

theorem numbered_init (memory : ℕ → UInt8) : Numbered (.init memory) :=
  ⟨List.nodup_nil, nofun, nofun⟩

end Ddmz.Cloud
