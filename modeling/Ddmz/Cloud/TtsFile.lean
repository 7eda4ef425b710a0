import Ddmz.Foundation.Runs

/-!
# What becomes of the speech

`_http_event_handler_tts` of `dd_http.c` handles what `esp_http_client` reports of the responses to
speech requests: the data of an audio response goes to the player and to a file. Whether a response
is audio, and the file, are kept from one response to the next.

An observer of the calls knows which file is open, and rejects a call that it should not be: a
write or a close of anything else, a second file, or data of a response that is not audio. It
rejects nothing if and only if a file is opened when there is none, data finds a file and a
response that is audio, and a response that ends has a file: `observed_iff`.
-/

namespace Ddmz.Cloud

/-! ## The handler -/

/-- `esp_http_client_event_t`, with what is read of it. -/
inductive HttpEvent
  | ERROR
  | ON_CONNECTED
  | HEADER_SENT
  /-- Whether `fopen` succeeds is part of the event. -/
  | ON_HEADER (key value : List Char) (opens : Bool)
  | ON_DATA (chunked : Bool) (data : List UInt8)
  | ON_FINISH
  | DISCONNECTED

/-- What the handler calls; a file is named by the number in its name. -/
inductive TtsCall
  | rawStop
  | rawStart
  | rawWrite (data : List UInt8)
  | fopen (n : ℕ) (opens : Bool)
  | fwrite (data : List UInt8) (file : Option ℕ)
  | fclose (file : Option ℕ)

/-- The static variables. -/
structure TtsHandler where
  file : Option ℕ
  filecnt : ℕ
  ttsResponAudioFlag : Bool

def TtsHandler.init : TtsHandler := ⟨none, 0, false⟩

/-- `strstr` finds the word. -/
def Contains (text : List Char) (word : String) : Prop := word.toList <:+: text

instance (text : List Char) (word : String) : Decidable (Contains text word) :=
  inferInstanceAs (Decidable (word.toList <:+: text))

/-- A header that makes the handler expect audio. -/
def IsAudio (key value : List Char) : Prop :=
  Contains key "Content-Type" ∧ Contains value "audio"

instance (key value : List Char) : Decidable (IsAudio key value) :=
  inferInstanceAs (Decidable (_ ∧ _))

/-- `_http_event_handler_tts`. -/
def httpEventHandlerTts (h : TtsHandler) : HttpEvent → List TtsCall × TtsHandler
  | .ON_HEADER key value opens =>
    if IsAudio key value then
      ([.rawStop, .rawStart, .fopen h.filecnt opens],
        { file := if opens then some h.filecnt else none
          filecnt := h.filecnt + 1
          ttsResponAudioFlag := true })
    else if Contains key "Content-Type" ∧ Contains value "text" then
      ([], { h with ttsResponAudioFlag := false })
    else ([], h)
  | .ON_DATA chunked data =>
    if h.ttsResponAudioFlag = true ∧ chunked = false then
      -- the file is not looked at, so it may be a null pointer
      ([.rawWrite data, .fwrite data h.file], h)
    else ([], h)
  -- the flag is left as it is, for the next response to find
  | .ON_FINISH => ([.fclose h.file], { h with file := none })
  | _ => ([], h)

/-! ## The observer -/

/-- What an observer of the calls knows. -/
structure Observer where
  opened : Option ℕ
  /-- The response has an audio `Content-Type`. -/
  audio : Bool

/-- A call that should be, with what the observer knows then. -/
def Observer.accepts (o : Observer) : TtsCall → Option Observer
  | .rawWrite _ => if o.audio = true then some o else none
  | .fopen n true => if o.opened = none then some { o with opened := some n } else none
  | .fwrite _ file =>
    if o.audio = true ∧ file ≠ none ∧ file = o.opened then some o else none
  | .fclose file =>
    if file ≠ none ∧ file = o.opened then some { o with opened := none } else none
  | _ => some o

def Observer.watch (o : Observer) (calls : List TtsCall) : Option Observer :=
  calls.foldlM accepts o

/-! ## Runs -/

/-- What a response has come to. -/
inductive ResponsePhase
  | idle
  | headers
  | body
  deriving DecidableEq

/-- The events that `esp_http_client` produces, in their order; a response may break off. -/
def ResponsePhase.next : ResponsePhase → HttpEvent → Option ResponsePhase
  | .headers, .ON_CONNECTED | .headers, .HEADER_SENT | .headers, .ON_HEADER .. => some .headers
  | .headers, .ON_DATA .. | .body, .ON_DATA .. => some .body
  | .headers, .ON_FINISH | .body, .ON_FINISH => some .idle
  | _, .ERROR | _, .DISCONNECTED => some .idle
  | _, _ => none

structure Speech where
  handler : TtsHandler
  phase : ResponsePhase
  /-- Nothing after a call that the observer rejects. -/
  observer : Option Observer
  /-- A file that is open has been given up for one that cannot be opened. -/
  lost : Bool

def Speech.init : Speech := ⟨.init, .idle, some ⟨none, false⟩, false⟩

inductive SpeechOp
  /-- `esp_http_client_perform` in `ddcloud_http_xunfei_tts`. -/
  | perform
  | event (evt : HttpEvent)

namespace Speech

variable (s : Speech)

/-- What the observer reads in an event. -/
def hear (o : Observer) : HttpEvent → Observer
  | .ON_HEADER key value _ => { o with audio := o.audio || decide (IsAudio key value) }
  | _ => o

/-- Whether an event makes the handler forget a file that is open. -/
def forgets : HttpEvent → Bool
  | .ON_HEADER key value opens =>
    decide (IsAudio key value) && !opens && s.handler.file.isSome
  | _ => false

def step : SpeechOp → Option Speech
  | .perform =>
    if s.phase = .idle then
      some { s with
        phase := .headers
        observer := s.observer.map fun o ↦ { o with audio := false } }
    else none
  | .event evt => (s.phase.next evt).map fun phase ↦
    let r := httpEventHandlerTts s.handler evt
    { handler := r.2
      phase
      observer := s.observer.bind fun o ↦ (hear o evt).watch r.1
      lost := s.lost || s.forgets evt }

/-- A file is opened when there is none, data finds a file and a response that is audio, and a
response that ends has a file. -/
def Fits : SpeechOp → Prop
  | .event (.ON_HEADER key value opens) => IsAudio key value → opens = true →
    s.handler.file = none ∧ s.lost = false
  | .event (.ON_DATA chunked _) => chunked = false → s.handler.ttsResponAudioFlag = true →
    s.handler.file ≠ none ∧ ∀ o ∈ s.observer, o.audio = true
  | .event .ON_FINISH => s.handler.file ≠ none
  | _ => True

/-- The observer has rejected nothing. -/
def Observed : Prop := s.observer ≠ none

/-- The handler's file is the one that is open, unless it has been lost. -/
def Knows : Prop := ∀ o ∈ s.observer,
  if s.lost = true then s.handler.file = none ∧ o.opened ≠ none else o.opened = s.handler.file

end Speech

/-! ## What the observer accepts -/

section Watch

variable (o : Observer) (data : List UInt8) (file : Option ℕ) (n : ℕ)

theorem watch_opened : o.watch [.rawStop, .rawStart, .fopen n true] =
    if o.opened = none then some { o with opened := some n } else none := by
  simp [Observer.watch, Observer.accepts]

theorem watch_notOpened : o.watch [.rawStop, .rawStart, .fopen n false] = some o := rfl

theorem watch_data : o.watch [.rawWrite data, .fwrite data file] =
    if o.audio = true ∧ file ≠ none ∧ file = o.opened then some o else none := by
  by_cases haudio : o.audio = true <;> simp [Observer.watch, Observer.accepts, haudio]

theorem watch_fclose : o.watch [.fclose file] =
    if file ≠ none ∧ file = o.opened then some { o with opened := none } else none := by
  simp [Observer.watch, Observer.accepts]

end Watch

/-! ## One event -/

namespace Speech

variable {s t : Speech} {op : SpeechOp}

theorem knows_init : init.Knows := by
  rintro _ ⟨⟩
  rfl

/-- The file that the observer knows is the handler's, if the handler has one. -/
theorem Knows.opened_iff (hs : s.Knows) {o : Observer} (ho : s.observer = some o) :
    s.handler.file ≠ none ∧ s.handler.file = o.opened ↔ s.handler.file ≠ none := by
  refine and_iff_left_of_imp fun hfile ↦ ?_
  have hknows := hs o ho
  split_ifs at hknows
  · exact absurd hknows.1 hfile
  · exact hknows.symm

theorem Knows.opened_eq_none_iff (hs : s.Knows) {o : Observer} (ho : s.observer = some o) :
    o.opened = none ↔ s.handler.file = none ∧ s.lost = false := by
  have hknows := hs o ho
  split_ifs at hknows with hlost
  · rw [hlost]
    exact iff_of_false hknows.2 fun h ↦ Bool.false_ne_true h.2.symm
  · rw [hknows, Bool.eq_false_iff.mpr hlost]
    exact (and_iff_left rfl).symm

/-- An audio header: the observer accepts a file if there is none, and the old file is lost if the
new one cannot be opened. -/
theorem Knows.audioHeader (hs : s.Knows) {key value : List Char} {opens : Bool} {o : Observer}
    (ho : s.observer = some o) (haudio : IsAudio key value) :
    ((hear o (.ON_HEADER key value opens)).watch
        [.rawStop, .rawStart, .fopen s.handler.filecnt opens] ≠ none ↔
      s.Fits (.event (.ON_HEADER key value opens))) ∧
      ∀ o' ∈ (hear o (.ON_HEADER key value opens)).watch
          [.rawStop, .rawStart, .fopen s.handler.filecnt opens],
        if (s.lost || s.forgets (.ON_HEADER key value opens)) = true then
          (if opens = true then some s.handler.filecnt else none) = none ∧ o'.opened ≠ none
        else o'.opened = if opens = true then some s.handler.filecnt else none := by
  cases opens with
  | true =>
    have hforgets : s.forgets (.ON_HEADER key value true) = false := by simp [forgets]
    rw [watch_opened, hforgets, Bool.or_false]
    constructor
    · rw [ite_ne_right_iff, Fits]
      have hiff := hs.opened_eq_none_iff ho
      exact ⟨fun h _ _ ↦ hiff.mp h.1, fun h ↦ ⟨hiff.mpr (h haudio rfl), Option.some_ne_none _⟩⟩
    · intro o' ho'
      obtain ⟨hnone, ho'⟩ := Option.ite_none_right_eq_some.mp ho'
      obtain rfl := Option.some.inj ho'
      rw [((hs.opened_eq_none_iff ho).mp hnone).2]
      rfl
  | false =>
    have hforgets : s.forgets (.ON_HEADER key value false) = s.handler.file.isSome := by
      simp [forgets, haudio]
    rw [watch_notOpened, hforgets]
    refine ⟨iff_of_true (Option.some_ne_none _) fun _ ↦ nofun, ?_⟩
    rintro _ ⟨⟩
    have hknows := hs o ho
    rw [if_neg Bool.false_ne_true]
    -- a file that is open is given up, and is lost from now on
    change if (s.lost || s.handler.file.isSome) = true then none = none ∧ o.opened ≠ none
      else o.opened = none
    by_cases hlost : s.lost = true
    · rw [if_pos hlost] at hknows
      rw [hlost, Bool.true_or, if_pos rfl]
      exact ⟨rfl, hknows.2⟩
    · rw [if_neg hlost] at hknows
      rw [Bool.eq_false_iff.mpr hlost, Bool.false_or, hknows]
      split_ifs with hfile
      · exact ⟨rfl, Option.isSome_iff_ne_none.mp hfile⟩
      · simpa using hfile

/-- An event that neither opens nor closes a file keeps what is known. -/
theorem Knows.same (hs : s.Knows) {o o' : Observer} (ho : s.observer = some o)
    {file : Option ℕ} (hopened : o'.opened = o.opened) (hfile : file = s.handler.file)
    {forgets : Bool} (hforgets : forgets = false) :
    if (s.lost || forgets) = true then file = none ∧ o'.opened ≠ none else o'.opened = file := by
  rw [hopened, hfile, hforgets, Bool.or_false]
  exact hs o ho

/-- An audio response's data: the observer accepts it if the handler has a file. -/
theorem Knows.audioData (hs : s.Knows) {data : List UInt8} {o : Observer}
    (ho : s.observer = some o) (hflag : s.handler.ttsResponAudioFlag = true) :
    o.watch [.rawWrite data, .fwrite data s.handler.file] ≠ none ↔
      s.Fits (.event (.ON_DATA false data)) := by
  rw [watch_data, ite_ne_right_iff, hs.opened_iff ho]
  constructor
  · rintro ⟨⟨haudio, hfile⟩, -⟩ - -
    refine ⟨hfile, fun o' ho' ↦ ?_⟩
    obtain rfl := Option.some.inj (ho.symm.trans ho')
    exact haudio
  · intro h
    obtain ⟨hfile, haudio⟩ := h rfl hflag
    exact ⟨⟨haudio o ho, hfile⟩, Option.some_ne_none _⟩

/-- The end of a response closes the file. -/
theorem Knows.finish (hs : s.Knows) {o : Observer} (ho : s.observer = some o) :
    (o.watch [.fclose s.handler.file] ≠ none ↔ s.handler.file ≠ none) ∧
      ∀ o' ∈ o.watch [.fclose s.handler.file],
        if (s.lost || false) = true then (none : Option ℕ) = none ∧ o'.opened ≠ none
        else o'.opened = none := by
  rw [watch_fclose]
  constructor
  · rw [ite_ne_right_iff, hs.opened_iff ho]
    exact and_iff_left (Option.some_ne_none _)
  · intro o' ho'
    obtain ⟨⟨hfile, -⟩, ho'⟩ := Option.ite_none_right_eq_some.mp ho'
    obtain rfl := Option.some.inj ho'
    have hknows := hs o ho
    rw [Bool.or_false]
    split_ifs at hknows ⊢
    · exact absurd hknows.1 hfile
    · rfl

/-- What an event comes to for the observer. -/
theorem Knows.event (hs : s.Knows) (evt : HttpEvent) {o : Observer} (ho : s.observer = some o) :
    ((hear o evt).watch (httpEventHandlerTts s.handler evt).1 ≠ none ↔ s.Fits (.event evt)) ∧
      ∀ o' ∈ (hear o evt).watch (httpEventHandlerTts s.handler evt).1,
        if (s.lost || s.forgets evt) = true then
          (httpEventHandlerTts s.handler evt).2.file = none ∧ o'.opened ≠ none
        else o'.opened = (httpEventHandlerTts s.handler evt).2.file := by
  cases evt with
  | ON_HEADER key value opens =>
    rw [httpEventHandlerTts]
    by_cases haudio : IsAudio key value
    · rw [if_pos haudio]
      exact hs.audioHeader ho haudio
    · have hforgets : s.forgets (.ON_HEADER key value opens) = false := by simp [forgets, haudio]
      have hfits : s.Fits (.event (.ON_HEADER key value opens)) := fun h ↦ absurd h haudio
      rw [if_neg haudio]
      -- a text header clears the flag, which the observer does not see
      by_cases htext : Contains key "Content-Type" ∧ Contains value "text"
      · rw [if_pos htext]
        refine ⟨iff_of_true (Option.some_ne_none _) hfits, ?_⟩
        rintro _ ⟨⟩
        exact hs.same ho rfl rfl hforgets
      · rw [if_neg htext]
        refine ⟨iff_of_true (Option.some_ne_none _) hfits, ?_⟩
        rintro _ ⟨⟩
        exact hs.same ho rfl rfl hforgets
  | ON_DATA chunked data =>
    rw [httpEventHandlerTts]
    by_cases hflag : s.handler.ttsResponAudioFlag = true ∧ chunked = false
    · obtain ⟨hset, rfl⟩ := hflag
      rw [if_pos ⟨hset, rfl⟩]
      refine ⟨hs.audioData ho hset, fun o' ho' ↦ ?_⟩
      obtain ⟨-, ho'⟩ := Option.ite_none_right_eq_some.mp ((watch_data ..).symm.trans ho')
      obtain rfl := Option.some.inj ho'
      exact hs.same ho rfl rfl rfl
    · rw [if_neg hflag]
      refine ⟨iff_of_true (Option.some_ne_none _) fun hchunked hset ↦ ?_, ?_⟩
      · exact absurd ⟨hset, hchunked⟩ hflag
      · rintro _ ⟨⟩
        exact hs.same ho rfl rfl rfl
  | ON_FINISH => exact hs.finish ho
  | _ =>
    refine ⟨iff_of_true (Option.some_ne_none _) trivial, ?_⟩
    rintro _ ⟨⟩
    exact hs.same ho rfl rfl rfl

theorem step_event {evt : HttpEvent} (h : s.step (.event evt) = some t) :
    ∃ phase, s.phase.next evt = some phase ∧ t = {
      handler := (httpEventHandlerTts s.handler evt).2
      phase
      observer := s.observer.bind fun o ↦ (hear o evt).watch (httpEventHandlerTts s.handler evt).1
      lost := s.lost || s.forgets evt } := by
  obtain ⟨phase, hphase, rfl⟩ := Option.map_eq_some_iff.mp h
  exact ⟨phase, hphase, rfl⟩

theorem step_perform (h : s.step .perform = some t) : s.phase = .idle ∧ t = { s with
    phase := .headers
    observer := s.observer.map fun o ↦ { o with audio := false } } := by
  rw [step, Option.ite_none_right_eq_some] at h
  exact ⟨h.1, (Option.some.inj h.2).symm⟩

theorem Knows.step (hs : s.Knows) (h : s.step op = some t) : t.Knows := by
  cases op with
  | perform =>
    obtain ⟨-, rfl⟩ := step_perform h
    intro o' ho'
    obtain ⟨o, ho, rfl⟩ := Option.map_eq_some_iff.mp ho'
    exact hs o ho
  | event evt =>
    obtain ⟨phase, -, rfl⟩ := step_event h
    intro o' ho'
    obtain ⟨o, ho, ho'⟩ := Option.bind_eq_some_iff.mp ho'
    exact (hs.event evt ho).2 o' ho'

/-- The observer accepts a step if and only if it meets the condition. -/
theorem Observed.step (hs : s.Observed) (hknows : s.Knows) (h : s.step op = some t) :
    t.Observed ↔ s.Fits op := by
  obtain ⟨o, ho⟩ := Option.ne_none_iff_exists'.mp hs
  cases op with
  | perform =>
    obtain ⟨-, rfl⟩ := step_perform h
    refine iff_of_true ?_ trivial
    rw [Observed, ho, Option.map_some]
    exact Option.some_ne_none _
  | event evt =>
    obtain ⟨phase, -, rfl⟩ := step_event h
    rw [Observed, ho, Option.bind_some]
    exact (hknows.event evt ho).1

end Speech

/-- **The handler does what it should throughout if and only if files are opened when there is
none, data finds a file and a response that is audio, and responses end with a file.** -/
theorem observed_iff {ops : List SpeechOp} {s : Speech} (h : AnyRun Speech.step .init ops s) :
    Always Speech.step Speech.Observed .init ops ↔ Run Speech.step Speech.Fits .init ops s :=
  h.always_iff (J := Speech.Knows) (fun _ _ _ hs hstep ↦ hs.step hstep)
    (fun _ _ _ hknows hs hstep ↦ hs.step hknows hstep) Speech.knows_init (Option.some_ne_none _)

/-- An audio response, with its data in two parts. -/
theorem observed_audio : Always Speech.step Speech.Observed .init
    [.perform, .event (.ON_HEADER "Content-Type".toList "audio/mpeg".toList true),
      .event (.ON_DATA false [0xff]), .event (.ON_DATA false [0xfb]), .event .ON_FINISH] := by
  have hrun : AnyRun Speech.step .init
      [.perform, .event (.ON_HEADER "Content-Type".toList "audio/mpeg".toList true),
        .event (.ON_DATA false [0xff]), .event (.ON_DATA false [0xfb]), .event .ON_FINISH] _ :=
    anyRun_of_foldlM rfl
  refine (observed_iff hrun).mpr <| .cons trivial rfl <| .cons ?_ rfl <| .cons ?_ rfl <|
    .cons ?_ rfl <| .cons ?_ rfl <| .nil _
  · exact fun _ _ ↦ ⟨rfl, rfl⟩
  · refine fun _ _ ↦ ⟨by decide, ?_⟩
    rintro _ ⟨⟩
    decide
  · refine fun _ _ ↦ ⟨by decide, ?_⟩
    rintro _ ⟨⟩
    decide
  · change some 0 ≠ none
    decide

/-- A text response ends, and the handler closes no file. -/
theorem not_observed_text : ¬∀ ops s, AnyRun Speech.step .init ops s → s.Observed := by
  intro h
  refine h [.perform, .event (.ON_HEADER "Content-Type".toList "text/plain".toList true),
    .event .ON_FINISH] _ (anyRun_of_foldlM rfl) ?_
  decide

end Ddmz.Cloud
