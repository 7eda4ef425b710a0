import Ddmz.Cloud.Handover

/-!
# The response of the recognition service

`tts_text_json` is a block of 64 KB that `tts_text_start` allocates once and clears for every
session. `_http_event_handler` appends to it what arrives of the response, in pieces of any size,
and hands it to `cJSON_Parse` as a string when the response ends. The pieces of a chunked response
are not appended at all.

Nothing compares `tts_text_json_offset` with the size of the block. The accumulation is correct
exactly as long as the pieces of a response add up to no more than the block, and its end is a
string as long as they leave a byte of it or have a zero among them: `accumulates_iff`.

What the parser makes of the string does not matter here, and an end of the response comes with
whether both texts are found in it.
-/

namespace Ddmz.Cloud

/-- The size of `tts_text_json`. -/
def TTS_TEXT_JSON_SIZE : ℕ := 64 * 1024

structure Response where
  /-- `tts_text_json`, and `none` for the null pointer. -/
  ttsTextJson : Option Buffer
  ttsTextJsonOffset : ℕ
  ttsTextState : TtsTextState
  /-- All that has been pushed since `tts_text_start`, for the record. -/
  pushed : List UInt8

/-- `esp_http_client_event_t`, with what `_http_event_handler` reads of it. -/
inductive TextEvent
  | ERROR
  | ON_CONNECTED
  | HEADER_SENT
  | ON_HEADER
  | ON_DATA (chunked : Bool) (data : List UInt8)
  | ON_FINISH (found : Bool)
  | DISCONNECTED

namespace Response

def init : Response := ⟨none, 0, .start, []⟩

variable (s : Response)

/-- `tts_text_start`, with what `malloc` returns if it is called. A null pointer is not survived. -/
def ttsTextStart (malloc : Option (ℕ → UInt8)) : Option Response :=
  (s.ttsTextJson.or (malloc.map fun memory ↦ ⟨memory, 0⟩)).map fun json ↦
    { ttsTextJson := some (json.clear TTS_TEXT_JSON_SIZE)
      ttsTextJsonOffset := 0
      ttsTextState := .start
      pushed := [] }

def ttsTextPush (info : List UInt8) : Option Response :=
  s.ttsTextJson.map fun json ↦
    { ttsTextJson := some (json.write s.ttsTextJsonOffset info)
      ttsTextJsonOffset := s.ttsTextJsonOffset + info.length
      ttsTextState := .run
      pushed := s.pushed ++ info }

/-- `tts_text_finish`, as far as it goes here. -/
def ttsTextFinish (found : Bool) : Option Response :=
  s.ttsTextJson.map fun _ ↦ { s with ttsTextState := if found then .finish else .err }

/-- `_http_event_handler`. -/
def httpEventHandler : TextEvent → Option Response
  | .ON_DATA false data => s.ttsTextPush data
  | .ON_FINISH found => s.ttsTextFinish found
  | _ => some s

/-- A session begins, or an event of its request arrives. -/
inductive Input
  | start (malloc : Option (ℕ → UInt8))
  | event (evt : TextEvent)

def step : Input → Option Response
  | .start malloc => s.ttsTextStart malloc
  | .event evt => s.httpEventHandler evt

/-- What should be so in every state. -/
structure Accumulates : Prop where
  offset : s.ttsTextJsonOffset = s.pushed.length
  contents : ∀ json ∈ s.ttsTextJson, json.read 0 s.ttsTextJsonOffset = s.pushed
  inBounds : ∀ json ∈ s.ttsTextJson, json.high ≤ TTS_TEXT_JSON_SIZE
  /-- What `cJSON_Parse` has been given ends in the block. -/
  terminated : s.ttsTextState = .finish ∨ s.ttsTextState = .err →
    ∀ json ∈ s.ttsTextJson, ∃ k < TTS_TEXT_JSON_SIZE, json.cells k = 0

/-- A piece fits behind what has been pushed; at the end a byte is left, or a zero has been
pushed. -/
def Fits : Input → Prop
  | .event (.ON_DATA false data) => s.pushed.length + data.length ≤ TTS_TEXT_JSON_SIZE
  | .event (.ON_FINISH _) => s.pushed.length < TTS_TEXT_JSON_SIZE ∨ (0 : UInt8) ∈ s.pushed
  | _ => True

/-- What is so in any case: behind the offset the block is as it was cleared. -/
structure Cleared : Prop where
  offset : s.ttsTextJsonOffset = s.pushed.length
  contents : ∀ json ∈ s.ttsTextJson, json.read 0 s.pushed.length = s.pushed
  behind : ∀ json ∈ s.ttsTextJson, ∀ k, s.pushed.length ≤ k → k < TTS_TEXT_JSON_SIZE →
    json.cells k = 0
  high : ∀ json ∈ s.ttsTextJson, s.pushed.length ≤ json.high

variable {s} {t : Response} {x : Input}

/-! ## The invariant -/

theorem cleared_init : init.Cleared where
  offset := rfl
  contents _ hjson := by cases hjson
  behind _ hjson := by cases hjson
  high _ hjson := by cases hjson

theorem cleared_ttsTextStart {malloc : Option (ℕ → UInt8)} (h : s.ttsTextStart malloc = some t) :
    t.Cleared := by
  obtain ⟨json, -, rfl⟩ := Option.map_eq_some_iff.mp h
  refine ⟨rfl, fun _ _ ↦ rfl, fun json' hjson' k _ hk ↦ ?_, fun _ _ ↦ Nat.zero_le _⟩
  obtain rfl := Option.mem_some_iff.mp hjson'
  exact Buffer.cells_clear hk

theorem Cleared.push {info : List UInt8} (hs : s.Cleared) (h : s.ttsTextPush info = some t) :
    t.Cleared := by
  obtain ⟨json, hjson, rfl⟩ := Option.map_eq_some_iff.mp h
  refine ⟨by simp only [List.length_append, hs.offset], ?_, ?_, ?_⟩
  · intro json' hjson'
    obtain rfl := Option.mem_some_iff.mp hjson'
    simp only [List.length_append, hs.offset]
    rw [Buffer.read_zero_write_append, hs.contents json hjson]
  · intro json' hjson' k hle hk
    obtain rfl := Option.mem_some_iff.mp hjson'
    simp only [List.length_append] at hle
    rw [hs.offset, Buffer.cells_write_behind hle]
    exact hs.behind json hjson k (by omega) hk
  · intro json' hjson'
    obtain rfl := Option.mem_some_iff.mp hjson'
    simp only [List.length_append, hs.offset, Buffer.high_write]
    exact le_max_right _ _

theorem Cleared.finish {found : Bool} (hs : s.Cleared) (h : s.ttsTextFinish found = some t) :
    t.Cleared := by
  obtain ⟨json, -, rfl⟩ := Option.map_eq_some_iff.mp h
  exact ⟨hs.offset, hs.contents, hs.behind, hs.high⟩

theorem Cleared.step (hs : s.Cleared) (h : s.step x = some t) : t.Cleared := by
  cases x with
  | start malloc => exact cleared_ttsTextStart h
  | event evt =>
    cases evt with
    | ON_DATA chunked data =>
      cases chunked with
      | false => exact hs.push h
      | true => exact Option.some.inj h ▸ hs
    | ON_FINISH found => exact hs.finish h
    | ERROR | ON_CONNECTED | HEADER_SENT | ON_HEADER | DISCONNECTED => exact Option.some.inj h ▸ hs

/-! ## One step -/

theorem Accumulates.start {malloc : Option (ℕ → UInt8)} (hs : s.Accumulates)
    (h : s.ttsTextStart malloc = some t) : t.Accumulates := by
  have ht := cleared_ttsTextStart h
  obtain ⟨json, hjson, rfl⟩ := Option.map_eq_some_iff.mp h
  have hhigh : json.high ≤ TTS_TEXT_JSON_SIZE := by
    rcases Option.or_eq_some_iff.mp hjson with hold | ⟨-, hnew⟩
    · exact hs.inBounds json hold
    · obtain ⟨memory, -, rfl⟩ := Option.map_eq_some_iff.mp hnew
      exact Nat.zero_le _
  refine ⟨ht.offset, ht.contents, ?_, fun hend ↦ absurd hend (by simp)⟩
  intro json' hjson'
  obtain rfl := Option.mem_some_iff.mp hjson'
  rw [Buffer.high_clear]
  exact max_le hhigh le_rfl

theorem Accumulates.push_iff {info : List UInt8} (hs : s.Accumulates) (hc : s.Cleared)
    (h : s.ttsTextPush info = some t) :
    t.Accumulates ↔ s.pushed.length + info.length ≤ TTS_TEXT_JSON_SIZE := by
  have ht := hc.push h
  obtain ⟨json, hjson, rfl⟩ := Option.map_eq_some_iff.mp h
  have hhigh : (json.write s.ttsTextJsonOffset info).high
      = max json.high (s.pushed.length + info.length) := by rw [Buffer.high_write, hs.offset]
  constructor
  · intro hacc
    exact (le_max_right _ _).trans (hhigh.ge.trans (hacc.inBounds _ rfl))
  · intro hfits
    refine ⟨ht.offset, ?_, ?_, fun hend ↦ absurd hend (by simp)⟩
    · rw [ht.offset]
      exact ht.contents
    · intro json' hjson'
      obtain rfl := Option.mem_some_iff.mp hjson'
      exact hhigh.le.trans (max_le (hs.inBounds json hjson) hfits)

theorem Accumulates.finish_iff {found : Bool} (hs : s.Accumulates) (hc : s.Cleared)
    (h : s.ttsTextFinish found = some t) :
    t.Accumulates ↔ s.pushed.length < TTS_TEXT_JSON_SIZE ∨ (0 : UInt8) ∈ s.pushed := by
  obtain ⟨json, hjson, rfl⟩ := Option.map_eq_some_iff.mp h
  have hbound : s.pushed.length ≤ TTS_TEXT_JSON_SIZE :=
    (hc.high json hjson).trans (hs.inBounds json hjson)
  have hbyte : ∀ k < s.pushed.length, json.cells k ∈ s.pushed := by
    intro k hk
    rw [← hc.contents json hjson]
    exact List.mem_map.mpr ⟨k, List.mem_range.mpr hk, by rw [Nat.zero_add]⟩
  constructor
  · intro hacc
    obtain ⟨k, hk, hzero⟩ := hacc.terminated (by cases found <;> simp) json hjson
    by_cases hlt : k < s.pushed.length
    · exact Or.inr (hzero ▸ hbyte k hlt)
    · exact Or.inl (lt_of_le_of_lt (Nat.le_of_not_lt hlt) hk)
  · intro hfits
    refine ⟨hs.offset, hs.contents, hs.inBounds, fun _ json' hjson' ↦ ?_⟩
    obtain rfl := Option.some.inj (hjson.symm.trans hjson')
    rcases hfits with hlt | hmem
    · exact ⟨_, hlt, hc.behind json hjson _ le_rfl hlt⟩
    · rw [← hc.contents json hjson] at hmem
      obtain ⟨k, hk, hzero⟩ := List.mem_map.mp hmem
      exact ⟨k, lt_of_lt_of_le (List.mem_range.mp hk) hbound, by rwa [Nat.zero_add] at hzero⟩

theorem Accumulates.step_iff (hs : s.Accumulates) (hc : s.Cleared) (h : s.step x = some t) :
    t.Accumulates ↔ s.Fits x := by
  cases x with
  | start malloc => exact iff_of_true (hs.start h) trivial
  | event evt =>
    cases evt with
    | ON_DATA chunked data =>
      cases chunked with
      | false => exact hs.push_iff hc h
      | true => exact iff_of_true (Option.some.inj h ▸ hs) trivial
    | ON_FINISH found => exact hs.finish_iff hc h
    | ERROR | ON_CONNECTED | HEADER_SENT | ON_HEADER | DISCONNECTED =>
      exact iff_of_true (Option.some.inj h ▸ hs) trivial

theorem accumulates_init : init.Accumulates where
  offset := rfl
  contents _ hjson := by cases hjson
  inBounds _ hjson := by cases hjson
  terminated _ _ hjson := by cases hjson

/-! ## Runs -/

/-- **The response is accumulated** through any number of sessions exactly as long as its pieces fit
in the block and leave its end a string. -/
theorem accumulates_iff {xs : List Input} (hrun : AnyRun step init xs t) :
    Always step Accumulates init xs ↔ Run step Fits init xs t :=
  hrun.always_iff (J := Cleared) (fun _ _ _ hs h ↦ hs.step h)
    (fun _ _ _ hc hs h ↦ hs.step_iff hc h) cleared_init accumulates_init

/-- Two sessions in the same block. -/
def twoSessions : List Input :=
  [.start (some fun _ ↦ 255), .event (.ON_DATA false [123]), .event (.ON_DATA false [125]),
    .event (.ON_FINISH false), .start none, .event (.ON_DATA true [1]), .event .DISCONNECTED]

theorem accumulates_twoSessions : Always step Accumulates init twoSessions := by
  refine (accumulates_iff (anyRun_of_foldlM rfl)).mpr
    (.cons trivial rfl (.cons ?_ rfl (.cons ?_ rfl (.cons (.inl ?_) rfl (.cons trivial rfl
      (.cons trivial rfl (.cons trivial rfl (.nil _))))))))
  · change 0 + 1 ≤ TTS_TEXT_JSON_SIZE
    decide
  · change 1 + 1 ≤ TTS_TEXT_JSON_SIZE
    decide
  · change 2 < TTS_TEXT_JSON_SIZE
    decide

/-- A body of one byte more than the block has. -/
theorem not_accumulates : ¬∀ xs t, AnyRun step init xs t → Always step Accumulates init xs := by
  intro h
  have hrun : AnyRun step init [.start (some fun _ ↦ 0),
      .event (.ON_DATA false (List.replicate (TTS_TEXT_JSON_SIZE + 1) 32))] _ :=
    .cons trivial rfl (.cons trivial rfl (.nil _))
  have hall := h _ _ hrun
  have hbounds := (hall _ [] _ (List.append_nil _).symm hrun).inBounds _ rfl
  rw [Buffer.high_write, List.length_replicate] at hbounds
  exact absurd ((le_max_right _ _).trans hbounds) (by simp)

end Response

end Ddmz.Cloud
