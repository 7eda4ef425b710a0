import Ddmz.Foundation.Buffer

/-!
# Commands from a broker

`mqtt_event_handler` of `dd_mqtt.c` takes the payload of a published message for a command or for
a url to play. The client library brings a payload in one event or in several, each with a pointer
into its buffer and a length; what is behind the bytes of an event is whatever the buffer holds.

What is done should be a function of the payload. The handler takes every event for a payload of
its own, looks for a command without regard to the length, and has 128 bytes for the url. So it
is such a function on a set of deliveries if and only if each of them is `Plain`:
`independent_iff`.
-/

namespace Ddmz.Mqtt

/-! ## The handler -/

/-- `esp_mqtt_event_t` of an `MQTT_EVENT_DATA`, with what is read of it. -/
structure DataEvent where
  /-- The memory from `data` on, or a null pointer. -/
  data : Option Buffer
  dataLen : ℕ
  /-- `mqtt_get_publish_data` has found no data. -/
  null : data = none → dataLen = 0

def DataEvent.bytes (event : DataEvent) : List UInt8 :=
  event.data.elim [] fun data ↦ data.read 0 event.dataLen

inductive AudioCall
  | EspAudioStop
  | EspAudioPlay (uri : List UInt8)

/-- `strncmp` finds the word where the memory starts. -/
def Starts (data : Buffer) (word : String) : Prop :=
  data.read 0 (ascii word).length = ascii word

instance (data : Buffer) (word : String) : Decidable (Starts data word) :=
  inferInstanceAs (Decidable (_ = _))

/-- What `snprintf` leaves in the 128 bytes of `newurl`, without its terminator. -/
def newurl (bytes : List UInt8) : List UInt8 := (bytes.takeWhile (· ≠ 0)).take 127

/-- `mqtt_event_handler` with an `MQTT_EVENT_DATA`, which does not come back from a null pointer. -/
def mqttEventHandler (devVolume : ℤ) (event : DataEvent) : Option (ℤ × List AudioCall) :=
  event.data.map fun data ↦
    -- what the commands would do is commented out, except for the volume
    (if Starts data "pause" then devVolume
      else if Starts data "play" then devVolume
      else if Starts data "vol" then (devVolume + 10).tmod 100
      else devVolume,
    [.EspAudioStop, .EspAudioPlay (newurl (data.read 0 event.dataLen))])

/-- The events of a payload, one after the other. -/
def mqttEvents (devVolume : ℤ) : List DataEvent → Option (ℤ × List AudioCall)
  | [] => some (devVolume, [])
  | event :: events =>
    (mqttEventHandler devVolume event).bind fun r ↦
      (mqttEvents r.1 events).map fun r' ↦ (r'.1, r.2 ++ r'.2)

/-! ## Deliveries -/

/-- The events in which `deliver_publish` brings a payload. -/
structure Delivery where
  first : DataEvent
  rest : List DataEvent
  /-- Every later event has what has been read since. -/
  read : ∀ event ∈ rest, event.dataLen ≠ 0

namespace Delivery

def payload (d : Delivery) : List UInt8 := (d.first :: d.rest).flatMap DataEvent.bytes

/-- What is done, and the volume after it. -/
def outcome (d : Delivery) (devVolume : ℤ) : Option (ℤ × List AudioCall) :=
  mqttEvents devVolume (d.first :: d.rest)

/-- A payload in one event, with nothing but zeros behind it. -/
def whole (payload : List UInt8) : Delivery where
  first := ⟨some (.write .zeroed 0 payload), payload.length, nofun⟩
  rest := []
  read := nofun

end Delivery

def IsCommand (payload : List UInt8) : Prop :=
  ascii "pause" <+: payload ∨ ascii "play" <+: payload ∨ ascii "vol" <+: payload

instance (payload : List UInt8) : Decidable (IsCommand payload) :=
  inferInstanceAs (Decidable (_ ∨ _))

/-- What is done is a function of the payload, and one that is not a command is played. -/
def Independent (D : Set Delivery) : Prop :=
  ∃ f : List UInt8 → ℤ → ℤ × List AudioCall,
    (∀ payload, ¬IsCommand payload → ∀ devVolume,
      f payload devVolume = (devVolume, [.EspAudioStop, .EspAudioPlay payload])) ∧
    ∀ d ∈ D, ∀ devVolume, d.outcome devVolume = some (f d.payload devVolume)

/-- The payload is in one event, what is behind it does not make it start with `vol`, and a url
has fewer than 128 bytes and no terminator among them. -/
structure Delivery.Plain (d : Delivery) : Prop where
  unsplit : d.rest = []
  pointer : d.first.data ≠ none
  behind : ∀ data ∈ d.first.data, Starts data "vol" → ascii "vol" <+: d.payload
  url : ¬IsCommand d.payload → d.payload.length < 128 ∧ 0 ∉ d.payload

/-! ## Words in memory -/

section Words

variable {data : Buffer} {n : ℕ} {payload : List UInt8} {word : String}

/-- A word that the bytes start with is found. -/
theorem starts_of_prefix (h : ascii word <+: data.read 0 n) : Starts data word := by
  have hle : (ascii word).length ≤ n := by simpa using h.length_le
  rw [Starts, Buffer.read_prefix rfl hle]
  exact (List.prefix_iff_eq_take.mp h).symm

/-- With zeros behind the bytes, no other word is found. -/
theorem prefix_of_starts (h0 : 0 ∉ ascii word)
    (h : Starts (.write .zeroed 0 payload) word) : ascii word <+: payload := by
  rcases le_or_gt (ascii word).length payload.length with hle | hlt
  · rw [Starts, Buffer.read_prefix (Buffer.read_write _ _ _) hle] at h
    exact List.prefix_iff_eq_take.mpr h.symm
  · obtain ⟨k, hk⟩ := Nat.exists_eq_add_of_lt hlt
    rw [Starts, hk, add_assoc, Buffer.read_zeroed_write] at h
    rw [← h] at h0
    exact absurd (List.mem_append_right _ (List.mem_replicate.mpr ⟨Nat.succ_ne_zero k, rfl⟩)) h0

/-- Words that differ in their first letters are not both found. -/
theorem not_starts_of_starts {word' : String} (hne : (ascii word).head? ≠ (ascii word').head?)
    (hword : ascii word ≠ []) (hword' : ascii word' ≠ []) (h : Starts data word) :
    ¬Starts data word' := by
  intro h'
  obtain ⟨a, l, hl⟩ := List.exists_cons_of_ne_nil hword
  obtain ⟨b, l', hl'⟩ := List.exists_cons_of_ne_nil hword'
  rw [Starts, hl, List.length_cons, Buffer.read_succ] at h
  rw [Starts, hl', List.length_cons, Buffer.read_succ] at h'
  rw [hl, hl', List.head?_cons, List.head?_cons, ← (List.cons.inj h).1, ← (List.cons.inj h').1]
    at hne
  exact hne rfl

end Words

/-! ## What is done -/

section Outcome

variable {data : Buffer} {event : DataEvent} {d : Delivery} {devVolume : ℤ}

/-- Only `vol` changes anything before the url is played. -/
theorem mqttEventHandler_eq (hdata : event.data = some data) :
    mqttEventHandler devVolume event =
      some (if Starts data "vol" then (devVolume + 10).tmod 100 else devVolume,
        [.EspAudioStop, .EspAudioPlay (newurl (data.read 0 event.dataLen))]) := by
  rw [mqttEventHandler, hdata, Option.map_some]
  by_cases hvol : Starts data "vol"
  · -- the words begin with different letters, so the order of the tests does not matter
    have hpause : ¬Starts data "pause" :=
      not_starts_of_starts (by decide) (by decide) (by decide) hvol
    have hplay : ¬Starts data "play" :=
      not_starts_of_starts (by decide) (by decide) (by decide) hvol
    rw [if_neg hpause, if_neg hplay, if_pos hvol]
  · simp [hvol]

/-- Each event stops the player and starts it again. -/
theorem length_calls {events : List DataEvent} {r : ℤ × List AudioCall}
    (h : mqttEvents devVolume events = some r) : r.2.length = 2 * events.length := by
  induction events generalizing devVolume r with
  | nil =>
    obtain rfl := Option.some.inj h
    rfl
  | cons event events ih =>
    obtain ⟨r₁, h₁, h⟩ := Option.bind_eq_some_iff.mp h
    obtain ⟨r₂, h₂, rfl⟩ := Option.map_eq_some_iff.mp h
    obtain ⟨data, -, rfl⟩ := Option.map_eq_some_iff.mp h₁
    rw [List.length_append, ih h₂, List.length_cons, List.length_cons, List.length_cons,
      List.length_nil]
    omega

theorem payload_of_unsplit (hrest : d.rest = []) (hdata : d.first.data = some data) :
    d.payload = data.read 0 d.first.dataLen := by
  rw [Delivery.payload, hrest, List.flatMap_cons, List.flatMap_nil, List.append_nil,
    DataEvent.bytes, hdata, Option.elim_some]

theorem outcome_of_unsplit (hrest : d.rest = []) (hdata : d.first.data = some data) :
    d.outcome devVolume =
      some (if Starts data "vol" then (devVolume + 10).tmod 100 else devVolume,
        [.EspAudioStop, .EspAudioPlay (newurl d.payload)]) := by
  rw [Delivery.outcome, hrest, mqttEvents, mqttEventHandler_eq hdata,
    payload_of_unsplit hrest hdata]
  rfl

@[simp] theorem payload_whole (payload : List UInt8) : (Delivery.whole payload).payload = payload :=
  (payload_of_unsplit rfl rfl).trans (Buffer.read_write _ _ _)

/-- What is done with a payload in one event, with nothing behind it. -/
theorem outcome_whole (payload : List UInt8) : (Delivery.whole payload).outcome devVolume =
    some (if ascii "vol" <+: payload then (devVolume + 10).tmod 100 else devVolume,
      [.EspAudioStop, .EspAudioPlay (newurl payload)]) := by
  have hstarts : Starts (.write .zeroed 0 payload) "vol" ↔ ascii "vol" <+: payload := by
    refine ⟨prefix_of_starts (by decide), fun h ↦ starts_of_prefix (n := payload.length) ?_⟩
    rwa [Buffer.read_write]
  rw [outcome_of_unsplit rfl rfl, payload_whole]
  simp only [hstarts]

/-- A url is copied as it is if and only if it fits and has no terminator. -/
theorem newurl_eq_self_iff {bytes : List UInt8} :
    newurl bytes = bytes ↔ bytes.length < 128 ∧ 0 ∉ bytes := by
  rw [newurl]
  constructor
  · intro h
    have hlength := congrArg List.length h
    rw [List.length_take] at hlength
    have hall := (List.takeWhile_prefix (l := bytes) (· ≠ 0)).eq_of_length_le
      (by omega)
    refine ⟨by omega, fun h0 ↦ ?_⟩
    have hne := List.mem_takeWhile_imp (hall ▸ h0)
    simp at hne
  · rintro ⟨hlength, h0⟩
    rw [List.takeWhile_eq_self_iff.mpr ?_, List.take_of_length_le (by omega)]
    intro x hx
    exact decide_eq_true fun heq ↦ h0 (heq ▸ hx)

end Outcome

/-! ## Plain deliveries -/

section Plain

variable {D : Set Delivery} {d : Delivery}

/-- A plain delivery does what its payload does alone. -/
theorem Delivery.Plain.outcome_eq (hd : d.Plain) (devVolume : ℤ) :
    d.outcome devVolume = (whole d.payload).outcome devVolume := by
  obtain ⟨data, hdata⟩ := Option.ne_none_iff_exists'.mp hd.pointer
  have hstarts : Starts data "vol" ↔ ascii "vol" <+: d.payload := by
    refine ⟨hd.behind data hdata, fun h ↦ starts_of_prefix (n := d.first.dataLen) ?_⟩
    rwa [← payload_of_unsplit hd.unsplit hdata]
  rw [outcome_of_unsplit hd.unsplit hdata, outcome_whole]
  simp only [hstarts]

/-- A delivery that does what its payload does alone is in one event, and nothing behind it
counts. -/
theorem Delivery.unsplit_of_outcome_eq
    (h : ∀ devVolume, d.outcome devVolume = (whole d.payload).outcome devVolume) :
    d.rest = [] ∧ d.first.data ≠ none ∧
      ∀ data ∈ d.first.data, Starts data "vol" → ascii "vol" <+: d.payload := by
  have houtcome := h 0
  rw [outcome_whole] at houtcome
  -- two calls for each event, and two for the payload alone
  have hrest : d.rest = [] := by
    have hlength : 2 = 2 * (d.rest.length + 1) := length_calls houtcome
    exact List.eq_nil_of_length_eq_zero (by omega)
  refine ⟨hrest, fun hnone ↦ ?_, fun data hdata hstarts ↦ ?_⟩
  · rw [outcome, mqttEvents, mqttEventHandler, hnone] at houtcome
    cases houtcome
  · rw [outcome_of_unsplit hrest hdata, if_pos hstarts] at houtcome
    -- the volume is raised for one and not for the other
    by_contra hprefix
    rw [if_neg hprefix] at houtcome
    have hvolume : (0 + 10 : ℤ).tmod 100 = 0 := congrArg Prod.fst (Option.some.inj houtcome)
    exact absurd hvolume (by decide)

/-- What is done with a payload that is all there is. -/
def commanded (payload : List UInt8) (devVolume : ℤ) : ℤ × List AudioCall :=
  if IsCommand payload then
    (if ascii "vol" <+: payload then (devVolume + 10).tmod 100 else devVolume,
      [.EspAudioStop, .EspAudioPlay (newurl payload)])
  else (devVolume, [.EspAudioStop, .EspAudioPlay payload])

/-- **What is done with the payloads of `D` is a function of the payloads if and only if all their
deliveries are plain**, if each payload is among them in one event and with nothing behind it. -/
theorem independent_iff (hD : ∀ d ∈ D, Delivery.whole d.payload ∈ D) :
    Independent D ↔ ∀ d ∈ D, d.Plain := by
  constructor
  · rintro ⟨f, hplays, hf⟩ d hd
    have hwhole (devVolume : ℤ) : (Delivery.whole d.payload).outcome devVolume
        = some (f d.payload devVolume) := by
      rw [hf _ (hD d hd), payload_whole]
    obtain ⟨hrest, hpointer, hbehind⟩ := Delivery.unsplit_of_outcome_eq fun devVolume ↦
      (hf d hd devVolume).trans (hwhole devVolume).symm
    refine ⟨hrest, hpointer, hbehind, fun hcommand ↦ newurl_eq_self_iff.mp ?_⟩
    have hcalls := congrArg Prod.snd
      (Option.some.inj ((outcome_whole d.payload).symm.trans (hwhole 0)))
    rw [hplays _ hcommand] at hcalls
    exact AudioCall.EspAudioPlay.inj (List.cons.inj (List.cons.inj hcalls).2).1
  · intro hplain
    refine ⟨commanded, fun payload hcommand devVolume ↦ if_neg hcommand, fun d hd devVolume ↦ ?_⟩
    rw [(hplain d hd).outcome_eq, outcome_whole, commanded]
    by_cases hcommand : IsCommand d.payload
    · rw [if_pos hcommand]
    · have hvol : ¬ascii "vol" <+: d.payload := fun h ↦ hcommand (.inr (.inr h))
      rw [if_neg hcommand, if_neg hvol, newurl_eq_self_iff.mpr ((hplain d hd).url hcommand)]

/-- A url in one event, with nothing behind it and with the rest of a longer one. -/
theorem independent_unsplit : Independent {.whole (ascii "http://a.b/c.mp3"),
    ⟨⟨some (.write .zeroed 0 (ascii "http://a.b/c.mp3?id=1")), 16, nofun⟩, [], nofun⟩} := by
  have hurl : (ascii "http://a.b/c.mp3").length < 128 ∧ 0 ∉ ascii "http://a.b/c.mp3" := by decide
  have hpayload : Delivery.payload
      ⟨⟨some (.write .zeroed 0 (ascii "http://a.b/c.mp3?id=1")), 16, nofun⟩, [], nofun⟩
        = ascii "http://a.b/c.mp3" := by decide
  refine (independent_iff ?_).mpr ?_
  · rintro _ (rfl | rfl)
    · exact .inl (congrArg Delivery.whole (payload_whole _))
    · exact .inl (congrArg Delivery.whole hpayload)
  · rintro _ (rfl | rfl)
    · refine ⟨rfl, Option.some_ne_none _, ?_, fun _ ↦ ?_⟩
      · rintro _ ⟨⟩ hstarts
        exact absurd hstarts (by decide)
      · rwa [payload_whole]
    · refine ⟨rfl, Option.some_ne_none _, ?_, fun _ ↦ ?_⟩
      · rintro _ ⟨⟩ hstarts
        exact absurd hstarts (by decide)
      · rwa [hpayload]

end Plain

/-- A url in two events is played as two. -/
theorem not_independent_split : ¬Independent Set.univ := by
  rintro ⟨f, hplays, hf⟩
  have houtcome := hf ⟨⟨some (.write .zeroed 0 (ascii "http://a.b/")), 11, nofun⟩,
    [⟨some (.write .zeroed 0 (ascii "c.mp3")), 5, nofun⟩], by decide⟩ trivial 0
  rw [hplays _ (by decide)] at houtcome
  exact absurd (length_calls houtcome) (by decide)

end Ddmz.Mqtt
