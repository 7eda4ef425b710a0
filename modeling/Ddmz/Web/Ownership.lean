import Ddmz.Foundation.Runs
import Ddmz.Web.Playlist

/-!
# Who owns the strings of a message

The strings of a message belong to the one that is in the queue, and then to the one that
`EspAppControlTask` has received; every block in use is among them. The producer frees them where
there is no message after all. The consumer frees them with the message, but not while `_blocking`
is set: then it throws the message away.

So every block is owned, in every run, if and only if no message with strings is thrown away and no
request has a value that is not a string where one is copied: `owned_iff`.
-/

namespace Ddmz.Web

open Wifi (DeviceNotification)

/-! ## The system -/

structure Control where
  queue : List Msg
  /-- The task waits for a message. -/
  selecting : Bool
  /-- The message that has been received and not been looked at. -/
  received : Option Msg
  service : Service
  /-- Nothing after a null pointer, or after freeing what is not in use. -/
  heap : Option Heap

def Control.init (h : Heap) : Control := ⟨[], false, none, ⟨false, false, false⟩, some h⟩

inductive ControlOp
  | request (post : Post)
  | notified (note : DeviceNotification)
  /-- The task begins to wait, if there is Wi-Fi. -/
  | select
  /-- There has been no message for two seconds. -/
  | timeout
  | receive
  /-- `save` is what `saveToPlaylist` returns. -/
  | control (save : List UInt8 → ℤ)

namespace Control

variable (parse : CStr → Option CJson) (s : Control)

/-- `audio_httpd_cb` in the system. -/
def requested (post : Post) (h : Heap) : Control :=
  match audioHttpdCb parse post s.queue h with
  | none => { s with heap := none }
  | some (queue, h) => { s with queue, heap := some h }

/-- The task looks at what it has received. -/
def controlled (save : List UInt8 → ℤ) (msg : Msg) (h : Heap) : Control :=
  { s with received := none, heap := (espAppControl s.service save msg h).map Prod.snd }

def step : ControlOp → Option Control
  | .request post => s.heap.map (s.requested parse post)
  | .notified note => s.heap.map fun _ ↦
    { s with service := deviceEvtNotifiedToApp s.service note }
  | .select =>
    if s.service.wifiConnected = true ∧ s.received = none then some { s with selecting := true }
    else none
  | .timeout => if s.selecting = true then some { s with selecting := false } else none
  | .receive =>
    match s.queue with
    | [] => none
    | msg :: queue =>
      if s.selecting = true ∧ s.received = none then
        s.heap.map fun _ ↦ { s with queue, selecting := false, received := some msg }
      else none
  | .control save => s.received.bind fun msg ↦ s.heap.map (s.controlled save msg)

/-- What is owned: by the message that has been received, and by those in the queue. -/
def blocks : List ℕ := s.received.elim [] Msg.blocks ++ s.queue.flatMap Msg.blocks

/-- Every block that has been taken is owned, and is in use. -/
def Owned (h₀ : Heap) : Prop := ∃ h, s.heap = some h ∧ Heap.Took h₀ h s.blocks

end Control

/-! ## Conditions -/

/-- The strings of `AudioCtlType_Url` that are copied; the second one if there is memory for the
first. -/
def UrlReadable (json : CJson) (granted : Bool) : Prop :=
  json.getObjectItem "live" ≠ none → ∀ url ∈ json.getObjectItem "url", url.valuestring ≠ none ∧
    (granted = true → ∀ name ∈ json.getObjectItem "name", name.valuestring ≠ none)

/-- The strings of `AudioCtlType_List`, which are copied if there is memory for a buffer. -/
def ListReadable (json : CJson) (granted : Bool) : Prop :=
  json.getObjectItem "live" ≠ none → granted = true →
    ∀ push ∈ json.getObjectItem "push_data", push.type = .Array →
      ∀ node ∈ push.child, ∀ url ∈ node.getObjectItem "url", url.valuestring ≠ none

/-- What a request copies are strings. -/
def Readable (json : CJson) (granted : Bool) : Prop :=
  ∀ type ∈ json.getObjectItem "type", (type.valueint = 0 → UrlReadable json granted) ∧
    (type.valueint = 3 → ListReadable json granted)

/-- What `audio_httpd_cb` copies, if there is memory for the text of the request. -/
def PostReadable (parse : CStr → Option CJson) (post : Post) (h : Heap) : Prop :=
  h.grants h.asked = true → ∀ json ∈ parse post.buff, Readable json (h.grants (h.asked + 1))

/-- A request has strings where one is copied, and what is thrown away has none. -/
def Control.Fits (parse : CStr → Option CJson) (s : Control) : ControlOp → Prop
  | .request post => ∀ h ∈ s.heap, PostReadable parse post h
  | .control _ => s.service.blocking = true → ∀ msg ∈ s.received, msg.blocks = []
  | _ => True

/-! ## The producer -/

theorem forall_mem_none {α : Type*} {p : α → Prop} : ∀ a ∈ (none : Option α), p a :=
  fun a h ↦ absurd h (Option.not_mem_none a)

theorem AudioCtlType.ofInt_cases (n : ℤ) : (n = 0 ∧ ofInt n = some .Url) ∨
    (n = 3 ∧ ofInt n = some .List) ∨
      (n ≠ 0 ∧ n ≠ 3 ∧ (ofInt n = some .Play ∨ ofInt n = some .Vol ∨ ofInt n = none)) := by
  unfold ofInt
  split <;> simp_all

/-- What a part of a request comes to: it reads a null pointer, or it has taken the blocks of the
message that it makes. -/
inductive Made (h₀ : Heap) (ps : List ℕ) (readable : Prop) : Option (Option Msg × Heap) → Prop
  | crash (hreadable : ¬readable) : Made h₀ ps readable none
  | made {msg : Option Msg} {h : Heap} (hreadable : readable)
      (ht : Heap.Took h₀ h (msg.elim [] Msg.blocks ++ ps)) : Made h₀ ps readable (some (msg, h))

section Producer

variable {h₀ h : Heap} {ps : List ℕ} {json : CJson}

/-- Copying a string takes a block, if there is memory. -/
theorem copyString_cases (ht : Heap.Took h₀ h ps) (str : CStr) :
    (h.grants h.asked = false ∧ ∃ h', copyString (some str) h = some (none, h') ∧
        Heap.Took h₀ h' ps) ∨
      (h.grants h.asked = true ∧ ∃ block h', copyString (some str) h = some (some block, h') ∧
        Heap.Took h₀ h' (block.addr :: ps)) := by
  rw [copyString, Option.map_some]
  obtain ⟨hgrants, hnone, ht⟩ | ⟨hgrants, hsome, ht⟩ := ht.malloc_cases
  · rw [hnone]
    exact .inl ⟨hgrants, _, rfl, ht⟩
  · rw [hsome]
    exact .inr ⟨hgrants, _, _, rfl, ht⟩

theorem urlReadable_iff {granted : Bool} {live url : CJson}
    (hlive : json.getObjectItem "live" = some live) (hurl : json.getObjectItem "url" = some url) :
    UrlReadable json granted ↔ url.valuestring ≠ none ∧
      (granted = true → ∀ name ∈ json.getObjectItem "name", name.valuestring ≠ none) := by
  rw [UrlReadable, hlive, hurl]
  constructor
  · exact fun h ↦ h (Option.some_ne_none live) url rfl
  · rintro h - _ ⟨⟩
    exact h

/-- A url takes its own block and that of the name, or nothing. -/
theorem made_urlRequest (ht : Heap.Took h₀ h ps) :
    Made h₀ ps (UrlReadable json (h.grants h.asked)) (urlRequest json h) := by
  rw [urlRequest]
  cases hlive : json.getObjectItem "live" with
  | none => exact .made (fun hne ↦ absurd hlive hne) ht
  | some live =>
    cases hurl : json.getObjectItem "url" with
    | none =>
      refine .made (fun _ url h ↦ ?_) ht
      rw [hurl] at h
      cases h
    | some url =>
      rw [urlReadable_iff hlive hurl]
      dsimp only
      cases url.valuestring with
      | none => exact .crash fun h ↦ h.1 rfl
      | some str =>
        obtain ⟨hgrants, h₁, hcopy, ht₁⟩ | ⟨hgrants, block, h₁, hcopy, ht₁⟩ :=
          copyString_cases ht str
        · -- there is no memory for the url, so the name is not looked at
          rw [hcopy, hgrants]
          exact .made ⟨Option.some_ne_none str, fun h ↦ absurd h Bool.false_ne_true⟩ ht₁
        · rw [hcopy, hgrants, Option.bind_some]
          dsimp only
          cases hname : json.getObjectItem "name" with
          | none =>
            dsimp only
            rw [ht₁.release.1]
            exact .made ⟨Option.some_ne_none str, fun _ ↦ forall_mem_none⟩ ht₁.release.2
          | some name =>
            dsimp only
            cases hnamed : name.valuestring with
            | none => exact .crash fun h ↦ h.2 rfl name rfl hnamed
            | some text =>
              have hreadable : ∀ name' ∈ some name, name'.valuestring ≠ none := by
                rintro _ ⟨⟩
                exact hnamed ▸ Option.some_ne_none text
              -- there is memory for the name, or the url is freed
              obtain ⟨-, h₂, hcopy₂, ht₂⟩ | ⟨-, block₂, h₂, hcopy₂, ht₂⟩ :=
                copyString_cases ht₁ text
              · rw [hcopy₂, Option.bind_some]
                dsimp only
                rw [ht₂.release.1]
                exact .made ⟨Option.some_ne_none str, fun _ ↦ hreadable⟩ ht₂.release.2
              · rw [hcopy₂]
                exact .made ⟨Option.some_ne_none str, fun _ ↦ hreadable⟩
                  (ht₂.perm (List.Perm.swap ..))

/-- The loop comes to its end if the urls are strings. -/
theorem packUrls_ne_none_iff {nodes : List CJson} {ind : ℕ} {buffer : Buffer} :
    packUrls nodes ind buffer ≠ none ↔
      ∀ node ∈ nodes, ∀ url ∈ node.getObjectItem "url", url.valuestring ≠ none := by
  induction nodes generalizing ind buffer with
  | nil => exact iff_of_true (Option.some_ne_none _) (List.forall_mem_nil _)
  | cons node nodes ih =>
    rw [packUrls, List.forall_mem_cons]
    cases node.getObjectItem "url" with
    | none => exact ih.trans (and_iff_right forall_mem_none).symm
    | some url =>
      dsimp only
      cases hstr : url.valuestring with
      | none => exact iff_of_false (fun h ↦ h rfl) fun h ↦ h.1 url rfl hstr
      | some str =>
        rw [Option.bind_some, ih]
        refine (and_iff_right ?_).symm
        rintro _ ⟨⟩
        exact hstr ▸ Option.some_ne_none str

/-- A list takes the block of its buffer, or nothing. -/
theorem made_listRequest (ht : Heap.Took h₀ h ps) (buffLen : ℕ) :
    Made h₀ ps (ListReadable json (h.grants h.asked)) (listRequest buffLen json h) := by
  rw [listRequest, ListReadable]
  cases hlive : json.getObjectItem "live" with
  | none => exact .made (fun hne ↦ absurd rfl hne) ht
  | some live =>
    rw [forall_prop_of_true (Option.some_ne_none live)]
    dsimp only
    obtain ⟨hgrants, hnone, ht₁⟩ | ⟨hgrants, hsome, ht₁⟩ := ht.malloc_cases
    · rw [hgrants, ← Prod.eta h.malloc, hnone]
      exact .made (fun h ↦ absurd h Bool.false_ne_true) ht₁
    · rw [hgrants, ← Prod.eta h.malloc, hsome, forall_prop_of_true rfl]
      dsimp only
      cases json.getObjectItem "push_data" with
      | none =>
        dsimp only
        rw [ht₁.release.1]
        exact .made forall_mem_none ht₁.release.2
      | some push =>
        dsimp only
        split_ifs with harray
        · cases hpack : packUrls push.child 0 .zeroed with
          | none =>
            refine .crash fun h ↦ ?_
            exact packUrls_ne_none_iff.mpr (h push rfl harray) hpack
          | some buffer =>
            refine .made ?_ ht₁
            rintro _ ⟨⟩ -
            exact packUrls_ne_none_iff.mp (hpack ▸ Option.some_ne_none buffer)
        · refine .made ?_ ht₁
          rintro _ ⟨⟩ h
          exact absurd h harray

theorem readable_iff {granted : Bool} {type : CJson}
    (htype : json.getObjectItem "type" = some type) : Readable json granted ↔
      (type.valueint = 0 → UrlReadable json granted) ∧
        (type.valueint = 3 → ListReadable json granted) := by
  simp [Readable, htype]

/-- A request takes the blocks of its message. -/
theorem made_request (json : CJson) (ht : Heap.Took h₀ h ps) (buffLen : ℕ) :
    Made h₀ ps (Readable json (h.grants h.asked)) (request buffLen json h) := by
  rw [request]
  cases htype : json.getObjectItem "type" with
  | none =>
    refine .made (fun type h ↦ ?_) ht
    rw [htype] at h
    cases h
  | some type =>
    rw [Option.bind_some, readable_iff htype]
    obtain ⟨hn, hof⟩ | ⟨hn, hof⟩ | ⟨h0, h3, hof⟩ := AudioCtlType.ofInt_cases type.valueint
    · have hthree : (0 : ℤ) ≠ 3 := by decide
      rw [hof, hn, forall_prop_of_true rfl, and_iff_left fun h ↦ absurd h hthree]
      exact made_urlRequest ht
    · have hthree : (3 : ℤ) ≠ 0 := by decide
      rw [hof, hn, forall_prop_of_true rfl, and_iff_right fun h ↦ absurd h hthree]
      exact made_listRequest ht buffLen
    · have hreadable : (type.valueint = 0 → UrlReadable json (h.grants h.asked)) ∧
          (type.valueint = 3 → ListReadable json (h.grants h.asked)) :=
        ⟨fun h ↦ absurd h h0, fun h ↦ absurd h h3⟩
      obtain hof | hof | hof := hof
      · rw [hof, playRequest]
        cases json.getObjectItem "play_status" with
        | none | some => exact .made hreadable ht
      · rw [hof, volRequest]
        cases json.getObjectItem "volume" with
        | none | some => exact .made hreadable ht
      · rw [hof]
        exact .made hreadable ht

/-- What is sent belongs to the queue, and what finds no room is freed. -/
theorem took_send {msg : Option Msg} (queue : List Msg)
    (ht : Heap.Took h₀ h (msg.elim [] Msg.blocks ++ ps)) :
    ∃ queue' h', send msg queue h = some (queue', h') ∧ ∃ sent : List Msg,
      queue' = queue ++ sent ∧ Heap.Took h₀ h' (sent.flatMap Msg.blocks ++ ps) := by
  cases msg with
  | none => exact ⟨queue, h, rfl, [], (List.append_nil _).symm, ht⟩
  | some msg =>
    rw [send]
    split_ifs with hroom
    · refine ⟨_, h, rfl, [msg], rfl, ?_⟩
      rw [List.flatMap_cons, List.flatMap_nil, List.append_nil]
      exact ht
    · obtain ⟨h', hrelease, ht'⟩ := ht.releaseAll
      rw [Option.elim_some] at hrelease
      rw [hrelease]
      exact ⟨queue, h', rfl, [], (List.append_nil _).symm, ht'⟩

/-- A request adds to the queue what it takes, or reads a null pointer. -/
theorem took_audioHttpdCb (parse : CStr → Option CJson) (post : Post) (queue : List Msg)
    (ht : Heap.Took h₀ h ps) :
    (¬PostReadable parse post h ∧ audioHttpdCb parse post queue h = none) ∨
      (PostReadable parse post h ∧ ∃ sent h',
        audioHttpdCb parse post queue h = some (queue ++ sent, h') ∧
          Heap.Took h₀ h' (sent.flatMap Msg.blocks ++ ps)) := by
  rw [audioHttpdCb, PostReadable]
  obtain ⟨hgrants, hnone, ht₁⟩ | ⟨hgrants, hsome, ht₁⟩ := ht.malloc_cases
  · rw [hgrants, ← Prod.eta h.malloc, hnone]
    refine .inr ⟨fun h ↦ absurd h Bool.false_ne_true, [], _, ?_, ht₁⟩
    rw [List.append_nil]
  · rw [hgrants, ← Prod.eta h.malloc, hsome, forall_prop_of_true rfl]
    dsimp only
    have hmade : Made h₀ (h.asked :: ps)
        (∀ json ∈ parse post.buff, Readable json (h.grants (h.asked + 1)))
        ((parse post.buff).elim (some (none, h.malloc.2))
          fun json ↦ request post.buffLen json h.malloc.2) := by
      cases parse post.buff with
      | none => exact .made forall_mem_none ht₁
      | some json =>
        have hmade := made_request json ht₁ post.buffLen
        rw [Heap.grants_malloc, Heap.asked_malloc] at hmade
        simpa using hmade
    generalize (parse post.buff).elim (some (none, h.malloc.2))
      (fun json ↦ request post.buffLen json h.malloc.2) = r at hmade
    cases hmade with
    | crash hreadable => exact .inl ⟨hreadable, rfl⟩
    | made hreadable ht₂ =>
      obtain ⟨queue', h₃, hsend, sent, rfl, ht₃⟩ := took_send queue ht₂
      have ht₄ := (ht₃.perm List.perm_middle).release
      refine .inr ⟨hreadable, sent, _, ?_, ht₄.2⟩
      rw [Option.bind_some, hsend, Option.bind_some, ht₄.1]
      rfl

end Producer

/-! ## The consumer -/

/-- The task frees the blocks of a message, unless it throws it away. -/
theorem took_espAppControl {h₀ h : Heap} {ps : List ℕ} {service : Service} {msg : Msg}
    (hblocking : service.blocking = false) (save : List UInt8 → ℤ)
    (ht : Heap.Took h₀ h (msg.blocks ++ ps)) :
    ∃ calls h', espAppControl service save msg h = some (calls, h') ∧ Heap.Took h₀ h' ps := by
  obtain ⟨h', hrelease, ht'⟩ := ht.releaseAll
  have hclear := Bool.eq_false_iff.mp hblocking
  cases msg with
  | url live url name | list live count buf =>
    rw [espAppControl, if_neg hclear, hrelease]
    exact ⟨_, h', rfl, ht'⟩
  | play value | vol value =>
    rw [espAppControl, if_neg hclear]
    exact ⟨_, h, rfl, ht⟩

/-! ## Runs -/

namespace Control

variable {parse : CStr → Option CJson} {s t : Control} {h₀ : Heap} {op : ControlOp}

theorem owned_init (h : Heap) : (init h).Owned h := ⟨h, rfl, h.took_nil⟩

theorem not_owned_of_heap (h : s.heap = none) : ¬s.Owned h₀ := by
  rintro ⟨h', hheap, -⟩
  exact absurd (hheap.symm.trans h) (Option.some_ne_none h')

theorem Owned.request (hs : s.Owned h₀) {post : Post} (h : s.step parse (.request post) = some t) :
    t.Owned h₀ ↔ s.Fits parse (.request post) := by
  obtain ⟨heap, hheap, ht⟩ := hs
  obtain ⟨_, hheap', rfl⟩ := Option.map_eq_some_iff.mp h
  obtain rfl := Option.some.inj (hheap.symm.trans hheap')
  have hfits : s.Fits parse (.request post) ↔ PostReadable parse post heap := by
    simp [Fits, hheap]
  rw [hfits, requested]
  obtain ⟨hreadable, hnone⟩ | ⟨hreadable, sent, h', hsome, ht'⟩ :=
    took_audioHttpdCb parse post s.queue ht
  · rw [hnone]
    exact iff_of_false (not_owned_of_heap rfl) hreadable
  · rw [hsome]
    refine iff_of_true ⟨h', rfl, ht'.perm ?_⟩ hreadable
    rw [blocks, blocks, List.flatMap_append, ← List.append_assoc (s.received.elim [] Msg.blocks)]
    exact List.perm_append_comm

theorem Owned.notified (hs : s.Owned h₀) {note : DeviceNotification}
    (h : s.step parse (.notified note) = some t) : t.Owned h₀ := by
  obtain ⟨_, -, rfl⟩ := Option.map_eq_some_iff.mp h
  exact hs

theorem Owned.select (hs : s.Owned h₀) (h : s.step parse .select = some t) : t.Owned h₀ := by
  obtain ⟨-, h⟩ := Option.ite_none_right_eq_some.mp h
  obtain rfl := Option.some.inj h
  exact hs

theorem Owned.timeout (hs : s.Owned h₀) (h : s.step parse .timeout = some t) : t.Owned h₀ := by
  obtain ⟨-, h⟩ := Option.ite_none_right_eq_some.mp h
  obtain rfl := Option.some.inj h
  exact hs

/-- What is received has been in the queue. -/
theorem Owned.receive (hs : s.Owned h₀) (h : s.step parse .receive = some t) : t.Owned h₀ := by
  obtain ⟨heap, hheap, ht⟩ := hs
  rw [step] at h
  cases hqueue : s.queue with
  | nil =>
    rw [hqueue] at h
    cases h
  | cons msg queue =>
    rw [hqueue] at h
    obtain ⟨⟨-, hreceived⟩, h⟩ := Option.ite_none_right_eq_some.mp h
    obtain ⟨_, -, rfl⟩ := Option.map_eq_some_iff.mp h
    refine ⟨heap, hheap, ?_⟩
    rwa [blocks, hreceived, hqueue, List.flatMap_cons] at ht

/-- What is thrown away with its blocks is lost. -/
theorem Owned.control (hs : s.Owned h₀) {save : List UInt8 → ℤ}
    (h : s.step parse (.control save) = some t) :
    t.Owned h₀ ↔ s.Fits parse (.control save) := by
  obtain ⟨heap, hheap, ht⟩ := hs
  obtain ⟨msg, hmsg, h⟩ := Option.bind_eq_some_iff.mp h
  obtain ⟨_, hheap', rfl⟩ := Option.map_eq_some_iff.mp h
  obtain rfl := Option.some.inj (hheap.symm.trans hheap')
  have hfits : s.Fits parse (.control save) ↔ (s.service.blocking = true → msg.blocks = []) := by
    simp [Fits, hmsg]
  rw [blocks, hmsg, Option.elim_some] at ht
  rw [hfits]
  by_cases hblocking : s.service.blocking = true
  · rw [forall_prop_of_true hblocking]
    have hdropped : (s.controlled save msg heap).heap = some heap := by
      rw [controlled, espAppControl.eq_def, if_pos hblocking, Option.map_some]
    constructor
    · rintro ⟨h', hheap', ht'⟩
      obtain rfl := Option.some.inj (hdropped.symm.trans hheap')
      -- the heap is as before, so the blocks of the message must have been none
      have hlive := ht.symm.trans ht'
      rw [← Multiset.coe_add, add_assoc] at hlive
      have hnone : (msg.blocks : Multiset ℕ) = 0 := add_eq_right.mp hlive
      exact (Multiset.coe_eq_zero _).mp hnone
    · intro hnone
      refine ⟨heap, hdropped, ?_⟩
      rw [hnone] at ht
      exact ht
  · obtain ⟨calls, h', hcalls, ht'⟩ :=
      took_espAppControl (Bool.eq_false_iff.mpr hblocking) save ht
    refine iff_of_true ⟨h', ?_, ht'⟩ fun h ↦ absurd h hblocking
    rw [controlled, hcalls, Option.map_some]

/-- Where every block is owned, a step keeps it so if and only if it meets the condition. -/
theorem Owned.step (hs : s.Owned h₀) (h : s.step parse op = some t) :
    t.Owned h₀ ↔ s.Fits parse op := by
  cases op with
  | request post => exact hs.request h
  | notified note => exact iff_of_true (hs.notified h) trivial
  | select => exact iff_of_true (hs.select h) trivial
  | timeout => exact iff_of_true (hs.timeout h) trivial
  | receive => exact iff_of_true (hs.receive h) trivial
  | control save => exact hs.control h

end Control

/-- **Every block is owned throughout if and only if what requests copy are strings, and what is
thrown away has none.** -/
theorem owned_iff (parse : CStr → Option CJson) (h₀ : Heap) {ops : List ControlOp} {s : Control}
    (h : AnyRun (Control.step parse) (.init h₀) ops s) :
    Always (Control.step parse) (fun t ↦ t.Owned h₀) (.init h₀) ops ↔
      Run (Control.step parse) (Control.Fits parse) (.init h₀) ops s :=
  h.always_iff (J := fun _ ↦ True) (fun _ _ _ _ _ ↦ trivial) (fun _ _ _ _ hs hstep ↦ hs.step hstep)
    trivial (Control.owned_init h₀)

/-- `{"type":0,"live":0,"url":"a","name":"b"}`. -/
def urlJson : CJson :=
  ⟨.Object, none, 0, none, [⟨.Number, none, 0, some (cstr "type"), []⟩,
    ⟨.Number, none, 0, some (cstr "live"), []⟩,
    ⟨.String, some (cstr "a"), 0, some (cstr "url"), []⟩,
    ⟨.String, some (cstr "b"), 0, some (cstr "name"), []⟩]⟩

def urlPost : Post where
  buff := cstr "\x7b\"type\":0,\"live\":0,\"url\":\"a\",\"name\":\"b\"\x7d"
  buffLen := 40
  length_le := by decide +kernel

/-- A url comes through, and its strings are freed. -/
theorem owned_url : Always (Control.step (parseOnly urlPost.buff urlJson))
    (fun t ↦ t.Owned ⟨0, 0, fun _ ↦ true⟩) (.init ⟨0, 0, fun _ ↦ true⟩)
    [.notified (.WIFI .WIFI_GOT_IP), .select, .request urlPost, .receive, .control fun _ ↦ 0] := by
  have hrun : AnyRun (Control.step (parseOnly urlPost.buff urlJson)) (.init ⟨0, 0, fun _ ↦ true⟩)
      [.notified (.WIFI .WIFI_GOT_IP), .select, .request urlPost, .receive,
        .control fun _ ↦ 0] _ :=
    anyRun_of_foldlM rfl
  have hreadable (granted : Bool) : Readable urlJson granted := by
    rintro _ ⟨⟩
    refine ⟨fun _ _ ↦ ?_, fun h ↦ absurd h (by decide)⟩
    rintro _ ⟨⟩
    refine ⟨Option.some_ne_none _, fun _ ↦ ?_⟩
    rintro _ ⟨⟩
    exact Option.some_ne_none _
  refine (owned_iff _ _ hrun).mpr <| .cons trivial rfl <| .cons trivial rfl <| .cons ?_ rfl <|
    .cons trivial rfl <| .cons (fun h ↦ absurd h Bool.false_ne_true) rfl <| .nil _
  rintro _ ⟨⟩ - _ ⟨⟩
  exact hreadable _

/-- AUX is plugged in before the url is received, and its strings are lost. -/
theorem not_owned_blocking : ¬∀ (parse : CStr → Option CJson) h₀ ops s,
    AnyRun (Control.step parse) (.init h₀) ops s → s.Owned h₀ := by
  intro hclaim
  obtain ⟨h, hheap, ht⟩ := hclaim (parseOnly urlPost.buff urlJson) ⟨0, 0, fun _ ↦ true⟩
    [.notified (.WIFI .WIFI_GOT_IP), .select, .request urlPost,
      .notified (.AUXIN .AUXIN_INSERTED), .receive, .control fun _ ↦ 0] _ <| anyRun_of_foldlM rfl
  obtain rfl := Option.some.inj hheap
  exact absurd (congrArg Multiset.card ht) (by decide)

end Ddmz.Web
