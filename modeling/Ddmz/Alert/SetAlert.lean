import Ddmz.Alert.Player
import Ddmz.Foundation.Heap

/-!
# Setting an alert when memory or threads run out

`duer_dcs_tone_alert_set_handler` allocates an alert with the strings it needs, then a node of
`s_alert_queue`, and then creates a thread. Here any of these may fail. What an alert takes is
freed by `duer_free_alert_data` when the alert cannot be completed, `took_createAlertData`.

Behind the creation the handler has three ways to fail, and `setContract_iff` says which of them
leave everything as it was: the alert is not freed when there is no memory for a node, and when no
thread can be created the handler returns with `s_queue_mutex`.
-/

namespace Ddmz.Alert.Alloc

/-! ## Alerts in memory -/

/-- A string in memory. -/
structure StrBlock where
  addr : ℕ
  str : Str

/-- `duerapp_alert_data` in memory. A null pointer is `none`; the tones are those of `tone_tab` that
have been set. -/
structure AlertBlock where
  addr : ℕ
  type : Option StrBlock
  time : Option StrBlock
  token : Option StrBlock
  toneTab : List StrBlock
  loopCount : UInt8

/-- What `duer_free_alert_data` frees, in this order. There is no timer yet. -/
def AlertBlock.blocks (alert : AlertBlock) : List ℕ :=
  (alert.type.toList ++ alert.time.toList ++ alert.token.toList ++ alert.toneTab).map
    StrBlock.addr ++ [alert.addr]

/-- `duer_free_alert_data`. -/
def duerFreeAlertData (alert : AlertBlock) (h : Heap) : Heap := h.freeAll alert.blocks

/-- `duerapp_alert_strdup`. -/
def duerappAlertStrdup (str : Option Str) (h : Heap) : Option StrBlock × Heap :=
  match str with
  | none => (none, h)
  | some str => (h.malloc.1.map fun addr ↦ ⟨addr, str⟩, h.malloc.2)

/-- `duer_set_alert_tone`: the tones up to the first one that is not found, or not copied. -/
def duerSetAlertTone (assets : List Asset) : List (Option Str) → Heap → List StrBlock × Heap
  | [], h => ([], h)
  | none :: _, h => ([], h)
  | some assetId :: playOrder, h =>
    match duerFindTargetUrl assets assetId with
    | none => ([], h)
    | some url =>
      match duerappAlertStrdup (some url) h with
      | (none, h) => ([], h)
      | (some tone, h) =>
        (tone :: (duerSetAlertTone assets playOrder h).1, (duerSetAlertTone assets playOrder h).2)

/-- `duer_create_alert_data`. What cannot be completed is freed. -/
def duerCreateAlertData (type time token : Option Str) (payload : Payload) (h : Heap) :
    Option AlertBlock × Heap :=
  match payload.assetPlayOrder with
  | none => (none, h)
  | some playOrder =>
    match h.malloc with
    | (none, h) => (none, h)
    | (some addr, h) =>
      let type := duerappAlertStrdup type h
      let alert : AlertBlock := ⟨addr, type.1, none, none, [], 0⟩
      if type.1.isNone then (none, duerFreeAlertData alert type.2)
      else
        let time := duerappAlertStrdup time type.2
        let alert := { alert with time := time.1 }
        if time.1.isNone then (none, duerFreeAlertData alert time.2)
        else
          let token := duerappAlertStrdup token time.2
          let alert := { alert with token := token.1 }
          if token.1.isNone then (none, duerFreeAlertData alert token.2)
          else
            let alert := { alert with loopCount := loopCountOf payload.loopCount }
            match payload.assets with
            | none => (none, duerFreeAlertData alert token.2)
            | some assets =>
              let tones := duerSetAlertTone assets (playOrder.take (playOrder.length % 256)) token.2
              (some { alert with toneTab := tones.1 }, tones.2)

/-! ## The handler -/

/-- What the handler works with. A node of the queue is its address and its alert. -/
structure SetState where
  alertQueue : List (ℕ × AlertBlock)
  /-- Whether `s_queue_mutex` has been taken. -/
  queueMutex : Bool
  heap : Heap
  log : List (Option Str × AlertEvent)
  /-- How many workers have yet to look at the queue. -/
  workers : ℕ

/-- How the handler ends. -/
inductive SetEnd
  | badRequest
  | notCreated
  /-- `duer_alert_list_push` finds no memory. -/
  | notPushed
  /-- `xTaskCreate` fails. -/
  | notStarted
  | accepted
  deriving DecidableEq

/-- The handler fails for want of memory or of a thread. -/
def SetEnd.fails : SetEnd → Bool
  | .notCreated | .notPushed | .notStarted => true
  | .badRequest | .accepted => false

/-- The value of `duer_status_t` that is returned; a `return` without a value is `none`. -/
def SetEnd.status : SetEnd → Option ℤ
  | .badRequest => some 128
  | .notCreated => some (-0x0001)
  | .notPushed => some (-0x0011)
  | .notStarted => none
  | .accepted => some 0

/-- `duer_alert_list_push`. -/
def duerAlertListPush (queue : List (ℕ × AlertBlock)) (alert : AlertBlock) (h : Heap) :
    Option (List (ℕ × AlertBlock)) × Heap :=
  (h.malloc.1.map fun node ↦ queue ++ [(node, alert)], h.malloc.2)

/-- What `duer_dcs_tone_alert_set_handler` does with an alert while it has the mutex, where
`created` is whether `xTaskCreate` succeeds. -/
def queueAlert (created : Bool) (token : Option Str) (alert : AlertBlock) (heap : Heap)
    (s : SetState) : SetEnd × SetState :=
  match duerAlertListPush s.alertQueue alert heap with
  -- the alert is not freed
  | (none, heap) => (.notPushed, { s with heap, log := s.log ++ [(token, .SET_ALERT_FAIL)] })
  | (some alertQueue, heap) =>
    if s.alertQueue.isEmpty = false then (.accepted, { s with alertQueue, heap })
    else if created then (.accepted, { s with alertQueue, heap, workers := s.workers + 1 })
    -- the return is in front of the unlocking
    else (.notStarted, { s with alertQueue, heap, queueMutex := true })

/-- `duer_dcs_tone_alert_set_handler`. It does not return if it waits for the mutex. -/
def duerDcsToneAlertSetHandler (created : Bool) (directive : Option Payload) (s : SetState) :
    Option (SetEnd × SetState) :=
  match directive with
  | none => some (.badRequest, s)
  | some payload =>
    match payload.token, payload.scheduledTime, payload.type with
    | some token, some time, some type =>
      match duerCreateAlertData type time token payload s.heap with
      | (none, heap) =>
        some (.notCreated, { s with heap, log := s.log ++ [(token, .SET_ALERT_FAIL)] })
      | (some alert, heap) =>
        if s.queueMutex then none else some (queueAlert created token alert heap s)
    | _, _, _ => some (.badRequest, s)

/-! ## What an alert takes -/

section Took

variable {h h₀ : Heap} {ps : List ℕ}

theorem took_strdup (ht : Heap.Took h₀ h ps) (str : Option Str) :
    Heap.Took h₀ (duerappAlertStrdup str h).2
      ((duerappAlertStrdup str h).1.toList.map StrBlock.addr ++ ps) := by
  cases str with
  | none => exact ht
  | some str =>
    rw [duerappAlertStrdup]
    rcases ht.malloc with ⟨hnone, ht'⟩ | ⟨p, hsome, ht'⟩
    · rw [hnone]
      exact ht'
    · rw [hsome]
      exact ht'

theorem took_setAlertTone (ht : Heap.Took h₀ h ps) (assets : List Asset)
    (playOrder : List (Option Str)) :
    Heap.Took h₀ (duerSetAlertTone assets playOrder h).2
      ((duerSetAlertTone assets playOrder h).1.map StrBlock.addr ++ ps) := by
  induction playOrder generalizing h ps with
  | nil => exact ht
  | cons x playOrder ih =>
    cases x with
    | none => exact ht
    | some assetId =>
      rw [duerSetAlertTone]
      cases duerFindTargetUrl assets assetId with
      | none => exact ht
      | some url =>
        dsimp only
        have hdup := took_strdup ht (some url)
        cases hr : duerappAlertStrdup (some url) h with
        | mk tone h' =>
          rw [hr] at hdup
          cases tone with
          | none => exact hdup
          | some tone => exact (ih hdup).perm List.perm_middle

/-- What is freed is gone. -/
theorem took_free {alert : AlertBlock} (ht : Heap.Took h₀ h alert.blocks) :
    Heap.Took h₀ (duerFreeAlertData alert h) [] :=
  Heap.Took.nil_iff.mpr ht.freeAll

theorem blocks_eq (addr : ℕ) (type time token : Option StrBlock) (tones : List StrBlock)
    (loopCount : UInt8) : ((⟨addr, type, time, token, tones, loopCount⟩ : AlertBlock).blocks :
      Multiset ℕ) = ↑(tones.map StrBlock.addr) + (↑(token.toList.map StrBlock.addr)
        + (↑(time.toList.map StrBlock.addr) + (↑(type.toList.map StrBlock.addr) + {addr}))) := by
  rw [AlertBlock.blocks, List.map_append, List.map_append, List.map_append, ← Multiset.coe_add,
    ← Multiset.coe_add, ← Multiset.coe_add, ← Multiset.coe_add, Multiset.coe_singleton]
  abel

/-- **An alert takes its own blocks, and what is no alert takes none.** -/
theorem took_createAlertData (type time token : Option Str) (payload : Payload) (h : Heap) :
    Heap.Took h (duerCreateAlertData type time token payload h).2
      ((duerCreateAlertData type time token payload h).1.elim [] AlertBlock.blocks) := by
  rw [duerCreateAlertData]
  cases payload.assetPlayOrder with
  | none => exact Heap.took_nil h
  | some playOrder =>
    dsimp only
    have hmalloc := (Heap.took_nil h).malloc
    cases hr : h.malloc with
    | mk r h₁ =>
      rw [hr] at hmalloc
      rcases hmalloc with ⟨hnone, ht⟩ | ⟨addr, hsome, ht⟩
      · cases hnone
        exact ht
      · cases hsome
        dsimp only
        -- each copy adds its block to those of the alert, if there is one
        have htype := took_strdup ht type
        have htime := took_strdup htype time
        have htoken := took_strdup htime token
        generalize duerappAlertStrdup type h₁ = type at *
        generalize duerappAlertStrdup time type.2 = time at *
        generalize duerappAlertStrdup token time.2 = token at *
        have htones (assets : List Asset) (playOrder : List (Option Str)) :=
          took_setAlertTone htoken assets playOrder
        simp only [Heap.Took, ← Multiset.coe_add, Multiset.coe_singleton]
          at htype htime htoken htones
        split
        · exact took_free (htype.trans (by rw [blocks_eq]; simp))
        · split
          · exact took_free (htime.trans (by rw [blocks_eq]; simp))
          · split
            · exact took_free (htoken.trans (by rw [blocks_eq]; simp))
            · cases payload.assets with
              | none => exact took_free (htoken.trans (by rw [blocks_eq]; simp))
              | some assets => exact (htones assets _).trans (by rw [Option.elim, blocks_eq])

end Took

/-! ## What should become of a directive -/

/-- A call of the handler that ends in this way leaves the state `t`. -/
structure SetContract (directive : Option Payload) (s : SetState) (e : SetEnd) (t : SetState) :
    Prop where
  unlocked : t.queueMutex = false
  /-- What fails leaves the queue and the memory as they were, and is reported once. -/
  failed : e.fails = true → t.alertQueue = s.alertQueue ∧ t.heap.live = s.heap.live ∧
    ∃ token, directive.bind Payload.token = some token ∧
      t.log = s.log ++ [(token, .SET_ALERT_FAIL)]
  succeeded : e.fails = false → t.log = s.log
  /-- A later directive is not left lying in the queue. -/
  awake : (s.alertQueue ≠ [] → 0 < s.workers) → t.alertQueue ≠ [] → 0 < t.workers

/-- If an alert can be made of the directive at all, there is memory for a node of the queue, and
a thread where one is needed. -/
def Supplied (created : Bool) (directive : Option Payload) (s : SetState) : Prop :=
  match directive with
  | none => True
  | some payload =>
    match payload.token, payload.scheduledTime, payload.type with
    | some token, some time, some type =>
      match duerCreateAlertData type time token payload s.heap with
      | (none, _) => True
      | (some _, heap) =>
        heap.grants heap.asked = true ∧ (s.alertQueue ≠ [] ∨ created = true)
    | _, _, _ => True

section Contract

variable {created : Bool} {directive : Option Payload} {payload : Payload} {s t : SetState}
  {token time type : Option Str} {heap : Heap} {alert : AlertBlock}

theorem setContract_bad : SetContract directive s .badRequest s ↔ s.queueMutex = false :=
  ⟨fun h ↦ h.unlocked, fun h ↦ ⟨h, nofun, fun _ ↦ rfl, id⟩⟩

/-- No alert has been created, and what it took is free again. -/
theorem setContract_notCreated (htoken : payload.token = some token)
    (hcreate : duerCreateAlertData type time token payload s.heap = (none, heap))
    (hfree : s.queueMutex = false) : SetContract (some payload) s .notCreated
      { s with heap, log := s.log ++ [(token, .SET_ALERT_FAIL)] } where
  unlocked := hfree
  failed _ := by
    have ht := took_createAlertData type time token payload s.heap
    rw [hcreate] at ht
    exact ⟨rfl, Heap.Took.nil_iff.mp ht, token, htoken, rfl⟩
  succeeded := nofun
  awake := id

/-- The alert that cannot be put into the queue is lost. -/
theorem live_of_created (hcreate : duerCreateAlertData type time token payload s.heap
    = (some alert, heap)) : heap.live ≠ s.heap.live := by
  have ht := took_createAlertData type time token payload s.heap
  rw [hcreate, Heap.Took] at ht
  rw [ht]
  intro heq
  have hcard := congrArg Multiset.card heq
  rw [Multiset.card_add, Multiset.coe_card, Option.elim, AlertBlock.blocks, List.length_append,
    List.length_singleton] at hcard
  omega

/-- With the alert created, the handler does what it should exactly if there is a node and, where
one is needed, a thread. -/
theorem setContract_queueAlert (hfree : s.queueMutex = false) (halloc : heap.live ≠ s.heap.live) :
    SetContract directive s (queueAlert created token alert heap s).1
        (queueAlert created token alert heap s).2 ↔
      heap.grants heap.asked = true ∧ (s.alertQueue ≠ [] ∨ created = true) := by
  rw [queueAlert, duerAlertListPush, Heap.malloc]
  by_cases hgrant : heap.grants heap.asked = true
  · rw [if_pos hgrant]
    dsimp only [Option.map_some]
    by_cases hempty : s.alertQueue = []
    · rw [if_neg (by rw [hempty]; decide)]
      cases created with
      | true =>
        refine iff_of_true ?_ ⟨hgrant, .inr rfl⟩
        exact ⟨hfree, fun hfails ↦ absurd hfails Bool.false_ne_true, fun _ ↦ rfl,
          fun _ _ ↦ Nat.succ_pos _⟩
      | false =>
        exact iff_of_false (fun h ↦ Bool.false_ne_true h.unlocked.symm)
          fun h ↦ h.2.elim (· hempty) Bool.false_ne_true
    · rw [if_pos (by rwa [List.isEmpty_eq_false_iff])]
      refine iff_of_true ?_ ⟨hgrant, .inl hempty⟩
      exact ⟨hfree, fun hfails ↦ absurd hfails Bool.false_ne_true, fun _ ↦ rfl,
        fun hawake _ ↦ hawake hempty⟩
  · rw [if_neg hgrant]
    exact iff_of_false (fun h ↦ halloc (h.failed rfl).2.1) fun h ↦ hgrant h.1

/-- **The handler does with a directive what it should exactly if it is supplied.** -/
theorem setContract_iff (created : Bool) (directive : Option Payload) (s : SetState)
    (hfree : s.queueMutex = false) :
    (∃ e t, duerDcsToneAlertSetHandler created directive s = some (e, t) ∧
      SetContract directive s e t) ↔ Supplied created directive s := by
  have hbad : SetContract directive s .badRequest s := setContract_bad.mpr hfree
  cases directive with
  | none => exact iff_of_true ⟨_, _, rfl, hbad⟩ trivial
  | some payload =>
    obtain ⟨token, time, type, playOrder, loopCount, assets⟩ := payload
    cases token with
    | none => exact iff_of_true ⟨_, _, rfl, hbad⟩ trivial
    | some token =>
      cases time with
      | none => exact iff_of_true ⟨_, _, rfl, hbad⟩ trivial
      | some time =>
        cases type with
        | none => exact iff_of_true ⟨_, _, rfl, hbad⟩ trivial
        | some type =>
          rw [duerDcsToneAlertSetHandler, Supplied]
          dsimp only
          cases hcreate : duerCreateAlertData type time token
              ⟨some token, some time, some type, playOrder, loopCount, assets⟩ s.heap with
          | mk alert heap =>
            cases alert with
            | none =>
              exact iff_of_true ⟨_, _, rfl, setContract_notCreated rfl hcreate hfree⟩ trivial
            | some alert =>
              dsimp only
              rw [if_neg (by rw [hfree]; exact Bool.false_ne_true),
                ← setContract_queueAlert hfree (live_of_created hcreate)]
              constructor
              · rintro ⟨e, t, heq, h⟩
                rw [Option.some.inj heq]
                exact h
              · exact fun h ↦ ⟨_, _, rfl, h⟩

end Contract

/-- A directive with one tone. -/
def oneTonePayload : Payload where
  token := some (some [1])
  scheduledTime := some (some [2])
  type := some (some [3])
  assetPlayOrder := some [some [1]]
  loopCount := some 1
  assets := some [⟨some [1], some [1, 1]⟩]

/-- Nothing in the queue, and memory enough. -/
def emptyQueue : SetState := ⟨[], false, ⟨0, 0, fun _ ↦ true⟩, [], 0⟩

theorem setContract_oneTone : ∃ e t, duerDcsToneAlertSetHandler true (some oneTonePayload)
    emptyQueue = some (e, t) ∧ SetContract (some oneTonePayload) emptyQueue e t :=
  (setContract_iff true (some oneTonePayload) emptyQueue rfl).mpr ⟨rfl, .inr rfl⟩

/-- No thread can be created. -/
theorem not_setContract_noThread : ¬∀ (created : Bool) (directive : Option Payload) (s : SetState),
    s.queueMutex = false → ∃ e t, duerDcsToneAlertSetHandler created directive s = some (e, t) ∧
      SetContract directive s e t := by
  intro h
  obtain ⟨e, t, heq, hcontract⟩ := h false (some oneTonePayload) emptyQueue rfl
  cases heq
  exact nomatch hcontract.unlocked

/-! ## With memory enough -/

/-- The contents of an alert. -/
def AlertBlock.contents (alert : AlertBlock) :
    Option Str × Option Str × Option Str × List Str × UInt8 :=
  (alert.type.map StrBlock.str, alert.time.map StrBlock.str, alert.token.map StrBlock.str,
    alert.toneTab.map StrBlock.str, alert.loopCount)

section Granted

variable {h : Heap}

/-- Every request is granted. -/
def Granted (h : Heap) : Prop := ∀ k, h.grants k = true

theorem Granted.malloc (hg : Granted h) : h.malloc.1 = some h.asked ∧ Granted h.malloc.2 := by
  rw [Heap.malloc, if_pos (hg _)]
  exact ⟨rfl, hg⟩

theorem Granted.strdup (hg : Granted h) (str : Str) : ∃ b h', duerappAlertStrdup (some str) h
    = (some b, h') ∧ b.str = str ∧ Granted h' := by
  obtain ⟨hsome, hg'⟩ := hg.malloc
  exact ⟨⟨h.asked, str⟩, h.malloc.2, by rw [duerappAlertStrdup, hsome]; rfl, rfl, hg'⟩

theorem Granted.setAlertTone (hg : Granted h) (assets : List Asset)
    (playOrder : List (Option Str)) :
    (duerSetAlertTone assets playOrder h).1.map StrBlock.str
      = Alert.duerSetAlertTone assets playOrder := by
  induction playOrder generalizing h with
  | nil => rfl
  | cons x playOrder ih =>
    cases x with
    | none => rfl
    | some assetId =>
      rw [duerSetAlertTone, Alert.duerSetAlertTone]
      cases duerFindTargetUrl assets assetId with
      | none => rfl
      | some url =>
        obtain ⟨b, h', hdup, hstr, hg'⟩ := hg.strdup url
        dsimp only
        rw [hdup]
        dsimp only
        rw [List.map_cons, hstr, ih hg']

/-- **With memory enough an alert is the one of the player.** -/
theorem contents_createAlertData (hg : Granted h) (type time token : Option Str)
    (payload : Payload) : (duerCreateAlertData type time token payload h).1.map AlertBlock.contents
      = (Alert.duerCreateAlertData type time token payload).map fun alert ↦
        (some alert.alertInfo.type, some alert.alertInfo.time, some alert.alertInfo.token,
          alert.toneTab, alert.loopCount) := by
  rw [duerCreateAlertData, Alert.duerCreateAlertData]
  cases payload.assetPlayOrder with
  | none => rfl
  | some playOrder =>
    obtain ⟨hsome, hg₁⟩ := hg.malloc
    have hmalloc : h.malloc = (some h.asked, h.malloc.2) := Prod.ext hsome rfl
    dsimp only
    rw [hmalloc]
    dsimp only
    cases type with
    | none => rfl
    | some type =>
      obtain ⟨type', h₂, htype, rfl, hg₂⟩ := hg₁.strdup type
      rw [htype]
      cases time with
      | none => rfl
      | some time =>
        obtain ⟨time', h₃, htime, rfl, hg₃⟩ := hg₂.strdup time
        dsimp only
        rw [htime]
        cases token with
        | none => rfl
        | some token =>
          obtain ⟨token', h₄, htoken, rfl, hg₄⟩ := hg₃.strdup token
          dsimp only
          rw [htoken]
          cases payload.assets with
          | none => rfl
          | some assets =>
            have htones := hg₄.setAlertTone assets (playOrder.take (playOrder.length % 256))
            exact congrArg
              (fun tones ↦ some (some type'.str, some time'.str, some token'.str, tones,
                loopCountOf payload.loopCount)) htones

end Granted

end Ddmz.Alert.Alloc
