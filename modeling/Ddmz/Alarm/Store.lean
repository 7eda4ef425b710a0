import Ddmz.Alarm.Service

/-!
# The alarms as a store

What the alarm service is for, and how far it goes: an `AlarmBook` is a list of alarms with
distinct handles, in which alarms are added, looked up, changed and deleted by their handles. The
list in memory is that of the book, `Refines`, and every call of the service does to it what the
call says, except one: an edit of an alarm that is there never reports success.

`conforms_iff` puts it as a statement about whole runs.
-/

namespace Ddmz.Alarm

/-! ## The book -/

/-- The alarms, the latest first, and the handle of the next one. -/
structure AlarmBook where
  alarms : List EspAlarmInfo
  nextHandle : UInt32

def AlarmBook.init : AlarmBook := ⟨[], 0⟩

/-- A call of the service. -/
inductive AlarmOp
  | add (x : AddCall)
  | edit (alarmInfo : Entry ℕ EspAlarmInfo) (handle : UInt32)
  | delete (handle : UInt32)
  | get (handle : UInt32)
  | register (arg : ℕ) (handle : UInt32) (func : Option ℕ)
  | poll (diff : ℕ → Date → ℤ)

/-- What a call answers. -/
inductive AlarmAnswer (ε : Type)
  | reply (r : AlarmReply ε)
  | polled (calls : List TriggerCall)

/-- What `esp_alarm_add` should do with a call: refuse it, or add an alarm. -/
def AddCall.outcome (x : AddCall) : Except AlarmCode AlarmT :=
  match x.alarmBuf with
  | none => .error .E_ALARM_ARG
  | some buf =>
    if x.handleGiven = false ∨ MAX_FORMAT_LEN < buf.length then .error .E_ALARM_ARG
    else if x.tmYear < 2016 - 1900 then .error .E_ALARM_NOREADY
    else if x.newEntry = none then .error .E_ALARM_NOMEM
    else x.parseAlarm

namespace AlarmBook

variable (b : AlarmBook)

def handles : List UInt32 := b.alarms.map EspAlarmInfo.handle

/-- Change the alarm with a handle. -/
def change (handle : UInt32) (f : EspAlarmInfo → EspAlarmInfo) : AlarmBook :=
  { b with alarms := b.alarms.map fun a ↦ if a.handle = handle then f a else a }

/-- Do something with the alarm with a handle, if there is one. -/
def withHandle (handle : UInt32) (r : AlarmReply EspAlarmInfo × AlarmBook) :
    AlarmAnswer EspAlarmInfo × AlarmBook :=
  if handle ∈ b.handles then (.reply r.1, r.2) else (.reply { code := .E_ALARM_NOTFOUND }, b)

/-- What the calls should do. -/
def call : AlarmOp → AlarmAnswer EspAlarmInfo × AlarmBook
  | .add x =>
    match x.outcome with
    | .error code => (.reply { code }, b)
    | .ok alarmInfo =>
      (.reply { code := .E_ALARM_OK, handle := some b.nextHandle },
        { alarms := newAlarm alarmInfo b.nextHandle :: b.alarms
          nextHandle := b.nextHandle + 1 })
  | .edit alarmInfo handle =>
    -- the handle stays the one that `esp_alarm_add` has given out
    b.withHandle handle ({ code := .E_ALARM_OK },
      b.change handle fun _ ↦ { alarmInfo.val with handle })
  | .delete handle =>
    b.withHandle handle ({ code := .E_ALARM_OK },
      { b with alarms := b.alarms.eraseP fun a ↦ handle == a.handle })
  | .get handle =>
    b.withHandle handle
      ({ code := .E_ALARM_OK, info := b.alarms.find? fun a ↦ handle == a.handle }, b)
  | .register arg handle func =>
    b.withHandle handle ({ code := .E_ALARM_OK },
      b.change handle fun a ↦ { a with triggerArg := arg, triggerFunc := func })
  | .poll diff =>
    let r := ListMem.mapState (pollAlarm diff) (0, []) b.alarms
    (.polled r.1.2, { b with alarms := r.2 })

end AlarmBook

/-! ## The contract -/

/-- The service does a call. -/
def AlarmStore.call (n : ℕ) (c : AlarmStore) :
    AlarmOp → Option (AlarmAnswer (Entry ℕ EspAlarmInfo) × AlarmStore)
  | .add x => some (.reply (espAlarmAdd x c).1, (espAlarmAdd x c).2)
  | .edit alarmInfo handle => (espAlarmEdit n handle c alarmInfo).map fun r ↦ (.reply r.1, r.2)
  | .delete handle => (espAlarmDelete n handle c).map fun r ↦ (.reply r.1, r.2)
  | .get handle => (espGetAlarmInfo n handle c true).map fun r ↦ (.reply r.1, r.2)
  | .register arg handle func =>
    (espAlarmRegisterTriggerFunc n handle c arg func).map fun r ↦ (.reply r.1, r.2)
  | .poll diff => (pollTimerCallback n c diff).map fun r ↦ (.polled r.1, r.2)

/-- A call returns, whatever the length of the list. -/
def AlarmStore.Returns (c : AlarmStore) (op : AlarmOp)
    (r : AlarmAnswer (Entry ℕ EspAlarmInfo) × AlarmStore) : Prop :=
  ∃ n, c.call n op = some r

/-- An answer without the links that `esp_get_alarm_info` copies. -/
def AlarmAnswer.withoutLinks : AlarmAnswer (Entry ℕ EspAlarmInfo) → AlarmAnswer EspAlarmInfo
  | .reply r => .reply { code := r.code, handle := r.handle, info := r.info.map Entry.val }
  | .polled calls => .polled calls

/-- The list in memory is that of the book. -/
structure Refines (c : AlarmStore) (b : AlarmBook) : Prop where
  list : ∃ l, c.list.Holds l ∧ l.map Prod.snd = b.alarms
  lastHandle : c.lastHandle = b.nextHandle

/-- **A run conforms to the book**: at any time the list is well formed, its entries are the alarms
of the book, and their handles are distinct; and every call returns what it should. -/
def Conforms : AlarmStore → AlarmBook → List AlarmOp → Prop
  | c, b, [] => Refines c b ∧ b.handles.Nodup
  | c, b, op :: ops => Refines c b ∧ b.handles.Nodup ∧
      ∃ r c', c.Returns op (r, c') ∧ r.withoutLinks = (b.call op).1 ∧
        Conforms c' (b.call op).2 ops

/-- `calloc` succeeds, and returns memory that is not in use. -/
def AllocatesFresh : AlarmStore → List AlarmOp → Prop
  | _, [] => True
  | c, op :: ops => (∀ x, op = .add x → ∃ p, x.newEntry = some p ∧ c.list.entries p = none) ∧
      ∀ r c', c.Returns op (r, c') → AllocatesFresh c' ops

/-- No edit is called for an alarm that is there at that time. -/
def EditsAbsent : AlarmBook → List AlarmOp → Prop
  | _, [] => True
  | b, op :: ops => (∀ alarmInfo handle, op = .edit alarmInfo handle → handle ∉ b.handles) ∧
      EditsAbsent (b.call op).2 ops

/-! ## One call -/

section Calls

variable {c : AlarmStore} {b : AlarmBook} {l : List (ℕ × EspAlarmInfo)} {handle : UInt32}

/-- The loops find the alarm with a handle exactly if there is one. -/
theorem findHandle_cases (hl : c.list.Holds l) (hb : l.map Prod.snd = b.alarms) (handle : UInt32) :
    (handle ∉ b.handles ∧ findHandle (l.length + 1) handle c = some none) ∨
      ∃ l₁ p a l₂, l = l₁ ++ (p, a) :: l₂ ∧ a.handle = handle ∧
        (∀ x ∈ l₁, x.2.handle ≠ handle) ∧ handle ∈ b.handles ∧
        findHandle (l.length + 1) handle c = some (some p) := by
  have hfind : findHandle (l.length + 1) handle c
      = some ((l.find? fun x ↦ handle == x.2.handle).map Prod.fst) :=
    ListMem.find_eq hl.chain (Nat.lt_succ_self _)
  have hhandles : b.handles = l.map fun x ↦ x.2.handle := by
    rw [AlarmBook.handles, ← hb, List.map_map]
    rfl
  cases hx : l.find? fun x ↦ handle == x.2.handle with
  | none =>
    refine Or.inl ⟨fun hmem ↦ ?_, by rw [hfind, hx]; rfl⟩
    rw [hhandles] at hmem
    obtain ⟨x, hxl, heq⟩ := List.mem_map.mp hmem
    exact List.find?_eq_none.mp hx x hxl (beq_iff_eq.mpr heq.symm)
  | some x =>
    obtain ⟨hhandle, l₁, l₂, rfl, hbefore⟩ := List.find?_eq_some_iff_append.mp hx
    have heq : x.2.handle = handle := (beq_iff_eq.mp hhandle).symm
    refine Or.inr ⟨l₁, x.1, x.2, l₂, rfl, heq, fun y hy hne ↦ ?_, ?_, by rw [hfind, hx]; rfl⟩
    · have := hbefore y hy
      rw [hne, beq_self_eq_true] at this
      cases this
    · rw [hhandles, ← heq]
      exact List.mem_map_of_mem (List.mem_append_right _ List.mem_cons_self)

theorem forall_handle_bne {l₁ : List (ℕ × EspAlarmInfo)} (h : ∀ x ∈ l₁, x.2.handle ≠ handle) :
    ∀ a ∈ l₁.map Prod.snd, ¬(handle == a.handle) = true := by
  intro a ha heq
  obtain ⟨x, hx, rfl⟩ := List.mem_map.mp ha
  exact h x hx (beq_iff_eq.mp heq).symm

/-- The call returns what it should, and does to the list what it should. -/
def Does (c : AlarmStore) (b : AlarmBook) (op : AlarmOp) : Prop :=
  ∃ r c', c.Returns op (r, c') ∧ r.withoutLinks = (b.call op).1 ∧ Refines c' (b.call op).2

theorem Does.intro {op : AlarmOp} {n : ℕ} {r : AlarmAnswer (Entry ℕ EspAlarmInfo)}
    {t : AlarmStore} {u : AlarmBook} (hcall : c.call n op = some (r, t))
    (hbook : b.call op = (r.withoutLinks, u)) (h : Refines t u) : Does c b op :=
  ⟨r, t, ⟨n, hcall⟩, by rw [hbook], by rwa [hbook]⟩

theorem findHandle_unique {n n' : ℕ} {it it' : Option ℕ} (h : findHandle n handle c = some it)
    (h' : findHandle n' handle c = some it') : it = it' := ListMem.find_unique h h'

theorem findHandle_bounds (n n' : ℕ) (handle : UInt32) (c : AlarmStore) :
    findHandle n handle c = none ∨ findHandle n' handle c = none ∨
      findHandle n handle c = findHandle n' handle c := by
  cases h : findHandle n handle c with
  | none => exact Or.inl rfl
  | some it =>
    cases h' : findHandle n' handle c with
    | none => exact Or.inr (Or.inl rfl)
    | some it' => exact Or.inr (Or.inr (congrArg some (findHandle_unique h h')))

/-- A call returns one thing only. -/
theorem AlarmStore.call_unique {op : AlarmOp} {n n' : ℕ}
    {r r' : AlarmAnswer (Entry ℕ EspAlarmInfo) × AlarmStore} (h : c.call n op = some r)
    (h' : c.call n' op = some r') : r = r' := by
  cases op with
  | add x => exact Option.some.inj (h.symm.trans h')
  | edit alarmInfo handle =>
    obtain ⟨r, hedit, rfl⟩ := Option.map_eq_some_iff.mp h
    obtain ⟨r', hedit', rfl⟩ := Option.map_eq_some_iff.mp h'
    obtain ⟨out, hrun, rfl⟩ := Option.map_eq_some_iff.mp hedit
    obtain ⟨out', hrun', rfl⟩ := Option.map_eq_some_iff.mp hedit'
    rw [ListMem.traverse_unique hrun hrun']
  | delete handle =>
    rw [call, espAlarmDelete] at h h'
    rcases findHandle_bounds n n' handle c with hn | hn | heq
    · rw [hn] at h
      cases h
    · rw [hn] at h'
      cases h'
    · rw [heq] at h
      exact Option.some.inj (h.symm.trans h')
  | get handle =>
    rw [call, espGetAlarmInfo, if_neg nofun] at h h'
    rcases findHandle_bounds n n' handle c with hn | hn | heq
    · rw [hn] at h
      cases h
    · rw [hn] at h'
      cases h'
    · rw [heq] at h
      exact Option.some.inj (h.symm.trans h')
  | register arg handle func =>
    rw [call, espAlarmRegisterTriggerFunc] at h h'
    rcases findHandle_bounds n n' handle c with hn | hn | heq
    · rw [hn] at h
      cases h
    · rw [hn] at h'
      cases h'
    · rw [heq] at h
      exact Option.some.inj (h.symm.trans h')
  | poll diff =>
    obtain ⟨r, hpoll, rfl⟩ := Option.map_eq_some_iff.mp h
    obtain ⟨r', hpoll', rfl⟩ := Option.map_eq_some_iff.mp h'
    obtain ⟨out, hrun, rfl⟩ := Option.map_eq_some_iff.mp hpoll
    obtain ⟨out', hrun', rfl⟩ := Option.map_eq_some_iff.mp hpoll'
    rw [ListMem.traverse_unique hrun hrun']

/-- What a call that does what it should does, whatever the bound on its loop. -/
theorem Does.of_call {op : AlarmOp} (h : Does c b op) {n : ℕ}
    {r : AlarmAnswer (Entry ℕ EspAlarmInfo)} {t : AlarmStore} (hcall : c.call n op = some (r, t)) :
    r.withoutLinks = (b.call op).1 ∧ Refines t (b.call op).2 := by
  obtain ⟨r', t', ⟨n', hcall'⟩, hanswer, hrefines⟩ := h
  obtain ⟨rfl, rfl⟩ := Prod.mk.inj (AlarmStore.call_unique hcall hcall')
  exact ⟨hanswer, hrefines⟩

theorem withHandle_absent (h : handle ∉ b.handles) (r : AlarmReply EspAlarmInfo × AlarmBook) :
    b.withHandle handle r = (.reply { code := .E_ALARM_NOTFOUND }, b) := if_neg h

theorem withHandle_present (h : handle ∈ b.handles) (r : AlarmReply EspAlarmInfo × AlarmBook) :
    b.withHandle handle r = (.reply r.1, r.2) := if_pos h

/-- `esp_alarm_add` does with a call what its outcome says. -/
theorem espAlarmAdd_eq (c : AlarmStore) {x : AddCall} {p : ℕ} (hp : x.newEntry = some p) :
    match x.outcome with
    | .error code => (espAlarmAdd x c).1 = { code } ∧ ((espAlarmAdd x c).2 = c ∨
        (espAlarmAdd x c).2 = { c with list := c.list.put p ⟨.zero, none, none⟩ })
    | .ok alarmInfo =>
      espAlarmAdd x c = ({ code := .E_ALARM_OK, handle := some c.lastHandle },
        { list := (c.list.put p ⟨newAlarm alarmInfo c.lastHandle, none, none⟩).insertHead p
          lastHandle := c.lastHandle + 1
          pollTimer := true }) := by
  rw [AddCall.outcome, espAlarmAdd, hp]
  cases x.alarmBuf with
  | none => exact ⟨rfl, Or.inl rfl⟩
  | some buf =>
    dsimp only
    by_cases hgiven : x.handleGiven = false
    · rw [if_pos hgiven, if_pos (Or.inl hgiven)]
      exact ⟨rfl, Or.inl rfl⟩
    · by_cases hlong : MAX_FORMAT_LEN < buf.length
      · rw [if_neg hgiven, if_pos hlong, if_pos (Or.inr hlong)]
        exact ⟨rfl, Or.inl rfl⟩
      · rw [if_neg hgiven, if_neg hlong, if_neg (not_or.mpr ⟨hgiven, hlong⟩)]
        by_cases hyear : x.tmYear < 2016 - 1900
        · rw [if_pos hyear, if_pos hyear]
          exact ⟨rfl, Or.inl rfl⟩
        · rw [if_neg hyear, if_neg hyear, if_neg nofun]
          cases x.parseAlarm with
          | error code => exact ⟨rfl, Or.inr rfl⟩
          | ok alarmInfo => rfl

theorem espAlarmAdd_newEntry_none {x : AddCall} (h : x.newEntry = none) :
    (espAlarmAdd x c).1.handle = none ∧ (espAlarmAdd x c).2 = c := by
  rw [espAlarmAdd, h]
  split
  · exact ⟨rfl, rfl⟩
  · split_ifs <;> exact ⟨rfl, rfl⟩

theorem parseAlarm_of_outcome {x : AddCall} {alarmInfo : AlarmT} (h : x.outcome = .ok alarmInfo) :
    x.parseAlarm = .ok alarmInfo := by
  unfold AddCall.outcome at h
  split at h
  · cases h
  · split_ifs at h
    exact h

/-- A new entry is at the head of the list. -/
theorem holds_added (hl : c.list.Holds l) {x : AddCall} {p : ℕ} {alarmInfo : AlarmT}
    (hfresh : c.list.entries p = none) (hp : x.newEntry = some p)
    (hout : x.outcome = .ok alarmInfo) :
    (espAlarmAdd x c).2.list.Holds ((p, newAlarm alarmInfo c.lastHandle) :: l) := by
  have hp' : p ∉ l.map Prod.fst := by
    intro hmem
    obtain ⟨y, hy, heq⟩ := List.mem_map.mp hmem
    obtain ⟨n, t, hentry⟩ := hl.chain.entry_of_mem hy
    rw [heq, hfresh] at hentry
    cases hentry
  have hadd := espAlarmAdd_eq c hp
  rw [hout] at hadd
  rw [hadd]
  exact (hl.put hfresh _).insertHead (ListMem.entries_put_self _) hp'

theorem does_add (h : Refines c b) {x : AddCall} {p : ℕ} (hp : x.newEntry = some p)
    (hfresh : c.list.entries p = none) : Does c b (.add x) := by
  obtain ⟨l, hl, hb⟩ := h.list
  have hadd := espAlarmAdd_eq c hp
  cases hout : x.outcome with
  | error code =>
    rw [hout] at hadd
    obtain ⟨hcode, hsame⟩ := hadd
    have hbook : b.call (.add x) = (.reply { code }, b) := by rw [AlarmBook.call, hout]
    refine .intro (n := 0) rfl (hbook.trans ?_) (u := b) ?_
    · rw [hcode]
      rfl
    · rcases hsame with heq | heq
      · rw [heq]
        exact h
      · rw [heq]
        exact ⟨⟨l, hl.put hfresh _, hb⟩, h.lastHandle⟩
  | ok alarmInfo =>
    rw [hout] at hadd
    dsimp only at hadd
    rw [h.lastHandle] at hadd
    have hbook : b.call (.add x) = (.reply { code := .E_ALARM_OK, handle := some b.nextHandle },
        ⟨newAlarm alarmInfo b.nextHandle :: b.alarms, b.nextHandle + 1⟩) := by
      rw [AlarmBook.call, hout]
    refine .intro (n := 0) rfl (hbook.trans ?_)
      (u := ⟨newAlarm alarmInfo b.nextHandle :: b.alarms, b.nextHandle + 1⟩) ⟨?_, ?_⟩
    · rw [hadd]
      rfl
    · refine ⟨_, holds_added hl hfresh hp hout, ?_⟩
      rw [List.map_cons, hb, h.lastHandle]
    · rw [hadd]

theorem does_delete (h : Refines c b) (handle : UInt32) : Does c b (.delete handle) := by
  obtain ⟨l, hl, hb⟩ := h.list
  rcases findHandle_cases hl hb handle with ⟨habsent, hfind⟩ |
    ⟨l₁, p, a, l₂, rfl, ha, hbefore, hmem, hfind⟩
  · refine .intro (n := l.length + 1) (r := .reply { code := .E_ALARM_NOTFOUND }) ?_
      (withHandle_absent habsent _) h
    rw [AlarmStore.call, espAlarmDelete, hfind]
    rfl
  · obtain ⟨m', hremove, hholds⟩ := hl.remove
    refine .intro (n := (l₁ ++ (p, a) :: l₂).length + 1) (r := .reply { code := .E_ALARM_OK })
      (t := { c with list := m'.free p }) ?_ (withHandle_present hmem _)
      ⟨⟨l₁ ++ l₂, hholds, ?_⟩, h.lastHandle⟩
    · rw [AlarmStore.call, espAlarmDelete, hfind]
      dsimp only
      rw [hremove]
      rfl
    · have hkept := forall_handle_bne hbefore
      rw [← hb, List.map_append, List.map_append, List.map_cons,
        List.eraseP_append_right _ hkept,
        List.eraseP_cons_of_pos (p := fun b : EspAlarmInfo ↦ handle == b.handle)
          (beq_iff_eq.mpr ha.symm)]

theorem does_get (h : Refines c b) (handle : UInt32) : Does c b (.get handle) := by
  obtain ⟨l, hl, hb⟩ := h.list
  rcases findHandle_cases hl hb handle with ⟨habsent, hfind⟩ |
    ⟨l₁, p, a, l₂, rfl, ha, hbefore, hmem, hfind⟩
  · refine .intro (n := l.length + 1) (r := .reply { code := .E_ALARM_NOTFOUND }) ?_
      (withHandle_absent habsent _) h
    rw [AlarmStore.call, espGetAlarmInfo, if_neg nofun, hfind]
    rfl
  · obtain ⟨next, prev, hentry⟩ :=
      hl.chain.entry_of_mem (List.mem_append_right l₁ (List.mem_cons_self (a := (p, a))))
    refine .intro (n := (l₁ ++ (p, a) :: l₂).length + 1) (t := c)
      (r := .reply { code := .E_ALARM_OK, info := some ⟨a, next, prev⟩ }) ?_ ?_ h
    · rw [AlarmStore.call, espGetAlarmInfo, if_neg nofun, hfind]
      dsimp only
      rw [hentry]
      rfl
    · have hkept := forall_handle_bne hbefore
      have hinfo : (b.alarms.find? fun y ↦ handle == y.handle) = some a := by
        rw [← hb, List.map_append, List.map_cons]
        exact List.find?_eq_some_iff_append.mpr ⟨beq_iff_eq.mpr ha.symm, _, _, rfl, fun y hy ↦ by
          rw [Bool.not_eq_true']
          exact Bool.eq_false_iff.mpr (hkept y hy)⟩
      rw [AlarmBook.call, hinfo]
      exact withHandle_present hmem _

theorem does_register (h : Refines c b) (hnodup : b.handles.Nodup) (arg : ℕ) (handle : UInt32)
    (func : Option ℕ) : Does c b (.register arg handle func) := by
  obtain ⟨l, hl, hb⟩ := h.list
  rcases findHandle_cases hl hb handle with ⟨habsent, hfind⟩ |
    ⟨l₁, p, a, l₂, rfl, ha, hbefore, hmem, hfind⟩
  · refine .intro (n := l.length + 1) (r := .reply { code := .E_ALARM_NOTFOUND }) ?_
      (withHandle_absent habsent _) h
    rw [AlarmStore.call, espAlarmRegisterTriggerFunc, hfind]
    rfl
  · have hsame : ∀ x ∈ l₁ ++ (p, a) :: l₂, x.1 = p ↔ x.2.handle = handle := by
      intro x hx
      have hpa : (p, a) ∈ l₁ ++ (p, a) :: l₂ := List.mem_append_right _ List.mem_cons_self
      rw [AlarmBook.handles, ← hb, List.map_map] at hnodup
      constructor
      · intro heq
        rw [List.inj_on_of_nodup_map hl.nodup hx hpa heq, ha]
      · intro heq
        rw [List.inj_on_of_nodup_map hnodup hx hpa (heq.trans ha.symm)]
    refine .intro (n := (l₁ ++ (p, a) :: l₂).length + 1) (r := .reply { code := .E_ALARM_OK })
      (t := { c with
        list := c.list.setVal p fun a ↦ { a with triggerArg := arg, triggerFunc := func } })
      ?_ (withHandle_present hmem _) ⟨⟨_, hl.setVal p fun a ↦ { a with
        triggerArg := arg, triggerFunc := func }, ?_⟩, h.lastHandle⟩
    · rw [AlarmStore.call, espAlarmRegisterTriggerFunc, hfind]
      rfl
    · rw [AlarmBook.change, ← hb, List.map_map, List.map_map]
      refine List.map_congr_left fun x hx ↦ ?_
      simp only [Function.comp_apply, hsame x hx]

/-- An edit of an alarm that is not there leaves everything as it is. -/
theorem does_edit_absent (h : Refines c b) (alarmInfo : Entry ℕ EspAlarmInfo)
    (habsent : handle ∉ b.handles) : Does c b (.edit alarmInfo handle) := by
  obtain ⟨l, hl, hb⟩ := h.list
  have hkeep : ∀ x ∈ l, handle ≠ x.2.handle := by
    intro x hx heq
    refine habsent ?_
    rw [AlarmBook.handles, ← hb, List.map_map, heq]
    exact List.mem_map_of_mem (f := fun x : ℕ × EspAlarmInfo ↦ x.2.handle) hx
  obtain ⟨m', l', hrun, hholds, -, hsnd⟩ := hl.traverse
    (f := fun (_ : Unit) it ↦ ((), if handle = it.val.handle then alarmInfo else it))
    (g := fun u a ↦ (u, a)) (fun x hx _ _ _ _ ↦ Prod.ext rfl (if_neg (hkeep x hx)))
    (Nat.lt_succ_self _) ()
  refine .intro (n := l.length + 1) (r := .reply { code := .E_ALARM_NOTFOUND })
    (t := { c with list := m' }) ?_ (withHandle_absent habsent _)
    ⟨⟨l', hholds, ?_⟩, h.lastHandle⟩
  · rw [AlarmStore.call, espAlarmEdit, hrun]
    rfl
  · rw [hsnd, ListMem.mapState_id, hb]

/-- An edit that leaves the links of an alarm as they are only changes what the entry holds. -/
theorem espAlarmEdit_holds (h : Refines c b) (hnodup : b.handles.Nodup)
    {alarmInfo : Entry ℕ EspAlarmInfo}
    (hlinks : ∀ n p e, findHandle n handle c = some (some p) → c.list.entries p = some e →
      alarmInfo.leNext = e.leNext ∧ alarmInfo.lePrev = e.lePrev)
    {n : ℕ} {r : AlarmReply (Entry ℕ EspAlarmInfo) × AlarmStore}
    (hedit : espAlarmEdit n handle c alarmInfo = some r) :
    Refines r.2 (b.change handle fun _ ↦ alarmInfo.val) := by
  obtain ⟨l, hl, hb⟩ := h.list
  have hsame : ∀ x ∈ l, ∀ n t, c.list.entries x.1 = some ⟨x.2, n, t⟩ → handle = x.2.handle →
      alarmInfo = ⟨alarmInfo.val, n, t⟩ := by
    intro x hx n t hentry hhandle
    rcases findHandle_cases hl hb handle with ⟨habsent, -⟩ | ⟨l₁, p, a, l₂, rfl, ha, -, -, hfind⟩
    · refine absurd ?_ habsent
      rw [AlarmBook.handles, ← hb, List.map_map, hhandle]
      exact List.mem_map_of_mem (f := fun x : ℕ × EspAlarmInfo ↦ x.2.handle) hx
    · rw [AlarmBook.handles, ← hb, List.map_map] at hnodup
      have hpa : (p, a) ∈ l₁ ++ (p, a) :: l₂ := List.mem_append_right _ List.mem_cons_self
      obtain rfl := List.inj_on_of_nodup_map hnodup hx hpa (hhandle.symm.trans ha.symm)
      obtain ⟨rfl, rfl⟩ : alarmInfo.leNext = n ∧ alarmInfo.lePrev = t := hlinks _ _ _ hfind hentry
      rfl
  obtain ⟨m', l', hrun, hholds, -, hsnd⟩ := hl.traverse
    (f := fun (_ : Unit) it ↦ ((), if handle = it.val.handle then alarmInfo else it))
    (g := fun u a ↦ (u, if a.handle = handle then alarmInfo.val else a))
    (fun x hx _ n t hentry ↦ by
      by_cases hhandle : handle = x.2.handle
      · rw [if_pos hhandle, if_pos hhandle.symm, ← hsame x hx n t hentry hhandle]
      · rw [if_neg hhandle, if_neg fun heq ↦ hhandle heq.symm])
    (Nat.lt_succ_self _) ()
  obtain ⟨r', hrun', rfl⟩ := Option.map_eq_some_iff.mp hedit
  obtain rfl := ListMem.traverse_unique hrun hrun'
  refine ⟨⟨l', hholds, ?_⟩, h.lastHandle⟩
  rw [hsnd, ListMem.mapState_map, hb]
  rfl

/-- What a poll does, whatever the bound on its loop. -/
theorem pollTimerCallback_holds (hl : c.list.Holds l) (diff : ℕ → Date → ℤ) :
    ∃ r, pollTimerCallback (l.length + 1) c diff = some r ∧
      (∀ n r', pollTimerCallback n c diff = some r' → r' = r) ∧
      r.1 = (ListMem.mapState (pollAlarm diff) (0, []) (l.map Prod.snd)).1.2 ∧
      r.2.lastHandle = c.lastHandle ∧
      ∃ l', r.2.list.Holds l' ∧ l'.map Prod.fst = l.map Prod.fst ∧
        l'.map Prod.snd = (ListMem.mapState (pollAlarm diff) (0, []) (l.map Prod.snd)).2 := by
  obtain ⟨m', l', hrun, hholds, hfst, hsnd⟩ := hl.traverse
    (f := fun b it ↦ ((pollAlarm diff b it.val).1, { it with val := (pollAlarm diff b it.val).2 }))
    (g := pollAlarm diff) (fun _ _ _ _ _ _ ↦ rfl) (Nat.lt_succ_self _) (0, [])
  refine ⟨(_, { c with list := m' }), ?_, fun n r' hr' ↦ ?_, rfl, rfl, l', hholds, hfst, hsnd⟩
  · rw [pollTimerCallback, hrun]
    rfl
  · obtain ⟨r, hr, rfl⟩ := Option.map_eq_some_iff.mp hr'
    rw [ListMem.traverse_unique hr hrun]

theorem does_poll (h : Refines c b) (diff : ℕ → Date → ℤ) : Does c b (.poll diff) := by
  obtain ⟨l, hl, hb⟩ := h.list
  obtain ⟨r, hpoll, -, hcalls, hlast, l', hholds, -, hsnd⟩ := pollTimerCallback_holds hl diff
  rw [hb] at hcalls hsnd
  refine .intro (n := l.length + 1) (r := .polled r.1) (t := r.2)
    (u := (b.call (.poll diff)).2) ?_ ?_ ⟨⟨l', hholds, hsnd⟩, hlast.trans h.lastHandle⟩
  · rw [AlarmStore.call, hpoll]
    rfl
  · rw [hcalls]
    rfl

/-- An edit of an alarm that is there does not return what it should: whatever it does, it reports
that the alarm is not there. -/
theorem not_does_edit_present (alarmInfo : Entry ℕ EspAlarmInfo) (hmem : handle ∈ b.handles)
    {r : AlarmAnswer (Entry ℕ EspAlarmInfo)} {c' : AlarmStore}
    (h : c.Returns (.edit alarmInfo handle) (r, c')) :
    r.withoutLinks ≠ (b.call (.edit alarmInfo handle)).1 := by
  obtain ⟨n, hcall⟩ := h
  obtain ⟨r', hedit, heq⟩ := Option.map_eq_some_iff.mp hcall
  obtain ⟨out, -, hout⟩ := Option.map_eq_some_iff.mp hedit
  obtain ⟨rfl, -⟩ := Prod.mk.inj heq
  rw [AlarmBook.call, withHandle_present hmem, ← hout]
  nofun

/-- Every call but an edit of an alarm that is there does what it should. -/
theorem does_call (h : Refines c b) (hnodup : b.handles.Nodup) {op : AlarmOp}
    (halloc : ∀ x, op = .add x → ∃ p, x.newEntry = some p ∧ c.list.entries p = none)
    (habsent : ∀ alarmInfo handle, op = .edit alarmInfo handle → handle ∉ b.handles) :
    Does c b op := by
  cases op with
  | add x =>
    obtain ⟨p, hp, hfresh⟩ := halloc x rfl
    exact does_add h hp hfresh
  | edit alarmInfo handle => exact does_edit_absent h alarmInfo (habsent _ _ rfl)
  | delete handle => exact does_delete h handle
  | get handle => exact does_get h handle
  | register arg handle func => exact does_register h hnodup arg handle func
  | poll diff => exact does_poll h diff

end Calls

/-! ## The handles of the book -/

/-- A call that adds an alarm, or tries to. -/
def AlarmOp.isAdd : AlarmOp → Bool
  | .add _ => true
  | _ => false

/-- After `k` calls of `esp_alarm_add`, the handles are different numbers below that of the next
one, which is at most `k`. -/
structure Numbered (k : ℕ) (b : AlarmBook) : Prop where
  next : b.nextHandle.toNat ≤ k
  lt : ∀ h ∈ b.handles, h < b.nextHandle
  nodup : b.handles.Nodup

variable {k : ℕ} {b : AlarmBook}

theorem numbered_init : Numbered 0 .init := ⟨le_rfl, nofun, List.nodup_nil⟩

/-- The handles are among those of before, and none of them is new. -/
theorem Numbered.sublist (h : Numbered k b) {b' : AlarmBook} (hnext : b'.nextHandle = b.nextHandle)
    (hsub : b'.handles.Sublist b.handles) : Numbered k b' where
  next := hnext ▸ h.next
  lt x hx := hnext ▸ h.lt x (hsub.subset hx)
  nodup := h.nodup.sublist hsub

theorem Numbered.congr (h : Numbered k b) {b' : AlarmBook} (hnext : b'.nextHandle = b.nextHandle)
    (hsame : b'.handles = b.handles) : Numbered k b' :=
  h.sublist hnext (by rw [hsame])

theorem handles_change (b : AlarmBook) (handle : UInt32) {f : EspAlarmInfo → EspAlarmInfo}
    (hf : ∀ a, a.handle = handle → (f a).handle = handle) :
    (b.change handle f).handles = b.handles := by
  rw [AlarmBook.handles, AlarmBook.change, List.map_map, AlarmBook.handles]
  refine List.map_congr_left fun a _ ↦ ?_
  by_cases ha : a.handle = handle
  · rw [Function.comp_apply, if_pos ha, hf a ha, ha]
  · rw [Function.comp_apply, if_neg ha]

theorem handles_mapState {β : Type} {g : β → EspAlarmInfo → β × EspAlarmInfo}
    (hg : ∀ s a, (g s a).2.handle = a.handle) (s : β) (alarms : List EspAlarmInfo) :
    (ListMem.mapState g s alarms).2.map EspAlarmInfo.handle
      = alarms.map EspAlarmInfo.handle := by
  induction alarms generalizing s with
  | nil => rfl
  | cons a alarms ih => rw [ListMem.mapState, List.map_cons, List.map_cons, hg, ih]

theorem handle_alarmTrigger (diff : ℕ → Date → ℤ) (k : ℕ) (a : EspAlarmInfo) :
    (alarmTrigger diff k a).2.2.handle = a.handle := by
  rw [alarmTrigger]
  split_ifs <;> rfl

theorem handle_pollAlarm (diff : ℕ → Date → ℤ) (s : ℕ × List TriggerCall) (a : EspAlarmInfo) :
    (pollAlarm diff s a).2.handle = a.handle := by
  have htrigger := handle_alarmTrigger diff s.1 a
  rw [pollAlarm]
  split
  · split <;> exact htrigger
  · split <;> exact htrigger
  · exact htrigger

theorem Numbered.call (h : Numbered k b) (op : AlarmOp)
    (hk : k + (if op.isAdd then 1 else 0) < 2 ^ 32) :
    Numbered (k + if op.isAdd then 1 else 0) (b.call op).2 := by
  have hwith {handle : UInt32} {r : AlarmReply EspAlarmInfo × AlarmBook} (hr : Numbered k r.2) :
      Numbered k (b.withHandle handle r).2 := by
    rw [AlarmBook.withHandle]
    split
    · exact hr
    · exact h
  cases op with
  | add x =>
    rw [AlarmBook.call]
    cases x.outcome with
    | error code => exact ⟨h.next.trans (Nat.le_succ k), h.lt, h.nodup⟩
    | ok alarmInfo =>
      have hnext : (b.nextHandle + 1).toNat = b.nextHandle.toNat + 1 := by
        rw [UInt32.toNat_add]
        exact Nat.mod_eq_of_lt (Nat.lt_of_le_of_lt (Nat.succ_le_succ h.next) hk)
      have hlt : b.nextHandle < b.nextHandle + 1 := by
        rw [UInt32.lt_iff_toNat_lt, hnext]
        exact Nat.lt_succ_self _
      refine ⟨hnext ▸ Nat.succ_le_succ h.next, fun y hy ↦ ?_, List.nodup_cons.mpr ⟨fun hmem ↦ ?_,
        h.nodup⟩⟩
      · rcases List.mem_cons.mp hy with rfl | hy
        · exact hlt
        · exact UInt32.lt_trans (h.lt y hy) hlt
      · exact UInt32.lt_irrefl _ (h.lt _ hmem)
  | edit alarmInfo handle =>
    have hsame := handles_change b handle (f := fun _ ↦ { alarmInfo.val with handle })
      fun _ _ ↦ rfl
    exact hwith (h.congr rfl hsame)
  | delete handle => exact hwith (h.sublist rfl (List.eraseP_sublist.map _))
  | get handle => exact hwith h
  | register arg handle func =>
    have hsame := handles_change b handle
      (f := fun a ↦ { a with triggerArg := arg, triggerFunc := func }) fun _ ha ↦ ha
    exact hwith (h.congr rfl hsame)
  | poll diff =>
    exact h.congr rfl (handles_mapState (handle_pollAlarm diff) _ _)

/-! ## Whole runs -/

theorem conforms_of_editsAbsent {c : AlarmStore} {ops : List AlarmOp} (h : Refines c b)
    (hnumbered : Numbered k b) (hk : k + ops.countP AlarmOp.isAdd < 2 ^ 32)
    (halloc : AllocatesFresh c ops) (habsent : EditsAbsent b ops) : Conforms c b ops := by
  induction ops generalizing c b k with
  | nil => exact ⟨h, hnumbered.nodup⟩
  | cons op ops ih =>
    obtain ⟨r, c', hreturns, hanswer, hrefines⟩ :=
      does_call h hnumbered.nodup halloc.1 habsent.1
    refine ⟨h, hnumbered.nodup, r, c', hreturns, hanswer, ?_⟩
    rw [List.countP_cons, Nat.add_comm (ops.countP _), ← Nat.add_assoc] at hk
    exact ih hrefines (hnumbered.call op (Nat.lt_of_le_of_lt (Nat.le_add_right _ _) hk)) hk
      (halloc.2 r c' hreturns) habsent.2

theorem editsAbsent_of_conforms {c : AlarmStore} {ops : List AlarmOp} (h : Conforms c b ops) :
    EditsAbsent b ops := by
  induction ops generalizing c b with
  | nil => trivial
  | cons op ops ih =>
    obtain ⟨-, -, r, c', hreturns, hanswer, hrest⟩ := h
    refine ⟨?_, ih hrest⟩
    rintro alarmInfo handle rfl hmem
    exact not_does_edit_present alarmInfo hmem hreturns hanswer

theorem refines_init : Refines .init .init := ⟨⟨[], ⟨rfl, List.nodup_nil⟩, rfl⟩, rfl⟩

/-- **A run of fewer than 2³² additions conforms to the book exactly if no edit is called for an
alarm that is there.** -/
theorem conforms_iff (ops : List AlarmOp) (hadds : ops.countP AlarmOp.isAdd < 2 ^ 32)
    (halloc : AllocatesFresh .init ops) : Conforms .init .init ops ↔ EditsAbsent .init ops :=
  ⟨editsAbsent_of_conforms, conforms_of_editsAbsent refines_init numbered_init
    (by rwa [Nat.zero_add]) halloc⟩

/-- `"PER 2017-12-16 11:10:07 00-00-00 00:01:03"`. -/
def perBuf : List UInt8 :=
  [80, 69, 82, 32, 50, 48, 49, 55, 45, 49, 50, 45, 49, 54, 32, 49, 49, 58, 49, 48, 58, 48,
    55, 32, 48, 48, 45, 48, 48, 45, 48, 48, 32, 48, 48, 58, 48, 49, 58, 48, 51]

/-- An alarm that repeats every 63 seconds, in an entry at address `p`. -/
def addExample (p : ℕ) : AddCall where
  alarmBuf := some perBuf
  handleGiven := true
  tmYear := 117
  newEntry := some p
  parseAlarm := .ok ⟨.PER, ⟨2017, 12, 16, 11, 10, 7⟩, ⟨0, 0, 0, 0, 1, 3⟩⟩

theorem allocatesFresh_addTwice :
    AllocatesFresh .init [.add (addExample 1), .add (addExample 2), .delete 0] := by
  refine ⟨?_, fun r c hr ↦ ⟨?_, fun r' c' hr' ↦ ⟨?_, fun _ _ _ ↦ trivial⟩⟩⟩
  · rintro x ⟨⟩
    exact ⟨1, rfl, rfl⟩
  · obtain ⟨n, hcall⟩ := hr
    rintro x ⟨⟩
    cases hcall
    exact ⟨2, rfl, rfl⟩
  · rintro x ⟨⟩

theorem conforms_addTwice :
    Conforms .init .init [.add (addExample 1), .add (addExample 2), .delete 0] := by
  refine (conforms_iff _ (by decide) allocatesFresh_addTwice).mpr ⟨?_, ?_, ?_, trivial⟩
  · rintro alarmInfo handle ⟨⟩
  · rintro alarmInfo handle ⟨⟩
  · rintro alarmInfo handle ⟨⟩

/-- The alarm is edited with the contents that it has. -/
theorem not_conforms_edit : ¬Conforms .init .init [.add (addExample 1),
    .edit ⟨newAlarm ⟨.PER, ⟨2017, 12, 16, 11, 10, 7⟩, ⟨0, 0, 0, 0, 1, 3⟩⟩ 0, none, some .head⟩
      0] := by
  intro h
  exact (editsAbsent_of_conforms h).2.1 _ 0 rfl (List.mem_singleton_self _)

end Ddmz.Alarm
