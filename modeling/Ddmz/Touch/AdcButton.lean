import Ddmz.Foundation.Runs
import Ddmz.Foundation.Traces

/-!
# The keypad

All keys of the keypad are read through one ADC channel. A task reads it again and again; when it
sees a key that is not the one it knows of, it marks the key's entry of a table as active and starts
the timers for a click and a long press. When it sees no key any more it starts the timer for the
release. The callbacks of the timers scan the table for the active entry.

No entry is marked as inactive before the release has been told. So a key that is seen while another
one has not been released makes a second entry active, and the callbacks go by the first one they
find. And if the callback for the release comes while the task starts the timers for a key, they
expire with no active entry. In a run in which neither happens (`Fits`) the table is sound:
`soundTable_of_run`.
-/

namespace Ddmz.Touch

abbrev USER_KEY_MAX : ℕ := 6

/-- `UserKeyName`: the keys are the indices of the table. -/
abbrev UserKey := Fin USER_KEY_MAX

def USER_KEY_REC : UserKey := 2

/-- The row of `stepLevel` that is used. -/
def stepLevel : List ℕ := [0, 220, 384, 525, 673, 830, 990]

def baseVccVoltage : ℕ := 3106

def CLICK_TIME_THRESHOLD : ℤ := 6

/-- The level of a voltage in millivolts, if there is one; without, the program has `-1`. -/
def getButtonId (adc : ℕ) : Option UserKey :=
  (List.finRange USER_KEY_MAX).find? fun i ↦
    stepLevel.getD i 0 * baseVccVoltage / 1000 < adc ∧
      adc ≤ stepLevel.getD (i + 1) 0 * baseVccVoltage / 1000

/-- `IDLE` is never told. -/
inductive BtnState
  | CLICK
  | PRESS
  | RELEASE
  deriving DecidableEq

structure BtnDecription where
  activeId : ℤ
  clickCnt : ℤ

inductive BtnTimer
  | releaseTmr
  | pressTmr
  | longPressTmr
  deriving DecidableEq

/-- Where `buttonTask` is. -/
inductive BtnPlace
  | read
  /-- It has seen no key. -/
  | testFlag
  | startRelease
  | clearFlag
  /-- It has seen a key. -/
  | compare (id : UserKey)
  | stopRelease
  /-- The key is a new one. -/
  | activate
  | startPress
  | startLongPress
  | setFlag
  deriving DecidableEq

inductive KeyEntry
  /-- The task has read a key. -/
  | pressed (key : UserKey)
  /-- `btnCallback`. -/
  | report (key : UserKey) (state : BtnState)
  deriving DecidableEq

structure AdcButton where
  btn : UserKey → BtnDecription
  firstId : Option UserKey
  timerStartflag : Bool
  /-- Whether the timers run. -/
  releaseTmr : Bool
  pressTmr : Bool
  longPressTmr : Bool
  place : BtnPlace
  /-- The callback that has scanned the table, and `actId`. -/
  callback : Option (BtnTimer × Option UserKey)
  trace : List KeyEntry
  /-- The table has been accessed out of its range. What the program does then is left open. -/
  outOfRange : Bool

inductive AdcButton.Op
  /-- The task goes on; `adc` is what it reads if it reads. -/
  | task (adc : ℕ)
  /-- A timer expires, and its callback scans the table. -/
  | expire (tmr : BtnTimer)
  /-- The callback goes on. -/
  | callback (adc : ℕ)

namespace AdcButton

/-- After `resetBtn`. -/
def init : AdcButton where
  btn := fun _ ↦ ⟨-1, 0⟩
  firstId := none
  timerStartflag := false
  releaseTmr := false
  pressTmr := false
  longPressTmr := false
  place := .read
  callback := none
  trace := []
  outOfRange := false

variable (s : AdcButton)

/-- One step of `buttonTask`. -/
def buttonTask (adc : ℕ) : AdcButton :=
  match s.place with
  | .read =>
    match getButtonId adc with
    | none => { s with place := .testFlag }
    | some id => { s with place := .compare id, trace := s.trace ++ [.pressed id] }
  | .testFlag => { s with place := if s.timerStartflag then .startRelease else .read }
  | .startRelease => { s with releaseTmr := true, place := .clearFlag }
  | .clearFlag => { s with timerStartflag := false, place := .read }
  | .compare id =>
    if s.firstId ≠ some id then { s with firstId := some id, place := .activate }
    else { s with place := .stopRelease }
  | .stopRelease => { s with releaseTmr := false, place := .read }
  | .activate =>
    match s.firstId with
    | none => { s with outOfRange := true, place := .startPress }
    | some id =>
      { s with
        btn := Function.update s.btn id { s.btn id with activeId := id.val }
        place := .startPress }
  | .startPress => { s with pressTmr := true, place := .startLongPress }
  | .startLongPress =>
    { s with
      longPressTmr := if s.firstId ≠ some USER_KEY_REC then true else s.longPressTmr
      place := .setFlag }
  | .setFlag => { s with timerStartflag := true, place := .read }

/-- The scan with which every callback begins. -/
def actId : Option UserKey := (List.finRange USER_KEY_MAX).find? fun i ↦ -1 < (s.btn i).activeId

def buttonReleaseCb : Option UserKey → AdcButton
  | none => { s with outOfRange := true }
  | some actId =>
    { s with
      btn := Function.update s.btn actId ⟨-1, 0⟩
      trace := s.trace ++ [.report actId .RELEASE]
      firstId := none
      longPressTmr := false
      pressTmr := false
      timerStartflag := false }

/-- The entry stays active. -/
def click (actId : UserKey) : AdcButton :=
  { s with
    pressTmr := false
    longPressTmr := false
    btn := Function.update s.btn actId ⟨0, 0⟩
    trace := s.trace ++ [.report actId .CLICK] }

def buttonPressCb (id : Option UserKey) : Option UserKey → AdcButton
  | none => { s with outOfRange := true }
  | some actId =>
    let cnt := (s.btn actId).clickCnt
    if id = some actId then
      let s := { s with
        btn := Function.update s.btn actId { s.btn actId with clickCnt := cnt + 1 } }
      if CLICK_TIME_THRESHOLD < cnt + 1 then
        if actId = USER_KEY_REC then s.click actId else { s with pressTmr := false }
      else s
    else if 0 < cnt then s.click actId
    else
      { s with
        pressTmr := false
        longPressTmr := false
        btn := Function.update s.btn actId ⟨0, 0⟩
        firstId := none }

def buttonLongPressCb (id : Option UserKey) : Option UserKey → AdcButton
  | none => { s with outOfRange := true }
  | some actId =>
    { s with
      btn := Function.update s.btn actId ⟨0, 0⟩
      trace := if id = some actId then s.trace ++ [.report actId .PRESS] else s.trace }

/-- The press timer reloads, the others do not. -/
def expire : BtnTimer → Option AdcButton
  | .releaseTmr =>
    if s.releaseTmr then
      some { s with releaseTmr := false, callback := some (.releaseTmr, s.actId) }
    else none
  | .pressTmr =>
    if s.pressTmr then some { s with callback := some (.pressTmr, s.actId) } else none
  | .longPressTmr =>
    if s.longPressTmr then
      some { s with longPressTmr := false, callback := some (.longPressTmr, s.actId) }
    else none

def timerCb (id actId : Option UserKey) : BtnTimer → AdcButton
  | .releaseTmr => s.buttonReleaseCb actId
  | .pressTmr => s.buttonPressCb id actId
  | .longPressTmr => s.buttonLongPressCb id actId

def step (s : AdcButton) : Op → Option AdcButton
  | .task adc => some (s.buttonTask adc)
  | .expire tmr => if s.callback = none then s.expire tmr else none
  | .callback adc =>
    match s.callback with
    | none => none
    | some (tmr, actId) => some ({ s with callback := none }.timerCb (getButtonId adc) actId tmr)

end AdcButton

/-! ## What is told of the keys -/

def KeyEntry.isPressed : KeyEntry → Bool
  | pressed _ => true
  | report _ _ => false

def KeyEntry.isRelease : KeyEntry → Bool
  | report _ .RELEASE => true
  | _ => false

/-- A key that is told of has been pressed since the last release. -/
def KeyEntry.Real (before : List KeyEntry) : KeyEntry → Prop
  | pressed _ => True
  | report key _ => pressed key ∈ since KeyEntry.isRelease before

namespace AdcButton

variable (s : AdcButton)

def Active (key : UserKey) : Prop := -1 < (s.btn key).activeId

instance (key : UserKey) : Decidable (s.Active key) :=
  inferInstanceAs (Decidable (-1 < (s.btn key).activeId))

structure Sound : Prop where
  one : ∀ i j, s.Active i → s.Active j → i = j
  last : ∀ i, s.Active i → lastOf KeyEntry.isPressed s.trace = some (.pressed i)
  inRange : s.outOfRange = false
  real : EachEntry KeyEntry.Real s.trace

/-- A key is seen only while no other one is active. And when the callback for the release goes on,
its timer has not been started again, and the task is not about to start a timer, nor has it read
the key for which it will. -/
def Fits : Op → Prop
  | .task adc => s.place = .read → ∀ key, getButtonId adc = some key → ∀ i, s.Active i → i = key
  | .callback _ => ∀ actId, s.callback = some (.releaseTmr, actId) → s.releaseTmr = false ∧
    (s.place = .read ∨ s.place = .testFlag ∨ s.place = .clearFlag ∨ s.place = .stopRelease)
  | _ => True

/-- `key` has been pressed last, and since the last release. -/
def Latest (key : UserKey) : Prop :=
  lastOf KeyEntry.isPressed s.trace = some (.pressed key) ∧
    .pressed key ∈ since KeyEntry.isRelease s.trace

/-- What the task has seen, and what it needs. -/
def PlaceKeeps (o : Option UserKey) : BtnPlace → Prop
  | .read | .testFlag | .clearFlag | .stopRelease => True
  | .startRelease | .startLongPress | .setFlag => o ≠ none
  | .compare id => s.Latest id ∧ ∀ i ∈ o, i = id
  | .activate => ∃ id, s.firstId = some id ∧ s.Latest id ∧ ∀ i ∈ o, i = id
  | .startPress => o ≠ none ∧ s.firstId = o

/-- The press timer runs, or its callback does. -/
def Pressing : Prop := s.pressTmr = true ∨ ∃ actId, s.callback = some (.pressTmr, actId)

/-- There is one active entry at most, `o`; and there is one whenever the timers count on it. -/
structure Keeps (o : Option UserKey) : Prop where
  active : ∀ i, s.Active i ↔ o = some i
  latest : ∀ i, o = some i → s.Latest i
  inRange : s.outOfRange = false
  real : EachEntry KeyEntry.Real s.trace
  timers : s.timerStartflag = true ∨ s.releaseTmr = true ∨ s.pressTmr = true ∨
    s.longPressTmr = true → o ≠ none
  callback : ∀ tmr actId, s.callback = some (tmr, actId) → o ≠ none ∧ actId = o
  firstId : ∀ id, s.firstId = some id → s.place ≠ .activate → o = some id
  pressing : s.Pressing → s.firstId ≠ none ∧ s.place ≠ .activate ∧ s.place ≠ .startPress
  place : s.PlaceKeeps o s.place

variable {s} {t : AdcButton} {o : Option UserKey} {op : Op}

/-- An entry that is the only active one, or becomes it. -/
theorem active_update {btn : UserKey → BtnDecription} {key : UserKey} {entry : BtnDecription}
    (h : ∀ i, -1 < (btn i).activeId → i = key) (hentry : -1 < entry.activeId) (i : UserKey) :
    -1 < (Function.update btn key entry i).activeId ↔ some key = some i := by
  by_cases hi : i = key
  · subst hi
    rw [Function.update_self]
    exact iff_of_true hentry rfl
  · rw [Function.update_of_ne hi]
    exact iff_of_false (fun hactive ↦ hi (h i hactive)) fun heq ↦ hi (Option.some.inj heq).symm

theorem not_active_update {btn : UserKey → BtnDecription} {key : UserKey} {entry : BtnDecription}
    (h : ∀ i, -1 < (btn i).activeId → i = key) (hentry : ¬-1 < entry.activeId) (i : UserKey) :
    ¬-1 < (Function.update btn key entry i).activeId := by
  by_cases hi : i = key
  · subst hi
    rwa [Function.update_self]
  · rw [Function.update_of_ne hi]
    exact fun hactive ↦ hi (h i hactive)

theorem Keeps.sound (h : s.Keeps o) : s.Sound := by
  constructor
  · intro i j hi hj
    exact Option.some.inj (((h.active i).mp hi).symm.trans ((h.active j).mp hj))
  · intro i hi
    exact (h.latest i ((h.active i).mp hi)).1
  · exact h.inRange
  · exact h.real

/-- The scan finds the active entry. -/
theorem Keeps.actId_eq (h : s.Keeps o) : s.actId = o := by
  rw [actId]
  cases o with
  | none =>
    rw [List.find?_eq_none]
    intro i _ hi
    have hactive : s.Active i := by simpa [Active] using hi
    exact absurd ((h.active i).mp hactive).symm (Option.some_ne_none i)
  | some k =>
    have hk : s.Active k := (h.active k).mpr rfl
    cases hfind : (List.finRange USER_KEY_MAX).find? fun i ↦ -1 < (s.btn i).activeId with
    | none =>
      have hnone := List.find?_eq_none.mp hfind k (List.mem_finRange k)
      exact absurd hk (by simpa [Active] using hnone)
    | some i =>
      have hactive : s.Active i := by simpa [Active] using List.find?_some hfind
      exact ((h.active i).mp hactive).symm

/-! ### The task -/

/-- The task sees a key. -/
theorem Keeps.read {id : UserKey} (h : s.Keeps o) (hplace : s.place = .read)
    (hfits : ∀ i, s.Active i → i = id) :
    { s with place := .compare id, trace := s.trace ++ [KeyEntry.pressed id] }.Keeps o := by
  have hlatest :
      { s with place := .compare id, trace := s.trace ++ [KeyEntry.pressed id] }.Latest id := by
    constructor
    · exact lastOf_concat_pos _ rfl
    · rw [since_concat_neg _ rfl]
      exact List.mem_append_right _ (List.mem_singleton_self _)
  have hid : ∀ i ∈ o, i = id := fun i hi ↦ hfits i ((h.active i).mpr hi)
  constructor
  · exact h.active
  · intro i hi
    rwa [hid i hi]
  · exact h.inRange
  · rw [eachEntry_concat]
    exact ⟨h.real, trivial⟩
  · exact h.timers
  · exact h.callback
  · intro k hk _
    exact h.firstId k hk (by simp [hplace])
  · intro hpressing
    exact ⟨(h.pressing hpressing).1, by simp, by simp⟩
  · exact ⟨hlatest, hid⟩

/-- The task goes to another place, or starts or stops a timer. -/
theorem Keeps.goto (h : s.Keeps o) (hbtn : t.btn = s.btn) (hfirst : t.firstId = s.firstId)
    (htimers : t.timerStartflag = true ∨ t.releaseTmr = true ∨ t.pressTmr = true ∨
      t.longPressTmr = true → o ≠ none)
    (hpress : t.pressTmr = true → s.pressTmr = true ∨ s.firstId ≠ none)
    (hcallback : t.callback = s.callback) (htrace : t.trace = s.trace)
    (hrange : t.outOfRange = s.outOfRange) (hactivate : s.place ≠ .activate)
    (hplace : t.place ≠ .activate ∧ t.place ≠ .startPress) (hkeeps : t.PlaceKeeps o t.place) :
    t.Keeps o := by
  constructor
  · intro i
    rw [Active, hbtn]
    exact h.active i
  · intro i hi
    rw [Latest, htrace]
    exact h.latest i hi
  · exact hrange.trans h.inRange
  · rw [htrace]
    exact h.real
  · exact htimers
  · rw [hcallback]
    exact h.callback
  · intro k hk _
    exact h.firstId k (hfirst.symm.trans hk) hactivate
  · intro hpressing
    refine ⟨?_, hplace⟩
    rw [hfirst]
    rcases hpressing with hrunning | hcalled
    · rcases hpress hrunning with hbefore | hne
      · exact (h.pressing (.inl hbefore)).1
      · exact hne
    · rw [hcallback] at hcalled
      exact (h.pressing (.inr hcalled)).1
  · exact hkeeps

/-- The task sees a key that it does not know of. -/
theorem Keeps.compare {id : UserKey} (h : s.Keeps o) (hplace : s.place = .compare id)
    (hne : s.firstId ≠ some id) :
    { s with firstId := some id, place := .activate }.Keeps o := by
  have hkeeps := h.place
  rw [hplace] at hkeeps
  obtain ⟨hlatest, hid⟩ := hkeeps
  -- the press timer would run for this key
  have hnot : ¬s.Pressing := by
    intro hpressing
    obtain ⟨k, hk⟩ := Option.ne_none_iff_exists'.mp (h.pressing hpressing).1
    have ho := h.firstId k hk (by simp [hplace])
    rw [hid k ho] at hk
    exact hne hk
  constructor
  · exact h.active
  · exact h.latest
  · exact h.inRange
  · exact h.real
  · exact h.timers
  · exact h.callback
  · intro k _ hnot
    exact absurd rfl hnot
  · intro hpressing
    exact absurd hpressing hnot
  · exact ⟨id, rfl, hlatest, hid⟩

/-- The task marks the entry as active. -/
theorem Keeps.activate {id : UserKey} (h : s.Keeps o) (hplace : s.place = .activate)
    (hfirst : s.firstId = some id) :
    { s with
      btn := Function.update s.btn id { s.btn id with activeId := id.val }
      place := .startPress }.Keeps (some id) := by
  have hkeeps := h.place
  rw [hplace] at hkeeps
  obtain ⟨k, hk, hlatest, hid⟩ := hkeeps
  obtain rfl := Option.some.inj (hfirst.symm.trans hk)
  have ho : o ≠ none → o = some id := by
    intro hne
    obtain ⟨i, hi⟩ := Option.ne_none_iff_exists'.mp hne
    rw [hi, hid i hi]
  have hnot : ¬s.Pressing := fun hpressing ↦ (h.pressing hpressing).2.1 hplace
  constructor
  · refine active_update ?_ (Int.lt_of_lt_of_le (by decide) (Int.natCast_nonneg id.val))
    intro i hactive
    exact hid i ((h.active i).mp hactive)
  · intro i hi
    obtain rfl := Option.some.inj hi
    exact hlatest
  · exact h.inRange
  · exact h.real
  · intro _
    exact Option.some_ne_none id
  · intro tmr actId hcallback
    obtain ⟨hne, heq⟩ := h.callback tmr actId hcallback
    exact ⟨Option.some_ne_none id, heq.trans (ho hne)⟩
  · intro i hi _
    exact hfirst.symm.trans hi
  · intro hpressing
    exact absurd hpressing hnot
  · exact ⟨Option.some_ne_none id, hfirst⟩

/-- One step of the task. -/
theorem Keeps.task {adc : ℕ} (h : s.Keeps o) (hfits : s.Fits (.task adc)) :
    ∃ o', (s.buttonTask adc).Keeps o' := by
  have hkeeps := h.place
  rw [buttonTask]
  cases hplace : s.place with
  | read =>
    have hactivate : s.place ≠ .activate := by simp [hplace]
    cases hid : getButtonId adc with
    | none => exact ⟨o, h.goto rfl rfl h.timers .inl rfl rfl rfl hactivate (by simp) trivial⟩
    | some id => exact ⟨o, h.read hplace (hfits hplace id hid)⟩
  | testFlag =>
    have hactivate : s.place ≠ .activate := by simp [hplace]
    dsimp only
    split_ifs with hflag
    · exact ⟨o, h.goto rfl rfl h.timers .inl rfl rfl rfl hactivate (by simp)
        (h.timers (.inl hflag))⟩
    · exact ⟨o, h.goto rfl rfl h.timers .inl rfl rfl rfl hactivate (by simp) trivial⟩
  | startRelease =>
    rw [hplace] at hkeeps
    exact ⟨o, h.goto rfl rfl (fun _ ↦ hkeeps) .inl rfl rfl rfl (by simp [hplace]) (by simp)
      trivial⟩
  | clearFlag =>
    refine ⟨o, h.goto rfl rfl ?_ .inl rfl rfl rfl (by simp [hplace]) (by simp) trivial⟩
    intro htimers
    exact h.timers (.inr (htimers.resolve_left Bool.false_ne_true))
  | compare id =>
    by_cases hne : s.firstId ≠ some id
    · simp only [if_pos hne]
      exact ⟨o, h.compare hplace hne⟩
    · simp only [if_neg hne]
      exact ⟨o, h.goto rfl rfl h.timers .inl rfl rfl rfl (by simp [hplace]) (by simp) trivial⟩
  | stopRelease =>
    refine ⟨o, h.goto rfl rfl ?_ .inl rfl rfl rfl (by simp [hplace]) (by simp) trivial⟩
    rintro (hflag | hnot | hothers)
    · exact h.timers (.inl hflag)
    · exact absurd hnot Bool.false_ne_true
    · exact h.timers (.inr (.inr hothers))
  | activate =>
    rw [hplace] at hkeeps
    obtain ⟨id, hid, -⟩ := hkeeps
    simp only [hid]
    exact ⟨_, hid ▸ h.activate hplace hid⟩
  | startPress =>
    rw [hplace] at hkeeps
    obtain ⟨hne, hfirst⟩ := hkeeps
    refine ⟨o, h.goto rfl rfl (fun _ ↦ hne) ?_ rfl rfl rfl (by simp [hplace]) (by simp) hne⟩
    intro _
    rw [hfirst]
    exact .inr hne
  | startLongPress =>
    rw [hplace] at hkeeps
    exact ⟨o, h.goto rfl rfl (fun _ ↦ hkeeps) .inl rfl rfl rfl (by simp [hplace]) (by simp)
      hkeeps⟩
  | setFlag =>
    rw [hplace] at hkeeps
    exact ⟨o, h.goto rfl rfl (fun _ ↦ hkeeps) .inl rfl rfl rfl (by simp [hplace]) (by simp)
      trivial⟩

/-! ### The timers -/

/-- A timer expires. -/
theorem Keeps.called {tmr : BtnTimer} (h : s.Keeps o) (hne : o ≠ none) (hbtn : t.btn = s.btn)
    (hfirst : t.firstId = s.firstId) (hcallback : t.callback = some (tmr, s.actId))
    (hpress : t.pressTmr = true ∨ tmr = .pressTmr → s.pressTmr = true)
    (htrace : t.trace = s.trace) (hrange : t.outOfRange = s.outOfRange)
    (hplace : t.place = s.place) : t.Keeps o := by
  constructor
  · intro i
    rw [Active, hbtn]
    exact h.active i
  · intro i hi
    rw [Latest, htrace]
    exact h.latest i hi
  · exact hrange.trans h.inRange
  · rw [htrace]
    exact h.real
  · intro _
    exact hne
  · intro tmr' actId hcalled
    obtain ⟨rfl, rfl⟩ := Prod.mk.inj (Option.some.inj (hcallback.symm.trans hcalled))
    exact ⟨hne, h.actId_eq⟩
  · intro k hk hactivate
    exact h.firstId k (hfirst.symm.trans hk) (hplace ▸ hactivate)
  · intro hpressing
    rw [hfirst, hplace]
    refine h.pressing (.inl (hpress ?_))
    rcases hpressing with hrunning | ⟨actId, hcalled⟩
    · exact .inl hrunning
    · exact .inr (Prod.mk.inj (Option.some.inj (hcallback.symm.trans hcalled))).1
  · have hkeeps := h.place
    rw [hplace]
    unfold PlaceKeeps at hkeeps ⊢
    unfold Latest at hkeeps ⊢
    rw [htrace, hfirst]
    exact hkeeps

theorem Keeps.expire {tmr : BtnTimer} (h : s.Keeps o) (ht : s.expire tmr = some t) :
    t.Keeps o := by
  cases tmr with
  | releaseTmr =>
    rw [AdcButton.expire] at ht
    split_ifs at ht with hrunning
    obtain rfl := Option.some.inj ht
    refine h.called (h.timers (.inr (.inl hrunning))) rfl rfl rfl ?_ rfl rfl rfl
    exact fun hpress ↦ hpress.resolve_right BtnTimer.noConfusion
  | pressTmr =>
    rw [AdcButton.expire] at ht
    split_ifs at ht with hrunning
    obtain rfl := Option.some.inj ht
    exact h.called (h.timers (.inr (.inr (.inl hrunning)))) rfl rfl rfl (fun _ ↦ hrunning) rfl rfl
      rfl
  | longPressTmr =>
    rw [AdcButton.expire] at ht
    split_ifs at ht with hrunning
    obtain rfl := Option.some.inj ht
    refine h.called (h.timers (.inr (.inr (.inr hrunning)))) rfl rfl rfl ?_ rfl rfl rfl
    exact fun hpress ↦ hpress.resolve_right BtnTimer.noConfusion

/-- What the callbacks for the press timers can do: the entry stays active, and the key may be told
of. The task is told to forget the key only when the press timer has been running. -/
structure Acts (s t : AdcButton) (key : UserKey) : Prop where
  btn : ∃ entry : BtnDecription, t.btn = Function.update s.btn key entry ∧ -1 < entry.activeId
  trace : t.trace = s.trace ∨
    ∃ state, state ≠ .RELEASE ∧ t.trace = s.trace ++ [.report key state]
  firstId : t.firstId = s.firstId ∨ t.firstId = none ∧ t.pressTmr = false ∧ s.Pressing
  pressTmr : t.pressTmr = true → s.pressTmr = true
  callback : t.callback = none
  place : t.place = s.place
  outOfRange : t.outOfRange = s.outOfRange

theorem Acts.latest {key i : UserKey} (h : Acts s t key) (hlatest : s.Latest i) : t.Latest i := by
  rcases h.trace with htrace | ⟨state, hstate, htrace⟩
  · rwa [Latest, htrace]
  · have hrelease : (KeyEntry.report key state).isRelease = false := by
      cases state with
      | RELEASE => exact absurd rfl hstate
      | _ => rfl
    rw [Latest, htrace, lastOf_concat_neg _ rfl, since_concat_neg _ hrelease]
    exact ⟨hlatest.1, List.mem_append_left _ hlatest.2⟩

theorem Keeps.acts {key : UserKey} (h : s.Keeps (some key)) (hacts : Acts s t key) :
    t.Keeps (some key) := by
  constructor
  · obtain ⟨entry, hbtn, hentry⟩ := hacts.btn
    intro i
    rw [Active, hbtn]
    refine active_update ?_ hentry i
    intro j hactive
    exact (Option.some.inj ((h.active j).mp hactive)).symm
  · intro i hi
    exact hacts.latest (h.latest i hi)
  · exact hacts.outOfRange.trans h.inRange
  · rcases hacts.trace with htrace | ⟨state, -, htrace⟩
    · rw [htrace]
      exact h.real
    · rw [htrace, eachEntry_concat]
      exact ⟨h.real, (h.latest key rfl).2⟩
  · intro _
    exact Option.some_ne_none key
  · intro tmr actId hcalled
    exact absurd (hcalled.symm.trans hacts.callback) (Option.some_ne_none _)
  · intro i hi hactivate
    rw [hacts.place] at hactivate
    rcases hacts.firstId with hsame | ⟨hnone, -⟩
    · exact h.firstId i (hsame.symm.trans hi) hactivate
    · exact absurd (hi.symm.trans hnone) (Option.some_ne_none i)
  · rw [hacts.place]
    rintro (hrunning | ⟨actId, hcalled⟩)
    · rcases hacts.firstId with hsame | ⟨-, hstopped, -⟩
      · rw [hsame]
        exact h.pressing (.inl (hacts.pressTmr hrunning))
      · exact absurd (hstopped.symm.trans hrunning) Bool.false_ne_true
    · exact absurd (hcalled.symm.trans hacts.callback) (Option.some_ne_none _)
  · have hkeeps := h.place
    rw [hacts.place]
    cases hplace : s.place with
    | compare id =>
      rw [hplace] at hkeeps
      exact ⟨hacts.latest hkeeps.1, hkeeps.2⟩
    | activate =>
      rw [hplace] at hkeeps
      obtain ⟨id, hid, hlatest, hkey⟩ := hkeeps
      rcases hacts.firstId with hsame | ⟨-, -, hpressing⟩
      · exact ⟨id, hsame.trans hid, hacts.latest hlatest, hkey⟩
      · exact absurd hplace (h.pressing hpressing).2.1
    | startPress =>
      rw [hplace] at hkeeps
      rcases hacts.firstId with hsame | ⟨-, -, hpressing⟩
      · exact ⟨hkeeps.1, hsame.trans hkeeps.2⟩
      · exact absurd hplace (h.pressing hpressing).2.2
    | startRelease => exact Option.some_ne_none key
    | startLongPress => exact Option.some_ne_none key
    | setFlag => exact Option.some_ne_none key
    | _ => exact trivial

/-- A click; `t` is the state before it. -/
theorem acts_click {key : UserKey} {entry : BtnDecription}
    (hbtn : t.btn = Function.update s.btn key entry) (htrace : t.trace = s.trace)
    (hfirst : t.firstId = s.firstId) (hcallback : t.callback = none) (hplace : t.place = s.place)
    (hrange : t.outOfRange = s.outOfRange) : Acts s (t.click key) key := by
  constructor
  · refine ⟨⟨0, 0⟩, ?_, by decide⟩
    rw [click, hbtn]
    exact Function.update_idem _ _ _
  · refine .inr ⟨.CLICK, by decide, ?_⟩
    rw [click, htrace]
  · exact .inl hfirst
  · intro hnot
    exact absurd hnot Bool.false_ne_true
  · exact hcallback
  · exact hplace
  · exact hrange

theorem acts_buttonPressCb {id : Option UserKey} {key : UserKey} (hactive : s.Active key)
    (hpressing : s.Pressing) :
    Acts s ({ s with callback := none }.buttonPressCb id (some key)) key := by
  rw [buttonPressCb]
  split_ifs with hid hlong hrec hcnt
  · exact acts_click rfl rfl rfl rfl rfl rfl
  · -- it will be a long press
    constructor
    · exact ⟨_, rfl, hactive⟩
    · exact .inl rfl
    · exact .inl rfl
    · intro hnot
      exact absurd hnot Bool.false_ne_true
    · rfl
    · rfl
    · rfl
  · constructor
    · exact ⟨_, rfl, hactive⟩
    · exact .inl rfl
    · exact .inl rfl
    · intro hrunning
      exact hrunning
    · rfl
    · rfl
    · rfl
  · exact acts_click (Function.update_eq_self key s.btn).symm rfl rfl rfl rfl rfl
  · -- an invalid click
    constructor
    · exact ⟨_, rfl, by decide⟩
    · exact .inl rfl
    · exact .inr ⟨rfl, rfl, hpressing⟩
    · intro hnot
      exact absurd hnot Bool.false_ne_true
    · rfl
    · rfl
    · rfl

theorem acts_buttonLongPressCb {id : Option UserKey} {key : UserKey} :
    Acts s ({ s with callback := none }.buttonLongPressCb id (some key)) key := by
  constructor
  · exact ⟨_, rfl, by decide⟩
  · rw [buttonLongPressCb]
    dsimp only
    split_ifs
    · exact .inr ⟨.PRESS, by decide, rfl⟩
    · exact .inl rfl
  · exact .inl rfl
  · exact fun hrunning ↦ hrunning
  · rfl
  · rfl
  · rfl

/-- The callback for the release: no entry is active any more. -/
theorem Keeps.released {key : UserKey} (h : s.Keeps (some key)) (hstopped : s.releaseTmr = false)
    (hplace : s.place = .read ∨ s.place = .testFlag ∨ s.place = .clearFlag ∨
      s.place = .stopRelease) :
    ({ s with callback := none }.buttonReleaseCb (some key)).Keeps none := by
  have hlatest := h.latest key rfl
  constructor
  · intro i
    refine iff_of_false (not_active_update ?_ (by decide) i) (Option.some_ne_none i).symm
    intro j hactive
    exact (Option.some.inj ((h.active j).mp hactive)).symm
  · intro i hi
    exact absurd hi.symm (Option.some_ne_none i)
  · exact h.inRange
  · simp only [buttonReleaseCb, eachEntry_concat]
    exact ⟨h.real, hlatest.2⟩
  · simp [buttonReleaseCb, hstopped]
  · intro tmr actId hcalled
    exact absurd hcalled.symm (Option.some_ne_none _)
  · intro i hi
    exact absurd hi.symm (Option.some_ne_none i)
  · rintro (hrunning | ⟨actId, hcalled⟩)
    · exact absurd hrunning Bool.false_ne_true
    · exact absurd hcalled.symm (Option.some_ne_none _)
  · rcases hplace with hplace | hplace | hplace | hplace <;>
      simp [buttonReleaseCb, hplace, PlaceKeeps]

/-- The callbacks go on. -/
theorem Keeps.timerCb {tmr : BtnTimer} {adc : ℕ} {actId : Option UserKey} (h : s.Keeps o)
    (hfits : s.Fits (.callback adc)) (hcalled : s.callback = some (tmr, actId)) :
    ∃ o', ({ s with callback := none }.timerCb (getButtonId adc) actId tmr).Keeps o' := by
  obtain ⟨hne, rfl⟩ := h.callback tmr actId hcalled
  obtain ⟨key, rfl⟩ := Option.ne_none_iff_exists'.mp hne
  have hactive : s.Active key := (h.active key).mpr rfl
  cases tmr with
  | releaseTmr =>
    obtain ⟨hstopped, hplace⟩ := hfits _ hcalled
    exact ⟨none, h.released hstopped hplace⟩
  | pressTmr => exact ⟨some key, h.acts (acts_buttonPressCb hactive (.inr ⟨_, hcalled⟩))⟩
  | longPressTmr => exact ⟨some key, h.acts acts_buttonLongPressCb⟩

/-- **One step.** -/
theorem Keeps.step (h : s.Keeps o) (hfits : s.Fits op) (hstep : s.step op = some t) :
    ∃ o', t.Keeps o' := by
  cases op with
  | task adc =>
    obtain rfl := Option.some.inj hstep
    exact h.task hfits
  | expire tmr =>
    rw [AdcButton.step] at hstep
    split_ifs at hstep
    exact ⟨o, h.expire hstep⟩
  | callback adc =>
    rw [AdcButton.step] at hstep
    split at hstep
    · exact absurd hstep.symm (Option.some_ne_none t)
    · case _ hcalled =>
      obtain rfl := Option.some.inj hstep
      exact h.timerCb hfits hcalled

theorem keeps_init : init.Keeps none := by
  constructor
  · simp [Active, init]
  · simp
  · rfl
  · exact eachEntry_nil
  · simp [init]
  · simp [init]
  · simp [init]
  · simp [Pressing, init]
  · exact trivial

end AdcButton

/-- **In a run whose steps are as in `Fits`, the table is sound: one entry at most is active, that
of the key pressed last, it is accessed within its range, and only keys that are pressed are told
of.** -/
theorem soundTable_of_run {ops : List AdcButton.Op} {s : AdcButton}
    (h : Run AdcButton.step AdcButton.Fits .init ops s) : s.Sound := by
  obtain ⟨o, ho⟩ := h.invariant_exists
    (fun _ _ _ _ hs hfits hstep ↦ hs.step hfits hstep) AdcButton.keeps_init
  exact ho.sound

/-- A key is pressed. -/
theorem soundTable_once : ∃ s, Run AdcButton.step AdcButton.Fits .init
      [.task 100, .task 0, .task 0, .task 0, .expire .pressTmr, .callback 100] s ∧ s.Sound := by
  obtain ⟨s, hrun⟩ : ∃ s, Run AdcButton.step AdcButton.Fits .init
      [.task 100, .task 0, .task 0, .task 0, .expire .pressTmr, .callback 100] s := by
    refine ⟨_, .cons ?_ rfl <| .cons ?_ rfl <| .cons ?_ rfl <| .cons ?_ rfl <|
      .cons trivial rfl <| .cons ?_ rfl <| .nil _⟩
    · intro _ key _ i hactive
      exact absurd hactive (by simp [AdcButton.Active, AdcButton.init])
    · intro hnot
      exact BtnPlace.noConfusion hnot
    · intro hnot
      exact BtnPlace.noConfusion hnot
    · intro hnot
      exact BtnPlace.noConfusion hnot
    · intro actId hcalled
      exact BtnTimer.noConfusion (Prod.mk.inj (Option.some.inj hcalled)).1
  exact ⟨s, hrun, soundTable_of_run hrun⟩

/-- A finger slides from one key to the next: both entries are active. -/
theorem not_sound_slide : ¬∀ ops s, AnyRun AdcButton.step .init ops s → s.Sound := by
  intro h
  have hsound := h [.task 100, .task 0, .task 0, .task 0, .task 0, .task 0, .task 1000, .task 0,
      .task 0] _ <| anyRun_of_foldlM rfl
  have hone := hsound.one 0 1 (by decide) (by decide)
  exact absurd hone (by decide)

end Ddmz.Touch
