import Ddmz.Foundation.Presses
import Ddmz.Foundation.Runs

/-!
# A button on a pin

Every change of the level on the pin restarts all timers of the button. When a timer expires it
looks at the pin: the push timer and the timers for a long press for the active level, the release
timer for the other one. `state` only says whether there has been a long press since the push; the
push and release timers do not look at it.

So if the pin goes to the other level and back for a shorter time than the interval of the timer
that would see it, the level that the button has had before is found once more: a second push in a
press that goes on, a release of a button that has not been pushed, a long press told of again. What
the timers must not find is `Fits`; as long as they do not, the calls keep to the protocol, and no
longer: `protocol_iff`. They do not if every level is held for the interval of the timer that must
see it, and the timer task is prompt.
-/

namespace Ddmz.Touch

/-- `button_status_t`. -/
inductive ButtonStatus
  | IDLE
  | PUSH
  | PRESSED
  deriving DecidableEq

/-- The timers of a button with `n` callbacks for a long press; `tap_short_cb` has none. -/
inductive ButtonTimer (n : ℕ)
  | tapPsh
  | tapRls
  | cb (i : Fin n)
  deriving DecidableEq

/-- `button_dev_t`, with the pin and the timers. All callbacks are registered. -/
structure Button (n : ℕ) where
  activeLevel : Bool
  level : Bool
  state : ButtonStatus
  now : ℕ
  interval : ButtonTimer n → ℕ
  due : ButtonTimer n → Option ℕ
  /-- What `xTimerResetFromISR` has asked the timer task for, and when. -/
  resets : List (ButtonTimer n × ℕ)
  /-- The callbacks so far. -/
  calls : List (PressEvent (Fin n))
  /-- The timers for a long press that have found the pin active since the push timer has; nothing,
  if the release timer has found it released since. The program does not keep this. -/
  found : Option (List (Fin n))

inductive Button.Op (n : ℕ)
  | tick
  /-- The level changes, and the interrupt handler runs. -/
  | edge
  /-- The timer task resets a timer. -/
  | reset
  | expire (tmr : ButtonTimer n)

namespace Button

variable {n : ℕ} (s : Button n)

/-- The pin is at its active level. -/
def active : Bool := s.activeLevel == s.level

def buttonTapPushCb : Button n :=
  if s.active then
    { s with state := .PUSH, calls := s.calls ++ [.push], found := some [] }
  else s

def buttonTapRlsCb : Button n :=
  if s.active then s
  else
    { s with
      calls := (if s.state = .PUSH then s.calls ++ [.tap] else s.calls) ++ [.release]
      state := .IDLE
      found := none }

def buttonPressCb (i : Fin n) : Button n :=
  if s.active then
    { s with
      state := .PRESSED
      calls := s.calls ++ [.press i]
      found := s.found.map fun ran ↦ ran ++ [i] }
  else s

def timerCb : ButtonTimer n → Button n
  | .tapPsh => s.buttonTapPushCb
  | .tapRls => s.buttonTapRlsCb
  | .cb i => s.buttonPressCb i

/-- Resets the push and release timers, and then the others. -/
def buttonGpioIsrHandler : Button n :=
  let tmrs : List (ButtonTimer n) := .tapPsh :: .tapRls :: (List.finRange n).map ButtonTimer.cb
  { s with resets := s.resets ++ tmrs.map fun tmr ↦ (tmr, s.now) }

def step (s : Button n) : Op n → Option (Button n)
  | .tick => some { s with now := s.now + 1 }
  | .edge => some { s with level := !s.level }.buttonGpioIsrHandler
  | .reset =>
    match s.resets with
    | [] => none
    | (tmr, time) :: rest =>
      some { s with
        resets := rest
        due := Function.update s.due tmr (some (time + s.interval tmr)) }
  | .expire tmr =>
    match s.due tmr with
    | none => none
    | some time =>
      -- the timers do not reload
      if time ≤ s.now then some ({ s with due := Function.update s.due tmr none }.timerCb tmr)
      else none

/-- The button after `button_dev_init`. -/
structure Fresh : Prop where
  state : s.state = .IDLE
  due : s.due = fun _ ↦ none
  resets : s.resets = []
  calls : s.calls = []
  found : s.found = none

/-- Pushes and releases alternate, every callback for a long press is called at most once in a
press, and there is a tap at a release exactly if none was. -/
def Protocol : Prop := PressProtocol (fun _ ↦ True) (fun _ ↦ True) s.calls

/-- A timer that expires does not find what it must not: the push timer a press that goes on, the
release timer a button that has not been pushed, and the timers for a long press a press in which
they have been called before. -/
def Fits : Op n → Prop
  | .expire .tapPsh => s.active = true → s.found = none
  | .expire .tapRls => s.active = false → s.found ≠ none
  | .expire (.cb i) => s.active = true → ∀ ran, s.found = some ran → i ∉ ran
  | _ => True

/-- `found` is the press that is going on, and `state` says whether it is a long one. -/
structure Keeps : Prop where
  presses : Presses (fun _ ↦ True) (fun _ ↦ True) s.calls s.found
  push : ∀ ran, s.found = some ran → (s.state = .PUSH ↔ ran = [])

variable {s} {t : Button n} {op : Op n}

theorem Keeps.protocol (h : s.Keeps) : s.Protocol := h.presses.protocol

/-- The callbacks, and what they depend on, are as before. -/
theorem Keeps.of_eq (h : s.Keeps) (hcalls : t.calls = s.calls) (hfound : t.found = s.found)
    (hstate : t.state = s.state) : t.Keeps := by
  constructor
  · rw [hcalls, hfound]
    exact h.presses
  · rw [hfound, hstate]
    exact h.push

/-- One call more. -/
theorem Protocol.last {calls : List (PressEvent (Fin n))} {x : PressEvent (Fin n)}
    (ht : t.Protocol) (hcalls : t.calls = calls ++ [x]) :
    PressAllowed (fun _ ↦ True) (fun _ ↦ True) calls x := by
  have hallowed := ht.allowed
  rw [hcalls, eachEntry_concat] at hallowed
  exact hallowed.2

/-- The button after a call, if it is one that the protocol has. -/
theorem call_spec {P : Prop} (hprotocol : t.Protocol → P) (hkeeps : P → t.Keeps) :
    (t.Protocol ↔ P) ∧ (t.Protocol → t.Keeps) :=
  ⟨⟨hprotocol, fun h ↦ (hkeeps h).protocol⟩, fun h ↦ hkeeps (hprotocol h)⟩

theorem buttonTapPushCb_spec (h : s.Keeps) (ht : t = s.buttonTapPushCb) :
    (t.Protocol ↔ (s.active = true → s.found = none)) ∧ (t.Protocol → t.Keeps) := by
  rw [buttonTapPushCb] at ht
  apply call_spec
  · intro hprotocol hactive
    rw [if_pos hactive] at ht
    have hnot := hprotocol.last (congrArg calls ht)
    by_contra hfound
    exact hnot (h.presses.last_eq_push_iff.mpr hfound)
  · intro hfits
    split_ifs at ht with hactive
    · have hpresses := h.presses
      rw [hfits hactive] at hpresses
      subst ht
      constructor
      · exact hpresses.push
      · intro ran hran
        exact iff_of_true rfl (Option.some.inj hran).symm
    · exact ht ▸ h

theorem buttonTapRlsCb_spec (h : s.Keeps) (ht : t = s.buttonTapRlsCb) :
    (t.Protocol ↔ (s.active = false → s.found ≠ none)) ∧ (t.Protocol → t.Keeps) := by
  rw [buttonTapRlsCb] at ht
  apply call_spec
  · intro hprotocol hactive
    rw [if_neg (Bool.eq_false_iff.mp hactive)] at ht
    obtain ⟨hlast, -⟩ := hprotocol.last (congrArg calls ht)
    rw [← h.presses.last_eq_push_iff]
    split_ifs at hlast
    · rwa [lastOf_concat_neg _ rfl] at hlast
    · exact hlast
  · intro hfits
    split_ifs at ht with hactive hpush
    · exact ht ▸ h
    -- the press that ends, without a long press and with one
    all_goals
      obtain ⟨ran, hran⟩ := Option.ne_none_iff_exists'.mp
        (hfits (Bool.eq_false_of_not_eq_true hactive))
      have hpresses := h.presses
      rw [hran] at hpresses
      subst ht
      refine ⟨?_, fun ran' hnot ↦ absurd hnot.symm (Option.some_ne_none ran')⟩
    · obtain rfl := (h.push ran hran).mp hpush
      exact hpresses.tap
    · exact hpresses.release fun hnil ↦ hpush ((h.push ran hran).mpr hnil)

theorem buttonPressCb_spec {i : Fin n} (h : s.Keeps) (ht : t = s.buttonPressCb i) :
    (t.Protocol ↔ (s.active = true → ∀ ran, s.found = some ran → i ∉ ran)) ∧
      (t.Protocol → t.Keeps) := by
  rw [buttonPressCb] at ht
  apply call_spec
  · intro hprotocol hactive ran hran hmem
    rw [if_pos hactive] at ht
    have hpresses := h.presses
    rw [hran] at hpresses
    obtain ⟨hlast, hsince⟩ := hpresses.last_some
    obtain ⟨honce, -⟩ := hprotocol.last (congrArg calls ht)
    refine honce hlast trivial ?_
    rw [hsince]
    exact List.mem_map_of_mem hmem
  · intro hfits
    split_ifs at ht with hactive
    · subst ht
      cases hfound : s.found with
      | none =>
        have hpresses := h.presses
        rw [hfound] at hpresses
        constructor
        · simpa [hfound] using hpresses.stray trivial
        · intro ran hran
          simp at hran
      | some ran =>
        have hpresses := h.presses
        rw [hfound] at hpresses
        constructor
        · simpa [hfound] using hpresses.press fun _ ↦ hfits hactive ran hfound
        · intro ran' hran
          simp only [Option.map_some, Option.some.injEq] at hran
          subst hran
          simp
    · exact ht ▸ h

/-- **One step.** -/
theorem step_spec (h : s.Keeps) (hstep : s.step op = some t) :
    (t.Protocol ↔ s.Fits op) ∧ (t.Protocol → t.Keeps) := by
  -- a step without a callback
  have hothers : t.calls = s.calls → t.found = s.found → t.state = s.state → s.Fits op →
      (t.Protocol ↔ s.Fits op) ∧ (t.Protocol → t.Keeps) := by
    intro hcalls hfound hstate hfits
    exact call_spec (fun _ ↦ hfits) fun _ ↦ h.of_eq hcalls hfound hstate
  cases op with
  | tick =>
    obtain rfl := Option.some.inj hstep
    exact hothers rfl rfl rfl trivial
  | edge =>
    obtain rfl := Option.some.inj hstep
    exact hothers rfl rfl rfl trivial
  | reset =>
    rw [step] at hstep
    split at hstep
    · exact absurd hstep.symm (Option.some_ne_none t)
    · obtain rfl := Option.some.inj hstep
      exact hothers rfl rfl rfl trivial
  | expire tmr =>
    rw [step] at hstep
    split at hstep
    · exact absurd hstep.symm (Option.some_ne_none t)
    · split_ifs at hstep
      have ht := (Option.some.inj hstep).symm
      have hstopped : { s with due := Function.update s.due tmr none }.Keeps :=
        h.of_eq rfl rfl rfl
      cases tmr with
      | tapPsh => exact (buttonTapPushCb_spec hstopped ht :)
      | tapRls => exact (buttonTapRlsCb_spec hstopped ht :)
      | cb i => exact (buttonPressCb_spec hstopped ht :)

theorem Fresh.keeps (h : s.Fresh) : s.Keeps := by
  constructor
  · rw [h.calls, h.found]
    exact .nil
  · intro ran hran
    exact absurd (hran.symm.trans h.found) (Option.some_ne_none ran)

/-! ### Levels that are held -/

/-- The timers, in the order in which they are reset. -/
def timers (n : ℕ) : List (ButtonTimer n) :=
  .tapPsh :: .tapRls :: (List.finRange n).map ButtonTimer.cb

theorem mem_timers (tmr : ButtonTimer n) : tmr ∈ timers n := by
  cases tmr <;> simp [timers]

theorem nodup_timers : (timers n).Nodup := by
  have hcb : ((List.finRange n).map ButtonTimer.cb).Nodup :=
    (List.nodup_finRange n).map fun _ _ h ↦ ButtonTimer.cb.inj h
  simp [timers, hcb]

/-- The timer is not running, and not to be reset. -/
def Still (s : Button n) (tmr : ButtonTimer n) : Prop :=
  s.due tmr = none ∧ tmr ∉ s.resets.map Prod.fst

/-- The timer task has done all that there is to do at the moment. -/
def Prompt (s : Button n) : Prop :=
  s.resets = [] ∧ ∀ tmr time, s.due tmr = some time → s.now < time

/-- The timer that must see the level that the pin has. -/
def sees (s : Button n) : ButtonTimer n := if s.active then .tapPsh else .tapRls

/-- The timer task is prompt, and a level is held at least for the interval of the timer that must
see it. -/
def Steady (s : Button n) : Op n → Prop
  | .tick => s.Prompt
  | .edge => s.Prompt ∧ ∀ time, s.due s.sees = some time → time ≤ s.now
  | _ => True

instance : Decidable s.Prompt :=
  decidable_of_iff (s.resets = [] ∧ ∀ tmr ∈ timers n, ∀ time ∈ s.due tmr, s.now < time) <|
    and_congr_right fun _ ↦
      ⟨fun hall tmr ↦ hall tmr (mem_timers tmr), fun hall tmr _ ↦ hall tmr⟩

instance : Decidable (s.Steady op) := by
  unfold Steady
  split <;> infer_instance

/-- What the timers have seen of the level that the pin has; and a timer that is to be reset does
not expire before. -/
structure Sees (s : Button n) : Prop where
  nodup : (s.resets.map Prod.fst).Nodup
  early : ∀ tmr ∈ s.resets.map Prod.fst, ∀ time, s.due tmr = some time → s.now < time
  pushed : s.active = true → (s.found ≠ none ↔ s.Still .tapPsh) ∧
    ∀ ran, s.found = some ran → ∀ i ∈ ran, s.Still (.cb i)
  released : s.active = false → (s.found = none ↔ s.Still .tapRls)

/-- At an edge the level has been seen, and all timers are to be reset. -/
theorem Sees.edge (h : s.Sees) (hsteady : s.Steady .edge) (hstep : s.step .edge = some t) :
    t.Sees := by
  obtain ⟨⟨hnone, hlater⟩, hheld⟩ := hsteady
  have ht : t = { s with level := !s.level }.buttonGpioIsrHandler := (Option.some.inj hstep).symm
  have hstill : s.Still s.sees := by
    refine ⟨Option.eq_none_iff_forall_ne_some.mpr fun time htime ↦ ?_, by simp [hnone]⟩
    exact absurd (hheld time htime) (hlater _ _ htime).not_ge
  have hresets : t.resets.map Prod.fst = timers n := by
    simp [ht, buttonGpioIsrHandler, hnone, timers, Function.comp_def]
  have hreset (tmr : ButtonTimer n) : ¬t.Still tmr := fun hnot ↦ hnot.2 (hresets ▸ mem_timers tmr)
  have hactive : t.active = !s.active := by
    rw [ht]
    simp only [active, buttonGpioIsrHandler]
    cases s.activeLevel <;> cases s.level <;> rfl
  have hfound : t.found = s.found := by
    rw [ht]
    rfl
  refine ⟨hresets ▸ nodup_timers, fun tmr _ time htime ↦ ?_, fun hnow ↦ ?_, fun hnow ↦ ?_⟩
  · rw [ht] at htime ⊢
    exact hlater tmr time htime
  · have hbefore : s.active = false := by simpa [hactive] using hnow
    rw [sees, if_neg (Bool.eq_false_iff.mp hbefore)] at hstill
    have hnot : t.found = none := hfound.trans ((h.released hbefore).mpr hstill)
    exact ⟨iff_of_false (not_not.mpr hnot) (hreset _), fun ran hran ↦
      absurd (hran.symm.trans hnot) (Option.some_ne_none ran)⟩
  · have hbefore : s.active = true := by simpa [hactive] using hnow
    rw [sees, if_pos hbefore] at hstill
    exact iff_of_false (hfound ▸ (h.pushed hbefore).1.mpr hstill) (hreset _)

/-- A timer is reset. -/
theorem Sees.reset (h : s.Sees) (hstep : s.step .reset = some t) : t.Sees := by
  rw [step] at hstep
  split at hstep
  · exact absurd hstep.symm (Option.some_ne_none t)
  · rename_i tmr time rest hresets
    obtain rfl := Option.some.inj hstep
    have hmap : s.resets.map Prod.fst = tmr :: rest.map Prod.fst := by rw [hresets]; rfl
    obtain ⟨hnot, hnodup⟩ := List.nodup_cons.mp (hmap ▸ h.nodup)
    -- a timer is as still as before, since this one was to be reset and now runs
    have hstill (tmr' : ButtonTimer n) : Still { s with
        resets := rest, due := Function.update s.due tmr (some (time + s.interval tmr)) } tmr' ↔
        s.Still tmr' := by
      rw [Still, Still, hmap, List.mem_cons, not_or]
      by_cases heq : tmr' = tmr
      · subst heq
        simp
      · simp [heq]
    refine ⟨hnodup, fun tmr' hmem time' htime ↦ ?_, fun hnow ↦ ?_, fun hnow ↦ ?_⟩
    · have hne : tmr' ≠ tmr := fun heq ↦ hnot (heq ▸ hmem)
      change Function.update s.due tmr _ tmr' = some time' at htime
      rw [Function.update_of_ne hne] at htime
      exact h.early tmr' (hmap ▸ List.mem_cons_of_mem _ hmem) time' htime
    · simp only [hstill]
      exact h.pushed hnow
    · simp only [hstill]
      exact h.released hnow

/-- The button when a timer has expired, before its callback. -/
def stopped (s : Button n) (tmr : ButtonTimer n) : Button n :=
  { s with due := Function.update s.due tmr none }

@[simp] theorem stopped_active {tmr : ButtonTimer n} : (s.stopped tmr).active = s.active := rfl

theorem stopped_still_of_ne {tmr tmr' : ButtonTimer n} (hne : tmr' ≠ tmr) :
    (s.stopped tmr).Still tmr' ↔ s.Still tmr' := by
  simp [Still, stopped, hne]

theorem stopped_still_self {tmr : ButtonTimer n} (hnot : tmr ∉ s.resets.map Prod.fst) :
    (s.stopped tmr).Still tmr :=
  ⟨Function.update_self .., hnot⟩

theorem Still.stopped {tmr tmr' : ButtonTimer n} (h : s.Still tmr') :
    (s.stopped tmr).Still tmr' := by
  by_cases heq : tmr' = tmr
  · exact heq ▸ stopped_still_self (heq ▸ h.2)
  · exact (stopped_still_of_ne heq).mpr h

/-- A timer that expires was running, and is not to be reset. -/
theorem Sees.running (h : s.Sees) {tmr : ButtonTimer n} (hstep : s.step (.expire tmr) = some t) :
    tmr ∉ s.resets.map Prod.fst ∧ ¬s.Still tmr ∧ t = (s.stopped tmr).timerCb tmr := by
  rw [step] at hstep
  split at hstep
  · exact absurd hstep.symm (Option.some_ne_none t)
  · rename_i time htime
    split_ifs at hstep with hdue
    refine ⟨fun hmem ↦ ?_, fun hstill ↦ ?_, (Option.some.inj hstep).symm⟩
    · exact absurd hdue (h.early tmr hmem time htime).not_ge
    · exact Option.some_ne_none time (htime.symm.trans hstill.1)

theorem Sees.stopped_early (h : s.Sees) {tmr : ButtonTimer n} :
    ∀ tmr' ∈ (s.stopped tmr).resets.map Prod.fst, ∀ time,
      (s.stopped tmr).due tmr' = some time → (s.stopped tmr).now < time := by
  intro tmr' hmem time htime
  change Function.update s.due tmr none tmr' = some time at htime
  by_cases heq : tmr' = tmr
  · rw [heq, Function.update_self] at htime
    exact absurd htime.symm (Option.some_ne_none time)
  · rw [Function.update_of_ne heq] at htime
    exact h.early tmr' hmem time htime

/-- The button after a timer that has seen nothing. -/
theorem Sees.stopped (h : s.Sees) {tmr : ButtonTimer n}
    (hpush : s.active = true → tmr ≠ .tapPsh) (hrelease : s.active = false → tmr ≠ .tapRls) :
    (s.stopped tmr).Sees where
  nodup := h.nodup
  early := h.stopped_early
  pushed hactive := by
    rw [stopped_still_of_ne (hpush hactive).symm]
    obtain ⟨hfound, hran⟩ := h.pushed hactive
    exact ⟨hfound, fun ran hsome i hi ↦ (hran ran hsome i hi).stopped⟩
  released hactive := by
    rw [stopped_still_of_ne (hrelease hactive).symm]
    exact h.released hactive

/-- The push timer expires. -/
theorem Sees.tapPsh (h : s.Sees) (hstep : s.step (.expire .tapPsh) = some t) :
    s.Fits (.expire .tapPsh) ∧ t.Sees := by
  obtain ⟨hnot, hstill, rfl⟩ := h.running hstep
  by_cases hactive : s.active = true
  · have hfound : s.found = none := not_not.mp (mt (h.pushed hactive).1.mp hstill)
    refine ⟨fun _ ↦ hfound, ?_⟩
    rw [timerCb, buttonTapPushCb, stopped_active, if_pos hactive]
    refine ⟨h.nodup, h.stopped_early, fun _ ↦ ?_, fun hnow ↦ absurd hactive ?_⟩
    · refine ⟨iff_of_true (Option.some_ne_none []) (stopped_still_self hnot), ?_⟩
      rintro ran hran i hi
      obtain rfl := Option.some.inj hran
      exact absurd hi List.not_mem_nil
    · exact Bool.eq_false_iff.mp hnow
  · have hreleased := Bool.eq_false_of_not_eq_true hactive
    refine ⟨fun hnow ↦ absurd hnow hactive, ?_⟩
    rw [timerCb, buttonTapPushCb, stopped_active, if_neg hactive]
    exact h.stopped (fun hnow ↦ absurd hnow hactive) fun _ ↦ nofun

/-- The release timer expires. -/
theorem Sees.tapRls (h : s.Sees) (hstep : s.step (.expire .tapRls) = some t) :
    s.Fits (.expire .tapRls) ∧ t.Sees := by
  obtain ⟨hnot, hstill, rfl⟩ := h.running hstep
  by_cases hactive : s.active = true
  · refine ⟨fun hnow ↦ absurd hactive (Bool.eq_false_iff.mp hnow), ?_⟩
    rw [timerCb, buttonTapRlsCb, stopped_active, if_pos hactive]
    exact h.stopped (fun _ ↦ nofun) fun hnow ↦ absurd hactive (Bool.eq_false_iff.mp hnow)
  · have hreleased := Bool.eq_false_of_not_eq_true hactive
    refine ⟨fun _ ↦ mt (h.released hreleased).mp hstill, ?_⟩
    rw [timerCb, buttonTapRlsCb, stopped_active, if_neg hactive]
    refine ⟨h.nodup, h.stopped_early, fun hnow ↦ absurd hnow hactive, fun _ ↦ ?_⟩
    exact iff_of_true rfl (stopped_still_self hnot)

/-- A timer for a long press expires. -/
theorem Sees.cb (h : s.Sees) {i : Fin n} (hstep : s.step (.expire (.cb i)) = some t) :
    s.Fits (.expire (.cb i)) ∧ t.Sees := by
  obtain ⟨hnot, hstill, rfl⟩ := h.running hstep
  have hsees : (s.stopped (.cb i)).Sees := h.stopped (fun _ ↦ nofun) fun _ ↦ nofun
  refine ⟨fun hactive ran hran hmem ↦ hstill ((h.pushed hactive).2 ran hran i hmem), ?_⟩
  rw [timerCb, buttonPressCb, stopped_active]
  split_ifs with hactive
  · refine ⟨hsees.nodup, hsees.early, fun _ ↦ ?_, fun hnow ↦ absurd hactive ?_⟩
    · obtain ⟨hfound, hall⟩ := hsees.pushed hactive
      refine ⟨Iff.trans (by simp) hfound, fun ran hran j hj ↦ ?_⟩
      obtain ⟨before, hbefore, rfl⟩ := Option.map_eq_some_iff.mp hran
      rcases List.mem_append.mp hj with hj | hj
      · exact hall before hbefore j hj
      · obtain rfl := List.mem_singleton.mp hj
        exact stopped_still_self hnot
    · exact Bool.eq_false_iff.mp hnow
  · exact hsees

theorem Fresh.sees (h : s.Fresh) (hreleased : s.active = false) : s.Sees where
  nodup := by simp [h.resets]
  early := by simp [h.resets]
  pushed hnow := absurd (hnow.symm.trans hreleased) Bool.true_eq_false.mp
  released _ := iff_of_true h.found ⟨by rw [h.due], by simp [h.resets]⟩

/-- **Where levels are held, the timers do not find what they must not.** -/
theorem Sees.step (h : s.Sees) (hsteady : s.Steady op) (hstep : s.step op = some t) :
    s.Fits op ∧ t.Sees := by
  cases op with
  | tick =>
    obtain rfl := Option.some.inj hstep
    refine ⟨trivial, h.nodup, fun tmr hmem ↦ ?_, h.pushed, h.released⟩
    rw [show s.resets = [] from hsteady.1] at hmem
    exact absurd hmem List.not_mem_nil
  | edge => exact ⟨trivial, h.edge hsteady hstep⟩
  | reset => exact ⟨trivial, h.reset hstep⟩
  | expire tmr =>
    cases tmr with
    | tapPsh => exact h.tapPsh hstep
    | tapRls => exact h.tapRls hstep
    | cb i => exact h.cb hstep

end Button

/-- **The callbacks of a button keep to the protocol throughout a run whose steps are as in `Fits`,
and in no other; and so are the steps if the button is not pushed at first and the levels are held
for as long as the timers need.** -/
theorem protocol_iff {n : ℕ} {s t : Button n} {ops : List (Button.Op n)} (hs : s.Fresh)
    (h : AnyRun Button.step s ops t) :
    (Always Button.step Button.Protocol s ops ↔ Run Button.step Button.Fits s ops t) ∧
      (s.active = false → Run Button.step Button.Steady s ops t →
        Run Button.step Button.Fits s ops t) := by
  constructor
  · refine h.always_iff_while (J := Button.Keeps) ?_ ?_ hs.keeps hs.keeps.protocol
    · intro s op t hkeeps _ hprotocol _ hstep
      exact (Button.step_spec hkeeps hstep).2 hprotocol
    · intro s op t hkeeps _ _ hstep
      exact (Button.step_spec hkeeps hstep).1
  · intro hreleased hsteady
    exact hsteady.imp (fun s op t hsees hsteady hstep ↦ hsees.step hsteady hstep)
      (hs.sees hreleased)

/-- A button whose level is low when it is pushed. -/
def oneButton : Button 1 where
  activeLevel := false
  level := true
  state := .IDLE
  now := 0
  interval
    | .tapPsh => 1
    | .tapRls => 1
    | .cb _ => 3
  due := fun _ ↦ none
  resets := []
  calls := []
  found := none

theorem oneButton_fresh : oneButton.Fresh := ⟨rfl, rfl, rfl, rfl, rfl⟩

/-- The button is pushed for a long press and released, and every level is held. -/
theorem protocol_iff_oneButton : Always Button.step Button.Protocol oneButton
    [.edge, .reset, .reset, .reset, .tick, .expire .tapPsh, .expire .tapRls, .tick, .tick,
      .expire (.cb 0), .edge, .reset, .reset, .reset, .tick, .expire .tapPsh, .expire .tapRls] := by
  have hsteady : Run Button.step Button.Steady oneButton
      [.edge, .reset, .reset, .reset, .tick, .expire .tapPsh, .expire .tapRls, .tick, .tick,
        .expire (.cb 0), .edge, .reset, .reset, .reset, .tick, .expire .tapPsh, .expire .tapRls]
      _ := run_of_foldlM rfl
  obtain ⟨hiff, hheld⟩ := protocol_iff oneButton_fresh hsteady.any
  exact hiff.mpr (hheld rfl hsteady)

/-- A glitch while the button is pushed: the push timer finds it pushed twice. -/
theorem not_protocol_glitch : ¬∀ (n : ℕ) (s : Button n) ops t, s.Fresh →
    AnyRun Button.step s ops t → t.Protocol := by
  intro h
  have hprotocol := h 1 oneButton [.edge, .reset, .reset, .reset, .tick, .expire .tapPsh, .edge,
      .edge, .reset, .reset, .reset, .reset, .reset, .reset, .tick, .expire .tapPsh] _
    oneButton_fresh <| anyRun_of_foldlM rfl
  have hpush : PressAllowed _ _ [.push] .push := hprotocol.last rfl
  exact hpush rfl

end Ddmz.Touch
