import Ddmz.Wifi.Handles

/-!
# The lock of the configurations

A smart configuration is guarded by `g_sc_mux` and by `inSmartconfig`, a configuration over
Bluetooth by `g_ble_mux`. A request deletes the task of the one before at any point, and a task
that is deleted inside leaves the mutex taken and the flag set: `inSmartconfig` then turns away
every later task, and a later `BleConfigTask` waits for the mutex until its timeout.

`Responsive` says that whoever has a mutex or has set the flag is a task that will give it back, and
that a request gets through that is made when no task is there. It holds throughout a run if and
only if no request deletes a task that is inside: `responsive_iff`.
-/

namespace Ddmz.Wifi

open Places

/-! ## Inside -/

def SmartPlace.inside : SmartPlace → Bool
  | .checkInSmartconfig | .take | .clearPairing _ => false
  | _ => true

def WifiPlace.inside : WifiPlace → Bool
  | .smart p => p.inside
  | _ => false

def WifiPlace.named : WifiPlace → Bool
  | .exit => false
  | _ => true

instance : Places WifiPlace where
  inside := WifiPlace.inside
  named := WifiPlace.named
  named_of_inside p h := by
    cases p with
    | exit => cases h
    | _ => rfl

def StartPlace.inside : StartPlace → Bool
  | .take => false
  | _ => true

def BlePlace.inside : BlePlace → Bool
  | .start p => p.inside
  | _ => false

def BlePlace.named : BlePlace → Bool
  | .exit => false
  | _ => true

instance : Places BlePlace where
  inside := BlePlace.inside
  named := BlePlace.named
  named_of_inside p h := by
    cases p with
    | exit => cases h
    | _ => rfl

/-! ## `WifiConfigTask` -/

/-- The places at which `inSmartconfig` is set. -/
def SmartPlace.flagged : SmartPlace → Bool
  | .wait | .stop _ | .clearInSmartconfig _ => true
  | _ => false

def WifiPlace.flagged : WifiPlace → Bool
  | .smart p => p.flagged
  | _ => false

/-- How many steps it is to where the mutex has been given back. -/
def SmartPlace.toGive : SmartPlace → ℕ
  | .clearStopReq => 7
  | .start => 6
  | .setInSmartconfig => 5
  | .wait => 4
  | .stop _ => 3
  | .clearInSmartconfig _ => 2
  | .give _ => 1
  | _ => 0

def WifiPlace.toGive : WifiPlace → ℕ
  | .smart p => p.toGive
  | _ => 0

/-- How many steps it is to where `esp_smartconfig_start` has been called. -/
def WifiPlace.toStart : WifiPlace → ℕ
  | .setPairing => 6
  | .getMode => 5
  | .smart .checkInSmartconfig => 4
  | .smart .take => 3
  | .smart .clearStopReq => 2
  | .smart .start => 1
  | _ => 0

section SmartConfig

variable {t : ℕ} {answer : EspErr} {s s' : Station} {p : WifiPlace}

/-- The task is never stuck. -/
theorem exists_wifiConfigTask (t : ℕ) (s : Station) (p : WifiPlace) :
    ∃ s', wifiConfigTask t .OK s p = some s' := by
  cases p with
  | smart q =>
    cases q with
    | take =>
      rw [wifiConfigTask, wifiSmartConnect]
      split_ifs <;> exact ⟨_, rfl⟩
    | _ => exact ⟨_, rfl⟩
  | _ => exact ⟨_, rfl⟩

theorem wifiConfigTask_take (h : wifiConfigTask t answer s (.smart .take) = some s') :
    s.sc.mux = none ∧
        s' = { s with sc := { s.sc with mux := some t } }.scGoto t (.smart .clearStopReq) ∨
      s.sc.mux ≠ none ∧ s' = s.scGoto t (.result .TIMEOUT) := by
  by_cases hmux : s.sc.mux = none
  · rw [wifiConfigTask, wifiSmartConnect, if_pos hmux] at h
    exact .inl ⟨hmux, (Option.some.inj h).symm⟩
  · rw [wifiConfigTask, wifiSmartConnect, if_neg hmux] at h
    exact .inr ⟨hmux, (Option.some.inj h).symm⟩

theorem wifiConfigTask_start (h : wifiConfigTask t answer s (.smart .start) = some s') :
    s' = s.scGoto t (.smart .setInSmartconfig) := by
  by_cases hanswer : answer = .OK
  · rw [wifiConfigTask, wifiSmartConnect, if_pos hanswer] at h
    exact (Option.some.inj h).symm
  · rw [wifiConfigTask, wifiSmartConnect, if_neg hanswer] at h
    cases h

theorem wifiConfigTask_moves (hp : s.sc.place t = some p)
    (h : wifiConfigTask t answer s p = some s') : s.sc.Moves t s'.sc ∧ s'.ble = s.ble := by
  cases p with
  | setPairing | result _ =>
    obtain rfl := Option.some.inj h
    exact ⟨.goes hp rfl rfl, rfl⟩
  | getMode =>
    obtain rfl := Option.some.inj h
    refine ⟨.goes hp ?_ ?_, rfl⟩
    · split_ifs <;> rfl
    · split_ifs <;> rfl
  | clearHandle =>
    obtain rfl := Option.some.inj h
    exact ⟨.forgets hp rfl rfl rfl, rfl⟩
  | exit =>
    obtain rfl := Option.some.inj h
    exact ⟨.exits hp rfl, rfl⟩
  | smart q =>
    cases q with
    | checkInSmartconfig =>
      obtain rfl := Option.some.inj h
      refine ⟨.goes hp ?_ ?_, rfl⟩
      · split_ifs <;> rfl
      · split_ifs <;> rfl
    | take =>
      obtain ⟨hmux, rfl⟩ | ⟨-, rfl⟩ := wifiConfigTask_take h
      · exact ⟨.takes hp hmux rfl rfl, rfl⟩
      · exact ⟨.goes hp rfl rfl, rfl⟩
    | start =>
      obtain rfl := wifiConfigTask_start h
      exact ⟨.goes hp rfl rfl, rfl⟩
    | give _ =>
      obtain rfl := Option.some.inj h
      exact ⟨.gives hp rfl rfl rfl, rfl⟩
    | _ =>
      obtain rfl := Option.some.inj h
      exact ⟨.goes hp rfl rfl, rfl⟩

/-- `inSmartconfig` says whether the task that is inside has set it, and is clear while the mutex
is free. -/
structure Station.Flagged (s : Station) : Prop where
  inside : ∀ t p, s.sc.place t = some p → Places.inside p = true → s.inSmartconfig = p.flagged
  held : s.inSmartconfig = true → s.sc.mux ≠ none

theorem Station.flagged_init : Station.init.Flagged where
  inside _ _ hp := nomatch hp
  held hset := nomatch hset

theorem Station.Flagged.clear (h : s.Flagged) (hmux : s.sc.mux = none) : s.inSmartconfig = false :=
  Bool.not_eq_true _ ▸ fun hset ↦ h.held hset hmux

theorem place_scGoto {q : WifiPlace} {P : WifiPlace → Prop} (h : P q) (p' : WifiPlace)
    (hp' : (s.scGoto t q).sc.place t = some p') : P p' :=
  Option.some.inj (Tasks.place_goto.symm.trans hp') ▸ h

/-- What a step of the task does to the flag. -/
theorem wifiConfigTask_flagged (hp : s.sc.place t = some p) (hs : s.Flagged)
    (howns : Owns s.sc.mux s.sc.Inside) (h : wifiConfigTask t answer s p = some s') :
    (∀ p', s'.sc.place t = some p' → inside p' = true → s'.inSmartconfig = p'.flagged) ∧
      (s'.inSmartconfig = true → s'.sc.mux ≠ none) ∧
      (inside p = false → s'.inSmartconfig = s.inSmartconfig) := by
  cases p with
  | setPairing | result _ | clearHandle =>
    obtain rfl := Option.some.inj h
    exact ⟨place_scGoto nofun, hs.held, fun _ ↦ rfl⟩
  | getMode =>
    obtain rfl := Option.some.inj h
    refine ⟨place_scGoto ?_, hs.held, fun _ ↦ rfl⟩
    split_ifs <;> nofun
  | exit =>
    obtain rfl := Option.some.inj h
    exact ⟨fun p' hp' ↦ (nomatch Tasks.place_delete.symm.trans hp'), hs.held, fun _ ↦ rfl⟩
  | smart q =>
    cases q with
    | checkInSmartconfig =>
      obtain rfl := Option.some.inj h
      refine ⟨place_scGoto ?_, hs.held, fun _ ↦ rfl⟩
      split_ifs <;> nofun
    | take =>
      obtain ⟨hmux, rfl⟩ | ⟨-, rfl⟩ := wifiConfigTask_take h
      · exact ⟨place_scGoto fun _ ↦ hs.clear hmux, nofun, fun _ ↦ rfl⟩
      · exact ⟨place_scGoto nofun, hs.held, fun _ ↦ rfl⟩
    | clearStopReq | wait | stop _ =>
      obtain rfl := Option.some.inj h
      have hflag := hs.inside t _ hp rfl
      exact ⟨place_scGoto fun _ ↦ hflag, hs.held, nofun⟩
    | start =>
      obtain rfl := wifiConfigTask_start h
      have hflag := hs.inside t _ hp rfl
      exact ⟨place_scGoto fun _ ↦ hflag, hs.held, nofun⟩
    | setInSmartconfig =>
      obtain rfl := Option.some.inj h
      refine ⟨place_scGoto fun _ ↦ rfl, fun _ hnone ↦ ?_, nofun⟩
      exact nomatch hnone.symm.trans (howns t ⟨_, hp, rfl⟩)
    | clearInSmartconfig _ =>
      obtain rfl := Option.some.inj h
      exact ⟨place_scGoto fun _ ↦ rfl, nofun, nofun⟩
    | give _ =>
      obtain rfl := Option.some.inj h
      refine ⟨place_scGoto nofun, fun hset ↦ ?_, nofun⟩
      exact nomatch (hs.inside t _ hp rfl).symm.trans hset
    | clearPairing _ =>
      obtain rfl := Option.some.inj h
      exact ⟨place_scGoto nofun, hs.held, fun _ ↦ rfl⟩

theorem Station.Flagged.scTask (hs : s.Flagged) (hp : s.sc.place t = some p)
    (howns : Owns s.sc.mux s.sc.Inside) (h : wifiConfigTask t answer s p = some s') :
    s'.Flagged := by
  obtain ⟨hinside, hheld, hsame⟩ := wifiConfigTask_flagged hp hs howns h
  refine ⟨fun u q hq hin ↦ ?_, hheld⟩
  by_cases hut : u = t
  · exact hinside q (hut ▸ hq) hin
  · -- another task is inside, and task `t` is not
    rw [(wifiConfigTask_moves hp h).1.place_of_ne hut] at hq
    have hout : Places.inside p = false := by
      refine Bool.eq_false_iff.mpr fun hpin ↦ hut ?_
      exact Option.some.inj ((howns u ⟨q, hq, hin⟩).symm.trans (howns t ⟨p, hp, hpin⟩))
    exact (hsame hout).trans (hs.inside u q hq hin)

/-- A task that is inside goes on to give the mutex back. -/
theorem wifiConfigTask_toGive (hp : s.sc.place t = some p) (hinside : inside p = true)
    (h : wifiConfigTask t answer s p = some s') :
    (s'.inSmartconfig = s.inSmartconfig ∧ p.flagged = false ∧ s'.sc.mux = none) ∨
      ∃ p', s'.sc.place t = some p' ∧ inside p' = true ∧ p'.toGive < p.toGive := by
  cases p with
  | smart q =>
    cases q with
    | checkInSmartconfig | take | clearPairing _ => cases hinside
    | start =>
      obtain rfl := wifiConfigTask_start h
      exact .inr ⟨_, Tasks.place_goto, rfl, Nat.lt_succ_self _⟩
    | give _ =>
      obtain rfl := Option.some.inj h
      exact .inl ⟨rfl, rfl, rfl⟩
    | _ =>
      obtain rfl := Option.some.inj h
      exact .inr ⟨_, Tasks.place_goto, rfl, Nat.lt_succ_self _⟩
  | _ => cases hinside

/-- A task on its way comes nearer, if the flag is clear and the mutex is free. -/
theorem wifiConfigTask_toStart (hp : s.sc.place t = some p) (hpos : 1 < p.toStart)
    (hmode : p = .getMode → answer = .OK)
    (hfree : inside p = false → s.inSmartconfig = false ∧ s.sc.mux = none)
    (h : wifiConfigTask t answer s p = some s') :
    ∃ p', s'.sc.place t = some p' ∧ 0 < p'.toStart ∧ p'.toStart < p.toStart := by
  cases p with
  | setPairing =>
    obtain rfl := Option.some.inj h
    exact ⟨_, Tasks.place_goto, Nat.zero_lt_succ _, Nat.lt_succ_self _⟩
  | getMode =>
    rw [wifiConfigTask, if_pos (hmode rfl)] at h
    obtain rfl := Option.some.inj h
    exact ⟨_, Tasks.place_goto, Nat.zero_lt_succ _, Nat.lt_succ_self _⟩
  | smart q =>
    cases q with
    | checkInSmartconfig =>
      rw [wifiConfigTask, wifiSmartConnect, (hfree rfl).1] at h
      obtain rfl := Option.some.inj h
      exact ⟨_, Tasks.place_goto, Nat.zero_lt_succ _, Nat.lt_succ_self _⟩
    | take =>
      obtain ⟨-, rfl⟩ | ⟨hmux, -⟩ := wifiConfigTask_take h
      · exact ⟨_, Tasks.place_goto, Nat.zero_lt_succ _, Nat.lt_succ_self _⟩
      · exact absurd (hfree rfl).2 hmux
    | clearStopReq =>
      obtain rfl := Option.some.inj h
      exact ⟨_, Tasks.place_goto, Nat.zero_lt_succ _, Nat.lt_succ_self _⟩
    | start => exact absurd hpos (Nat.lt_irrefl 1)
    | _ => exact absurd hpos (Nat.not_lt_zero 1)
  | _ => exact absurd hpos (Nat.not_lt_zero 1)

theorem WifiPlace.named_of_toStart (h : 0 < p.toStart) : Places.named p = true := by
  cases p with
  | exit => cases h
  | _ => rfl

theorem WifiPlace.one_lt_toStart (h : 0 < p.toStart) (hp : p ≠ .smart .start) : 1 < p.toStart := by
  cases p with
  | setPairing | getMode => exact Nat.lt_of_sub_ne_zero nofun
  | smart q =>
    cases q with
    | checkInSmartconfig | take | clearStopReq => exact Nat.lt_of_sub_ne_zero nofun
    | start => exact absurd rfl hp
    | _ => cases h
  | _ => cases h

end SmartConfig

/-! ## `BleConfigTask` -/

/-- How many steps it is at most to where the mutex has been given back. -/
def StartPlace.toGive : StartPlace → ℕ
  | .controller => 7
  | .bluedroid => 6
  | .profileInit => 5
  | .wait => 4
  | .stop _ => 3
  | .shutDown _ => 2
  | .give _ => 1
  | .take => 0

def BlePlace.toGive : BlePlace → ℕ
  | .start p => p.toGive
  | _ => 0

/-- How many steps it is at most to where `esp_blufi_profile_init` has been called. -/
def BlePlace.toInit : BlePlace → ℕ
  | .stop => 9
  | .shutDown => 8
  | .clearStopReq => 7
  | .clearConfiging => 6
  | .setPairing => 5
  | .start .take => 4
  | .start .controller => 3
  | .start .bluedroid => 2
  | .start .profileInit => 1
  | _ => 0

section BleConfig

variable {t : ℕ} {answer : EspErr} {s s' : Station} {p : BlePlace}

theorem exists_bleConfigTask (t : ℕ) (s : Station) (p : BlePlace) :
    ∃ s', bleConfigTask t .OK s p = some s' := by
  cases p with
  | start q =>
    cases q with
    | take =>
      rw [bleConfigTask, bleConfigStart]
      split_ifs <;> exact ⟨_, rfl⟩
    | _ => exact ⟨_, rfl⟩
  | _ => exact ⟨_, rfl⟩

theorem bleConfigTask_take (h : bleConfigTask t answer s (.start .take) = some s') :
    s.ble.mux = none ∧
        s' = { s with ble := { s.ble with mux := some t } }.bleGoto t (.start .controller) ∨
      s.ble.mux ≠ none ∧ s' = s.bleGoto t (.result .TIMEOUT) := by
  by_cases hmux : s.ble.mux = none
  · rw [bleConfigTask, bleConfigStart, if_pos hmux] at h
    exact .inl ⟨hmux, (Option.some.inj h).symm⟩
  · rw [bleConfigTask, bleConfigStart, if_neg hmux] at h
    exact .inr ⟨hmux, (Option.some.inj h).symm⟩

theorem bleConfigTask_moves (hp : s.ble.place t = some p)
    (h : bleConfigTask t answer s p = some s') :
    s.ble.Moves t s'.ble ∧ s'.sc = s.sc ∧ s'.inSmartconfig = s.inSmartconfig := by
  cases p with
  | stop =>
    obtain rfl := Option.some.inj h
    refine ⟨.goes hp ?_ ?_, rfl, rfl⟩
    · split_ifs <;> rfl
    · split_ifs <;> rfl
  | shutDown | clearStopReq | clearConfiging | setPairing | result _ =>
    obtain rfl := Option.some.inj h
    exact ⟨.goes hp rfl rfl, rfl, rfl⟩
  | clearHandle =>
    obtain rfl := Option.some.inj h
    exact ⟨.forgets hp rfl rfl rfl, rfl, rfl⟩
  | exit =>
    obtain rfl := Option.some.inj h
    exact ⟨.exits hp rfl, rfl, rfl⟩
  | start q =>
    cases q with
    | take =>
      obtain ⟨hmux, rfl⟩ | ⟨-, rfl⟩ := bleConfigTask_take h
      · exact ⟨.takes hp hmux rfl rfl, rfl, rfl⟩
      · exact ⟨.goes hp rfl rfl, rfl, rfl⟩
    | profileInit | shutDown _ =>
      obtain rfl := Option.some.inj h
      exact ⟨.goes hp rfl rfl, rfl, rfl⟩
    | give _ =>
      obtain rfl := Option.some.inj h
      exact ⟨.gives hp rfl rfl rfl, rfl, rfl⟩
    | _ =>
      obtain rfl := Option.some.inj h
      refine ⟨.goes hp ?_ ?_, rfl, rfl⟩
      · dsimp only
        split_ifs <;> rfl
      · dsimp only
        split_ifs <;> rfl

/-- A task that is inside goes on to give the mutex back. -/
theorem bleConfigTask_toGive (hp : s.ble.place t = some p) (hinside : inside p = true)
    (h : bleConfigTask t answer s p = some s') :
    s'.ble.mux = none ∨
      ∃ p', s'.ble.place t = some p' ∧ inside p' = true ∧ p'.toGive < p.toGive := by
  cases p with
  | start q =>
    cases q with
    | take => cases hinside
    | give _ =>
      obtain rfl := Option.some.inj h
      exact .inl rfl
    | profileInit | shutDown _ =>
      obtain rfl := Option.some.inj h
      exact .inr ⟨_, Tasks.place_goto, rfl, Nat.lt_succ_self _⟩
    | _ =>
      obtain rfl := Option.some.inj h
      refine .inr ⟨_, Tasks.place_goto, ?_, ?_⟩
      · dsimp only
        split_ifs <;> rfl
      · dsimp only
        split_ifs
        · exact Nat.le_of_ble_eq_true rfl
        · exact Nat.le_of_ble_eq_true rfl
  | _ => cases hinside

/-- A task on its way comes nearer, if the mutex is free and Bluetooth comes up. -/
theorem bleConfigTask_toInit (hp : s.ble.place t = some p) (hpos : 1 < p.toInit)
    (hup : p = .start .controller ∨ p = .start .bluedroid → answer = .OK)
    (hfree : inside p = false → s.ble.mux = none) (h : bleConfigTask t answer s p = some s') :
    ∃ p', s'.ble.place t = some p' ∧ 0 < p'.toInit ∧ p'.toInit < p.toInit := by
  cases p with
  | stop =>
    obtain rfl := Option.some.inj h
    refine ⟨_, Tasks.place_goto, ?_, ?_⟩
    · split_ifs <;> decide
    · split_ifs <;> decide
  | shutDown | clearStopReq | clearConfiging | setPairing =>
    obtain rfl := Option.some.inj h
    exact ⟨_, Tasks.place_goto, Nat.zero_lt_succ _, Nat.lt_succ_self _⟩
  | start q =>
    cases q with
    | take =>
      obtain ⟨-, rfl⟩ | ⟨hmux, -⟩ := bleConfigTask_take h
      · exact ⟨_, Tasks.place_goto, Nat.zero_lt_succ _, Nat.lt_succ_self _⟩
      · exact absurd (hfree rfl) hmux
    | controller =>
      rw [bleConfigTask, bleConfigStart, if_pos (hup (.inl rfl))] at h
      obtain rfl := Option.some.inj h
      exact ⟨_, Tasks.place_goto, Nat.zero_lt_succ _, Nat.lt_succ_self _⟩
    | bluedroid =>
      rw [bleConfigTask, bleConfigStart, if_pos (hup (.inr rfl))] at h
      obtain rfl := Option.some.inj h
      exact ⟨_, Tasks.place_goto, Nat.zero_lt_succ _, Nat.lt_succ_self _⟩
    | profileInit => exact absurd hpos (Nat.lt_irrefl 1)
    | _ => exact absurd hpos (Nat.not_lt_zero 1)
  | _ => exact absurd hpos (Nat.not_lt_zero 1)

theorem BlePlace.named_of_toInit (h : 0 < p.toInit) : Places.named p = true := by
  cases p with
  | exit => cases h
  | _ => rfl

theorem BlePlace.one_lt_toInit (h : 0 < p.toInit) (hp : p ≠ .start .profileInit) :
    1 < p.toInit := by
  cases p with
  | stop | shutDown | clearStopReq | clearConfiging | setPairing =>
    exact Nat.lt_of_sub_ne_zero nofun
  | start q =>
    cases q with
    | take | controller | bluedroid => exact Nat.lt_of_sub_ne_zero nofun
    | profileInit => exact absurd rfl hp
    | _ => cases h
  | _ => cases h

end BleConfig

/-! ## Steps -/

/-- A step of smart configuration task `t`. -/
def Op.ofScTask (t : ℕ) : Op → Bool
  | .scTask u _ => u = t
  | _ => false

/-- A step of the caller of `WifiSmartConfig`, or of task `n` that is created for it. -/
def Op.ofScRequest (n : ℕ) : Op → Bool
  | .smartConfig _ => true
  | .scTask u _ => u = n
  | _ => false

def Op.ofBleTask (t : ℕ) : Op → Bool
  | .bleTask u _ => u = t
  | _ => false

def Op.ofBleRequest (n : ℕ) : Op → Bool
  | .bleConfig _ => true
  | .bleTask u _ => u = n
  | _ => false

namespace Station

/-- No request deletes a task that has taken the mutex and not given it back. -/
def Spares (s : Station) : Op → Prop
  | .smartConfig r => s.sc.Spares r
  | .bleConfig r => s.ble.Spares r
  | _ => True

/-- No other request replaces a smart configuration, its task can be created, and the Wi-Fi is in
the right mode. -/
def ScUndisturbed (s : Station) : Op → Prop
  | .smartConfig r => r ≠ .call ∧ r ≠ .create false
  | .scTask t answer => s.sc.place t = some .getMode → answer = .OK
  | _ => True

/-- No other request replaces a configuration over Bluetooth, its task can be created, and Bluetooth
comes up. -/
def BleUndisturbed (s : Station) : Op → Prop
  | .bleConfig r => r ≠ .call ∧ r ≠ .create false
  | .bleTask t answer =>
    s.ble.place t = some (.start .controller) ∨ s.ble.place t = some (.start .bluedroid) →
      answer = .OK
  | _ => True

/-- What holds whatever is deleted. -/
structure Orderly (s : Station) : Prop where
  sc : s.sc.Ordered
  ble : s.ble.Ordered
  flagged : s.Flagged

theorem orderly_init : init.Orderly := ⟨Tasks.ordered_init, Tasks.ordered_init, flagged_init⟩

variable {build : Build} {s s' : Station} {op : Op} {t n : ℕ}

/-- What a step does. -/
inductive Does (s : Station) : Op → Station → Prop
  | smartConfig {r : RequestStep} {sc : Tasks WifiPlace} (h : wifiSmartConfig s.sc r = some sc) :
    Does s (.smartConfig r) { s with sc }
  | bleConfig {r : RequestStep} {ble : Tasks BlePlace} (h : wifiBleConfig s.ble r = some ble) :
    Does s (.bleConfig r) { s with ble }
  | scTask {t : ℕ} {answer : EspErr} {p : WifiPlace} {s' : Station} (hp : s.sc.place t = some p)
    (h : wifiConfigTask t answer s p = some s') : Does s (.scTask t answer) s'
  | bleTask {t : ℕ} {answer : EspErr} {p : BlePlace} {s' : Station} (hp : s.ble.place t = some p)
    (h : bleConfigTask t answer s p = some s') : Does s (.bleTask t answer) s'
  | manager (op : ManagerOp) (manager : Manager) : Does s (.manager op) { s with manager }

theorem does_of_step (h : s.step build op = some s') : s.Does op s' := by
  cases op with
  | smartConfig r =>
    obtain ⟨sc, hsc, rfl⟩ := Option.map_eq_some_iff.mp h
    exact .smartConfig hsc
  | bleConfig r =>
    obtain ⟨ble, hble, rfl⟩ := Option.map_eq_some_iff.mp h
    exact .bleConfig hble
  | scTask t answer =>
    obtain ⟨p, hp, htask⟩ := Option.bind_eq_some_iff.mp h
    exact .scTask hp htask
  | bleTask t answer =>
    obtain ⟨p, hp, htask⟩ := Option.bind_eq_some_iff.mp h
    exact .bleTask hp htask
  | manager op =>
    obtain ⟨manager, -, rfl⟩ := Option.map_eq_some_iff.mp h
    exact .manager op manager

theorem Flagged.smartConfig {r : RequestStep} {sc : Tasks WifiPlace} (hs : s.Flagged)
    (h : wifiSmartConfig s.sc r = some sc) : ({ s with sc } : Station).Flagged := by
  obtain ⟨hmux, hplace⟩ := Tasks.config_cases h
  refine ⟨fun t p hp hin ↦ ?_, fun hset ↦ hmux ▸ hs.held hset⟩
  obtain hsame | ⟨-, -, hnone⟩ | ⟨-, hfirst⟩ := hplace t
  · exact hs.inside t p (hsame ▸ hp) hin
  · exact nomatch hnone.symm.trans hp
  · obtain rfl := Option.some.inj (hfirst.symm.trans hp)
    cases hin

theorem Orderly.step (hs : s.Orderly) (h : s.Does op s') : s'.Orderly := by
  cases h with
  | smartConfig h => exact ⟨hs.sc.config rfl rfl h, hs.ble, hs.flagged.smartConfig h⟩
  | bleConfig h => exact ⟨hs.sc, hs.ble.config rfl rfl h, hs.flagged.inside, hs.flagged.held⟩
  | scTask hp h =>
    obtain ⟨hmoves, hble⟩ := wifiConfigTask_moves hp h
    exact ⟨hs.sc.moves hmoves, hble ▸ hs.ble, hs.flagged.scTask hp hs.sc.owns h⟩
  | bleTask hp h =>
    obtain ⟨hmoves, hsc, hflag⟩ := bleConfigTask_moves hp h
    refine ⟨hsc ▸ hs.sc, hs.ble.moves hmoves, ?_, ?_⟩
    · rw [hsc, hflag]
      exact hs.flagged.inside
    · rw [hsc, hflag]
      exact hs.flagged.held
  | manager => exact ⟨hs.sc, hs.ble, hs.flagged.inside, hs.flagged.held⟩

/-- **A step keeps `g_sc_mux` guarded if and only if it spares who is inside.** -/
theorem Orderly.sc_guards (hs : s.Orderly) (hguards : Guards s.sc.mux s.sc.Inside)
    (h : s.Does op s') :
    Guards s'.sc.mux s'.sc.Inside ↔ ∀ r, op = .smartConfig r → s.sc.Spares r := by
  cases h with
  | @smartConfig r _ h =>
    rw [hs.sc.config_guards hguards rfl h]
    exact ⟨fun hspares r' hr ↦ Op.smartConfig.inj hr ▸ hspares, fun hspares ↦ hspares r rfl⟩
  | scTask hp h => exact iff_of_true ((wifiConfigTask_moves hp h).1.guards hguards) nofun
  | bleTask hp h =>
    obtain ⟨-, hsc, -⟩ := bleConfigTask_moves hp h
    rw [hsc]
    exact iff_of_true hguards nofun
  | _ => exact iff_of_true hguards nofun

/-- **A step keeps `g_ble_mux` guarded if and only if it spares who is inside.** -/
theorem Orderly.ble_guards (hs : s.Orderly) (hguards : Guards s.ble.mux s.ble.Inside)
    (h : s.Does op s') :
    Guards s'.ble.mux s'.ble.Inside ↔ ∀ r, op = .bleConfig r → s.ble.Spares r := by
  cases h with
  | @bleConfig r _ h =>
    rw [hs.ble.config_guards hguards rfl h]
    exact ⟨fun hspares r' hr ↦ Op.bleConfig.inj hr ▸ hspares, fun hspares ↦ hspares r rfl⟩
  | scTask hp h =>
    rw [(wifiConfigTask_moves hp h).2]
    exact iff_of_true hguards nofun
  | bleTask hp h => exact iff_of_true ((bleConfigTask_moves hp h).1.guards hguards) nofun
  | _ => exact iff_of_true hguards nofun

theorem spares_iff : s.Spares op ↔
    (∀ r, op = .smartConfig r → s.sc.Spares r) ∧ ∀ r, op = .bleConfig r → s.ble.Spares r := by
  cases op with
  | smartConfig r =>
    exact ⟨fun h ↦ ⟨fun r' hr ↦ Op.smartConfig.inj hr ▸ h, nofun⟩, fun h ↦ h.1 r rfl⟩
  | bleConfig r =>
    exact ⟨fun h ↦ ⟨nofun, fun r' hr ↦ Op.bleConfig.inj hr ▸ h⟩, fun h ↦ h.2 r rfl⟩
  | _ => exact iff_of_true trivial ⟨nofun, nofun⟩

/-! ## The mutex is given back -/

/-- What is done by others leaves a task where it is that is inside. -/
theorem Orderly.sc_place (hs : s.Orderly) (ht : s.sc.Inside t) (hspares : s.Spares op)
    (hown : op.ofScTask t = false) (h : s.Does op s') : s'.sc.place t = s.sc.place t := by
  cases h with
  | smartConfig h =>
    refine hs.sc.config_place (ht.imp fun p hp ↦ hp.1) (fun hr hhandle ↦ ?_) h
    subst hr
    exact hspares t hhandle ht
  | scTask hp h =>
    exact (wifiConfigTask_moves hp h).1.place_of_ne fun htu ↦ of_decide_eq_false hown htu.symm
  | bleTask hp h => rw [(bleConfigTask_moves hp h).2.1]
  | _ => rfl

theorem Orderly.ble_place (hs : s.Orderly) (ht : s.ble.Inside t) (hspares : s.Spares op)
    (hown : op.ofBleTask t = false) (h : s.Does op s') : s'.ble.place t = s.ble.place t := by
  cases h with
  | bleConfig h =>
    refine hs.ble.config_place (ht.imp fun p hp ↦ hp.1) (fun hr hhandle ↦ ?_) h
    subst hr
    exact hspares t hhandle ht
  | bleTask hp h =>
    exact (bleConfigTask_moves hp h).1.place_of_ne fun htu ↦ of_decide_eq_false hown htu.symm
  | scTask hp h => rw [(wifiConfigTask_moves hp h).2]
  | _ => rfl

theorem Orderly.sc_released (hs : s.Orderly) (ht : s.sc.Inside t) :
    LeadsTo (Station.step build) Spares (Op.ofScTask t)
      (fun s ↦ s.inSmartconfig = false ∧ s.sc.mux = none) s := by
  refine Tasks.leadsTo_of_inside (I := Orderly) Station.sc WifiPlace.toGive ?_ ?_ ?_ ?_ hs ht
  · exact fun s op s' hs _ hstep ↦ hs.step (does_of_step hstep)
  · intro s p _ hp
    obtain ⟨s', h⟩ := exists_wifiConfigTask t s p
    exact ⟨.scTask t .OK, s', decide_eq_true rfl, trivial, Option.bind_eq_some_iff.mpr ⟨p, hp, h⟩⟩
  · exact fun s op s' hs ht hok hstep hown ↦ hs.sc_place ht hok hown (does_of_step hstep)
  · intro s op s' p hs hp hin hstep hown
    cases does_of_step hstep with
    | scTask hq h =>
      obtain rfl := of_decide_eq_true hown
      obtain rfl := Option.some.inj (hp.symm.trans hq)
      refine (wifiConfigTask_toGive hp hin h).imp_left ?_
      rintro ⟨hflag, hclear, hmux⟩
      exact ⟨hflag.trans ((hs.flagged.inside _ _ hp hin).trans hclear), hmux⟩
    | _ => cases hown

theorem Orderly.ble_released (hs : s.Orderly) (ht : s.ble.Inside t) :
    LeadsTo (Station.step build) Spares (Op.ofBleTask t) (fun s ↦ s.ble.mux = none) s := by
  refine Tasks.leadsTo_of_inside (I := Orderly) Station.ble BlePlace.toGive ?_ ?_ ?_ ?_ hs ht
  · exact fun s op s' hs _ hstep ↦ hs.step (does_of_step hstep)
  · intro s p _ hp
    obtain ⟨s', h⟩ := exists_bleConfigTask t s p
    exact ⟨.bleTask t .OK, s', decide_eq_true rfl, trivial, Option.bind_eq_some_iff.mpr ⟨p, hp, h⟩⟩
  · exact fun s op s' hs ht hok hstep hown ↦ hs.ble_place ht hok hown (does_of_step hstep)
  · intro s op s' p hs hp hin hstep hown
    cases does_of_step hstep with
    | bleTask hq h =>
      obtain rfl := of_decide_eq_true hown
      obtain rfl := Option.some.inj (hp.symm.trans hq)
      exact bleConfigTask_toGive hp hin h
    | _ => cases hown

/-! ## A request gets through -/

/-- The lock of the smart configuration works. -/
def ScGuarded (s : Station) : Prop := s.Orderly ∧ Guards s.sc.mux s.sc.Inside

def BleGuarded (s : Station) : Prop := s.Orderly ∧ Guards s.ble.mux s.ble.Inside

theorem ScGuarded.step (hs : s.ScGuarded) (hpending : s.sc.Pending WifiPlace.toStart n)
    (hok : s.ScUndisturbed op) (h : s.Does op s') : s'.ScGuarded := by
  refine ⟨hs.1.step h, (hs.1.sc_guards hs.2 h).mpr ?_⟩
  rintro r rfl
  cases h with
  | smartConfig h => exact hpending.config hok.1 hok.2 h ▸ trivial

theorem BleGuarded.step (hs : s.BleGuarded) (hpending : s.ble.Pending BlePlace.toInit n)
    (hok : s.BleUndisturbed op) (h : s.Does op s') : s'.BleGuarded := by
  refine ⟨hs.1.step h, (hs.1.ble_guards hs.2 h).mpr ?_⟩
  rintro r rfl
  cases h with
  | bleConfig h => exact hpending.config hok.1 hok.2 h ▸ trivial

/-- Nobody has the mutex, nor has set the flag, while a task is on its way to it. -/
theorem ScGuarded.free (hs : s.ScGuarded) {p : WifiPlace} (hp : s.sc.place t = some p)
    (hpos : 0 < p.toStart) (hinside : Places.inside p = false) :
    s.inSmartconfig = false ∧ s.sc.mux = none := by
  have hmux := hs.1.sc.mux_eq_none hs.2 hp (WifiPlace.named_of_toStart hpos) hinside
  exact ⟨hs.1.flagged.clear hmux, hmux⟩

theorem ScGuarded.advances (hs : s.ScGuarded) (hpending : s.sc.Pending WifiPlace.toStart n)
    (hgoal : s.sc.place n ≠ some (.smart .start)) (hok : s.ScUndisturbed op) (h : s.Does op s') :
    Tasks.Advances WifiPlace.toStart .setPairing n s.sc s'.sc (op.ofScRequest n) := by
  cases h with
  | smartConfig h => exact .config (hpending.config hok.1 hok.2 h) h
  | @scTask t answer p s' hp h =>
    have hmoves := (wifiConfigTask_moves hp h).1
    rw [Op.ofScRequest]
    by_cases htn : t = n
    · subst htn
      rw [decide_eq_true rfl]
      refine .task hmoves fun q hq hpos ↦ ?_
      obtain rfl := Option.some.inj (hp.symm.trans hq)
      have hne : p ≠ .smart .start := fun hstart ↦ hgoal (hstart ▸ hp)
      exact wifiConfigTask_toStart hp (WifiPlace.one_lt_toStart hpos hne)
        (fun hmode ↦ hok (hmode ▸ hp)) (hs.free hp hpos) h
    · rw [decide_eq_false htn]
      exact .other hmoves (Ne.symm htn)
  | bleTask hp h => exact .same (bleConfigTask_moves hp h).2.1
  | _ => exact .same rfl

theorem BleGuarded.advances (hs : s.BleGuarded) (hpending : s.ble.Pending BlePlace.toInit n)
    (hgoal : s.ble.place n ≠ some (.start .profileInit)) (hok : s.BleUndisturbed op)
    (h : s.Does op s') :
    Tasks.Advances BlePlace.toInit .stop n s.ble s'.ble (op.ofBleRequest n) := by
  cases h with
  | bleConfig h => exact .config (hpending.config hok.1 hok.2 h) h
  | @bleTask t answer p s' hp h =>
    have hmoves := (bleConfigTask_moves hp h).1
    rw [Op.ofBleRequest]
    by_cases htn : t = n
    · subst htn
      rw [decide_eq_true rfl]
      refine .task hmoves fun q hq hpos ↦ ?_
      obtain rfl := Option.some.inj (hp.symm.trans hq)
      have hne : p ≠ .start .profileInit := fun hstart ↦ hgoal (hstart ▸ hp)
      exact bleConfigTask_toInit hp (BlePlace.one_lt_toInit hpos hne)
        (fun hup ↦ hok (hup.imp (hp.trans <| congrArg some ·) (hp.trans <| congrArg some ·)))
        (hs.1.ble.mux_eq_none hs.2 hp (BlePlace.named_of_toInit hpos)) h
    · rw [decide_eq_false htn]
      exact .other hmoves (Ne.symm htn)
  | scTask hp h => exact .same (wifiConfigTask_moves hp h).2
  | _ => exact .same rfl

theorem ScGuarded.reaches (hs : s.ScGuarded) (hpending : s.sc.Pending WifiPlace.toStart n) :
    LeadsTo (Station.step build) ScUndisturbed (Op.ofScRequest n)
      (fun s ↦ s.sc.place n = some (.smart .start)) s := by
  refine Tasks.leadsTo_of_pending (I := ScGuarded) Station.sc WifiPlace.toStart
    .setPairing (Nat.zero_lt_succ 5) ?_ ?_ ?_ ?_ ?_ hs hpending
  · exact fun s op s' hs hpending hok hstep ↦ hs.step hpending hok (does_of_step hstep)
  · exact fun s hs ↦ hs.1.sc
  · exact fun s hcreate ↦ ⟨.smartConfig (.create true), _, rfl, ⟨nofun, nofun⟩,
      Option.map_eq_some_iff.mpr ⟨_, if_pos hcreate, rfl⟩⟩
  · intro s p hp
    obtain ⟨s', h⟩ := exists_wifiConfigTask n s p
    exact ⟨.scTask n .OK, s', decide_eq_true rfl, fun _ ↦ rfl,
      Option.bind_eq_some_iff.mpr ⟨p, hp, h⟩⟩
  · exact fun s op s' hs hpending hgoal hok hstep ↦
      hs.advances hpending hgoal hok (does_of_step hstep)

theorem BleGuarded.reaches (hs : s.BleGuarded) (hpending : s.ble.Pending BlePlace.toInit n) :
    LeadsTo (Station.step build) BleUndisturbed (Op.ofBleRequest n)
      (fun s ↦ s.ble.place n = some (.start .profileInit)) s := by
  refine Tasks.leadsTo_of_pending (I := BleGuarded) Station.ble BlePlace.toInit
    .stop (Nat.zero_lt_succ 8) ?_ ?_ ?_ ?_ ?_ hs hpending
  · exact fun s op s' hs hpending hok hstep ↦ hs.step hpending hok (does_of_step hstep)
  · exact fun s hs ↦ hs.1.ble
  · exact fun s hcreate ↦ ⟨.bleConfig (.create true), _, rfl, ⟨nofun, nofun⟩,
      Option.map_eq_some_iff.mpr ⟨_, if_pos hcreate, rfl⟩⟩
  · intro s p hp
    obtain ⟨s', h⟩ := exists_bleConfigTask n s p
    exact ⟨.bleTask n .OK, s', decide_eq_true rfl, fun _ ↦ rfl,
      Option.bind_eq_some_iff.mpr ⟨p, hp, h⟩⟩
  · exact fun s op s' hs hpending hgoal hok hstep ↦
      hs.advances hpending hgoal hok (does_of_step hstep)

/-! ## The property -/

/-- Whoever has a mutex, or has set the flag, is a task that is inside and will give it back; and a
request that is made when no task is there gets through to the driver, or to Bluetooth, unless
another one replaces it or something that it needs fails. -/
structure Responsive (build : Build) (s : Station) : Prop where
  sc_held : s.inSmartconfig = true ∨ s.sc.mux ≠ none → ∃ t, s.sc.Inside t ∧
    LeadsTo (Station.step build) Spares (Op.ofScTask t)
      (fun s ↦ s.inSmartconfig = false ∧ s.sc.mux = none) s
  ble_held : s.ble.mux ≠ none → ∃ t, s.ble.Inside t ∧
    LeadsTo (Station.step build) Spares (Op.ofBleTask t) (fun s ↦ s.ble.mux = none) s
  sc_reaches : s.sc.Quiet → ∃ s', s.step build (.smartConfig .call) = some s' ∧
    LeadsTo (Station.step build) ScUndisturbed (Op.ofScRequest s.sc.created)
      (fun u ↦ u.sc.place s.sc.created = some (.smart .start)) s'
  ble_reaches : s.ble.Quiet → ∃ s', s.step build (.bleConfig .call) = some s' ∧
    LeadsTo (Station.step build) BleUndisturbed (Op.ofBleRequest s.ble.created)
      (fun u ↦ u.ble.place s.ble.created = some (.start .profileInit)) s'

/-- What the property comes to: the mutexes are guarded. -/
theorem Orderly.responsive_iff_guards (hs : s.Orderly) : s.Responsive build ↔
    Guards s.sc.mux s.sc.Inside ∧ Guards s.ble.mux s.ble.Inside := by
  constructor
  · intro h
    refine ⟨hs.sc.owns.guards fun t ht ↦ ?_, hs.ble.owns.guards fun t ht ↦ ?_⟩
    · obtain ⟨u, hu, -⟩ := h.sc_held (.inr (ht ▸ Option.some_ne_none t))
      obtain rfl := Option.some.inj (ht.symm.trans (hs.sc.owns u hu))
      exact hu
    · obtain ⟨u, hu, -⟩ := h.ble_held (ht ▸ Option.some_ne_none t)
      obtain rfl := Option.some.inj (ht.symm.trans (hs.ble.owns u hu))
      exact hu
  · rintro ⟨hsc, hble⟩
    constructor
    case sc_held =>
      intro hheld
      obtain ⟨t, ht⟩ := Option.ne_none_iff_exists'.mp (hheld.elim hs.flagged.held id)
      have hin := (hsc t).mpr ht
      exact ⟨t, hin, hs.sc_released hin⟩
    case ble_held =>
      intro hheld
      obtain ⟨t, ht⟩ := Option.ne_none_iff_exists'.mp hheld
      have hin := (hble t).mpr ht
      exact ⟨t, hin, hs.ble_released hin⟩
    case sc_reaches =>
      intro hquiet
      have hstep := hs.sc.config_call hquiet .setPairing
      have hdoes : s.Does (.smartConfig .call) _ := .smartConfig hstep
      refine ⟨_, Option.map_eq_some_iff.mpr ⟨_, hstep, rfl⟩, ?_⟩
      exact ScGuarded.reaches ⟨hs.step hdoes, hsc⟩ (.inl ⟨rfl, rfl⟩)
    case ble_reaches =>
      intro hquiet
      have hstep := hs.ble.config_call hquiet .stop
      have hdoes : s.Does (.bleConfig .call) _ := .bleConfig hstep
      refine ⟨_, Option.map_eq_some_iff.mpr ⟨_, hstep, rfl⟩, ?_⟩
      exact BleGuarded.reaches ⟨hs.step hdoes, hble⟩ (.inl ⟨rfl, rfl⟩)

end Station

/-- **The lock works throughout a run if and only if no request deletes a task that is inside.** -/
theorem responsive_iff (build : Build) {ops : List Op} {s : Station}
    (h : AnyRun (Station.step build) .init ops s) :
    Always (Station.step build) (Station.Responsive build) .init ops ↔
      Run (Station.step build) Station.Spares .init ops s := by
  have hinit : Station.init.Responsive build :=
    Station.orderly_init.responsive_iff_guards.mpr ⟨Tasks.guards_init, Tasks.guards_init⟩
  refine h.always_iff (J := Station.Orderly)
    (fun s op t hs hstep ↦ hs.step (Station.does_of_step hstep)) ?_ Station.orderly_init hinit
  intro s op t hs hresponsive hstep
  have hdoes := Station.does_of_step hstep
  obtain ⟨hsc, hble⟩ := hs.responsive_iff_guards.mp hresponsive
  rw [(hs.step hdoes).responsive_iff_guards, hs.sc_guards hsc hdoes, hs.ble_guards hble hdoes,
    Station.spares_iff]

/-- A second request comes while the first task still waits for the disconnect. -/
theorem responsive_early : Always (Station.step ⟨false, true, zeros⟩)
    (Station.Responsive ⟨false, true, zeros⟩) .init
    [.smartConfig .call, .smartConfig (.create true), .scTask 0 .OK, .smartConfig .call,
      .smartConfig .delete, .smartConfig .clear, .smartConfig (.create true), .scTask 1 .OK,
      .scTask 1 .OK, .scTask 1 .OK, .scTask 1 .OK] := by
  have hrun : AnyRun (Station.step ⟨false, true, zeros⟩) .init
      [.smartConfig .call, .smartConfig (.create true), .scTask 0 .OK, .smartConfig .call,
        .smartConfig .delete, .smartConfig .clear, .smartConfig (.create true), .scTask 1 .OK,
        .scTask 1 .OK, .scTask 1 .OK, .scTask 1 .OK] _ := anyRun_of_foldlM rfl
  exact (responsive_iff ⟨false, true, zeros⟩ hrun).mpr <|
    .cons trivial rfl <| .cons trivial rfl <| .cons trivial rfl <| .cons trivial rfl <|
    .cons (Tasks.spares_delete rfl rfl rfl) rfl <| .cons trivial rfl <| .cons trivial rfl <|
    .cons trivial rfl <| .cons trivial rfl <| .cons trivial rfl <| .cons trivial rfl <| .nil _

/-- A second request comes while the first task waits for the phone. -/
theorem not_responsive_inside : ¬∀ build ops s, AnyRun (Station.step build) .init ops s →
    s.Responsive build := by
  intro h
  have hrun : AnyRun (Station.step ⟨false, true, zeros⟩) .init
      [.smartConfig .call, .smartConfig (.create true), .scTask 0 .OK, .scTask 0 .OK,
        .scTask 0 .OK, .scTask 0 .OK, .scTask 0 .OK, .scTask 0 .OK, .scTask 0 .OK,
        .smartConfig .call, .smartConfig .delete] _ := anyRun_of_foldlM rfl
  have horderly := hrun.invariant (I := Station.Orderly)
    (fun s op t hs _ hstep ↦ hs.step (Station.does_of_step hstep)) Station.orderly_init
  obtain ⟨t, hin, -⟩ := (h _ _ _ hrun).sc_held (.inl rfl)
  -- the mutex is still the deleted task's
  obtain rfl := Option.some.inj (horderly.sc.owns t hin)
  exact Tasks.not_at rfl hin

end Ddmz.Wifi
