import Ddmz.Foundation.Runs
import Ddmz.Wifi.Reports

/-!
# Automatic reconnection

On a disconnect outside a configuration the handler counts `retry_wifi_times` down and connects
again, unless the counter has come to 0: then it gives up. What it has done about the disconnects
since the station last had an address is kept in order.

The counter is not tested for having been 0 before, so it goes on to −1, and the handler connects
again. It gives up for good if and only if no such disconnect comes when the counter is 0, so that
there are at most five of them: `bounded_iff`.
-/

namespace Ddmz.Wifi

/-- What the handler does about a disconnect outside a configuration. -/
inductive Attempt
  | connect
  /-- `Autoconnect Wi-Fi failed`. -/
  | giveUp
  deriving DecidableEq

/-- Whether there is a call of `esp_wifi_connect`. -/
def Call.isConnect : Call → Bool
  | .connect => true
  | _ => false

section Attempts

variable (build : Build) (w : Manager)

/-- What the disconnect branch does, by its calls. -/
def attempt : Attempt :=
  if (wifiEvtHandlerCb build w .STA_DISCONNECTED).1.any Call.isConnect then .connect else .giveUp

/-- The disconnect branch tells a disconnect outside a configuration by the bits. -/
def Op.lost : Op → Prop
  | .manager (.driver .STA_DISCONNECTED) => w.pairing build = false
  | _ => False

/-- What has been done since the last address, after another step. -/
def Op.record (attempts : List Attempt) : Op → List Attempt
  | .manager (.driver .STA_GOT_IP) => []
  | .manager (.driver .STA_DISCONNECTED) =>
    if w.pairing build = false then attempts ++ [attempt build w] else attempts
  | _ => attempts

/-- At most four automatic connects, and none after giving up. -/
structure Bounded (attempts : List Attempt) : Prop where
  connects : attempts.count .connect ≤ 4
  final : ∀ before after, attempts = before ++ .giveUp :: after → Attempt.connect ∉ after

end Attempts

/-- The attempts that `n` disconnects lead to: only the fifth finds the counter at 1. -/
def plan : ℕ → List Attempt
  | 0 => []
  -- from the sixth on the counter becomes negative, and is not 0 any more
  | n + 1 => plan n ++ [if n = 4 then .giveUp else .connect]

theorem length_plan (n : ℕ) : (plan n).length = n := by
  induction n with
  | zero => rfl
  | succ n ih => rw [plan, List.length_append, ih, List.length_singleton]

theorem plan_of_le {n : ℕ} (h : n ≤ 4) : plan n = List.replicate n .connect := by
  induction n with
  | zero => rfl
  | succ n ih => rw [plan, ih (Nat.le_of_succ_le h), if_neg (by omega), List.replicate_succ']

theorem plan_five_add (k : ℕ) :
    plan (5 + k) = List.replicate 4 .connect ++ .giveUp :: List.replicate k .connect := by
  induction k with
  | zero => rfl
  | succ k ih =>
    rw [← Nat.add_assoc, plan, ih, if_neg (by omega), List.append_assoc, List.cons_append,
      ← List.replicate_succ']

/-- The sixth attempt is one too many. -/
theorem bounded_plan_iff {n : ℕ} : Bounded (plan n) ↔ n ≤ 5 := by
  constructor
  · intro h
    by_contra hlt
    obtain ⟨k, rfl⟩ := Nat.exists_eq_add_of_lt (not_le.mp hlt)
    -- the fifth attempt gives up, so any after it is a connect after giving up
    have hlate := h.final _ _ (plan_five_add (k + 1))
    exact hlate (List.mem_replicate.mpr ⟨Nat.succ_ne_zero k, rfl⟩)
  · intro h
    obtain h | rfl := Nat.le_succ_iff.mp h
    · rw [plan_of_le h]
      refine ⟨List.count_replicate_self.trans_le h, fun before after heq ↦ ?_⟩
      have hmem : Attempt.giveUp ∈ List.replicate n .connect :=
        heq ▸ List.mem_append_right before List.mem_cons_self
      exact nomatch (List.mem_replicate.mp hmem).2
    · refine ⟨by decide, fun before after heq ↦ ?_⟩
      -- there is one `giveUp` among the five, the last of them
      have hat : (plan 5)[before.length]? = some .giveUp := by
        rw [heq, List.getElem?_append_right le_rfl, Nat.sub_self, List.getElem?_cons_zero]
      have hlength := congrArg List.length heq
      rw [length_plan, List.length_append, List.length_cons] at hlength
      have hlast : before.length = 4 := by
        have hlt : before.length < 5 := by omega
        interval_cases before.length <;> first | rfl | exact absurd hat (by decide)
      rw [List.eq_nil_of_length_eq_zero (l := after) (by omega)]
      exact List.not_mem_nil

/-! ## The handler -/

section Handler

variable {build : Build} {w : Manager}

theorem staDisconnected_lost (h : w.pairing build = false) :
    attempt build w = (if w.retryWifiTimes = 1 then .giveUp else .connect) ∧
      (staDisconnected build w).2.retryWifiTimes = w.retryWifiTimes - 1 := by
  -- reading the bits and sending the state leave the counter, and the LEDs are no connect
  have hretry : (if w.lastState ≠ some .STA_DISCONNECTED
      then (w.readBits build).send .Disconnected else w.readBits build).retryWifiTimes
        = w.retryWifiTimes := by
    split_ifs <;> rfl
  have hleds : (if w.lastState ≠ some .STA_DISCONNECTED then [Call.ledNetDisconnect]
      else []).any Call.isConnect = false := by
    split_ifs <;> rfl
  rw [attempt, wifiEvtHandlerCb, staDisconnected, if_pos h]
  simp only [hretry, List.any_append, hleds, Bool.false_or]
  refine ⟨?_, trivial⟩
  by_cases hone : w.retryWifiTimes = 1
  · rw [if_pos hone, if_pos (show w.retryWifiTimes - 1 = 0 by omega)]
    rfl
  · rw [if_neg hone, if_neg (show ¬w.retryWifiTimes - 1 = 0 by omega)]
    rfl

theorem staDisconnected_paired (h : w.pairing build ≠ false) :
    (staDisconnected build w).2.retryWifiTimes = w.retryWifiTimes := by
  rw [staDisconnected, if_neg h]
  dsimp only
  split_ifs <;> rfl

end Handler

/-! ## Runs -/

/-- The station, and what has been done about disconnects since it last had an address. -/
structure Reconnecting where
  station : Station
  attempts : List Attempt

namespace Reconnecting

def init : Reconnecting := ⟨.init, []⟩

variable (build : Build) (s : Reconnecting)

def step (op : Op) : Option Reconnecting :=
  (s.station.step build op).map fun station ↦
    ⟨station, op.record build s.station.manager s.attempts⟩

/-- A disconnect outside a configuration finds the counter at another value than 0. -/
def Budgeted (op : Op) : Prop :=
  op.lost build s.station.manager → s.station.manager.retryWifiTimes ≠ 0

/-- The counter says how many attempts there have been, and the attempts are as planned. -/
structure Counted : Prop where
  retry : s.station.manager.retryWifiTimes = 5 - s.attempts.length
  planned : s.attempts = plan s.attempts.length

variable {build s} {t : Reconnecting} {op : Op}

theorem counted_init : init.Counted := ⟨rfl, rfl⟩

/-- The other steps neither lose a connection nor find one. -/
theorem unrecorded_of_isOther (build : Build) (w : Manager) (attempts : List Attempt)
    (h : op.isOther = true) :
    ¬op.lost build w ∧ op.record build w attempts = attempts := by
  cases op with
  | manager op =>
    cases op with
    | driver evt | evtTask => cases h
    | _ => exact ⟨id, rfl⟩
  | _ => exact ⟨id, rfl⟩

/-- What a step does: a lost connection is one more attempt, an address makes room for new ones,
and nothing else matters. -/
theorem step_counts (h : s.step build op = some t) :
    (op.lost build s.station.manager ∧
      t.attempts = s.attempts ++
        [if s.station.manager.retryWifiTimes = 1 then .giveUp else .connect] ∧
      t.station.manager.retryWifiTimes = s.station.manager.retryWifiTimes - 1) ∨
    (¬op.lost build s.station.manager ∧ t.attempts = [] ∧
      t.station.manager.retryWifiTimes = 5) ∨
    (¬op.lost build s.station.manager ∧ t.attempts = s.attempts ∧
      t.station.manager.retryWifiTimes = s.station.manager.retryWifiTimes) := by
  obtain ⟨station, hstation, rfl⟩ := Option.map_eq_some_iff.mp h
  have hchanges := Station.step_changes hstation
  generalize s.station.manager = w at hchanges ⊢
  dsimp only
  generalize station.manager = w' at hchanges ⊢
  cases hchanges with
  | handles evt =>
    cases evt with
    | STA_DISCONNECTED =>
      by_cases hpairing : w.pairing build = false
      · obtain ⟨hattempt, hretry⟩ := staDisconnected_lost hpairing
        exact .inl ⟨hpairing, by rw [Op.record, if_pos hpairing, hattempt], hretry⟩
      · exact .inr (.inr ⟨hpairing, if_neg hpairing, staDisconnected_paired hpairing⟩)
    | STA_GOT_IP => exact .inr (.inl ⟨id, rfl, rfl⟩)
    | _ => exact .inr (.inr ⟨id, rfl, rfl⟩)
  | takes state same hqueue => exact .inr (.inr ⟨id, rfl, same.retry⟩)
  | sends state hop same | keeps hop same =>
    obtain ⟨hlost, hrecord⟩ := unrecorded_of_isOther build w s.attempts hop
    exact .inr (.inr ⟨hlost, hrecord, same.retry⟩)

theorem Counted.step (hs : s.Counted) (h : s.step build op = some t) : t.Counted := by
  obtain ⟨-, hattempts, hretry⟩ | ⟨-, hattempts, hretry⟩ | ⟨-, hattempts, hretry⟩ := step_counts h
  · -- the counter is at 1 exactly when four attempts have been made
    rw [hs.retry] at hattempts hretry
    have hlength : t.attempts.length = s.attempts.length + 1 := by
      rw [hattempts, List.length_append, List.length_singleton]
    constructor
    · rw [hretry, hlength]
      omega
    · rw [hlength, plan, ← hs.planned, hattempts]
      congr 3
      exact propext (by omega)
  · constructor
    · rw [hretry, hattempts, List.length_nil, Nat.cast_zero, sub_zero]
    · rw [hattempts, List.length_nil, plan]
  · exact ⟨by rw [hretry, hattempts, hs.retry], by rw [hattempts, ← hs.planned]⟩

theorem Counted.bounded_iff_length (hs : s.Counted) :
    Bounded s.attempts ↔ s.attempts.length ≤ 5 := by
  rw [hs.planned, bounded_plan_iff, length_plan]

/-- A step keeps the bound if and only if it meets the condition. -/
theorem Counted.bounded_step (hs : s.Counted) (hbounded : Bounded s.attempts)
    (h : s.step build op = some t) : Bounded t.attempts ↔ s.Budgeted build op := by
  have hle := hs.bounded_iff_length.mp hbounded
  rw [(hs.step h).bounded_iff_length, Budgeted, hs.retry]
  obtain ⟨hlost, hattempts, -⟩ | ⟨hlost, hattempts, -⟩ | ⟨hlost, hattempts, -⟩ := step_counts h
  · rw [hattempts, List.length_append, List.length_singleton]
    exact ⟨fun hlt _ ↦ by omega, fun hne ↦ by have := hne hlost; omega⟩
  · rw [hattempts]
    exact iff_of_true (Nat.zero_le 5) fun h ↦ absurd h hlost
  · rw [hattempts]
    exact iff_of_true hle fun h ↦ absurd h hlost

end Reconnecting

/-- **The handler gives up for good, after at most four connects, if and only if no disconnect
outside a configuration comes when the counter is 0.** -/
theorem bounded_iff (build : Build) {ops : List Op} {s : Reconnecting}
    (h : AnyRun (Reconnecting.step build) .init ops s) :
    Always (Reconnecting.step build) (fun s ↦ Bounded s.attempts) .init ops ↔
      Run (Reconnecting.step build) (Reconnecting.Budgeted build) .init ops s :=
  h.always_iff (J := Reconnecting.Counted) (fun _ _ _ hs hstep ↦ hs.step hstep)
    (fun _ _ _ hs hbounded hstep ↦ hs.bounded_step hbounded hstep) Reconnecting.counted_init
    (bounded_plan_iff.mpr (Nat.zero_le 5))

/-- The router is out of reach for five attempts. -/
theorem bounded_fifth : Always (Reconnecting.step ⟨false, true, zeros⟩)
    (fun s ↦ Bounded s.attempts) .init (.manager (.driver .STA_GOT_IP) ::
      List.replicate 5 (.manager (.driver .STA_DISCONNECTED))) := by
  have hrun : AnyRun (Reconnecting.step ⟨false, true, zeros⟩) .init
      (.manager (.driver .STA_GOT_IP) ::
        List.replicate 5 (.manager (.driver .STA_DISCONNECTED))) _ := anyRun_of_foldlM rfl
  exact (bounded_iff ⟨false, true, zeros⟩ hrun).mpr <|
    .cons (fun hlost ↦ hlost.elim) rfl <| .cons (fun _ ↦ by decide) rfl <|
    .cons (fun _ ↦ by decide) rfl <| .cons (fun _ ↦ by decide) rfl <|
    .cons (fun _ ↦ by decide) rfl <| .cons (fun _ ↦ by decide) rfl <| .nil _

/-- The sixth disconnect finds the counter at 0. -/
theorem not_bounded_sixth : ¬∀ build ops s, AnyRun (Reconnecting.step build) .init ops s →
    Bounded s.attempts := by
  intro h
  have hbounded := h ⟨false, true, zeros⟩ (.manager (.driver .STA_GOT_IP) ::
      List.replicate 6 (.manager (.driver .STA_DISCONNECTED))) _ <| anyRun_of_foldlM rfl
  exact absurd hbounded.connects (by decide)

end Ddmz.Wifi
