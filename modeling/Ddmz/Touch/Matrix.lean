import Ddmz.Foundation.Runs
import Ddmz.Touch.Touchpad

/-!
# The touch matrix

The cells of a matrix are where a pad for a column and a pad for a row cross. Only the pads for `x`
have callbacks: when one of them is pushed, the cell is found by the one pad for `y` that is pushed,
too. `active_idx` has the cell in one byte, and the callbacks take its two parts out of it again.

The callbacks for the pads, and those of the timers, come in any order; whether a timer runs is not
looked at. What is told of the cells keeps to the protocol of `Ddmz.Foundation.Presses`:
`matrixProtocol_of_run`.
-/

namespace Ddmz.Touch

/-- What `iot_tp_matrix_create` fixes of a matrix, with its checks. -/
structure MatrixCfg where
  xNum : ℕ
  yNum : ℕ
  xNum_ne : xNum ≠ 0
  yNum_ne : yNum ≠ 0
  cells_le : xNum * yNum ≤ 2 ^ 8

/-- The callbacks for a long press. -/
inductive MatrixPress
  | custom (i : ℕ)
  | serial
  deriving DecidableEq

/-- `tp_matrix_t`, without what is in `MatrixCfg`. -/
structure TpMatrix where
  activeState : TpStatus
  activeIdx : UInt8
  /-- The callbacks so far, with `x` and `y`. One that has not been registered is listed as well. -/
  calls : List (PressEvent MatrixPress × ℕ × ℕ)

/-- The callbacks of the pads for `x`, with the states of the pads for `y` where they are looked at,
and the callbacks of the timers. -/
inductive MatrixOp
  | push (x : ℕ) (ys : ℕ → TpStatus)
  | release (x : ℕ)
  | tap (x : ℕ)
  | custom (i : ℕ)
  | serial

namespace TpMatrix

/-- A matrix that has been created. -/
def create : TpMatrix := ⟨.IDLE, 0, []⟩

variable (cfg : MatrixCfg) (m : TpMatrix)

/-- The cell in `active_idx`. -/
def cell : ℕ × ℕ := (m.activeIdx.toNat / cfg.yNum, m.activeIdx.toNat % cfg.yNum)

/-- A callback for this cell. -/
def call (event : PressEvent MatrixPress) : TpMatrix :=
  { m with calls := m.calls ++ [(event, m.cell cfg)] }

/-- The loop over the pads for `y`, without a result if it returns. -/
def findIdx (x : ℕ) (ys : ℕ → TpStatus) : Option (Option ℕ) :=
  (List.range cfg.yNum).foldlM (fun idx j ↦
    if ys j = .PUSH then
      match idx with
      | none => some (some (x * cfg.yNum + j))
      | some _ => none
    else some idx) none

/-- `tp_matrix_push_cb`. -/
def pushCb (x : ℕ) (ys : ℕ → TpStatus) : TpMatrix :=
  if m.activeState ≠ .IDLE then m
  else
    match findIdx cfg x ys with
    | some (some idx) =>
      { activeState := .PUSH
        activeIdx := .ofNat idx
        calls := m.calls ++ [(.push, x, idx % cfg.yNum)] }
    | _ => m

/-- `tp_matrix_release_cb`. -/
def releaseCb (x : ℕ) : TpMatrix :=
  if x ≠ m.activeIdx.toNat / cfg.yNum then m
  else if m.activeState ≠ .IDLE then { m with activeState := .IDLE }.call cfg .release
  else m

/-- `tp_matrix_tap_cb`. -/
def tapCb (x : ℕ) : TpMatrix :=
  if x ≠ m.activeIdx.toNat / cfg.yNum then m
  else if m.activeState = .PUSH then m.call cfg .tap
  else m

/-- `tp_matrix_cus_tmr_cb`, of the timer for the custom callback `i`. -/
def cusTmrCb (i : ℕ) : TpMatrix :=
  if m.activeState ≠ .IDLE then { m with activeState := .PRESS }.call cfg (.press (.custom i))
  else m

/-- `tp_matrix_serial_trigger_cb`. -/
def serialTriggerCb : TpMatrix :=
  if m.activeState ≠ .IDLE then { m with activeState := .PRESS }.call cfg (.press .serial)
  else m

/-- The pads are those of the matrix. -/
def step : MatrixOp → Option TpMatrix
  | .push x ys => if x < cfg.xNum then some (m.pushCb cfg x ys) else none
  | .release x => if x < cfg.xNum then some (m.releaseCb cfg x) else none
  | .tap x => if x < cfg.xNum then some (m.tapCb cfg x) else none
  | .custom i => some (m.cusTmrCb cfg i)
  | .serial => some (m.serialTriggerCb cfg)

/-- The cell that is active, and whether its press has been a long one. -/
def active : Option ((ℕ × ℕ) × Bool) :=
  if m.activeState = .IDLE then none
  else some (m.cell cfg, m.activeState ≠ .PUSH)

/-- The callbacks so far are those of the active cell. -/
def Paired : Prop := CellPresses m.calls (m.active cfg)

variable {cfg m} {x : ℕ} {ys : ℕ → TpStatus}

/-- The loop finds a cell of the column, with a pad that is pushed. -/
theorem findIdx_spec {idx : ℕ} (h : findIdx cfg x ys = some (some idx)) :
    ∃ j < cfg.yNum, ys j = .PUSH ∧ idx = x * cfg.yNum + j := by
  have hloop : ∀ (l : List ℕ) (found : Option ℕ), l.foldlM (fun idx j ↦
      if ys j = .PUSH then
        match idx with
        | none => some (some (x * cfg.yNum + j))
        | some _ => none
      else some idx) found = some (some idx) →
      found = some idx ∨ ∃ j ∈ l, ys j = .PUSH ∧ idx = x * cfg.yNum + j := by
    intro l
    induction l with
    | nil => exact fun found h ↦ .inl (Option.some.inj h)
    | cons j l ih =>
      intro found h
      rw [List.foldlM_cons] at h
      obtain ⟨found', hfirst, hrest⟩ := Option.bind_eq_some_iff.mp h
      obtain rfl | ⟨i, hi, hpush, hidx⟩ := ih found' hrest
      · split_ifs at hfirst with hpush
        · cases found with
          | none =>
            refine .inr ⟨j, List.mem_cons_self, hpush, ?_⟩
            exact (Option.some.inj (Option.some.inj hfirst)).symm
          | some idx' => cases hfirst
        · exact .inl (Option.some.inj hfirst)
      · exact .inr ⟨i, List.mem_cons_of_mem j hi, hpush, hidx⟩
  obtain hnone | ⟨j, hj, hpush, hidx⟩ := hloop _ none h
  · cases hnone
  · exact ⟨j, List.mem_range.mp hj, hpush, hidx⟩

/-- **The byte holds the cell.** -/
theorem toNat_ofNat_idx {j : ℕ} (hx : x < cfg.xNum) (hj : j < cfg.yNum) :
    (UInt8.ofNat (x * cfg.yNum + j)).toNat = x * cfg.yNum + j := by
  have hlt : x * cfg.yNum + j < cfg.xNum * cfg.yNum := by
    calc x * cfg.yNum + j < x * cfg.yNum + cfg.yNum := Nat.add_lt_add_left hj _
      _ = (x + 1) * cfg.yNum := by ring
      _ ≤ cfg.xNum * cfg.yNum := Nat.mul_le_mul_right _ hx
  exact UInt8.toNat_ofNat_of_lt' (hlt.trans_le cfg.cells_le)

theorem active_idle (h : m.activeState = .IDLE) : m.active cfg = none := if_pos h

theorem active_of_ne (h : m.activeState ≠ .IDLE) :
    m.active cfg = some (m.cell cfg, decide (m.activeState ≠ .PUSH)) := if_neg h

/-! ## The callbacks -/

theorem Paired.pushCb (h : m.Paired cfg) (hx : x < cfg.xNum) : (m.pushCb cfg x ys).Paired cfg := by
  rw [TpMatrix.pushCb]
  split_ifs with hstate
  · exact h
  · split
    · rename_i idx hidx
      obtain ⟨j, hj, -, rfl⟩ := findIdx_spec hidx
      have hpos : 0 < cfg.yNum := Nat.pos_of_ne_zero cfg.yNum_ne
      have hdiv : (x * cfg.yNum + j) / cfg.yNum = x := by
        rw [Nat.mul_comm, Nat.mul_add_div hpos, Nat.div_eq_of_lt hj, Nat.add_zero]
      rw [Paired, active_idle (not_not.mp hstate)] at h
      have hcell : (x, (x * cfg.yNum + j) % cfg.yNum)
          = cell cfg ⟨.PUSH, .ofNat (x * cfg.yNum + j), m.calls⟩ := by
        rw [cell, toNat_ofNat_idx hx hj, hdiv]
      rw [hcell]
      exact h.push _
    · exact h

theorem Paired.releaseCb (h : m.Paired cfg) : (m.releaseCb cfg x).Paired cfg := by
  rw [TpMatrix.releaseCb]
  split_ifs with hx hstate
  · exact h
  · rw [Paired, active_of_ne hstate] at h
    exact h.release
  · exact h

theorem Paired.tapCb (h : m.Paired cfg) : (m.tapCb cfg x).Paired cfg := by
  rw [TpMatrix.tapCb]
  split_ifs with hx hstate
  · exact h
  · have hne : m.activeState ≠ .IDLE := by simp [hstate]
    have hshort : m.active cfg = some (m.cell cfg, false) := by rw [active_of_ne hne, hstate]; rfl
    rw [Paired, hshort] at h
    have htap := h.tap
    rwa [← hshort] at htap
  · exact h

/-- A callback for a long press. -/
theorem Paired.press (h : m.Paired cfg) (i : MatrixPress) (hstate : m.activeState ≠ .IDLE) :
    ({ m with activeState := .PRESS }.call cfg (.press i)).Paired cfg := by
  rw [Paired, active_of_ne hstate] at h
  exact h.press i

theorem Paired.cusTmrCb (h : m.Paired cfg) (i : ℕ) : (m.cusTmrCb cfg i).Paired cfg := by
  rw [TpMatrix.cusTmrCb]
  split_ifs with hstate
  · exact h.press _ hstate
  · exact h

theorem Paired.serialTriggerCb (h : m.Paired cfg) : (m.serialTriggerCb cfg).Paired cfg := by
  rw [TpMatrix.serialTriggerCb]
  split_ifs with hstate
  · exact h.press _ hstate
  · exact h

/-! ## Runs -/

theorem Paired.step {op : MatrixOp} {m' : TpMatrix} (h : m.Paired cfg)
    (hstep : m.step cfg op = some m') : m'.Paired cfg := by
  cases op with
  | push x ys =>
    obtain ⟨hx, hm'⟩ := Option.ite_none_right_eq_some.mp hstep
    exact Option.some.inj hm' ▸ h.pushCb hx
  | release x =>
    obtain ⟨-, hm'⟩ := Option.ite_none_right_eq_some.mp hstep
    exact Option.some.inj hm' ▸ h.releaseCb
  | tap x =>
    obtain ⟨-, hm'⟩ := Option.ite_none_right_eq_some.mp hstep
    exact Option.some.inj hm' ▸ h.tapCb
  | custom i => exact Option.some.inj hstep ▸ h.cusTmrCb i
  | serial => exact Option.some.inj hstep ▸ h.serialTriggerCb

theorem matrixPaired_of_run {ops : List MatrixOp} (h : AnyRun (TpMatrix.step cfg) .create ops m) :
    m.Paired cfg :=
  h.invariant (fun _ _ _ hs _ hstep ↦ hs.step hstep) .nil

/-- **Pushes and releases are paired.** Whatever the callbacks of the pads and timers are, what is
told of the cells keeps to the protocol, and a cell is active exactly if it has been pushed and not
released since. -/
theorem matrixProtocol_of_run {ops : List MatrixOp}
    (h : AnyRun (TpMatrix.step cfg) .create ops m) : EachEntry CellAllowed m.calls ∧
      (m.activeState ≠ .IDLE ↔ ∃ k, lastOf isCellEdge m.calls = some (.push, k)) := by
  have hpaired := matrixPaired_of_run h
  refine ⟨hpaired.allowed, ?_⟩
  simp only [hpaired.last_eq_push_iff]
  by_cases hstate : m.activeState = .IDLE
  · simp [active_idle hstate, hstate]
  · exact iff_of_true hstate ⟨_, _, active_of_ne hstate⟩

def twoByThree : MatrixCfg :=
  { xNum := 2
    yNum := 3
    xNum_ne := by decide
    yNum_ne := by decide
    cells_le := by decide }

/-- The cell `(1, 2)` is pushed, kept, and released. -/
theorem matrixProtocol_of_run_kept : ∃ m, AnyRun (TpMatrix.step twoByThree) .create
      [.push 1 fun j ↦ if j = 2 then .PUSH else .IDLE, .custom 0, .tap 1, .release 0, .release 1]
      m ∧
    m.calls = [(.push, 1, 2), (.press (.custom 0), 1, 2), (.release, 1, 2)] ∧
    EachEntry CellAllowed m.calls := by
  have hrun : AnyRun (TpMatrix.step twoByThree) .create
      [.push 1 fun j ↦ if j = 2 then .PUSH else .IDLE, .custom 0, .tap 1, .release 0, .release 1]
      _ := anyRun_of_foldlM rfl
  exact ⟨_, hrun, rfl, (matrixProtocol_of_run hrun).1⟩

end TpMatrix

end Ddmz.Touch
