import Ddmz.Foundation.LowPass
import Ddmz.Touch.Touchpad

/-!
# The filter of the touch sensor

`touch_pad_filter_cb` of `TouchPadRefactor.c` is called by a timer, and runs the reading of every
pad that has been initialized through `_touch_filter_iir`. The filter keeps sixteen times its output
in `s_filtered_temp`, and an output is rounded to the nearest when it is scaled back.

With the coefficient 4 the recursion stalls up to three sixteenths below a reading that stays, and
the rounding makes that the reading: `touchPadFilterCb_converges`. A state of zero means that there
has been no reading, and stands for the state of the first.

A state within eight of `2 ^ 20` is rounded to `2 ^ 16`, which the 16 bits of `filtered_val` hold as
zero. No callback leads to such a state, but from one the output is zero until the state is small
enough.
-/

namespace Ddmz.Touch

def TOUCH_PAD_FILTER_FACTOR_DEFAULT : ℕ := 4

def TOUCH_PAD_SHIFT_DEFAULT : ℕ := 4

def TOUCH_PAD_SHIFT_ROUND_DEFAULT : ℕ := 8

/-- `_touch_filter_iir`, in 32 bits. -/
def touchFilterIir (inNow outLast k : ℕ) : ℕ :=
  if k = 0 then inNow else (inNow + (k - 1) * outLast) % 2 ^ 32 / k

/-- What is kept of a pad: its element of `s_filtered_temp`, and those of `raw_val` and
`filtered_val`. -/
structure PadFilter where
  filteredTemp : ℕ
  rawVal : ℕ
  filteredVal : ℕ

/-- The body of the loop of `touch_pad_filter_cb`, with the reading `val`. -/
def PadFilter.read (pad : PadFilter) (val : ℕ) : PadFilter :=
  let inNow := val <<< TOUCH_PAD_SHIFT_DEFAULT
  let temp := if pad.filteredTemp = 0 then inNow else pad.filteredTemp
  let temp := touchFilterIir inNow temp TOUCH_PAD_FILTER_FACTOR_DEFAULT
  { filteredTemp := temp
    rawVal := val
    filteredVal := ((temp + TOUCH_PAD_SHIFT_ROUND_DEFAULT) % 2 ^ 32) >>> TOUCH_PAD_SHIFT_DEFAULT
      % 2 ^ 16 }

/-- `touch_pad_filter_cb`, with the readings of the pads. -/
def touchPadFilterCb (initBit : ℕ) (vals : ℕ → ℕ) (pads : ℕ → PadFilter) : ℕ → PadFilter :=
  (List.range TOUCH_PAD_MAX).foldl
    (fun pads i ↦
      if initBit.testBit i then Function.update pads i ((pads i).read (vals i)) else pads) pads

/-- The pads after `n` callbacks. -/
def afterCallbacks (initBit : ℕ) (readings : ℕ → ℕ → ℕ) (pads : ℕ → PadFilter) :
    ℕ → ℕ → PadFilter
  | 0 => pads
  | n + 1 => touchPadFilterCb initBit (readings n) (afterCallbacks initBit readings pads n)

/-! ## One pad -/

/-- A callback does to each pad what its reading says, whatever the others read. -/
theorem touchPadFilterCb_apply {initBit i : ℕ} (hi : i < TOUCH_PAD_MAX)
    (hinit : initBit.testBit i = true) (vals : ℕ → ℕ) (pads : ℕ → PadFilter) :
    touchPadFilterCb initBit vals pads i = (pads i).read (vals i) := by
  have hfold : ∀ (l : List ℕ) (pads : ℕ → PadFilter), l.Nodup →
      (l.foldl (fun pads i ↦ if initBit.testBit i then
          Function.update pads i ((pads i).read (vals i)) else pads) pads) i
        = if i ∈ l then (pads i).read (vals i) else pads i := by
    intro l
    induction l with
    | nil => intro pads _; rfl
    | cons j l ih =>
      intro pads hnodup
      obtain ⟨hj, hl⟩ := List.nodup_cons.mp hnodup
      rw [List.foldl_cons, ih _ hl]
      by_cases hij : i = j
      · subst hij
        rw [if_neg hj, if_pos hinit, if_pos List.mem_cons_self, Function.update_self]
      · have hkept : (if initBit.testBit j then
            Function.update pads j ((pads j).read (vals j)) else pads) i = pads i := by
          split
          · exact Function.update_of_ne hij _ _
          · rfl
        simp only [hkept, List.mem_cons, hij, false_or]
  rw [touchPadFilterCb, hfold _ _ List.nodup_range, if_pos (List.mem_range.mpr hi)]

section Callbacks

variable {initBit i : ℕ} {readings : ℕ → ℕ → ℕ} {pads : ℕ → PadFilter}

theorem afterCallbacks_succ (hi : i < TOUCH_PAD_MAX) (hinit : initBit.testBit i = true) (n : ℕ) :
    afterCallbacks initBit readings pads (n + 1) i
      = (afterCallbacks initBit readings pads n i).read (readings n i) := by
  rw [afterCallbacks, touchPadFilterCb_apply hi hinit]

end Callbacks

/-- The scaled output as the recursion has it. -/
def scaledStep (v t : ℕ) : ℕ := if t = 0 then 16 * v else lowPass 4 (16 * v) t

theorem scaledStep_approaches (v : ℕ) : Approaches (scaledStep v) (16 * v) 3 := by
  have h := lowPass_approaches (k := 4) (by omega) (16 * v)
  refine ⟨fun t ht ↦ ?_, fun t ht ↦ ?_, fun t ht ↦ ?_, fun t ht ↦ ?_⟩
  · rw [scaledStep]
    split
    · omega
    · exact h.below t ht
  · rw [scaledStep]
    split
    · omega
    · exact h.above t ht
  · rw [scaledStep]
    split
    · omega
    · exact h.rises t ht
  · rw [scaledStep, if_neg (by omega)]
    exact h.falls t ht

/-- An output is between the reading and the output before. -/
theorem scaledStep_between (v t : ℕ) :
    min (16 * v) t ≤ scaledStep v t ∧ scaledStep v t ≤ max (16 * v) t := by
  rcases Nat.le_total t (16 * v) with h | h
  · have hstep := (scaledStep_approaches v).below t h
    omega
  · have hstep := (scaledStep_approaches v).above t h
    omega

section Pad

variable {pad : PadFilter} {v : ℕ}

theorem shiftLeft_four (v : ℕ) : v <<< TOUCH_PAD_SHIFT_DEFAULT = 16 * v := by
  rw [TOUCH_PAD_SHIFT_DEFAULT, Nat.shiftLeft_eq]
  omega

/-- Nothing of the step is lost in 32 bits. -/
theorem filteredTemp_read (ht : pad.filteredTemp < 2 ^ 20) (hv : v < 2 ^ 16) :
    (pad.read v).filteredTemp = scaledStep v pad.filteredTemp := by
  rw [PadFilter.read, scaledStep, lowPass]
  simp only [shiftLeft_four, touchFilterIir, TOUCH_PAD_FILTER_FACTOR_DEFAULT]
  rw [if_neg (by decide)]
  by_cases h0 : pad.filteredTemp = 0
  · rw [if_pos h0, if_pos h0]
    omega
  · rw [if_neg h0, if_neg h0]
    omega

theorem scaledStep_lt {t : ℕ} (ht : t < 2 ^ 20) (hv : v < 2 ^ 16) : scaledStep v t < 2 ^ 20 := by
  have hbetween := scaledStep_between v t
  omega

theorem filteredVal_read (ht : pad.filteredTemp < 2 ^ 20) (hv : v < 2 ^ 16) :
    (pad.read v).filteredVal = (scaledStep v pad.filteredTemp + 8) / 16 % 2 ^ 16 := by
  have hlt := scaledStep_lt ht hv
  rw [← filteredTemp_read ht hv] at hlt ⊢
  have hval : (pad.read v).filteredVal
      = (((pad.read v).filteredTemp + 8) % 2 ^ 32) >>> 4 % 2 ^ 16 := rfl
  rw [hval, Nat.shiftRight_eq_div_pow]
  omega

end Pad

/-! ## A reading that stays -/

/-- The outputs from index `s` to index `M` move towards `v` from one side. -/
def Toward (v : ℕ) (f : ℕ → ℕ) (s M : ℕ) : Prop :=
  (∀ n, s ≤ n → n < M → f n ≤ f (n + 1) ∧ f (n + 1) ≤ v) ∨
    ∀ n, s ≤ n → n < M → v ≤ f (n + 1) ∧ f (n + 1) ≤ f n

/-- Rounding keeps the direction. Only a reading of all ones is approached from where the rounded
state is too large for 16 bits, and then the outputs rise from zero. -/
theorem toward_of_steps {v s M : ℕ} {f x : ℕ → ℕ} (hv : v < 2 ^ 16)
    (hx : ∀ n, s ≤ n → n < M → x (n + 1) = scaledStep v (x n)) (hlt : x s < 2 ^ 20)
    (hwrap : x s < 2 ^ 20 - 8 ∨ v = 2 ^ 16 - 1)
    (hf : ∀ n, s ≤ n → n ≤ M → f n = (x n + 8) / 16 % 2 ^ 16) : Toward v f s M := by
  have happ := scaledStep_approaches v
  rcases Nat.le_total (x s) (16 * v) with h0 | h0
  · left
    intro n hsn hnM
    have hn := (happ.seq_below hx h0 n hsn hnM.le).1
    have hstep := happ.below (x n) hn
    rw [← hx n hsn hnM] at hstep
    rw [hf n hsn hnM.le, hf (n + 1) (by omega) hnM]
    omega
  · have hdown : ∀ n, s ≤ n → n < M →
        16 * v ≤ x (n + 1) ∧ x (n + 1) ≤ x n ∧ x n ≤ x s := by
      intro n hsn hnM
      obtain ⟨hle, hle0, -⟩ := happ.seq_above hx h0 n hsn hnM.le
      have hstep := happ.above (x n) hle
      rw [← hx n hsn hnM] at hstep
      exact ⟨hstep.1, hstep.2, hle0⟩
    rcases hwrap with hsmall | hones
    · right
      intro n hsn hnM
      have := hdown n hsn hnM
      rw [hf n hsn hnM.le, hf (n + 1) (by omega) hnM]
      omega
    · left
      intro n hsn hnM
      have := hdown n hsn hnM
      rw [hf n hsn hnM.le, hf (n + 1) (by omega) hnM]
      omega

/-- A state that callbacks lead to, with its output. -/
def PadFilter.Settled (pad : PadFilter) : Prop :=
  pad.filteredTemp ≤ 16 * (2 ^ 16 - 1) ∧ pad.filteredVal = (pad.filteredTemp + 8) / 16

theorem PadFilter.Settled.read {pad : PadFilter} {v : ℕ} (h : pad.Settled) (hv : v < 2 ^ 16) :
    (pad.read v).Settled := by
  obtain ⟨hle, -⟩ := h
  have ht : pad.filteredTemp < 2 ^ 20 := by omega
  have hbetween := scaledStep_between v pad.filteredTemp
  rw [Settled, filteredVal_read ht hv, filteredTemp_read ht hv]
  omega

/-- The state and the output are settled from the first reading on. -/
theorem settled_afterCallbacks {initBit i : ℕ} {readings : ℕ → ℕ → ℕ} (hi : i < TOUCH_PAD_MAX)
    (hinit : initBit.testBit i = true) (hreadings : ∀ n, readings n i < 2 ^ 16) (n : ℕ) :
    (afterCallbacks initBit readings (fun _ ↦ ⟨0, 0, 0⟩) n i).Settled := by
  induction n with
  | zero => exact ⟨Nat.zero_le _, by simp [afterCallbacks]⟩
  | succ n ih =>
    rw [afterCallbacks_succ hi hinit]
    exact ih.read (hreadings n)

/-- Nor do the states leave what 20 bits hold. -/
theorem filteredTemp_afterCallbacks_lt {initBit i M : ℕ} {readings : ℕ → ℕ → ℕ}
    {pads : ℕ → PadFilter} (hi : i < TOUCH_PAD_MAX) (hinit : initBit.testBit i = true)
    (ht : (pads i).filteredTemp < 2 ^ 20) (hreadings : ∀ n < M, readings n i < 2 ^ 16) :
    ∀ n ≤ M, (afterCallbacks initBit readings pads n i).filteredTemp < 2 ^ 20 := by
  intro n
  induction n with
  | zero => exact fun _ ↦ ht
  | succ n ih =>
    intro hn
    have hv := hreadings n hn
    rw [afterCallbacks_succ hi hinit, filteredTemp_read (ih (by omega)) hv]
    exact scaledStep_lt (ih (by omega)) hv

/-- What one callback does to a pad with the reading `val`. -/
structure FilterStep (val : ℕ) (pad pad' : PadFilter) : Prop where
  /-- The sum in `_touch_filter_iir` fits in 32 bits. -/
  noOverflow : val <<< TOUCH_PAD_SHIFT_DEFAULT + (TOUCH_PAD_FILTER_FACTOR_DEFAULT - 1) *
    (if pad.filteredTemp = 0 then val <<< TOUCH_PAD_SHIFT_DEFAULT else pad.filteredTemp) < 2 ^ 32
  above : min (val <<< TOUCH_PAD_SHIFT_DEFAULT) pad.filteredTemp ≤ pad'.filteredTemp
  below : pad'.filteredTemp ≤ max (val <<< TOUCH_PAD_SHIFT_DEFAULT) pad.filteredTemp

theorem filterStep_read {pad : PadFilter} {val : ℕ} (ht : pad.filteredTemp < 2 ^ 20)
    (hval : val < 2 ^ 16) : FilterStep val pad (pad.read val) := by
  have hbetween := scaledStep_between val pad.filteredTemp
  refine ⟨?_, ?_, ?_⟩
  · rw [shiftLeft_four, TOUCH_PAD_FILTER_FACTOR_DEFAULT]
    split <;> omega
  · rw [shiftLeft_four, filteredTemp_read ht hval]
    exact hbetween.1
  · rw [shiftLeft_four, filteredTemp_read ht hval]
    exact hbetween.2

/-- **The filter converges.** Every callback moves the scaled output of a pad between its reading
and the output before, without overflow. While the reading stays at `v`, the outputs move towards
`v` from one side, from the first callback on or from a settled state on, and from some callback on
they are `v`. -/
theorem touchPadFilterCb_converges (initBit i : ℕ) (pads : ℕ → PadFilter) (hi : i < TOUCH_PAD_MAX)
    (hinit : initBit.testBit i = true) (ht : (pads i).filteredTemp < 2 ^ 20) :
    (∀ vals : ℕ → ℕ, vals i < 2 ^ 16 →
      FilterStep (vals i) (pads i) (touchPadFilterCb initBit vals pads i)) ∧
    ∀ v < 2 ^ 16, ∃ N, ∀ (readings : ℕ → ℕ → ℕ) (M : ℕ), (∀ n < M, readings n i = v) →
      Toward v (fun n ↦ (afterCallbacks initBit readings pads n i).filteredVal) 1 M ∧
      ((pads i).Settled →
        Toward v (fun n ↦ (afterCallbacks initBit readings pads n i).filteredVal) 0 M) ∧
      ∀ n, N ≤ n → n ≤ M → (afterCallbacks initBit readings pads n i).filteredVal = v := by
  refine ⟨fun vals hval ↦ ?_, fun v hv ↦
    ⟨max (16 * v) (pads i).filteredTemp + 1, fun readings M hreadings ↦ ?_⟩⟩
  · rw [touchPadFilterCb_apply hi hinit]
    exact filterStep_read ht hval
  have hnext : ∀ n < M, afterCallbacks initBit readings pads (n + 1) i
      = (afterCallbacks initBit readings pads n i).read v := by
    intro n hn
    rw [afterCallbacks_succ hi hinit, hreadings n hn]
  have hlt := filteredTemp_afterCallbacks_lt hi hinit ht fun n hn ↦ (hreadings n hn).trans_lt hv
  have hx : ∀ n, 0 ≤ n → n < M → (afterCallbacks initBit readings pads (n + 1) i).filteredTemp
      = scaledStep v (afterCallbacks initBit readings pads n i).filteredTemp := by
    intro n _ hn
    rw [hnext n hn, filteredTemp_read (hlt n hn.le) hv]
  have hf : ∀ n, 1 ≤ n → n ≤ M → (afterCallbacks initBit readings pads n i).filteredVal
      = ((afterCallbacks initBit readings pads n i).filteredTemp + 8) / 16 % 2 ^ 16 := by
    intro n hn hnM
    obtain ⟨m, rfl⟩ : ∃ m, n = m + 1 := ⟨n - 1, by omega⟩
    rw [hx m (Nat.zero_le m) hnM, hnext m hnM, filteredVal_read (hlt m (by omega)) hv]
  refine ⟨?_, fun hsettled ↦ ?_, fun n hn hnM ↦ ?_⟩
  · rcases Nat.eq_zero_or_pos M with rfl | hM
    · exact Or.inl fun n _ hn ↦ absurd hn (Nat.not_lt_zero n)
    -- one step from below `2 ^ 20` comes to the states that wrap only with the largest reading
    have hwrap : scaledStep v (pads i).filteredTemp < 2 ^ 20 - 8 ∨ v = 2 ^ 16 - 1 := by
      rw [scaledStep, lowPass]
      split <;> omega
    refine toward_of_steps hv (fun n _ hn ↦ hx n (Nat.zero_le n) hn) (hlt 1 hM) ?_ hf
    rw [hx 0 le_rfl hM]
    exact hwrap
  · obtain ⟨hle, hval⟩ := hsettled
    have hsmall : (pads i).filteredTemp < 2 ^ 20 - 8 := by omega
    refine toward_of_steps (x := fun n ↦ (afterCallbacks initBit readings pads n i).filteredTemp) hv
      hx ht (Or.inl hsmall) fun n _ hnM ↦ ?_
    rcases Nat.eq_zero_or_pos n with rfl | hn
    · have hzero : (afterCallbacks initBit readings pads 0 i).filteredVal
          = ((afterCallbacks initBit readings pads 0 i).filteredTemp + 8) / 16 := hval
      rw [hzero, Nat.mod_eq_of_lt]
      exact Nat.div_lt_of_lt_mul (by simp only [afterCallbacks]; omega)
    · exact hf n hn hnM
  · have hsettles := (scaledStep_approaches v).settles
      (x := fun n ↦ (afterCallbacks initBit readings pads n i).filteredTemp) hx (n := n)
      (by simp only [afterCallbacks]; omega) hnM
    rw [hf n (by omega) hnM]
    omega

/-- Pad 3, from the largest state there can be. -/
theorem touchPadFilterCb_converges_largest : ∃ N, ∀ (readings : ℕ → ℕ → ℕ) (M : ℕ),
    (∀ n < M, readings n 3 = 40000) →
    Toward 40000
      (fun n ↦ (afterCallbacks 8 readings (fun _ ↦ ⟨1048575, 0, 0⟩) n 3).filteredVal) 1 M ∧
    (PadFilter.Settled ⟨1048575, 0, 0⟩ → Toward 40000
      (fun n ↦ (afterCallbacks 8 readings (fun _ ↦ ⟨1048575, 0, 0⟩) n 3).filteredVal) 0 M) ∧
    ∀ n, N ≤ n → n ≤ M →
      (afterCallbacks 8 readings (fun _ ↦ ⟨1048575, 0, 0⟩) n 3).filteredVal = 40000 :=
  (touchPadFilterCb_converges 8 3 (fun _ ↦ ⟨1048575, 0, 0⟩) (by decide) (by decide)
    (by decide)).2 40000 (by decide)

end Ddmz.Touch
