import Ddmz.Foundation.Runs
import Ddmz.Touch.Filter

/-!
# Sliders

When a pad of a slider is touched, `filter_read_cb` calls `tp_slide_pos_cb` for the slider. It
weighs by how much the pads are over their thresholds, takes the three neighbours with the largest
sum, and the position is where the centre of their weights is, run through a filter.

The filter keeps its last output in a variable of the function, which all sliders share; so a slider
goes on from where another one has been touched. And where the pads do not determine a position,
the last one is taken again, which before the first is `SLIDE_POS_INF`. Apart from this the
positions of a slider are its own and in its range: `sliders_independent`. Floating-point numbers
are rationals here.
-/

namespace Ddmz.Touch

def SLIDE_POS_INF : ℕ := (1 <<< 8) - 1

def SLDER_POS_FILTER_FACTOR_DEFAULT : ℕ := 4

/-- `_slider_filter_iir`, which is the filter of the readings. -/
def sliderFilterIir (inNow outLast k : ℕ) : ℕ := touchFilterIir inNow outLast k

/-- `tp_slide_t`, with the thresholds of the pads and what `iot_tp_slide_create` checks. -/
structure TpSlide where
  tpNum : ℕ
  posRange : ℕ
  slideTriggerThr : ℕ → ℚ
  three_le : 3 ≤ tpNum
  tpNum_le : tpNum ≤ posRange
  posRange_lt : posRange < 2 ^ 8
  thr_pos : ∀ i, 0 < slideTriggerThr i

/-- What the loop over the neighbours has found so far. -/
structure Neighbours where
  valSum : ℚ
  maxIdx : ℕ
  non0Cnt : ℕ

namespace TpSlide

variable (tp : TpSlide)

def posScale : ℚ := tp.posRange / (tp.tpNum - 1)

def weightSum : ℚ := ((List.range tp.tpNum).map tp.slideTriggerThr).sum

/-- `calc_val`, after both loops over it. -/
def calcVal (diffRate : List ℚ) (i : ℕ) : ℚ :=
  let change := diffRate.getD i 0 - tp.slideTriggerThr i
  (if change < 0 then 0 else change) * tp.weightSum / tp.slideTriggerThr i

/-- The loop for the three neighbours with the largest sum. -/
def findMax (calcVal : ℕ → ℚ) (n : ℕ) : Neighbours :=
  (List.range n).foldl (fun w i ↦
    if 2 ≤ i then
      let nebSum := calcVal (i - 2) + calcVal (i - 1) + calcVal i
      if w.valSum < nebSum then
        ⟨nebSum, i - 1, [i - 2, i - 1, i].countP fun j ↦ 0 < calcVal j⟩
      else w
    else w) ⟨0, 0, 0⟩

/-- `slide_pos_temp`, which is `slide_pos` in the beginning. -/
def slidePosTemp (calcVal : ℕ → ℚ) (slidePos : ℕ) : ℕ :=
  let w := findMax calcVal tp.tpNum
  let m := w.maxIdx
  match w.non0Cnt with
  | 0 => slidePos
  | 1 =>
    let noZero := (List.range tp.tpNum).countP fun i ↦ 0 < calcVal i
    if noZero ≤ w.non0Cnt then
      match [m - 1, m, m + 1].find? fun i ↦ calcVal i ≠ 0 with
      | some i => if i = tp.tpNum - 1 then tp.posRange else ⌊i * tp.posScale⌋₊
      | none => slidePos
    else slidePos
  | 2 =>
    if calcVal (m - 1) = 0 then
      ⌊(((m + 1 : ℕ) : ℚ) * calcVal (m + 1) + m * calcVal m) * tp.posScale / w.valSum⌋₊
    else if calcVal (m + 1) = 0 then
      ⌊(((m - 1 : ℕ) : ℚ) * calcVal (m - 1) + m * calcVal m) * tp.posScale / w.valSum⌋₊
    else slidePos
  | _ =>
    ⌊(((m - 1 : ℕ) : ℚ) * calcVal (m - 1) + m * calcVal m + ((m + 1 : ℕ) : ℚ) * calcVal (m + 1))
      * tp.posScale / w.valSum⌋₊

/-- `tp_slide_pos_cb`: the new `slide_pos` and `slide_pos_last`. -/
def slidePosCb (diffRate : List ℚ) (slidePos slidePosLast : ℕ) : ℕ × ℕ :=
  let temp := tp.slidePosTemp (tp.calcVal diffRate) slidePos
  let last := if slidePosLast = 0 then (temp % 2 ^ 16) <<< 4 else slidePosLast
  let last := sliderFilterIir ((temp <<< 4) % 2 ^ 32) last SLDER_POS_FILTER_FACTOR_DEFAULT
  (((last + 8) % 2 ^ 32) >>> 4, last)

/-! ### The three neighbours -/

/-- The sum for a pad and those beside it. -/
def nebSum (c : ℕ → ℚ) (m : ℕ) : ℚ := c (m - 1) + c m + c (m + 1)

def nebCnt (c : ℕ → ℚ) (m : ℕ) : ℕ := [m - 1, m, m + 1].countP fun j ↦ 0 < c j

/-- The first pad with the largest sum, among those that have one on either side. -/
structure Foremost (c : ℕ → ℚ) (n m : ℕ) : Prop where
  inside : 1 ≤ m ∧ m + 1 < n
  largest : ∀ j, 1 ≤ j → j + 1 < n → nebSum c j ≤ nebSum c m
  first : ∀ j, 1 ≤ j → j < m → nebSum c j < nebSum c m

variable {c : ℕ → ℚ} {n m : ℕ}

theorem Foremost.unique {m' : ℕ} (h : Foremost c n m) (h' : Foremost c n m') : m = m' := by
  obtain hlt | heq | hlt := lt_trichotomy m m'
  · exact absurd (h'.first m h.inside.1 hlt) (h.largest m' h'.inside.1 h'.inside.2).not_gt
  · exact heq
  · exact absurd (h.first m' h'.inside.1 hlt) (h'.largest m h.inside.1 h.inside.2).not_gt

theorem findMax_succ (c : ℕ → ℚ) (m : ℕ) : findMax c (m + 2) =
    if 1 ≤ m ∧ (findMax c (m + 1)).valSum < nebSum c m then ⟨nebSum c m, m, nebCnt c m⟩
    else findMax c (m + 1) := by
  rw [findMax, List.range_succ, List.foldl_append, List.foldl_cons, List.foldl_nil, ← findMax]
  by_cases hm : 1 ≤ m
  · have hi : m + 1 - 2 = m - 1 := by omega
    have hi' : m + 1 - 1 = m := rfl
    rw [if_pos (by omega), hi, hi']
    simp only [hm, true_and, nebSum, nebCnt]
  · rw [if_neg (by omega), if_neg (fun h ↦ hm h.1)]

/-- **What the loop finds**: the foremost of the pads, unless all sums are zero. -/
theorem findMax_spec (hc : ∀ i, 0 ≤ c i) (n : ℕ) :
    (findMax c n = ⟨0, 0, 0⟩ ∧ ∀ j, 1 ≤ j → j + 1 < n → nebSum c j = 0) ∨
      ∃ m, Foremost c n m ∧ 0 < nebSum c m ∧ findMax c n = ⟨nebSum c m, m, nebCnt c m⟩ := by
  have hnonneg : ∀ j, 0 ≤ nebSum c j := fun j ↦ add_nonneg (add_nonneg (hc _) (hc _)) (hc _)
  induction n with
  | zero => exact .inl ⟨rfl, fun j _ hj ↦ absurd hj (Nat.not_lt_zero _)⟩
  | succ n ih =>
    cases n with
    | zero => exact .inl ⟨rfl, fun j _ hj ↦ absurd hj (by omega)⟩
    | succ m =>
      rw [findMax_succ]
      obtain ⟨heq, hzero⟩ | ⟨m', hm', hpos, heq⟩ := ih
      · rw [heq]
        by_cases hnew : 1 ≤ m ∧ 0 < nebSum c m
        · rw [if_pos hnew]
          refine .inr ⟨m, ⟨⟨hnew.1, by omega⟩, fun j hj hjm ↦ ?_, fun j hj hjm ↦ ?_⟩, hnew.2, rfl⟩
          · obtain rfl | hne := eq_or_ne j m
            · exact le_rfl
            · rw [hzero j hj (by omega)]
              exact hnonneg m
          · rw [hzero j hj (by omega)]
            exact hnew.2
        · rw [if_neg hnew]
          refine .inl ⟨rfl, fun j hj hjm ↦ ?_⟩
          obtain rfl | hne := eq_or_ne j m
          · exact le_antisymm (not_lt.mp fun h ↦ hnew ⟨hj, h⟩) (hnonneg j)
          · exact hzero j hj (by omega)
      · rw [heq]
        by_cases hnew : 1 ≤ m ∧ nebSum c m' < nebSum c m
        · rw [if_pos hnew]
          have hbelow : ∀ j, 1 ≤ j → j < m → nebSum c j < nebSum c m := fun j hj hjm ↦
            (hm'.largest j hj (by omega)).trans_lt hnew.2
          refine .inr ⟨m, ⟨⟨hnew.1, by omega⟩, fun j hj hjm ↦ ?_, hbelow⟩, hpos.trans hnew.2, rfl⟩
          obtain rfl | hne := eq_or_ne j m
          · exact le_rfl
          · exact (hbelow j hj (by omega)).le
        · rw [if_neg hnew]
          refine .inr ⟨m', ⟨⟨hm'.inside.1, by have := hm'.inside.2; omega⟩, fun j hj hjm ↦ ?_,
            hm'.first⟩, hpos, rfl⟩
          obtain rfl | hne := eq_or_ne j m
          · exact not_lt.mp fun h ↦ hnew ⟨hj, h⟩
          · exact hm'.largest j hj (by omega)

/-- A pad that has been touched is among three neighbours. -/
theorem exists_foremost (hc : ∀ i, 0 ≤ c i) (hn : 3 ≤ n) {i : ℕ} (hi : i < n) (hpos : 0 < c i) :
    ∃ m, Foremost c n m ∧ 0 < nebSum c m ∧ findMax c n = ⟨nebSum c m, m, nebCnt c m⟩ := by
  obtain ⟨-, hzero⟩ | h := findMax_spec hc n
  · obtain ⟨j, hj, hjn, hij⟩ :
        ∃ j, 1 ≤ j ∧ j + 1 < n ∧ (i = j - 1 ∨ i = j ∨ i = j + 1) := by
      obtain h0 | h0 | h0 : i = 0 ∨ i = n - 1 ∨ (1 ≤ i ∧ i + 1 < n) := by omega
      · exact ⟨1, by omega⟩
      · exact ⟨n - 2, by omega⟩
      · exact ⟨i, by omega⟩
    have hsum := hzero j hj hjn
    have h₁ := hc (j - 1)
    have h₂ := hc j
    have h₃ := hc (j + 1)
    rw [nebSum] at hsum
    obtain rfl | rfl | rfl := hij <;> linarith
  · exact h

theorem nebCnt_eq (hc : ∀ i, 0 ≤ c i) (m : ℕ) : nebCnt c m = (if c (m - 1) = 0 then 0 else 1) +
    (if c m = 0 then 0 else 1) + if c (m + 1) = 0 then 0 else 1 := by
  have hiff : ∀ j, 0 < c j ↔ c j ≠ 0 := fun j ↦ (hc j).lt_iff_ne.trans ne_comm
  rw [nebCnt]
  simp only [List.countP_cons, List.countP_nil, hiff, ne_eq, decide_not, Bool.not_eq_true',
    decide_eq_false_iff_not, ite_not]
  omega

theorem nebCnt_le (hm : 1 ≤ m) (hmn : m + 1 < n) :
    nebCnt c m ≤ (List.range n).countP fun i ↦ 0 < c i := by
  have hthree : [m - 1, m, m + 1] = ((List.range n).drop (m - 1)).take 3 := by
    obtain ⟨k, rfl⟩ : ∃ k, m = k + 1 := ⟨m - 1, by omega⟩
    rw [List.range_eq_range', List.drop_range', List.take_range'_of_length_ge (by omega),
      Nat.zero_add, Nat.mul_one]
    rfl
  rw [nebCnt, hthree]
  exact ((List.take_sublist _ _).trans (List.drop_sublist _ _)).countP_le

/-! ### The position -/

/-- There is one touched pad, or the one in the middle is touched and one beside it. -/
def Determined (c : ℕ → ℚ) (n m : ℕ) : Prop :=
  (List.range n).countP (fun i ↦ 0 < c i) = 1 ∨ c m ≠ 0 ∧ (c (m - 1) ≠ 0 ∨ c (m + 1) ≠ 0)

/-- The pads determine a position. -/
def Placeable (c : ℕ → ℚ) (n : ℕ) : Prop := ∃ m, Foremost c n m ∧ Determined c n m

variable {tp}

theorem posScale_mul : (tp.tpNum - 1) * tp.posScale = tp.posRange := by
  have h : (3 : ℚ) ≤ tp.tpNum := by exact_mod_cast tp.three_le
  rw [posScale]
  field_simp [show (tp.tpNum : ℚ) - 1 ≠ 0 by linarith]

theorem posScale_nonneg : 0 ≤ tp.posScale := by
  have h : (3 : ℚ) ≤ tp.tpNum := by exact_mod_cast tp.three_le
  exact div_nonneg (Nat.cast_nonneg _) (by linarith)

/-- A mean of the places of the pads is in the range. -/
theorem floor_le {w v : ℚ} (hv : 0 < v) (hw : w ≤ (tp.tpNum - 1) * v) :
    ⌊w * tp.posScale / v⌋₊ ≤ tp.posRange := by
  refine Nat.floor_le_of_le ((div_le_iff₀ hv).mpr ?_)
  calc w * tp.posScale ≤ (tp.tpNum - 1) * v * tp.posScale :=
        mul_le_mul_of_nonneg_right hw posScale_nonneg
    _ = (tp.tpNum - 1) * tp.posScale * v := by ring
    _ = tp.posRange * v := by rw [posScale_mul]

theorem place_mul_le {j : ℕ} (hj : j < tp.tpNum) {x : ℚ} (hx : 0 ≤ x) :
    j * x ≤ (tp.tpNum - 1) * x := by
  have h : (j : ℚ) + 1 ≤ tp.tpNum := by exact_mod_cast hj
  exact mul_le_mul_of_nonneg_right (by linarith) hx

theorem floor_place_le {j : ℕ} (hj : j < tp.tpNum) : ⌊j * tp.posScale⌋₊ ≤ tp.posRange := by
  have hplace : (j : ℚ) * 1 ≤ (tp.tpNum - 1) * 1 := place_mul_le hj zero_le_one
  have hle := floor_le one_pos hplace
  rwa [mul_one, div_one] at hle

/-- The branches of `tp_slide_pos_cb`, for the three neighbours around `m`. -/
theorem slidePosTemp_spec (hc : ∀ i, 0 ≤ c i) (hm : Foremost c tp.tpNum m) (hsum : 0 < nebSum c m)
    (heq : findMax c tp.tpNum = ⟨nebSum c m, m, nebCnt c m⟩) (slidePos : ℕ) :
    Determined c tp.tpNum m ∧ tp.slidePosTemp c slidePos ≤ tp.posRange ∨
      ¬Determined c tp.tpNum m ∧ tp.slidePosTemp c slidePos = slidePos := by
  obtain ⟨hm1, hmn⟩ := hm.inside
  have hcnt := nebCnt_eq hc m
  have hle := nebCnt_le (c := c) hm1 hmn
  have hleft : ((m - 1 : ℕ) : ℚ) * c (m - 1) ≤ (tp.tpNum - 1) * c (m - 1) :=
    place_mul_le (by omega) (hc _)
  have hmid : (m : ℚ) * c m ≤ (tp.tpNum - 1) * c m := place_mul_le (by omega) (hc m)
  have hright : ((m + 1 : ℕ) : ℚ) * c (m + 1) ≤ (tp.tpNum - 1) * c (m + 1) :=
    place_mul_le hmn (hc _)
  have hzero : ¬(c (m - 1) = 0 ∧ c m = 0 ∧ c (m + 1) = 0) := by
    rintro ⟨h₁, h₂, h₃⟩
    rw [nebSum, h₁, h₂, h₃] at hsum
    simp at hsum
  rw [slidePosTemp, heq]
  dsimp only
  split
  · -- none of the three is touched
    rename_i h0
    exact absurd (by grind) hzero
  · -- one of them
    rename_i h1
    split
    · rename_i hone
      refine .inl ⟨.inl (by omega), ?_⟩
      split
      · rename_i i hi
        have hmem := List.mem_of_find?_eq_some hi
        simp only [List.mem_cons, List.not_mem_nil, or_false] at hmem
        split
        · exact le_rfl
        · exact floor_place_le (by omega)
      · rename_i hnone
        exact absurd (by simpa using hnone) hzero
    · rename_i hmore
      exact .inr ⟨by grind [Determined], rfl⟩
  · -- two of them
    rename_i h2
    split
    · rename_i h
      refine .inl ⟨.inr (by grind), floor_le hsum ?_⟩
      rw [nebSum, h]
      linarith
    · split
      · rename_i h
        refine .inl ⟨.inr (by grind), floor_le hsum ?_⟩
        rw [nebSum, h]
        linarith
      · exact .inr ⟨by grind [Determined], rfl⟩
  · -- all three
    rename_i h0 h1 h2
    refine .inl ⟨.inr (by grind), floor_le hsum ?_⟩
    rw [nebSum]
    linarith

/-- **The position**: it is in the range, or the last one. -/
theorem slidePosTemp_le_or_eq (hc : ∀ i, 0 ≤ c i) {i : ℕ} (hi : i < tp.tpNum) (hpos : 0 < c i)
    (slidePos : ℕ) :
    Placeable c tp.tpNum ∧ tp.slidePosTemp c slidePos ≤ tp.posRange ∨
      ¬Placeable c tp.tpNum ∧ tp.slidePosTemp c slidePos = slidePos := by
  obtain ⟨m, hm, hsum, heq⟩ := exists_foremost hc tp.three_le hi hpos
  obtain ⟨hdet, hle⟩ | ⟨hdet, heq⟩ := slidePosTemp_spec hc hm hsum heq slidePos
  · exact .inl ⟨⟨m, hm, hdet⟩, hle⟩
  · refine .inr ⟨?_, heq⟩
    rintro ⟨m', hm', hdet'⟩
    obtain rfl := hm.unique hm'
    exact hdet hdet'

theorem weightSum_pos : 0 < tp.weightSum := by
  refine List.sum_pos _ (fun x hx ↦ ?_) ?_
  · obtain ⟨i, -, rfl⟩ := List.mem_map.mp hx
    exact tp.thr_pos i
  · have h := tp.three_le
    rw [ne_eq, List.map_eq_nil_iff, List.range_eq_nil]
    omega

theorem calcVal_nonneg (diffRate : List ℚ) (i : ℕ) : 0 ≤ tp.calcVal diffRate i := by
  refine div_nonneg (mul_nonneg ?_ weightSum_pos.le) (tp.thr_pos i).le
  split
  · exact le_rfl
  · rename_i h
    exact not_lt.mp h

theorem calcVal_pos {diffRate : List ℚ} {i : ℕ} (h : tp.slideTriggerThr i < diffRate.getD i 0) :
    0 < tp.calcVal diffRate i := by
  have hchange : 0 < diffRate.getD i 0 - tp.slideTriggerThr i := sub_pos.mpr h
  refine div_pos (mul_pos ?_ weightSum_pos) (tp.thr_pos i)
  rwa [if_neg hchange.not_gt]

/-! ### The filter -/

variable {diffRate : List ℚ} {slidePos last : ℕ}

theorem slidePosCb_snd (htemp : tp.slidePosTemp (tp.calcVal diffRate) slidePos < 2 ^ 8)
    (hlast : last < 2 ^ 12) : (tp.slidePosCb diffRate slidePos last).2
      = scaledStep (tp.slidePosTemp (tp.calcVal diffRate) slidePos) last := by
  rw [slidePosCb, scaledStep, lowPass]
  generalize tp.slidePosTemp (tp.calcVal diffRate) slidePos = temp at htemp
  simp only [Nat.shiftLeft_eq, sliderFilterIir, touchFilterIir, SLDER_POS_FILTER_FACTOR_DEFAULT]
  rw [if_neg (by decide)]
  by_cases h0 : last = 0
  · rw [if_pos h0, if_pos h0]
    omega
  · rw [if_neg h0, if_neg h0]
    omega

theorem slidePosCb_fst : (tp.slidePosCb diffRate slidePos last).1
    = ((tp.slidePosCb diffRate slidePos last).2 + 8) % 2 ^ 32 / 16 := by
  rw [slidePosCb, Nat.shiftRight_eq_div_pow]

/-- What is in the range stays in it. -/
theorem slidePosCb_le (htemp : tp.slidePosTemp (tp.calcVal diffRate) slidePos ≤ tp.posRange)
    (hlast : last ≤ 16 * tp.posRange) :
    (tp.slidePosCb diffRate slidePos last).1 ≤ tp.posRange ∧
      (tp.slidePosCb diffRate slidePos last).2 ≤ 16 * tp.posRange := by
  have hrange := tp.posRange_lt
  have hsnd : (tp.slidePosCb diffRate slidePos last).2
      = scaledStep (tp.slidePosTemp (tp.calcVal diffRate) slidePos) last :=
    slidePosCb_snd (by omega) (by omega)
  have hbetween := scaledStep_between (tp.slidePosTemp (tp.calcVal diffRate) slidePos) last
  rw [slidePosCb_fst, hsnd]
  omega

/-- A slider that is touched for the first time, and not at one place, goes on from
`SLIDE_POS_INF`. -/
theorem slidePosCb_fst_inf
    (htemp : tp.slidePosTemp (tp.calcVal diffRate) SLIDE_POS_INF = SLIDE_POS_INF) :
    (tp.slidePosCb diffRate SLIDE_POS_INF 0).1 = SLIDE_POS_INF := by
  rw [slidePosCb, htemp]
  rfl

end TpSlide

/-- The sliders, with the variable that they share. -/
structure Sliders (ι : Type*) where
  slidePos : ι → ℕ
  slidePosLast : ℕ
  /-- What the last callback of a slider has left in `slide_pos_last`; the program does not keep
  it. -/
  left : ι → ℕ
  /-- What `iot_tp_slide_position` has returned after each callback. -/
  positions : List (ι × ℕ)

/-- No slider has been touched. -/
def Sliders.start (ι : Type*) : Sliders ι := ⟨fun _ ↦ SLIDE_POS_INF, 0, fun _ ↦ 0, []⟩

/-- A callback for a slider, for one of its pads, with the readings of all its pads. -/
structure SlideCall (ι : Type*) where
  slide : ι
  pad : ℕ
  diffRate : List ℚ

section Sliders

variable {ι : Type*} [DecidableEq ι] (cfg : ι → TpSlide)

/-- `filter_read_cb` calls back if the pad is over its threshold. -/
def slideStep (s : Sliders ι) (a : SlideCall ι) : Option (Sliders ι) :=
  let tp := cfg a.slide
  if a.diffRate.length = tp.tpNum ∧ a.pad < tp.tpNum ∧
      tp.slideTriggerThr a.pad < a.diffRate.getD a.pad 0 then
    let (slidePos, last) := tp.slidePosCb a.diffRate (s.slidePos a.slide) s.slidePosLast
    some { slidePos := Function.update s.slidePos a.slide slidePos
           slidePosLast := last
           left := Function.update s.left a.slide last
           positions := s.positions ++ [(a.slide, slidePos % 2 ^ 8)] }
  else none

/-- The positions of one slider. -/
def Sliders.positionsOf (s : Sliders ι) (k : ι) : List ℕ :=
  s.positions.filterMap fun x ↦ if x.1 = k then some x.2 else none

/-- The readings in a callback, if it is for the slider `k`. -/
def SlideCall.reading (k : ι) (a : SlideCall ι) : Option (List ℚ) :=
  if a.slide = k then some a.diffRate else none

/-- The readings of the pads of `k`, in its callbacks. -/
def readings (k : ι) (as : List (SlideCall ι)) : List (List ℚ) := as.filterMap (SlideCall.reading k)

/-- What a callback makes of a slider's own: its position, what it has left in `slide_pos_last`, and
the positions so far. -/
def TpSlide.own (tp : TpSlide) (v : ℕ × ℕ × List ℕ) (diffRate : List ℚ) : ℕ × ℕ × List ℕ :=
  let (slidePos, last) := tp.slidePosCb diffRate v.1 v.2.1
  (slidePos, last, v.2.2 ++ [slidePos % 2 ^ 8])

/-- `slide_pos_last` is what the slider's own last callback has left in it; zero, before the
first. -/
def Undisturbed (s : Sliders ι) (a : SlideCall ι) : Prop := s.slidePosLast = s.left a.slide

instance (s : Sliders ι) (a : SlideCall ι) : Decidable (Undisturbed s a) :=
  inferInstanceAs (Decidable (_ = _))

/-- The pads determine a position, or there has been one. -/
def Placed (s : Sliders ι) (a : SlideCall ι) : Prop :=
  TpSlide.Placeable ((cfg a.slide).calcVal a.diffRate) (cfg a.slide).tpNum ∨
    s.slidePos a.slide ≤ (cfg a.slide).posRange

/-- All positions so far are in the ranges of their sliders. -/
def Bounded (s : Sliders ι) : Prop := ∀ x ∈ s.positions, x.2 ≤ (cfg x.1).posRange

/-- A slider that has no position yet has left nothing in `slide_pos_last`. -/
def Settled (s : Sliders ι) : Prop := ∀ k, s.left k ≤ 16 * (cfg k).posRange ∧
  (s.slidePos k ≤ (cfg k).posRange ∨ s.slidePos k = SLIDE_POS_INF ∧ s.left k = 0)

variable {cfg} {s t : Sliders ι} {a : SlideCall ι} {as : List (SlideCall ι)} {k : ι}

/-- What a callback finds, and what it leaves. -/
theorem slideStep_spec (h : slideStep cfg s a = some t) :
    (∃ i < (cfg a.slide).tpNum, 0 < (cfg a.slide).calcVal a.diffRate i) ∧
      t = { slidePos := Function.update s.slidePos a.slide
              ((cfg a.slide).slidePosCb a.diffRate (s.slidePos a.slide) s.slidePosLast).1
            slidePosLast :=
              ((cfg a.slide).slidePosCb a.diffRate (s.slidePos a.slide) s.slidePosLast).2
            left := Function.update s.left a.slide
              ((cfg a.slide).slidePosCb a.diffRate (s.slidePos a.slide) s.slidePosLast).2
            positions := s.positions ++ [(a.slide,
              ((cfg a.slide).slidePosCb a.diffRate (s.slidePos a.slide) s.slidePosLast).1
                % 2 ^ 8)] } := by
  rw [slideStep] at h
  split at h
  · rename_i hpad
    exact ⟨⟨a.pad, hpad.2.1, TpSlide.calcVal_pos hpad.2.2⟩, (Option.some.inj h).symm⟩
  · cases h

/-! ### Independence -/

/-- A callback that finds its own filter changes a slider as if it were the only one. -/
theorem own_of_step (h : slideStep cfg s a = some t) (hown : Undisturbed s a) :
    (t.slidePos k, t.left k, t.positionsOf k)
      = (a.reading k).elim (s.slidePos k, s.left k, s.positionsOf k)
        ((cfg k).own (s.slidePos k, s.left k, s.positionsOf k)) := by
  obtain ⟨-, rfl⟩ := slideStep_spec h
  rw [SlideCall.reading]
  by_cases hk : a.slide = k
  · subst hk
    simp [Sliders.positionsOf, TpSlide.own, ← show s.slidePosLast = s.left a.slide from hown]
  · simp [hk, Sliders.positionsOf, Function.update_of_ne (Ne.symm hk)]

/-- **Independence**: what becomes of a slider in a run is a fold over its own readings. -/
theorem own_of_run (h : Run (slideStep cfg) Undisturbed s as t) (k : ι) :
    (t.slidePos k, t.left k, t.positionsOf k)
      = (readings k as).foldl (cfg k).own (s.slidePos k, s.left k, s.positionsOf k) :=
  h.view_eq_foldl (fun _ _ _ hown hstep ↦ own_of_step hstep hown)

/-! ### Bounds -/

/-- The position of a callback is in the range if and only if the slider has a place, and then what
is left in `slide_pos_last` is, too. -/
theorem slidePosCb_le_iff (hs : Settled cfg s) (hown : Undisturbed s a)
    (hstep : slideStep cfg s a = some t) :
    (Placed cfg s a ∧ t.slidePos a.slide ≤ (cfg a.slide).posRange ∧
        t.slidePosLast ≤ 16 * (cfg a.slide).posRange) ∨
      (¬Placed cfg s a ∧ (cfg a.slide).posRange < SLIDE_POS_INF ∧
        t.slidePos a.slide = SLIDE_POS_INF) := by
  obtain ⟨⟨i, hi, hpos⟩, rfl⟩ := slideStep_spec hstep
  obtain ⟨hleft, hplace⟩ := hs a.slide
  have htemp := TpSlide.slidePosTemp_le_or_eq (TpSlide.calcVal_nonneg a.diffRate) hi hpos
    (s.slidePos a.slide)
  rw [← show s.slidePosLast = s.left a.slide from hown] at hleft hplace
  simp only [Function.update_self]
  by_cases hplaced : Placed cfg s a
  · refine .inl ⟨hplaced, TpSlide.slidePosCb_le ?_ hleft⟩
    obtain ⟨-, hle⟩ | ⟨hnot, heq⟩ := htemp
    · exact hle
    · rw [heq]
      exact hplaced.resolve_left hnot
  · rw [Placed, not_or, not_le] at hplaced
    obtain ⟨hinf, hzero⟩ := hplace.resolve_left hplaced.2.not_ge
    obtain ⟨hplaceable, -⟩ | ⟨-, heq⟩ := htemp
    · exact absurd hplaceable hplaced.1
    · rw [hinf] at heq hplaced ⊢
      rw [hzero]
      exact .inr ⟨by rw [Placed, hinf, not_or, not_le]; exact hplaced, hplaced.2,
        TpSlide.slidePosCb_fst_inf heq⟩

theorem Bounded.concat_iff (hstep : slideStep cfg s a = some t) :
    Bounded cfg t ↔ Bounded cfg s ∧ t.slidePos a.slide % 2 ^ 8 ≤ (cfg a.slide).posRange := by
  obtain ⟨-, rfl⟩ := slideStep_spec hstep
  simp only [Bounded, List.forall_mem_append, List.forall_mem_singleton, Function.update_self]

theorem bounded_step_iff (hs : Settled cfg s) (hbounded : Bounded cfg s) (hown : Undisturbed s a)
    (hstep : slideStep cfg s a = some t) : Bounded cfg t ↔ Placed cfg s a := by
  rw [Bounded.concat_iff hstep, and_iff_right hbounded]
  obtain ⟨hplaced, hle, -⟩ | ⟨hplaced, hlt, heq⟩ := slidePosCb_le_iff hs hown hstep
  · exact iff_of_true ((Nat.mod_le _ _).trans hle) hplaced
  · rw [heq]
    exact iff_of_false hlt.not_ge hplaced

theorem Settled.step (hs : Settled cfg s) (hbounded : Bounded cfg s) (hbounded' : Bounded cfg t)
    (hown : Undisturbed s a) (hstep : slideStep cfg s a = some t) : Settled cfg t := by
  have hplaced := (bounded_step_iff hs hbounded hown hstep).mp hbounded'
  obtain ⟨-, hle, hlast⟩ | ⟨hnot, -⟩ := slidePosCb_le_iff hs hown hstep
  · intro k
    obtain ⟨-, rfl⟩ := slideStep_spec hstep
    by_cases hk : k = a.slide
    · subst hk
      simp only [Function.update_self] at hle ⊢
      exact ⟨hlast, .inl hle⟩
    · simp only [Function.update_of_ne hk]
      exact hs k
  · exact absurd hplaced hnot

/-- **When sliders are independent and bounded.** In a run in which `slide_pos_last` is always what
the slider's own last callback has left, the positions of a slider are those of any other such run
with the same readings for this slider, whatever the other sliders are. And in such a run all
positions are in the ranges of their sliders if and only if each callback has a place. -/
theorem sliders_independent {ι' : Type*} [DecidableEq ι'] {cfg' : ι' → TpSlide} {k' : ι'}
    {as' : List (SlideCall ι')} {t' : Sliders ι'}
    (h : Run (slideStep cfg) Undisturbed (.start ι) as t)
    (h' : Run (slideStep cfg') Undisturbed (.start ι') as' t') (hslide : cfg k = cfg' k')
    (hreadings : readings k as = readings k' as') :
    t.positionsOf k = t'.positionsOf k' ∧
      (Always (slideStep cfg) (Bounded cfg) (.start ι) as ↔
        Run (slideStep cfg) (Placed cfg) (.start ι) as t) := by
  constructor
  · have hown := own_of_run h k
    have hown' := own_of_run h' k'
    rw [hreadings, hslide] at hown
    exact (Prod.mk.inj (Prod.mk.inj (hown.trans hown'.symm)).2).2
  · refine h.always_iff_while (J := Settled cfg)
      (fun s a t hs hI hI' hown hstep ↦ hs.step hI hI' hown hstep)
      (fun s a t hs hI hown hstep ↦ bounded_step_iff hs hI hown hstep)
      (fun _ ↦ ⟨Nat.zero_le _, .inr ⟨rfl, rfl⟩⟩) ?_
    intro x hx
    cases hx

end Sliders

/-- Two sliders of three pads each. -/
def twoSliders : Fin 2 → TpSlide := fun _ ↦
  { tpNum := 3
    posRange := 30
    slideTriggerThr := fun _ ↦ 1
    three_le := le_rfl
    tpNum_le := by decide
    posRange_lt := by decide
    thr_pos := fun _ ↦ one_pos }

/-- A single pad determines a position. -/
theorem placed_twoSliders {s : Sliders (Fin 2)} {a : SlideCall (Fin 2)}
    (hsingle : (List.range 3).countP (fun i ↦ 0 < (twoSliders a.slide).calcVal a.diffRate i) = 1) :
    Placed twoSliders s a := by
  refine .inl ⟨1, ⟨⟨le_rfl, Nat.lt_succ_self 2⟩, fun j hj hj' ↦ ?_,
    fun j hj hj' ↦ absurd hj hj'.not_ge⟩, .inl hsingle⟩
  obtain rfl : j = 1 := le_antisymm (Nat.lt_succ_iff.mp (Nat.lt_of_succ_lt_succ hj')) hj
  exact le_rfl

theorem sliders_independent_two : ∃ t t' : Sliders (Fin 2),
    Run (slideStep twoSliders) Undisturbed (.start _) [⟨0, 0, [2, 0, 0]⟩, ⟨1, 2, [0, 0, 2]⟩] t ∧
      Run (slideStep twoSliders) Undisturbed (.start _) [⟨0, 0, [2, 0, 0]⟩] t' ∧
      t.positionsOf 0 = t'.positionsOf 0 ∧
      Always (slideStep twoSliders) (Bounded twoSliders) (.start _)
        [⟨0, 0, [2, 0, 0]⟩, ⟨1, 2, [0, 0, 2]⟩] := by
  obtain ⟨t, ht⟩ := Option.isSome_iff_exists.mp (by decide +kernel :
    ([⟨0, 0, [2, 0, 0]⟩, ⟨1, 2, [0, 0, 2]⟩].foldlM (fun s a ↦
      if Undisturbed s a then slideStep twoSliders s a else none) (.start _)).isSome)
  obtain ⟨t', ht'⟩ := Option.isSome_iff_exists.mp (by decide +kernel :
    ([⟨0, 0, [2, 0, 0]⟩].foldlM (fun s a ↦
      if Undisturbed s a then slideStep twoSliders s a else none) (.start _)).isSome)
  have hrun := run_of_foldlM ht
  have hplaced : Run (slideStep twoSliders) (Placed twoSliders) (.start _)
      [⟨0, 0, [2, 0, 0]⟩, ⟨1, 2, [0, 0, 2]⟩] t := by
    cases hrun with
    | cons _ hstep hrest =>
      cases hrest with
      | cons _ hstep' hrest =>
        exact .cons (placed_twoSliders (by decide +kernel)) hstep
          (.cons (placed_twoSliders (by decide +kernel)) hstep' (by cases hrest; exact .nil _))
  have hslide : twoSliders 0 = twoSliders 0 := rfl
  obtain ⟨heq, hbounded⟩ := sliders_independent hrun (run_of_foldlM ht') hslide rfl
  exact ⟨t, t', hrun, run_of_foldlM ht', heq, hbounded.mpr hplaced⟩

/-- One slider is touched at its end, and then the other one at its beginning. -/
theorem not_independent : ¬∀ (cfg : Fin 2 → TpSlide) (k : Fin 2) (as as' : List (SlideCall (Fin 2)))
    (t t' : Sliders (Fin 2)), AnyRun (slideStep cfg) (.start _) as t →
    AnyRun (slideStep cfg) (.start _) as' t' → readings k as = readings k as' →
    t.positionsOf k = t'.positionsOf k ∧ Always (slideStep cfg) (Bounded cfg) (.start _) as := by
  intro h
  obtain ⟨t, ht, hpos⟩ := Option.map_eq_some_iff.mp (by decide +kernel :
    ([⟨1, 2, [0, 0, 2]⟩, ⟨0, 0, [2, 0, 0]⟩].foldlM (slideStep twoSliders) (.start _)).map
      (·.positionsOf 0) = some [23])
  obtain ⟨t', ht', hpos'⟩ := Option.map_eq_some_iff.mp (by decide +kernel :
    ([⟨0, 0, [2, 0, 0]⟩].foldlM (slideStep twoSliders) (.start _)).map
      (·.positionsOf 0) = some [0])
  have heq := (h twoSliders 0 _ _ t t' (anyRun_of_foldlM ht) (anyRun_of_foldlM ht') rfl).1
  rw [hpos, hpos'] at heq
  exact absurd heq (by decide)

end Ddmz.Touch
