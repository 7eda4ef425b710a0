import Ddmz.Touch.Touchpad

/-!
# The difference to the baseline

`filter_read_cb` subtracts the reading of a pad from its baseline in 16 bits with a sign, although
both take 16 bits without one, and divides by the baseline. The quotient is what it decides by, so
its sign should say on which side of the baseline the reading is.

It does as long as the two are not `2 ^ 15` or more apart, and the baseline is not zero. A baseline
is replaced by the filtered reading when nothing has happened for a while, and by the raw one when
the readings have been above it for a while (`TpDev.adopted`), and neither is looked at before. So
the difference is right throughout a run if and only if no reading is too far off and no zero is
adopted: `difference_iff`.
-/

namespace Ddmz.Touch

namespace TpDev

variable (dev : TpDev)

/-- `diff_data`. -/
def diffData (raw : UInt16) : ℤ := ((dev.baseline.toNat : ℤ) - raw.toNat).bmod (2 ^ 16)

theorem diffRate_measure (raw : UInt16) :
    (dev.measure raw).diffRate = dev.diffData raw / dev.baseline.toNat := rfl

/-- What a reading should find. -/
structure Compares (raw : UInt16) : Prop where
  diffData : dev.diffData raw = dev.baseline.toNat - raw.toNat
  baseline : dev.baseline ≠ 0
  below : 0 < (dev.measure raw).diffRate ↔ raw < dev.baseline
  above : (dev.measure raw).diffRate < 0 ↔ dev.baseline < raw

/-- How far a reading is below the baseline, as a part of it. -/
def drop (raw : UInt16) : ℚ := (dev.baseline.toNat - raw.toNat) / dev.baseline.toNat

/-- The reading that becomes the baseline, if any does. -/
def adopted (raw filtered : UInt16) : Option UInt16 :=
  if dev.state = .IDLE ∨ dev.state = .RELEASE then
    if |dev.drop raw| ≤ dev.noiseThr then
      if dev.blUpdateCountTh < dev.blUpdateCount + 1 then some filtered else none
    else if dev.touchThr + dev.hysteresisThr ≤ dev.drop raw then none
    else if dev.drop raw ≤ 0 - dev.baselineResetThr then
      if dev.blResetCountTh < dev.blResetCount + 1 then some raw else none
    else none
  else none

/-- A reading less than `2 ^ 15` off, and not adopted if it is zero. -/
structure Fits (raw filtered : UInt16) : Prop where
  near : -2 ^ 15 ≤ (dev.baseline.toNat : ℤ) - raw.toNat ∧
    (dev.baseline.toNat : ℤ) - raw.toNat < 2 ^ 15
  adopted : dev.adopted raw filtered ≠ some 0

variable {dev} {raw filtered : UInt16}

/-- Sixteen bits with a sign hold the difference of numbers that are near each other. -/
theorem diffData_eq_iff : dev.diffData raw = dev.baseline.toNat - raw.toNat ↔
    -2 ^ 15 ≤ (dev.baseline.toNat : ℤ) - raw.toNat ∧
      (dev.baseline.toNat : ℤ) - raw.toNat < 2 ^ 15 := by
  rw [diffData]
  constructor
  · intro h
    have hle := Int.le_bmod (x := (dev.baseline.toNat : ℤ) - raw.toNat) (m := 2 ^ 16) (by decide)
    have hlt := Int.bmod_lt (x := (dev.baseline.toNat : ℤ) - raw.toNat) (m := 2 ^ 16) (by decide)
    rw [h] at hle hlt
    omega
  · intro h
    exact Int.bmod_eq_of_le (by omega) (by omega)

theorem diffRate_eq_drop (h : dev.diffData raw = dev.baseline.toNat - raw.toNat) :
    (dev.measure raw).diffRate = dev.drop raw := by
  rw [diffRate_measure, h, drop]
  push_cast
  rfl

/-- The sign of a quotient by the baseline is that of the difference. -/
theorem compares_iff : dev.Compares raw ↔
    dev.diffData raw = dev.baseline.toNat - raw.toNat ∧ dev.baseline ≠ 0 := by
  constructor
  · intro h
    exact ⟨h.diffData, h.baseline⟩
  · rintro ⟨hdiff, hne⟩
    have hpos : (0 : ℚ) < dev.baseline.toNat := by
      exact_mod_cast Nat.pos_of_ne_zero fun h ↦ hne (UInt16.toNat_inj.mp h)
    have hrate := diffRate_eq_drop hdiff
    rw [drop] at hrate
    refine ⟨hdiff, hne, ?_, ?_⟩
    · rw [hrate, div_pos_iff_of_pos_right hpos, sub_pos, Nat.cast_lt, UInt16.lt_iff_toNat_lt]
    · rw [hrate, div_lt_iff₀ hpos, zero_mul, sub_neg, Nat.cast_lt, UInt16.lt_iff_toNat_lt]

theorem baseline_readTouched : dev.readTouched.dev.baseline = dev.baseline := by
  simp only [readTouched]
  split_ifs <;> rfl

/-- The baseline changes only when a reading is adopted. -/
theorem baseline_read (h : dev.diffData raw = dev.baseline.toNat - raw.toNat) :
    (dev.read raw filtered).dev.baseline = (dev.adopted raw filtered).getD dev.baseline := by
  have hstate : (dev.measure raw).state = dev.state := rfl
  simp only [read, adopted, hstate]
  by_cases hidle : dev.state = .IDLE ∨ dev.state = .RELEASE
  · rw [if_pos hidle, if_pos hidle, ← diffRate_eq_drop h]
    simp only [readIdle]
    split_ifs <;> first | rfl | contradiction
  · rw [if_neg hidle, if_neg hidle, baseline_readTouched]
    rfl

/-- **One reading.** It is right, and the baseline stays as it should be, if and only if the reading
fits. -/
theorem compares_and_baseline_iff (hne : dev.baseline ≠ 0) :
    dev.Compares raw ∧ (dev.read raw filtered).dev.baseline ≠ 0 ↔ dev.Fits raw filtered := by
  have hadopted : (dev.adopted raw filtered).getD dev.baseline ≠ 0 ↔
      dev.adopted raw filtered ≠ some 0 := by
    cases dev.adopted raw filtered with
    | none => exact ⟨fun _ ↦ (Option.some_ne_none 0).symm, fun _ ↦ hne⟩
    | some x => rw [Option.getD_some, Ne, Ne, Option.some.injEq]
  constructor
  · rintro ⟨hcompares, hbaseline⟩
    rw [baseline_read hcompares.diffData] at hbaseline
    exact ⟨diffData_eq_iff.mp hcompares.diffData, hadopted.mp hbaseline⟩
  · intro h
    have hdiff := diffData_eq_iff.mpr h.near
    rw [baseline_read hdiff]
    exact ⟨compares_iff.mpr ⟨hdiff, hne⟩, hadopted.mpr h.adopted⟩

end TpDev

/-! ## All pads -/

namespace TouchPads

variable (s : TouchPads)

/-- No baseline is zero. -/
def Nonzero : Prop := ∀ i pad, s.pads i = some pad → pad.dev.baseline ≠ 0

/-- A reading of the pads compares every one. -/
def Compares : Op → Prop
  | .read raw _ => ∀ i pad, s.pads i = some pad → pad.dev.Compares (raw i)
  | .custom .. => True
  | .serial _ => True

def Fits : Op → Prop
  | .read raw filtered => ∀ i pad, s.pads i = some pad → pad.dev.Fits (raw i) (filtered i)
  | .custom .. => True
  | .serial _ => True

variable {s} {t : TouchPads} {op : Op}

/-- A timer leaves the baselines as they are. -/
theorem Nonzero.modify (hs : s.Nonzero) {i : Fin TOUCH_PAD_MAX} {f : Pad → Option Pad}
    (hf : ∀ pad pad', f pad = some pad' → pad'.dev.baseline = pad.dev.baseline)
    (h : s.modify i f = some t) : t.Nonzero := by
  refine forall_modify hs ?_ h
  intro pad pad' hpad hstep
  rw [hf pad pad' hstep]
  exact hpad

/-- **One step.** Only a reading can go wrong. -/
theorem compares_and_nonzero_iff (hs : s.Nonzero) (h : s.step op = some t) :
    s.Compares op ∧ t.Nonzero ↔ s.Fits op := by
  cases op with
  | read raw filtered =>
    obtain rfl := Option.some.inj h
    constructor
    · rintro ⟨hcompares, ht⟩ i pad hpad
      have hread : (s.filterReadCb raw filtered).pads i = some (pad.read (raw i) (filtered i)) := by
        rw [pads_filterReadCb, hpad]
        rfl
      exact (TpDev.compares_and_baseline_iff (hs i pad hpad)).mp
        ⟨hcompares i pad hpad, ht i _ hread⟩
    · intro hfits
      refine ⟨?_, ?_⟩
      · intro i pad hpad
        exact ((TpDev.compares_and_baseline_iff (hs i pad hpad)).mpr (hfits i pad hpad)).1
      · intro i pad' hpad'
        rw [pads_filterReadCb] at hpad'
        obtain ⟨pad, hpad, rfl⟩ := Option.map_eq_some_iff.mp hpad'
        exact ((TpDev.compares_and_baseline_iff (hs i pad hpad)).mpr (hfits i pad hpad)).2
  | custom i k =>
    refine ⟨fun _ ↦ trivial, fun _ ↦ ⟨trivial, hs.modify ?_ h⟩⟩
    intro pad pad' hpad
    rw [Pad.custom] at hpad
    split_ifs at hpad
    obtain rfl := Option.some.inj hpad
    rfl
  | serial i =>
    refine ⟨fun _ ↦ trivial, fun _ ↦ ⟨trivial, hs.modify ?_ h⟩⟩
    intro pad pad' hpad
    rw [Pad.serial] at hpad
    split_ifs at hpad
    obtain rfl := Option.some.inj hpad
    rfl

end TouchPads

/-- **Every reading is compared rightly, with baselines that are not zero,** if and only if no
reading of the run is too far off, and no zero becomes a baseline. -/
theorem difference_iff {s t : TouchPads} {ops : List TouchPads.Op} (hs : s.Nonzero)
    (h : AnyRun TouchPads.step s ops t) :
    Always TouchPads.step TouchPads.Nonzero s ops ∧
        Throughout TouchPads.step TouchPads.Compares s ops ↔
      Run TouchPads.step TouchPads.Fits s ops t :=
  AnyRun.always_and_throughout_iff (fun _ _ _ ↦ TouchPads.compares_and_nonzero_iff) h hs

theorem onePad_nonzero : onePad.Nonzero := by
  intro i pad hpad
  obtain rfl := eq_zero_of_onePad hpad
  obtain rfl := Option.some.inj hpad
  decide

/-- A finger halves the reading. -/
theorem difference_halved : ∃ t, AnyRun TouchPads.step onePad
      [.read (fun _ ↦ 500) (fun _ ↦ 500)] t ∧
    Throughout TouchPads.step TouchPads.Compares onePad
      [.read (fun _ ↦ 500) (fun _ ↦ 500)] := by
  have hfits : onePad.Fits (.read (fun _ ↦ 500) (fun _ ↦ 500)) := by
    intro i pad hpad
    obtain rfl := eq_zero_of_onePad hpad
    obtain rfl := Option.some.inj hpad
    exact ⟨by decide, by decide +kernel⟩
  have hany : AnyRun TouchPads.step onePad [.read (fun _ ↦ 500) (fun _ ↦ 500)] _ :=
    .cons trivial rfl <| .nil _
  exact ⟨_, hany, ((difference_iff onePad_nonzero hany).mpr (.cons hfits rfl <| .nil _)).2⟩

/-- A reading far above the baseline seems to be below it. -/
theorem not_difference : onePad.Nonzero ∧ ¬ Throughout TouchPads.step TouchPads.Compares onePad
    [.read (fun _ ↦ 40000) (fun _ ↦ 40000)] := by
  refine ⟨onePad_nonzero, fun h ↦ ?_⟩
  have hcompares := h [] _ [] onePad rfl (.nil _)
  exact absurd (hcompares 0 _ rfl).diffData (by decide)

end Ddmz.Touch
