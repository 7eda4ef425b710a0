import Ddmz.Foundation.BitField
import Ddmz.Foundation.Runs

/-!
# The shadow registers of the LED driver

The control registers of the IS31FL3216 are only written, and `Is31fl3216.c` keeps what it has
written in `Is31Value`: a setter puts its field into the shadow of a register, and writes the shadow
to the chip. The writes are taken to succeed.

`Is31fl3216Reset` writes the LED effect register without its shadow, so that the next setter brings
the old contents back; and a value that does not fit into its field changes the neighbouring one.
`coherent_iff` says that nothing else goes wrong, in any sequence of calls.
-/

namespace Ddmz.Led

def IS31FL3216_CH_NUM_MAX : ℕ := 16

def IS31FL3216_PWR_NORMAL : ℕ := 0

def IS31FL3216_PWR_SHUTDOWN : ℕ := 1

def IS31FL3216_MODE_PWM : ℕ := 0

def IS31FL3216_MODE_AUTO_FRAME : ℕ := 1

def IS31FL3216_MODE_FRAME : ℕ := 2

def IS31FL3216_CUR_MODE_REXT : ℕ := 0

def IS31FL3216_CUR_MODE_AUDIO : ℕ := 1

def IS31FL3216_CUR_0_75 : ℕ := 1

def IS31FL3216_REG_CONFIG : ℕ := 0x00

def IS31FL3216_REG_LED_CTRL_H : ℕ := 0x01

def IS31FL3216_REG_LED_CTRL_L : ℕ := 0x02

def IS31FL3216_REG_LED_EFFECT : ℕ := 0x03

def IS31FL3216_REG_CH_CONFIG : ℕ := 0x04

def IS31FL3216_REG_PWM_16 : ℕ := 0x10

def IS31FL3216_REG_UPDATE : ℕ := 0xb0

def IS31FL3216_CH_ALL : ℕ := 0xffff

/-- `Is31Value`, and the registers of the chip. -/
structure Is31 where
  value : ℕ → BitVec 8
  chip : ℕ → BitVec 8

/-- `Is31Value` at the start, in the chip as well. -/
def is31Value : Is31 :=
  let value r := [0x80, 0x00, 0x01, 0x00].getD r 0
  ⟨value, value⟩

namespace Is31

/-- `Is31fl3216WriteReg`: the bytes go to the register and those behind it. -/
def writeReg (s : Is31) (regAddr : ℕ) : List (BitVec 8) → Is31
  | [] => s
  | d :: data =>
    writeReg { s with chip := Function.update s.chip regAddr d } (regAddr + 1) data

/-- Put a field into a shadow, and write it. -/
def setField (s : Is31) (u : FieldUpdate 8) : Is31 :=
  let v := fieldSet u.keep (s.value u.reg) u.value
  writeReg { s with value := Function.update s.value u.reg v } u.reg [v]

end Is31

/-! ## The functions -/

/-- The field of `Is31fl3216Power`. -/
def powerField (mode : ℕ) : Option (FieldUpdate 8) :=
  if mode = IS31FL3216_PWR_SHUTDOWN then
    some ⟨IS31FL3216_REG_CONFIG, ~~~(1 <<< 7), 1 <<< 7⟩
  else if mode = IS31FL3216_PWR_NORMAL then some ⟨IS31FL3216_REG_CONFIG, ~~~(1 <<< 7), 0⟩
  else none

/-- The field of `Is31fl3216WorkModeSet`. -/
def workModeField (mode : ℕ) : Option (FieldUpdate 8) :=
  if mode = IS31FL3216_MODE_PWM then some ⟨IS31FL3216_REG_CONFIG, ~~~(3 <<< 5), 0⟩
  else if mode = IS31FL3216_MODE_AUTO_FRAME then
    some ⟨IS31FL3216_REG_CONFIG, ~~~(3 <<< 5), 1 <<< 5⟩
  else if mode = IS31FL3216_MODE_FRAME then some ⟨IS31FL3216_REG_CONFIG, ~~~(3 <<< 5), 2 <<< 5⟩
  else none

/-- The field of `Is31fl3216CurModeSet`. -/
def curModeField (mode : ℕ) : Option (FieldUpdate 8) :=
  if mode = IS31FL3216_CUR_MODE_REXT then some ⟨IS31FL3216_REG_CONFIG, ~~~(1 <<< 4), 0⟩
  else if mode = IS31FL3216_CUR_MODE_AUDIO then
    some ⟨IS31FL3216_REG_CONFIG, ~~~(1 <<< 4), 1 <<< 4⟩
  else none

/-- The field of `Is31fl3216CurValueSet`. -/
def curValueField (value : ℕ) : FieldUpdate 8 :=
  ⟨IS31FL3216_REG_LED_EFFECT, ~~~(7 <<< 4), .ofNat 8 (value <<< 4)⟩

/-- The field of `Is31fl3216AgsValueSet`. -/
def agsValueField (value : ℕ) : FieldUpdate 8 :=
  ⟨IS31FL3216_REG_LED_EFFECT, ~~~(7 <<< 0), .ofNat 8 (value <<< 0)⟩

/-- The field of `Is31fl3216AgcCfg`. -/
def agcField (en : ℕ) : FieldUpdate 8 :=
  ⟨IS31FL3216_REG_LED_EFFECT, ~~~(1 <<< 3), .ofNat 8 (en <<< 3)⟩

/-- The field of `Is31fl3216CascadeModeSet`. -/
def cascadeModeField (mode : ℕ) : FieldUpdate 8 :=
  ⟨IS31FL3216_REG_LED_EFFECT, ~~~(1 <<< 7), .ofNat 8 (mode <<< 7)⟩

/-- `Is31fl3216Power`, without a result if it returns `ESP_FAIL`. -/
def is31fl3216Power (s : Is31) (mode : ℕ) : Option Is31 := (powerField mode).map s.setField

/-- `Is31fl3216WorkModeSet`, likewise. -/
def is31fl3216WorkModeSet (s : Is31) (mode : ℕ) : Option Is31 := (workModeField mode).map s.setField

/-- `Is31fl3216CurModeSet`, likewise. -/
def is31fl3216CurModeSet (s : Is31) (mode : ℕ) : Option Is31 := (curModeField mode).map s.setField

def is31fl3216CurValueSet (s : Is31) (value : ℕ) : Is31 := s.setField (curValueField value)

def is31fl3216AgsValueSet (s : Is31) (value : ℕ) : Is31 := s.setField (agsValueField value)

def is31fl3216AgcCfg (s : Is31) (en : ℕ) : Is31 := s.setField (agcField en)

def is31fl3216CascadeModeSet (s : Is31) (mode : ℕ) : Is31 := s.setField (cascadeModeField mode)

/-- `is31fl3218SChannelDutyByBits`. -/
def channelDutyByBits (s : Is31) (byBits : ℕ) (duty : BitVec 8) : Is31 :=
  (List.range IS31FL3216_CH_NUM_MAX).foldl
    (fun s i ↦ if byBits.testBit i then
      s.writeReg (IS31FL3216_REG_PWM_16 + (IS31FL3216_CH_NUM_MAX - i - 1)) [duty] else s) s

def is31fl3216UpdateReg (s : Is31) : Is31 := s.writeReg IS31FL3216_REG_UPDATE [0]

def is31fl3216ChDutySet (s : Is31) (chBits : ℕ) (duty : BitVec 8) : Is31 :=
  is31fl3216UpdateReg (channelDutyByBits s chBits duty)

/-- Write the two shadows of the channels, the higher one first. -/
def writeChannels (s : Is31) (high low : BitVec 8) : Is31 :=
  let value := Function.update s.value IS31FL3216_REG_LED_CTRL_H high
  let value := Function.update value IS31FL3216_REG_LED_CTRL_L low
  Is31.writeReg ⟨value, s.chip⟩ IS31FL3216_REG_LED_CTRL_H [high, low]

def is31fl3216ChEnable (s : Is31) (chBits : ℕ) : Is31 :=
  let value : BitVec 16 := (List.range IS31FL3216_CH_NUM_MAX).foldl
    (fun value i ↦ if chBits.testBit i then value ||| 1#16 <<< i else value) 0
  writeChannels s (s.value IS31FL3216_REG_LED_CTRL_H ||| (value >>> 8).setWidth 8)
    (s.value IS31FL3216_REG_LED_CTRL_L ||| value.setWidth 8)

def is31fl3216ChDisable (s : Is31) (chBits : ℕ) : Is31 :=
  let value : BitVec 16 := (s.value IS31FL3216_REG_LED_CTRL_H).setWidth 16 <<< 8
  let value := value ||| (s.value IS31FL3216_REG_LED_CTRL_L).setWidth 16
  let value := (List.range IS31FL3216_CH_NUM_MAX).foldl
    (fun value i ↦ if chBits.testBit i then value &&& ~~~(1#16 <<< i) else value) value
  writeChannels s ((value >>> 8).setWidth 8) (value.setWidth 8)

/-- `Is31fl3216Reset`. -/
def is31fl3216Reset (s : Is31) : Option Is31 := do
  let s ← is31fl3216Power s IS31FL3216_PWR_NORMAL
  let s := (List.range IS31FL3216_CH_NUM_MAX).foldl
    (fun s i ↦ is31fl3216ChDutySet s (1 <<< i) 0) s
  let s := is31fl3216ChEnable s IS31FL3216_CH_ALL
  let s := s.writeReg IS31FL3216_REG_LED_EFFECT [0]
  some (s.writeReg IS31FL3216_REG_CH_CONFIG [0])

/-! ## Calls -/

inductive Call
  | power (mode : ℕ)
  | workModeSet (mode : ℕ)
  | chEnable (chBits : ℕ)
  | chDisable (chBits : ℕ)
  | curModeSet (mode : ℕ)
  | curValueSet (value : ℕ)
  | agsValueSet (value : ℕ)
  | agcCfg (en : ℕ)
  | cascadeModeSet (mode : ℕ)
  | reset

/-- A call; one that fails for its argument changes nothing. -/
def step (s : Is31) : Call → Option Is31
  | .power mode => some ((is31fl3216Power s mode).getD s)
  | .workModeSet mode => some ((is31fl3216WorkModeSet s mode).getD s)
  | .chEnable chBits => some (is31fl3216ChEnable s chBits)
  | .chDisable chBits => some (is31fl3216ChDisable s chBits)
  | .curModeSet mode => some ((is31fl3216CurModeSet s mode).getD s)
  | .curValueSet value => some (is31fl3216CurValueSet s value)
  | .agsValueSet value => some (is31fl3216AgsValueSet s value)
  | .agcCfg en => some (is31fl3216AgcCfg s en)
  | .cascadeModeSet mode => some (is31fl3216CascadeModeSet s mode)
  | .reset => some ((is31fl3216Reset s).getD s)

/-- The field that a call sets, if it is a setter and does not fail. -/
def Call.field : Call → Option (FieldUpdate 8)
  | .power mode => powerField mode
  | .workModeSet mode => workModeField mode
  | .curModeSet mode => curModeField mode
  | .curValueSet value => some (curValueField value)
  | .agsValueSet value => some (agsValueField value)
  | .agcCfg en => some (agcField en)
  | .cascadeModeSet mode => some (cascadeModeField mode)
  | .chEnable _ | .chDisable _ | .reset => none

/-- The shadowed registers. -/
def shadowed : List ℕ :=
  [IS31FL3216_REG_CONFIG, IS31FL3216_REG_LED_CTRL_H, IS31FL3216_REG_LED_CTRL_L,
    IS31FL3216_REG_LED_EFFECT]

/-- The shadows are what is in the chip. -/
def Coherent (s : Is31) : Prop := ∀ r ∈ shadowed, s.chip r = s.value r

/-- The channels that are enabled. -/
def channels (s : Is31) : BitVec 16 :=
  s.chip IS31FL3216_REG_LED_CTRL_H ++ s.chip IS31FL3216_REG_LED_CTRL_L

/-- What a call makes of the enabled channels. -/
def Call.channels (on : BitVec 16) : Call → BitVec 16
  | .chEnable chBits => on ||| .ofNat 16 chBits
  | .chDisable chBits => on &&& ~~~.ofNat 16 chBits
  | .reset => on ||| .ofNat 16 IS31FL3216_CH_ALL
  | _ => on

variable {s t : Is31} {u : FieldUpdate 8} {a : Call} {as : List Call}

/-! ## Fields -/

theorem setField_value (r : ℕ) : (s.setField u).value r
    = if r = u.reg then fieldSet u.keep (s.value u.reg) u.value else s.value r := by
  simp [Is31.setField, Is31.writeReg, Function.update_apply]

theorem setField_chip (r : ℕ) : (s.setField u).chip r
    = if r = u.reg then fieldSet u.keep (s.value u.reg) u.value else s.chip r := by
  simp [Is31.setField, Is31.writeReg, Function.update_apply]

theorem Coherent.setField (h : Coherent s) (u : FieldUpdate 8) : Coherent (s.setField u) := by
  intro r hr
  rw [setField_value, setField_chip]
  split
  · rfl
  · exact h r hr

/-- A call that sets a field does that and nothing else. -/
theorem step_of_field (h : a.field = some u) : step s a = some (s.setField u) := by
  cases a with
  | power mode => simp only [Call.field] at h; simp [step, is31fl3216Power, h]
  | workModeSet mode => simp only [Call.field] at h; simp [step, is31fl3216WorkModeSet, h]
  | curModeSet mode => simp only [Call.field] at h; simp [step, is31fl3216CurModeSet, h]
  | curValueSet value => rw [← Option.some.inj h]; rfl
  | agsValueSet value => rw [← Option.some.inj h]; rfl
  | agcCfg en => rw [← Option.some.inj h]; rfl
  | cascadeModeSet mode => rw [← Option.some.inj h]; rfl
  | chEnable chBits => cases h
  | chDisable chBits => cases h
  | reset => cases h

/-! ## Channels -/

/-- The loop over the channels, with what it does to the bit of each. -/
theorem foldl_channels_getLsbD {op : BitVec 16 → ℕ → BitVec 16} {b : Bool}
    (hop : ∀ v i, ∀ j < 16, (op v i).getLsbD j = if j = i then b else v.getLsbD j) (chBits : ℕ)
    (v : BitVec 16) {j : ℕ} (hj : j < 16) :
    ((List.range 16).foldl (fun v i ↦ if chBits.testBit i then op v i else v) v).getLsbD j
      = if chBits.testBit j then b else v.getLsbD j := by
  have hbits : ∀ n, ((List.range n).foldl
      (fun v i ↦ if chBits.testBit i then op v i else v) v).getLsbD j
        = if j < n ∧ chBits.testBit j then b else v.getLsbD j := by
    intro n
    induction n with
    | zero => simp
    | succ n ih =>
      rw [List.range_succ, List.foldl_append, List.foldl_cons, List.foldl_nil]
      by_cases hn : chBits.testBit n = true
      · rw [if_pos hn, hop _ _ _ hj, ih]
        by_cases hjn : j = n
        · rw [if_pos hjn, hjn, if_pos ⟨Nat.lt_succ_self n, hn⟩]
        · have hlt : j < n + 1 ↔ j < n := by omega
          rw [if_neg hjn]
          simp only [hlt]
      · have hlt : (j < n + 1 ∧ chBits.testBit j = true) ↔ j < n ∧ chBits.testBit j = true := by
          refine and_congr_left fun hbit ↦ ?_
          have hjn : j ≠ n := fun h ↦ hn (h ▸ hbit)
          omega
        rw [if_neg hn, ih, if_congr hlt rfl rfl]
  rw [hbits 16]
  simp [hj]

theorem getLsbD_bit {i j : ℕ} (hj : j < 16) : (1#16 <<< i).getLsbD j = decide (j = i) := by
  rw [← BitVec.twoPow_eq, BitVec.getLsbD_twoPow]
  by_cases h : j = i
  · simp [h, h ▸ hj]
  · simp [h, Ne.symm h]

theorem foldl_channels_or (chBits : ℕ) (v : BitVec 16) :
    (List.range IS31FL3216_CH_NUM_MAX).foldl
      (fun v i ↦ if chBits.testBit i then v ||| 1#16 <<< i else v) v = v ||| .ofNat 16 chBits := by
  apply BitVec.eq_of_getLsbD_eq
  intro j hj
  have hop : ∀ (v : BitVec 16) i, ∀ j < 16,
      (v ||| 1#16 <<< i).getLsbD j = if j = i then true else v.getLsbD j := by
    intro v i j hj
    rw [BitVec.getLsbD_or, getLsbD_bit hj]
    by_cases h : j = i <;> simp [h]
  refine (foldl_channels_getLsbD hop chBits v hj).trans ?_
  rw [BitVec.getLsbD_or, BitVec.getLsbD_ofNat]
  cases chBits.testBit j <;> simp [hj]

theorem foldl_channels_and (chBits : ℕ) (v : BitVec 16) :
    (List.range IS31FL3216_CH_NUM_MAX).foldl
      (fun v i ↦ if chBits.testBit i then v &&& ~~~(1#16 <<< i) else v) v
        = v &&& ~~~.ofNat 16 chBits := by
  apply BitVec.eq_of_getLsbD_eq
  intro j hj
  have hop : ∀ (v : BitVec 16) i, ∀ j < 16,
      (v &&& ~~~(1#16 <<< i)).getLsbD j = if j = i then false else v.getLsbD j := by
    intro v i j hj
    rw [BitVec.getLsbD_and, BitVec.getLsbD_not, getLsbD_bit hj]
    by_cases h : j = i <;> simp [h, hj]
  refine (foldl_channels_getLsbD hop chBits v hj).trans ?_
  rw [BitVec.getLsbD_and, BitVec.getLsbD_not, BitVec.getLsbD_ofNat]
  cases chBits.testBit j <;> simp [hj]

theorem writeChannels_value (high low : BitVec 8) (r : ℕ) :
    (writeChannels s high low).value r = if r = IS31FL3216_REG_LED_CTRL_L then low
      else if r = IS31FL3216_REG_LED_CTRL_H then high else s.value r := by
  simp only [writeChannels, Is31.writeReg, Function.update_apply]

theorem writeChannels_chip (high low : BitVec 8) (r : ℕ) :
    (writeChannels s high low).chip r = if r = IS31FL3216_REG_LED_CTRL_L then low
      else if r = IS31FL3216_REG_LED_CTRL_H then high else s.chip r := by
  simp only [writeChannels, Is31.writeReg, Function.update_apply]
  rfl

theorem Coherent.writeChannels (h : Coherent s) (high low : BitVec 8) :
    Coherent (writeChannels s high low) := by
  intro r hr
  rw [writeChannels_value, writeChannels_chip]
  split
  · rfl
  · split
    · rfl
    · exact h r hr

theorem channels_writeChannels (high low : BitVec 8) :
    channels (writeChannels s high low) = high ++ low := by
  rw [channels, writeChannels_chip, writeChannels_chip]
  rfl

/-- A word from its bytes. -/
theorem bytes_append (v : BitVec 16) : (v >>> 8).setWidth 8 ++ v.setWidth 8 = v := by
  apply BitVec.eq_of_getLsbD_eq
  intro i hi
  simp only [BitVec.getLsbD_append, BitVec.getLsbD_setWidth, BitVec.getLsbD_ushiftRight]
  by_cases h : i < 8
  · simp [h]
  · have h8 : i - 8 < 8 := by omega
    have hi' : 8 + (i - 8) = i := by omega
    simp [h, h8, hi']

theorem or_append (a b c d : BitVec 8) : (a ||| c) ++ (b ||| d) = (a ++ b) ||| (c ++ d) := by
  apply BitVec.eq_of_getLsbD_eq
  intro i hi
  simp only [BitVec.getLsbD_append, BitVec.getLsbD_or]
  split <;> rfl

theorem shiftLeft_or_eq_append (high low : BitVec 8) :
    high.setWidth 16 <<< 8 ||| low.setWidth 16 = high ++ low := by
  apply BitVec.eq_of_getLsbD_eq
  intro i hi
  simp only [BitVec.getLsbD_append, BitVec.getLsbD_or, BitVec.getLsbD_setWidth,
    BitVec.getLsbD_shiftLeft]
  by_cases h : i < 8
  · simp [h, hi]
  · have hlow : low.getLsbD i = false := BitVec.getLsbD_of_ge low i (by omega)
    simp [h, hi, hlow]
    omega

/-- Enabling channels adds them to those of the shadow. -/
theorem channels_chEnable (h : Coherent s) (chBits : ℕ) :
    channels (is31fl3216ChEnable s chBits) = channels s ||| .ofNat 16 chBits := by
  have hhigh : s.chip IS31FL3216_REG_LED_CTRL_H = s.value IS31FL3216_REG_LED_CTRL_H :=
    h _ (by decide)
  have hlow : s.chip IS31FL3216_REG_LED_CTRL_L = s.value IS31FL3216_REG_LED_CTRL_L :=
    h _ (by decide)
  rw [is31fl3216ChEnable, channels_writeChannels, or_append, bytes_append, foldl_channels_or,
    channels, hhigh, hlow]
  congr 1
  exact BitVec.zero_or

/-- Disabling channels takes them from those of the shadow. -/
theorem channels_chDisable (h : Coherent s) (chBits : ℕ) :
    channels (is31fl3216ChDisable s chBits) = channels s &&& ~~~.ofNat 16 chBits := by
  have hhigh : s.chip IS31FL3216_REG_LED_CTRL_H = s.value IS31FL3216_REG_LED_CTRL_H :=
    h _ (by decide)
  have hlow : s.chip IS31FL3216_REG_LED_CTRL_L = s.value IS31FL3216_REG_LED_CTRL_L :=
    h _ (by decide)
  rw [is31fl3216ChDisable, channels_writeChannels, bytes_append, foldl_channels_and,
    shiftLeft_or_eq_append, channels, hhigh, hlow]

/-! ## Reset -/

/-- The shadows and the registers in front of `IS31FL3216_REG_CH_CONFIG` are the same. -/
def SameControl (s t : Is31) : Prop :=
  t.value = s.value ∧ ∀ r < IS31FL3216_REG_CH_CONFIG, t.chip r = s.chip r

theorem SameControl.trans {u : Is31} (h : SameControl s t) (h' : SameControl t u) :
    SameControl s u :=
  ⟨h'.1.trans h.1, fun r hr ↦ (h'.2 r hr).trans (h.2 r hr)⟩

theorem sameControl_writeReg (s : Is31) {r : ℕ} (hr : IS31FL3216_REG_CH_CONFIG ≤ r)
    (d : BitVec 8) : SameControl s (s.writeReg r [d]) :=
  ⟨rfl, fun _ hk ↦ Function.update_of_ne (Nat.ne_of_lt (hk.trans_le hr)) _ _⟩

/-- Steps that leave the control registers alone, one after the other. -/
theorem sameControl_foldl {f : Is31 → ℕ → Is31} (hf : ∀ s i, SameControl s (f s i)) (is : List ℕ)
    (s : Is31) : SameControl s (is.foldl f s) := by
  induction is generalizing s with
  | nil => exact ⟨rfl, fun _ _ ↦ rfl⟩
  | cons i is ih => exact (hf s i).trans (ih _)

theorem sameControl_chDutySet (s : Is31) (chBits : ℕ) (duty : BitVec 8) :
    SameControl s (is31fl3216ChDutySet s chBits duty) := by
  refine SameControl.trans ?_ (sameControl_writeReg _ (by decide) 0)
  apply sameControl_foldl
  intro s i
  split
  · refine sameControl_writeReg s ?_ duty
    have hle : IS31FL3216_REG_CH_CONFIG ≤ IS31FL3216_REG_PWM_16 := by decide
    exact hle.trans (Nat.le_add_right _ _)
  · exact ⟨rfl, fun _ _ ↦ rfl⟩

theorem lt_of_mem_shadowed {r : ℕ} (h : r ∈ shadowed) : r < IS31FL3216_REG_CH_CONFIG := by
  revert r
  decide

theorem Coherent.congr (h : Coherent s) (hst : SameControl s t) : Coherent t := by
  intro r hr
  rw [hst.1, hst.2 r (lt_of_mem_shadowed hr)]
  exact h r hr

/-- The field that a reset sets. -/
def resetField : FieldUpdate 8 := ⟨IS31FL3216_REG_CONFIG, ~~~(1 <<< 7), 0⟩

/-- **What a reset does**: it switches the driver on, enables all channels, and sets the LED effect
of the chip to zero. -/
theorem reset_spec (s : Is31) : ∃ t u, is31fl3216Reset s = some u ∧
    SameControl (s.setField resetField) t ∧
    SameControl ((is31fl3216ChEnable t IS31FL3216_CH_ALL).writeReg IS31FL3216_REG_LED_EFFECT [0])
      u := by
  have hpower : is31fl3216Power s IS31FL3216_PWR_NORMAL = some (s.setField resetField) := rfl
  have hduty := sameControl_foldl (fun s i ↦ sameControl_chDutySet s (1 <<< i) 0)
    (List.range IS31FL3216_CH_NUM_MAX) (s.setField resetField)
  simp only [is31fl3216Reset, hpower, Option.bind_eq_bind, Option.bind_some]
  exact ⟨_, _, rfl, hduty, sameControl_writeReg _ (le_refl _) 0⟩

/-! ## Runs -/

/-- The bits of a register that a call leaves alone. -/
def Call.keeps (a : Call) (r : ℕ) : BitVec 8 :=
  match a.field with
  | some u => if r = u.reg then u.keep else .allOnes 8
  | none =>
    match a with
    | .chEnable _ | .chDisable _ =>
      if r = IS31FL3216_REG_LED_CTRL_H ∨ r = IS31FL3216_REG_LED_CTRL_L then 0 else .allOnes 8
    | .reset => if r = IS31FL3216_REG_CONFIG then resetField.keep else 0
    | _ => .allOnes 8

/-- The call changes nothing in the chip but its own field. -/
def OnlyOwn (s : Is31) (a : Call) : Prop :=
  ∀ t, step s a = some t → ∀ r ∈ shadowed, t.chip r &&& a.keeps r = s.chip r &&& a.keeps r

/-- The call enables and disables its channels and no others. -/
def OwnChannels (s : Is31) (a : Call) : Prop :=
  ∀ t, step s a = some t → channels t = a.channels (channels s)

/-- The shadow of the LED effect is zero at a reset, and a value has no bits outside its field but
such as are set already. -/
def Contained (s : Is31) (a : Call) : Prop :=
  (a = .reset → s.value IS31FL3216_REG_LED_EFFECT = 0) ∧
    ∀ u ∈ a.field, u.value &&& u.keep &&& ~~~s.value u.reg = 0#8

/-- No setter is for the channels. -/
theorem reg_of_field (h : a.field = some u) :
    u.reg = IS31FL3216_REG_CONFIG ∨ u.reg = IS31FL3216_REG_LED_EFFECT := by
  cases a with
  | power mode =>
    simp only [Call.field, powerField] at h
    split_ifs at h <;> exact .inl (Option.some.inj h ▸ rfl)
  | workModeSet mode =>
    simp only [Call.field, workModeField] at h
    split_ifs at h <;> exact .inl (Option.some.inj h ▸ rfl)
  | curModeSet mode =>
    simp only [Call.field, curModeField] at h
    split_ifs at h <;> exact .inl (Option.some.inj h ▸ rfl)
  | curValueSet value => exact .inr (Option.some.inj h ▸ rfl)
  | agsValueSet value => exact .inr (Option.some.inj h ▸ rfl)
  | agcCfg en => exact .inr (Option.some.inj h ▸ rfl)
  | cascadeModeSet mode => exact .inr (Option.some.inj h ▸ rfl)
  | chEnable chBits => cases h
  | chDisable chBits => cases h
  | reset => cases h

theorem channels_of_field (h : a.field = some u) (on : BitVec 16) : a.channels on = on := by
  cases a with
  | chEnable chBits => cases h
  | chDisable chBits => cases h
  | reset => cases h
  | _ => rfl

/-- A setter, in a coherent state. -/
theorem field_exact (h : Coherent s) (hfield : a.field = some u) :
    OwnChannels s a ∧ Coherent (s.setField u) ∧ (OnlyOwn s a ↔ Contained s a) := by
  have hstep := step_of_field (s := s) hfield
  have hreg := reg_of_field hfield
  have hshadow : u.reg ∈ shadowed := by
    obtain hr | hr := hreg <;> rw [hr] <;> decide
  refine ⟨fun t ht ↦ ?_, h.setField u, ?_⟩
  · obtain rfl := Option.some.inj (hstep.symm.trans ht)
    have hhigh : IS31FL3216_REG_LED_CTRL_H ≠ u.reg := by
      obtain hr | hr := hreg <;> rw [hr] <;> decide
    have hlow : IS31FL3216_REG_LED_CTRL_L ≠ u.reg := by
      obtain hr | hr := hreg <;> rw [hr] <;> decide
    rw [channels_of_field hfield, channels, channels, setField_chip, setField_chip, if_neg hhigh,
      if_neg hlow]
  · have hcontained : Contained s a ↔ u.value &&& u.keep &&& ~~~s.value u.reg = 0#8 := by
      rw [Contained, hfield]
      refine ⟨fun h ↦ h.2 u rfl, fun h ↦ ⟨?_, ?_⟩⟩
      · rintro rfl
        cases hfield
      · rintro _ ⟨⟩
        exact h
    have hkeeps : ∀ r, a.keeps r = if r = u.reg then u.keep else .allOnes 8 := fun r ↦ by
      simp only [Call.keeps, hfield]
    rw [hcontained, ← fieldSet_and_keep_iff, OnlyOwn, hstep]
    constructor
    · intro hown
      have hchip := hown _ rfl u.reg hshadow
      rwa [hkeeps, if_pos rfl, setField_chip, if_pos rfl, h _ hshadow] at hchip
    · rintro hown _ ⟨⟩ r hr
      rw [hkeeps, setField_chip]
      split
      · rename_i heq
        rw [heq, h _ hshadow]
        exact hown
      · rfl

/-- A call that fails, or one for the channels. -/
theorem contained_of_none (h : a.field = none) (hreset : a ≠ .reset) : Contained s a := by
  refine ⟨fun h ↦ absurd h hreset, fun u hu ↦ ?_⟩
  rw [h] at hu
  cases hu

/-- A call that fails for its argument. -/
theorem failed_exact (h : Coherent s) (hnone : a.field = none) (hreset : a ≠ .reset)
    (hchannels : ∀ on, a.channels on = on) (hsame : step s a = some s) (hstep : step s a = some t) :
    channels t = a.channels (channels s) ∧ (OnlyOwn s a ∧ Coherent t ↔ Contained s a) := by
  obtain rfl := Option.some.inj (hsame.symm.trans hstep)
  refine ⟨(hchannels _).symm, iff_of_true ⟨fun t ht r _ ↦ ?_, h⟩ (contained_of_none hnone hreset)⟩
  obtain rfl := Option.some.inj (hsame.symm.trans ht)
  rfl

/-- What has written the channels has changed nothing else. -/
theorem onlyOwn_writeChannels {high low : BitVec 8}
    (hkeeps : ∀ r, a.keeps r = if r = IS31FL3216_REG_LED_CTRL_H ∨ r = IS31FL3216_REG_LED_CTRL_L
      then 0 else .allOnes 8) (hstep : step s a = some (writeChannels s high low)) :
    OnlyOwn s a := by
  intro t ht r _
  obtain rfl := Option.some.inj (hstep.symm.trans ht)
  rw [hkeeps]
  by_cases hr : r = IS31FL3216_REG_LED_CTRL_H ∨ r = IS31FL3216_REG_LED_CTRL_L
  · rw [if_pos hr]
    exact BitVec.and_zero.trans BitVec.and_zero.symm
  · rw [not_or] at hr
    rw [writeChannels_chip, if_neg hr.1, if_neg hr.2]

theorem SameControl.channels (h : SameControl s t) : channels t = channels s := by
  rw [Led.channels, Led.channels, h.2 _ (by decide), h.2 _ (by decide)]

/-- The control registers after a reset. -/
theorem reset_regs (h : Coherent s) (hstep : step s .reset = some t) :
    channels t = Call.channels (channels s) .reset ∧
      t.chip IS31FL3216_REG_CONFIG &&& resetField.keep
        = s.chip IS31FL3216_REG_CONFIG &&& resetField.keep ∧
      t.chip IS31FL3216_REG_LED_EFFECT = 0 ∧
      t.value IS31FL3216_REG_LED_EFFECT = s.value IS31FL3216_REG_LED_EFFECT ∧
      ∀ r ∈ shadowed, r ≠ IS31FL3216_REG_LED_EFFECT → t.chip r = t.value r := by
  obtain ⟨t₁, u, hreset, hfirst, hlast⟩ := reset_spec s
  have hu : step s .reset = some u := by rw [step, hreset, Option.getD_some]
  obtain rfl := Option.some.inj (hu.symm.trans hstep)
  have ht₁ : Coherent t₁ := (h.setField resetField).congr hfirst
  set e := is31fl3216ChEnable t₁ IS31FL3216_CH_ALL with hedef
  have he : Coherent e := ht₁.writeChannels _ _
  have hchip : ∀ r < IS31FL3216_REG_CH_CONFIG, u.chip r
      = Function.update e.chip IS31FL3216_REG_LED_EFFECT 0 r := hlast.2
  have hvalue : u.value = e.value := hlast.1
  refine ⟨?_, ?_, ?_, ?_, fun r hr hne ↦ ?_⟩
  · have hwritten : channels (e.writeReg IS31FL3216_REG_LED_EFFECT [0]) = channels e := rfl
    have hfield : channels (s.setField resetField) = channels s := rfl
    rw [hlast.channels, hwritten, hedef, channels_chEnable ht₁, hfirst.channels, hfield]
    rfl
  · have hconfig : e.chip IS31FL3216_REG_CONFIG = t₁.chip IS31FL3216_REG_CONFIG := by
      rw [hedef, is31fl3216ChEnable, writeChannels_chip]
      rfl
    have hset : (s.setField resetField).chip IS31FL3216_REG_CONFIG
        = fieldSet resetField.keep (s.value IS31FL3216_REG_CONFIG) 0 := setField_chip _
    have hkeep : fieldSet resetField.keep (s.value IS31FL3216_REG_CONFIG) 0 &&& resetField.keep
        = s.value IS31FL3216_REG_CONFIG &&& resetField.keep :=
      fieldSet_and_keep_of_eq_zero _ BitVec.zero_and
    rw [hchip _ (by decide), Function.update_of_ne (by decide), hconfig, hfirst.2 _ (by decide),
      hset, hkeep, h _ (by decide)]
  · rw [hchip _ (by decide), Function.update_self]
  · have heffect : e.value IS31FL3216_REG_LED_EFFECT = t₁.value IS31FL3216_REG_LED_EFFECT := by
      rw [hedef, is31fl3216ChEnable, writeChannels_value]
      rfl
    rw [hvalue, heffect, hfirst.1]
    rfl
  · rw [hchip r (lt_of_mem_shadowed hr), Function.update_of_ne hne, hvalue]
    exact he r hr

/-- A reset leaves a coherent state if the shadow of the LED effect was zero. -/
theorem reset_exact (h : Coherent s) (hstep : step s .reset = some t) :
    channels t = Call.channels (channels s) .reset ∧
      (OnlyOwn s .reset ∧ Coherent t ↔ Contained s .reset) := by
  obtain ⟨hchannels, hconfig, hchip, hvalue, hothers⟩ := reset_regs h hstep
  refine ⟨hchannels, ⟨fun hboth ↦ ⟨fun _ ↦ ?_, by rintro u ⟨⟩⟩, fun hcontained ↦ ⟨?_, ?_⟩⟩⟩
  · have heffect := hboth.2 IS31FL3216_REG_LED_EFFECT (by decide)
    rw [← hvalue, ← heffect, hchip]
  · intro t' ht' r _
    obtain rfl := Option.some.inj (hstep.symm.trans ht')
    have hkeeps : Call.keeps .reset r
        = if r = IS31FL3216_REG_CONFIG then resetField.keep else 0 := rfl
    rw [hkeeps]
    by_cases hr : r = IS31FL3216_REG_CONFIG
    · rw [if_pos hr, hr, hconfig]
    · rw [if_neg hr]
      exact BitVec.and_zero.trans BitVec.and_zero.symm
  · intro r hr
    by_cases hne : r = IS31FL3216_REG_LED_EFFECT
    · rw [hne, hchip, hvalue, hcontained.1 rfl]
    · exact hothers r hr hne

/-- **One call**: in a coherent state it keeps to its own field and leaves a coherent state if and
only if it is contained. -/
theorem step_exact (h : Coherent s) (hstep : step s a = some t) :
    channels t = a.channels (channels s) ∧ (OnlyOwn s a ∧ Coherent t ↔ Contained s a) := by
  cases hfield : a.field with
  | some u =>
    obtain ⟨hchannels, hcoherent, hown⟩ := field_exact h hfield
    rw [step_of_field hfield, Option.some.injEq] at hstep
    refine ⟨hchannels t (hstep ▸ step_of_field hfield), ?_⟩
    rw [hown, ← hstep, and_iff_left hcoherent]
  | none =>
    cases a with
    | power mode =>
      refine failed_exact h hfield (by simp) (fun _ ↦ rfl) ?_ hstep
      simp only [Call.field] at hfield
      simp [step, is31fl3216Power, hfield]
    | workModeSet mode =>
      refine failed_exact h hfield (by simp) (fun _ ↦ rfl) ?_ hstep
      simp only [Call.field] at hfield
      simp [step, is31fl3216WorkModeSet, hfield]
    | curModeSet mode =>
      refine failed_exact h hfield (by simp) (fun _ ↦ rfl) ?_ hstep
      simp only [Call.field] at hfield
      simp [step, is31fl3216CurModeSet, hfield]
    | curValueSet value => cases hfield
    | agsValueSet value => cases hfield
    | agcCfg en => cases hfield
    | cascadeModeSet mode => cases hfield
    | chEnable chBits =>
      obtain rfl := Option.some.inj hstep
      exact ⟨channels_chEnable h chBits, iff_of_true ⟨onlyOwn_writeChannels (fun _ ↦ rfl) rfl,
        h.writeChannels _ _⟩ (contained_of_none hfield (by simp))⟩
    | chDisable chBits =>
      obtain rfl := Option.some.inj hstep
      exact ⟨channels_chDisable h chBits, iff_of_true ⟨onlyOwn_writeChannels (fun _ ↦ rfl) rfl,
        h.writeChannels _ _⟩ (contained_of_none hfield (by simp))⟩
    | reset => exact reset_exact h hstep

/-- The enabled channels after a run whose calls are contained. -/
theorem channels_run (h : Run step Contained s as t) (hs : Coherent s) :
    channels t = as.foldl Call.channels (channels s) := by
  induction h with
  | nil s => rfl
  | @cons s u t a as hcontained hstep _ ih =>
    obtain ⟨hchannels, hexact⟩ := step_exact hs hstep
    rw [ih (hexact.mpr hcontained).2, hchannels, List.foldl_cons]

/-- **When the shadows stay coherent.** In any sequence of calls from a coherent state, the chip has
what is in the shadows after each call, every call changes nothing but its own field, and the
channels are those enabled and disabled in turn, if and only if all calls are contained. -/
theorem coherent_iff (h : AnyRun step s as t) (hs : Coherent s) :
    Always step Coherent s as ∧ Throughout step OnlyOwn s as ∧
        channels t = as.foldl Call.channels (channels s) ↔ Run step Contained s as t := by
  have hiff : Always step Coherent s as ∧ Throughout step OnlyOwn s as ↔
      Run step Contained s as t :=
    h.always_and_throughout_iff (fun s a t hI hstep ↦ (step_exact hI hstep).2) hs
  rw [← and_assoc, hiff]
  exact ⟨fun hboth ↦ hboth.1, fun hrun ↦ ⟨hrun, channels_run hrun hs⟩⟩

theorem coherent_iff_chEnable :
    Always step Coherent is31Value [.chEnable 6, .agcCfg 1] ∧
      Throughout step OnlyOwn is31Value [.chEnable 6, .agcCfg 1] ∧
      channels (is31fl3216AgcCfg (is31fl3216ChEnable is31Value 6) 1) = 7#16 :=
  (coherent_iff (.cons trivial rfl (.cons trivial rfl (.nil _))) fun _ _ ↦ rfl).mpr
    (.cons ⟨nofun, nofun⟩ rfl (.cons ⟨nofun, by rintro _ ⟨⟩; decide⟩ rfl (.nil _)))

/-- A reset leaves the current in the shadow. -/
theorem not_coherent : ¬∀ (s t : Is31) (as : List Call), AnyRun step s as t → Coherent s →
    Always step Coherent s as ∧ Throughout step OnlyOwn s as ∧
      channels t = as.foldl Call.channels (channels s) := by
  intro h
  have hrun : AnyRun step is31Value [.curValueSet IS31FL3216_CUR_0_75, .reset] _ :=
    .cons trivial rfl (.cons trivial rfl (.nil _))
  have hall := (h _ _ _ hrun fun _ _ ↦ rfl).1
  exact absurd (hall _ [] _ (List.append_nil _).symm hrun IS31FL3216_REG_LED_EFFECT (by decide))
    (by decide)

end Ddmz.Led
