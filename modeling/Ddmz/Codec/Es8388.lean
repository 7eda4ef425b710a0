import Ddmz.Foundation.BitField

/-!
# The registers of the codec

The functions of `ES8388_interface.c` that set a field read the register over I2C, put the field in,
and write the register back; some do so for two registers, one after the other. Each of the
transactions may fail, and one that fails leaves the codec as it was.

When the read fails nothing has been read, but the write is made all the same, with what was in the
variable before; and of two registers only the second decides what is returned. `safe_iff` says
which failures do no harm, for all five functions at once.
-/

namespace Ddmz.Codec

def ES8388_DACPOWER : ℕ := 0x04

def ES8388_ADCCONTROL2 : ℕ := 0x0a

def ES8388_ADCCONTROL4 : ℕ := 0x0c

def ES8388_DACCONTROL1 : ℕ := 0x17

def ES8388_DACCONTROL3 : ℕ := 0x19

inductive ESCodecModule
  | min
  | adc
  | dac
  | adcDac
  | line
  | max
  deriving DecidableEq, Repr

/-- The registers of the codec. -/
abbrev Registers := ℕ → BitVec 8

/-- Which transactions succeed: the two of `Es8388ReadReg`, and that of `Es8388WriteReg`. -/
structure Transactions where
  select : Bool
  read : Bool
  write : Bool
  deriving DecidableEq, Repr

def Transactions.readOk (io : Transactions) : Bool := io.select && io.read

def Transactions.failed (io : Transactions) : Bool := !(io.readOk && io.write)

/-- `Es8388ReadReg`: what it returns, and `*pData`. -/
def es8388ReadReg (regs : Registers) (regAdd : ℕ) (pData : BitVec 8) (ok : Bool) :
    Int32 × BitVec 8 :=
  if ok then (0, regs regAdd) else (-1, pData)

/-- `Es8388WriteReg`. -/
def es8388WriteReg (regs : Registers) (regAdd : ℕ) (data : BitVec 8) (ok : Bool) :
    Int32 × Registers :=
  if ok then (0, Function.update regs regAdd data) else (-1, regs)

/-- The registers, and the variables `reg` and `res` of a function. -/
structure Es8388 where
  regs : Registers
  reg : BitVec 8
  res : Int32

/-- What the functions do with a register. `res` is assigned by the read. -/
def Es8388.update (s : Es8388) (u : FieldUpdate 8) (io : Transactions) : Es8388 :=
  let (res, reg) := es8388ReadReg s.regs u.reg s.reg io.readOk
  let reg := reg &&& u.keep
  let (ret, regs) := es8388WriteReg s.regs u.reg (reg ||| u.value) io.write
  ⟨regs, reg, res ||| ret⟩

/-- `Es8388ConfigFmt`. -/
def es8388ConfigFmt (mode : ESCodecModule) (fmt : ℕ) (adc dac : Transactions) (regs : Registers) :
    Es8388 :=
  let s : Es8388 := ⟨regs, 0, 0⟩
  let s := if mode = .adc ∨ mode = .adcDac then
      s.update ⟨ES8388_ADCCONTROL4, 0xfc, .ofNat 8 fmt⟩ adc else s
  if mode = .dac ∨ mode = .adcDac then
    s.update ⟨ES8388_DACCONTROL1, 0xf9, .ofNat 8 (fmt <<< 1)⟩ dac else s

/-- `Es8388SetBitsPerSample`. -/
def es8388SetBitsPerSample (mode : ESCodecModule) (bits : ℕ) (adc dac : Transactions)
    (regs : Registers) : Es8388 :=
  let s : Es8388 := ⟨regs, 0, 0⟩
  let s := if mode = .adc ∨ mode = .adcDac then
      s.update ⟨ES8388_ADCCONTROL4, 0xe3, .ofNat 8 (bits <<< 2)⟩ adc else s
  if mode = .dac ∨ mode = .adcDac then
    s.update ⟨ES8388_DACCONTROL1, 0xc7, .ofNat 8 (bits <<< 3)⟩ dac else s

/-- `Es8388SetVoiceMute`. -/
def es8388SetVoiceMute (enable : ℕ) (dac : Transactions) (regs : Registers) : Es8388 :=
  Es8388.update ⟨regs, 0, 0⟩ ⟨ES8388_DACCONTROL3, 0xfb, .ofNat 8 (enable <<< 2)⟩ dac

/-- `EsConfigDacOutput`. -/
def esConfigDacOutput (output : ℕ) (dac : Transactions) (regs : Registers) : Es8388 :=
  Es8388.update ⟨regs, 0, 0⟩ ⟨ES8388_DACPOWER, 0xc3, .ofNat 8 output⟩ dac

/-- `Es8388ConfigAdcInput`. -/
def es8388ConfigAdcInput (input : ℕ) (adc : Transactions) (regs : Registers) : Es8388 :=
  Es8388.update ⟨regs, 0, 0⟩ ⟨ES8388_ADCCONTROL2, 0x0f, .ofNat 8 input⟩ adc

/-! ## Requests -/

inductive Request
  | configFmt (mode : ESCodecModule) (fmt : ℕ)
  | setBitsPerSample (mode : ESCodecModule) (bits : ℕ)
  | setVoiceMute (enable : ℕ)
  | configDacOutput (output : ℕ)
  | configAdcInput (input : ℕ)

namespace Request

/-- A request, with the transactions for a register of the ADC and for one of the DAC. -/
def run (adc dac : Transactions) (regs : Registers) : Request → Es8388
  | configFmt mode fmt => es8388ConfigFmt mode fmt adc dac regs
  | setBitsPerSample mode bits => es8388SetBitsPerSample mode bits adc dac regs
  | setVoiceMute enable => es8388SetVoiceMute enable dac regs
  | configDacOutput output => esConfigDacOutput output dac regs
  | configAdcInput input => es8388ConfigAdcInput input adc regs

/-- The values that the fields have room for. -/
def InRange : Request → Prop
  | configFmt _ fmt => fmt < 4
  | setBitsPerSample _ bits => bits < 8
  | setVoiceMute enable => enable < 2
  | configDacOutput output => BitVec.ofNat 8 output &&& 0xc3 = 0
  | configAdcInput input => BitVec.ofNat 8 input &&& 0x0f = 0

/-- The fields of a request for two registers, in a mode. -/
def both (mode : ESCodecModule) (u v : FieldUpdate 8) (adc dac : Transactions) :
    List (FieldUpdate 8 × Transactions) :=
  (if mode = .adc ∨ mode = .adcDac then [(u, adc)] else []) ++
    if mode = .dac ∨ mode = .adcDac then [(v, dac)] else []

/-- The fields that a request sets, one after the other. -/
def updates (adc dac : Transactions) : Request → List (FieldUpdate 8 × Transactions)
  | configFmt mode fmt => both mode ⟨ES8388_ADCCONTROL4, 0xfc, .ofNat 8 fmt⟩
      ⟨ES8388_DACCONTROL1, 0xf9, .ofNat 8 (fmt <<< 1)⟩ adc dac
  | setBitsPerSample mode bits => both mode ⟨ES8388_ADCCONTROL4, 0xe3, .ofNat 8 (bits <<< 2)⟩
      ⟨ES8388_DACCONTROL1, 0xc7, .ofNat 8 (bits <<< 3)⟩ adc dac
  | setVoiceMute enable => [(⟨ES8388_DACCONTROL3, 0xfb, .ofNat 8 (enable <<< 2)⟩, dac)]
  | configDacOutput output => [(⟨ES8388_DACPOWER, 0xc3, .ofNat 8 output⟩, dac)]
  | configAdcInput input => [(⟨ES8388_ADCCONTROL2, 0x0f, .ofNat 8 input⟩, adc)]

end Request

/-- Set fields one after the other. -/
def Es8388.updateAll (s : Es8388) (us : List (FieldUpdate 8 × Transactions)) : Es8388 :=
  us.foldl (fun s x ↦ s.update x.1 x.2) s

variable {q : Request} {adc dac io : Transactions} {regs : Registers} {s : Es8388}
  {u : FieldUpdate 8} {us : List (FieldUpdate 8 × Transactions)} {k : ℕ}

theorem updateAll_both (mode : ESCodecModule) (u v : FieldUpdate 8) (s : Es8388) :
    s.updateAll (Request.both mode u v adc dac) =
      let s := if mode = .adc ∨ mode = .adcDac then s.update u adc else s
      if mode = .dac ∨ mode = .adcDac then s.update v dac else s := by
  rw [Es8388.updateAll, Request.both, List.foldl_append]
  split_ifs <;> rfl

theorem run_eq (q : Request) :
    q.run adc dac regs = Es8388.updateAll ⟨regs, 0, 0⟩ (q.updates adc dac) := by
  cases q with
  | configFmt mode fmt => exact (updateAll_both mode _ _ _).symm
  | setBitsPerSample mode bits => exact (updateAll_both mode _ _ _).symm
  | setVoiceMute enable => rfl
  | configDacOutput output => rfl
  | configAdcInput input => rfl

/-! ## One field -/

theorem update_regs_of_ne (h : k ≠ u.reg) : (s.update u io).regs k = s.regs k := by
  cases hw : io.write <;> simp [Es8388.update, es8388WriteReg, hw, h]

/-- The variable `reg` after a field: what has been read, or what was in it before. -/
theorem update_reg : (s.update u io).reg
    = (if io.readOk then s.regs u.reg else s.reg) &&& u.keep := by
  cases hr : io.readOk <;> simp [Es8388.update, es8388ReadReg, hr]

theorem update_res : (s.update u io).res ≠ 0 ↔ io.failed = true := by
  cases hr : io.readOk <;> cases hw : io.write <;>
    simp [Es8388.update, es8388ReadReg, es8388WriteReg, Transactions.failed, hr, hw]

/-- **When a register keeps its other bits**: it has been read, or is not written, or had the same
other bits as what was left in the variable. -/
theorem update_keeps_iff (hv : u.value &&& u.keep = 0) :
    (s.update u io).regs u.reg &&& u.keep = s.regs u.reg &&& u.keep ↔
      io.readOk = true ∨ io.write = false ∨ s.reg &&& u.keep = s.regs u.reg &&& u.keep := by
  have hwritten : ∀ r : BitVec 8, (r &&& u.keep ||| u.value) &&& u.keep = r &&& u.keep :=
    fun r ↦ fieldSet_and_keep_of_eq_zero r hv
  cases hw : io.write <;> cases hr : io.readOk <;>
    simp [Es8388.update, es8388ReadReg, es8388WriteReg, hr, hw, hwritten]

/-! ## One field after the other -/

/-- A register that is not addressed. -/
theorem updateAll_regs_of_forall_ne (h : ∀ x ∈ us, x.1.reg ≠ k) :
    (s.updateAll us).regs k = s.regs k := by
  induction us generalizing s with
  | nil => rfl
  | cons x us ih =>
    rw [Es8388.updateAll, List.foldl_cons, ← Es8388.updateAll,
      ih fun y hy ↦ h y (List.mem_cons_of_mem _ hy),
      update_regs_of_ne (h x List.mem_cons_self).symm]

/-- The fields lie in the registers `regs`, and `reg` is what is left in the variable: no register
is written with other bits than its own. -/
def Clean (regs : Registers) : BitVec 8 → List (FieldUpdate 8 × Transactions) → Prop
  | _, [] => True
  | reg, (u, io) :: us =>
    (io.readOk = true ∨ io.write = false ∨ reg &&& u.keep = regs u.reg &&& u.keep) ∧
      Clean regs ((if io.readOk then regs u.reg else reg) &&& u.keep) us

theorem Clean.congr {regs' : Registers} {reg : BitVec 8}
    (h : ∀ x ∈ us, regs x.1.reg = regs' x.1.reg) : Clean regs reg us ↔ Clean regs' reg us := by
  induction us generalizing reg with
  | nil => rfl
  | cons x us ih =>
    rw [Clean, Clean, h x List.mem_cons_self, ih fun y hy ↦ h y (List.mem_cons_of_mem _ hy)]

theorem updateAll_keeps_iff (hv : ∀ x ∈ us, x.1.value &&& x.1.keep = 0)
    (hne : us.Pairwise fun x y ↦ x.1.reg ≠ y.1.reg) :
    (∀ x ∈ us, (s.updateAll us).regs x.1.reg &&& x.1.keep = s.regs x.1.reg &&& x.1.keep) ↔
      Clean s.regs s.reg us := by
  induction us generalizing s with
  | nil => simp [Clean]
  | cons x us ih =>
    obtain ⟨u, io⟩ := x
    obtain ⟨hfirst, hrest⟩ := List.pairwise_cons.mp hne
    have hothers : ∀ x ∈ us, (s.update u io).regs x.1.reg = s.regs x.1.reg := fun x hx ↦
      update_regs_of_ne (hfirst x hx).symm
    have hhead : ((s.update u io).updateAll us).regs u.reg = (s.update u io).regs u.reg :=
      updateAll_regs_of_forall_ne fun x hx ↦ (hfirst x hx).symm
    have hih := ih (s := s.update u io) (fun x hx ↦ hv x (List.mem_cons_of_mem _ hx)) hrest
    rw [List.forall_mem_cons, Clean, Es8388.updateAll, List.foldl_cons, ← Es8388.updateAll, hhead,
      update_keeps_iff (hv _ List.mem_cons_self), ← update_reg, ← Clean.congr hothers, ← hih]
    refine and_congr_right fun _ ↦ forall₂_congr fun x hx ↦ ?_
    rw [hothers x hx]

/-- Only the last field decides what is returned. -/
theorem updateAll_res (hne : us ≠ []) :
    (s.updateAll us).res ≠ 0 ↔ ∀ x ∈ us.getLast?, x.2.failed = true := by
  obtain ⟨us, x, rfl⟩ := (List.eq_nil_or_concat us).resolve_left hne
  rw [Es8388.updateAll, List.concat_eq_append, List.foldl_append, List.foldl_cons, List.foldl_nil,
    update_res, List.getLast?_concat]
  simp

/-- If a transaction fails, then one for the last field. -/
def Reported (us : List (FieldUpdate 8 × Transactions)) : Prop :=
  ∀ x ∈ us, x.2.failed = true → ∀ y ∈ us.getLast?, y.2.failed = true

theorem updateAll_res_iff (h0 : s.res = 0) :
    ((s.updateAll us).res ≠ 0 ↔ ∃ x ∈ us, x.2.failed = true) ↔ Reported us := by
  obtain rfl | hne := eq_or_ne us []
  · simp [Es8388.updateAll, h0, Reported]
  · rw [updateAll_res hne, Reported]
    have hlast : (∀ x ∈ us.getLast?, x.2.failed = true) → ∃ x ∈ us, x.2.failed = true := by
      intro h
      exact ⟨us.getLast hne, List.getLast_mem hne, h _ (List.getLast?_eq_some_getLast hne)⟩
    exact ⟨fun h x hx hfailed ↦ h.mpr ⟨x, hx, hfailed⟩,
      fun h ↦ ⟨hlast, fun ⟨x, hx, hfailed⟩ ↦ h x hx hfailed⟩⟩

/-! ## The functions -/

theorem forall_mem_both {mode : ESCodecModule} {v : FieldUpdate 8} {P : FieldUpdate 8 → Prop}
    (hu : P u) (hv : P v) : ∀ x ∈ Request.both mode u v adc dac, P x.1 := by
  intro x hx
  rw [Request.both, List.mem_append] at hx
  obtain hx | hx := hx <;> split_ifs at hx
  · exact List.mem_singleton.mp hx ▸ hu
  · cases hx
  · exact List.mem_singleton.mp hx ▸ hv
  · cases hx

/-- A value in range lies in its field. -/
theorem updates_value (h : q.InRange) (adc dac : Transactions) :
    ∀ x ∈ q.updates adc dac, x.1.value &&& x.1.keep = 0 := by
  cases q with
  | configFmt mode fmt =>
    have hfield : ∀ fmt < 4, BitVec.ofNat 8 fmt &&& 0xfc = 0 ∧
        BitVec.ofNat 8 (fmt <<< 1) &&& 0xf9 = 0 := by
      decide
    exact forall_mem_both (P := fun u ↦ u.value &&& u.keep = 0) (hfield fmt h).1 (hfield fmt h).2
  | setBitsPerSample mode bits =>
    have hfield : ∀ bits < 8, BitVec.ofNat 8 (bits <<< 2) &&& 0xe3 = 0 ∧
        BitVec.ofNat 8 (bits <<< 3) &&& 0xc7 = 0 := by
      decide
    exact forall_mem_both (P := fun u ↦ u.value &&& u.keep = 0) (hfield bits h).1 (hfield bits h).2
  | setVoiceMute enable =>
    have hfield : ∀ enable < 2, BitVec.ofNat 8 (enable <<< 2) &&& 0xfb = 0 := by decide
    exact List.forall_mem_singleton.mpr (hfield enable h)
  | configDacOutput output => exact List.forall_mem_singleton.mpr h
  | configAdcInput input => exact List.forall_mem_singleton.mpr h

theorem pairwise_both {mode : ESCodecModule} {v : FieldUpdate 8} (h : u.reg ≠ v.reg) :
    (Request.both mode u v adc dac).Pairwise fun x y ↦ x.1.reg ≠ y.1.reg := by
  rw [Request.both]
  split_ifs <;> simp [h]

theorem updates_pairwise (q : Request) (adc dac : Transactions) :
    (q.updates adc dac).Pairwise fun x y ↦ x.1.reg ≠ y.1.reg := by
  have hne : ES8388_ADCCONTROL4 ≠ ES8388_DACCONTROL1 := by decide
  cases q with
  | configFmt mode fmt => exact pairwise_both hne
  | setBitsPerSample mode bits => exact pairwise_both hne
  | setVoiceMute enable => exact List.pairwise_singleton _ _
  | configDacOutput output => exact List.pairwise_singleton _ _
  | configAdcInput input => exact List.pairwise_singleton _ _

/-- Every addressed register keeps the bits outside the field, and a failure is returned exactly if
there has been one. -/
def Safe (q : Request) (adc dac : Transactions) (regs : Registers) : Prop :=
  (∀ x ∈ q.updates adc dac,
    (q.run adc dac regs).regs x.1.reg &&& x.1.keep = regs x.1.reg &&& x.1.keep) ∧
  ((q.run adc dac regs).res ≠ 0 ↔ ∃ x ∈ q.updates adc dac, x.2.failed = true)

/-- **When a request is safe.** -/
theorem safe_iff (h : q.InRange) (adc dac : Transactions) (regs : Registers) :
    Safe q adc dac regs ↔ Clean regs 0 (q.updates adc dac) ∧ Reported (q.updates adc dac) := by
  have hstart : (⟨regs, 0, 0⟩ : Es8388).res = 0 := rfl
  rw [Safe, run_eq, ← updateAll_res_iff hstart]
  exact and_congr_left fun _ ↦
    updateAll_keeps_iff (updates_value h adc dac) (updates_pairwise q adc dac)

theorem safe_iff_mute :
    Safe (.setVoiceMute 1) ⟨true, true, true⟩ ⟨true, false, false⟩ fun _ ↦ 0x20 :=
  (safe_iff (q := .setVoiceMute 1) (by decide : 1 < 2) _ _ _).mpr
    ⟨⟨.inr (.inl rfl), trivial⟩, List.forall_mem_singleton.mpr fun h _ hy ↦
      Option.mem_some.mp hy ▸ h⟩

/-- The read fails and the write succeeds: the other bits of the register are lost. -/
theorem not_safe : ¬∀ (q : Request) (adc dac : Transactions) (regs : Registers), q.InRange →
    Safe q adc dac regs := by
  intro h
  have hkept := (h (.setVoiceMute 1) ⟨true, true, true⟩ ⟨true, false, true⟩ (fun _ ↦ 0x20)
    (by decide : 1 < 2)).1 _ List.mem_cons_self
  exact absurd hkept (by decide)

end Ddmz.Codec
