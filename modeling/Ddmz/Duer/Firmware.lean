import Ddmz.Foundation.Runs

/-!
# Installing the firmware of the voice assistant

The unpacker of the SDK calls `ota_notify_data_begin`, then `ota_notify_meta_data`, then
`ota_notify_module_data` for each chunk of the module, then `ota_notify_data_end`, and stops when
one of them returns an error. They share a structure with the size of the firmware and the offset
that has been reached; what the flash answers is an argument.

The offset is compared with the size before a chunk is written, and advanced also when the write
fails; the end asks for nothing but an image that `esp_ota_end` accepts. So the accounts are right
if and only if chunks that fit are written, and the end comes when they make up the firmware:
`accounted_iff`.
-/

namespace Ddmz.Duer

/-! ## The callbacks -/

/-- `DUER_OK` and the errors that the callbacks return. -/
inductive DuerErr
  | OK
  | FAILED
  | INVALID_PARAMETER
  deriving DecidableEq

/-- `duer_ota_installer_handle_t`. The offset is an `int`. -/
structure Installer where
  updateHandle : ℕ
  updatePartition : ℕ
  firmwareSize : BitVec 32
  firmwareOffset : BitVec 32

/-- What is called of the flash, and whether it succeeds. -/
inductive FlashCall
  /-- `esp_ota_write`. -/
  | write (handle : ℕ) (size : BitVec 32) (ok : Bool)
  /-- `esp_ota_end`. -/
  | finish (handle : ℕ) (ok : Bool)
  /-- `esp_ota_set_boot_partition`. -/
  | setBoot (partition : ℕ) (ok : Bool)
  deriving DecidableEq

/-- `ota_notify_data_begin`, with what `esp_ota_get_next_update_partition` returns. -/
def otaNotifyDataBegin (ctx : Option Installer) (partition : Option ℕ) :
    DuerErr × Option Installer :=
  match ctx, partition with
  | none, _ => (.INVALID_PARAMETER, none)
  | some pdata, none => (.FAILED, some pdata)
  | some pdata, some partition =>
    (.OK, some { pdata with updatePartition := partition, firmwareOffset := 0 })

/-- `ota_notify_meta_data`, with the size of the first module and the handle that `esp_ota_begin`
returns. -/
def otaNotifyMetaData (ctx : Option Installer) (moduleSize : Option (BitVec 32))
    (handle : Option ℕ) : DuerErr × Option Installer :=
  match ctx, moduleSize, handle with
  | none, _, _ | _, none, _ => (.INVALID_PARAMETER, ctx)
  -- the size is set before `esp_ota_begin` is called
  | some pdata, some size, none => (.FAILED, some { pdata with firmwareSize := size })
  | some pdata, some size, some handle =>
    (.OK, some { pdata with firmwareSize := size, updateHandle := handle })

/-- `ota_notify_module_data`, with whether the write succeeds. The comparison is of unsigned
numbers. -/
def otaNotifyModuleData (ctx : Option Installer) (size : BitVec 32) (ok : Bool) :
    DuerErr × Option Installer × List FlashCall :=
  match ctx with
  | none => (.FAILED, none, [])
  | some pdata =>
    if pdata.firmwareSize < pdata.firmwareOffset then (.FAILED, some pdata, [])
    -- the offset has been advanced when the write fails
    else (if ok then .OK else .FAILED,
      some { pdata with firmwareOffset := pdata.firmwareOffset + size },
      [.write pdata.updateHandle size ok])

/-- `ota_notify_data_end`, with what the two calls return. -/
def otaNotifyDataEnd (ctx : Option Installer) (ended booted : Bool) : DuerErr × List FlashCall :=
  match ctx with
  | none => (.INVALID_PARAMETER, [])
  | some pdata =>
    if ended then
      (if booted then .OK else .FAILED,
        [.finish pdata.updateHandle true, .setBoot pdata.updatePartition booted])
    else (.FAILED, [.finish pdata.updateHandle false])

/-! ## Runs -/

/-- Which callback comes next. -/
inductive Phase
  | begin
  | metaData
  | data
  /-- One has returned an error, or all have been called. -/
  | over
  deriving DecidableEq

structure Installation where
  ctx : Option Installer
  phase : Phase
  /-- `ota_notify_data_begin` has succeeded. -/
  begun : Bool
  calls : List FlashCall

/-- The structure comes from `malloc`. -/
def Installation.init (ctx : Option Installer) : Installation := ⟨ctx, .begin, false, []⟩

inductive InstallOp
  | dataBegin (partition : Option ℕ)
  | metaData (moduleSize : Option (BitVec 32)) (handle : Option ℕ)
  | moduleData (size : BitVec 32) (ok : Bool)
  | dataEnd (ended booted : Bool)

/-- The bytes that have been written. -/
def FlashCall.bytes : FlashCall → ℕ
  | .write _ size true => size.toNat
  | _ => 0

def bytesWritten (calls : List FlashCall) : ℕ := (calls.map FlashCall.bytes).sum

namespace Installation

variable (s : Installation)

/-- The next phase, unless there was an error. -/
def next (err : DuerErr) (phase : Phase) : Phase := if err = .OK then phase else .over

def step : InstallOp → Option Installation
  | .dataBegin partition =>
    if s.phase = .begin then
      let r := otaNotifyDataBegin s.ctx partition
      some { s with ctx := r.2, phase := next r.1 .metaData, begun := decide (r.1 = .OK) }
    else none
  | .metaData moduleSize handle =>
    if s.phase = .metaData then
      let r := otaNotifyMetaData s.ctx moduleSize handle
      some { s with ctx := r.2, phase := next r.1 .data }
    else none
  | .moduleData size ok =>
    if s.phase = .data then
      let r := otaNotifyModuleData s.ctx size ok
      some { s with ctx := r.2.1, phase := next r.1 .data, calls := s.calls ++ r.2.2 }
    else none
  | .dataEnd ended booted =>
    if s.phase = .data then
      let r := otaNotifyDataEnd s.ctx ended booted
      some { s with phase := .over, calls := s.calls ++ r.2 }
    else none

/-- The offset says how much has been written, which is no more than the firmware; and the boot
partition is switched only if the firmware has been written in full and without an error. -/
structure Accounted : Prop where
  counted : s.begun = true → ∀ pdata ∈ s.ctx,
    pdata.firmwareOffset.toInt = bytesWritten s.calls
  bounded : s.begun = true → ∀ pdata ∈ s.ctx,
    pdata.firmwareOffset.toInt ≤ pdata.firmwareSize.toNat
  complete : ∀ partition, .setBoot partition true ∈ s.calls →
    (∀ pdata ∈ s.ctx, bytesWritten s.calls = pdata.firmwareSize.toNat) ∧
      (∀ handle size ok, .write handle size ok ∈ s.calls → ok = true) ∧
      ∃ handle, .finish handle true ∈ s.calls

/-- A chunk is written and fits, into an `int` as well, or it is empty; and an image that is
switched to has been written in full. -/
def Fits : InstallOp → Prop
  | .moduleData size ok => ∀ pdata ∈ s.ctx,
    if ok = true then
      bytesWritten s.calls + size.toNat ≤ pdata.firmwareSize.toNat ∧
        bytesWritten s.calls + size.toNat < 2 ^ 31
    else size = 0
  | .dataEnd ended booted => ended = true → booted = true → ∀ pdata ∈ s.ctx,
    bytesWritten s.calls = pdata.firmwareSize.toNat
  | _ => True

/-- What the phases say. -/
structure Orderly : Prop where
  clean : s.phase ≠ .over → ∀ c ∈ s.calls, ∃ handle size, c = .write handle size true
  early : s.phase = .begin ∨ s.phase = .metaData → s.calls = []
  begun : s.phase = .metaData ∨ s.phase = .data → s.begun = true ∧ s.ctx ≠ none
  before : s.phase = .begin → s.begun = false

end Installation

/-! ## The offset -/

section Offset

variable {offset size : BitVec 32} {n : ℕ}

theorem toInt_eq_natCast_iff : offset.toInt = n ↔ offset.toNat = n ∧ n < 2 ^ 31 := by
  have hlt := offset.isLt
  rw [BitVec.toInt_eq_toNat_cond]
  split_ifs <;> omega

/-- The offset advances with what is written until it leaves the range of an `int`. -/
theorem toInt_add_iff (h : offset.toInt = n) :
    (offset + size).toInt = ((n + size.toNat : ℕ) : ℤ) ↔ n + size.toNat < 2 ^ 31 := by
  obtain ⟨hn, -⟩ := toInt_eq_natCast_iff.mp h
  rw [toInt_eq_natCast_iff, BitVec.toNat_add, hn]
  omega

/-- It stays where it is only if nothing is to be written. -/
theorem toInt_add_eq_iff (h : offset.toInt = n) : (offset + size).toInt = n ↔ size = 0 := by
  obtain ⟨hn, hlt⟩ := toInt_eq_natCast_iff.mp h
  have hsize := size.isLt
  rw [toInt_eq_natCast_iff, BitVec.toNat_add, hn, ← BitVec.toNat_inj]
  change (n + size.toNat) % 2 ^ 32 = n ∧ n < 2 ^ 31 ↔ size.toNat = 0
  omega

/-- An offset within the firmware passes the comparison. -/
theorem not_lt_offset {firmwareSize : BitVec 32} (h : offset.toInt = n)
    (hle : offset.toInt ≤ firmwareSize.toNat) : ¬firmwareSize < offset := by
  obtain ⟨hn, -⟩ := toInt_eq_natCast_iff.mp h
  rw [BitVec.lt_def]
  omega

end Offset

theorem bytesWritten_append (calls calls' : List FlashCall) :
    bytesWritten (calls ++ calls') = bytesWritten calls + bytesWritten calls' := by
  rw [bytesWritten, List.map_append, List.sum_append, bytesWritten, bytesWritten]

/-! ## One callback -/

namespace Installation

variable {s t : Installation} {op : InstallOp}

theorem orderly_init (ctx : Option Installer) : (init ctx).Orderly where
  clean _ _ hc := absurd hc List.not_mem_nil
  early _ := rfl
  begun h := h.elim nofun nofun
  before _ := rfl

theorem accounted_init (ctx : Option Installer) : (init ctx).Accounted where
  counted h := nomatch h
  bounded h := nomatch h
  complete _ h := absurd h List.not_mem_nil

theorem step_dataBegin {partition : Option ℕ} (h : s.step (.dataBegin partition) = some t) :
    s.phase = .begin ∧ (t = { s with phase := .over, begun := false } ∨
      ∃ (pdata : Installer) (partition : ℕ), t = { s with
        ctx := some { pdata with updatePartition := partition, firmwareOffset := 0 }
        phase := .metaData
        begun := true }) := by
  rw [step, Option.ite_none_right_eq_some] at h
  obtain ⟨hphase, h⟩ := h
  obtain rfl := Option.some.inj h
  refine ⟨hphase, ?_⟩
  obtain ⟨ctx, phase, begun, calls⟩ := s
  cases ctx with
  | none => exact .inl rfl
  | some pdata =>
    cases partition with
    | none => exact .inl rfl
    | some partition => exact .inr ⟨pdata, partition, rfl⟩

/-- The meta data changes the size and the handle, not the offset. -/
theorem step_metaData {moduleSize : Option (BitVec 32)} {handle : Option ℕ}
    (h : s.step (.metaData moduleSize handle) = some t) :
    s.phase = .metaData ∧ ∃ ctx phase, t = { s with ctx, phase } ∧
      (phase = .over ∨ phase = .data ∧ ctx ≠ none) ∧
      ∀ pdata ∈ ctx, ∃ pdata' ∈ s.ctx, pdata.firmwareOffset = pdata'.firmwareOffset := by
  rw [step, Option.ite_none_right_eq_some] at h
  obtain ⟨hphase, h⟩ := h
  obtain rfl := Option.some.inj h
  refine ⟨hphase, _, _, rfl, ?_⟩
  obtain ⟨ctx, phase, begun, calls⟩ := s
  cases ctx with
  | none => exact ⟨.inl rfl, nofun⟩
  | some pdata =>
    cases moduleSize with
    | none =>
      refine ⟨.inl rfl, ?_⟩
      rintro _ ⟨⟩
      exact ⟨pdata, rfl, rfl⟩
    | some size =>
      cases handle with
      | none =>
        refine ⟨.inl rfl, ?_⟩
        rintro _ ⟨⟩
        exact ⟨pdata, rfl, rfl⟩
      | some handle =>
        refine ⟨.inr ⟨rfl, Option.some_ne_none _⟩, ?_⟩
        rintro _ ⟨⟩
        exact ⟨pdata, rfl, rfl⟩

theorem step_moduleData {size : BitVec 32} {ok : Bool}
    (h : s.step (.moduleData size ok) = some t) : s.phase = .data ∧
      t = { s with
        ctx := (otaNotifyModuleData s.ctx size ok).2.1
        phase := next (otaNotifyModuleData s.ctx size ok).1 .data
        calls := s.calls ++ (otaNotifyModuleData s.ctx size ok).2.2 } := by
  rw [step, Option.ite_none_right_eq_some] at h
  exact ⟨h.1, (Option.some.inj h.2).symm⟩

theorem step_dataEnd {ended booted : Bool} (h : s.step (.dataEnd ended booted) = some t) :
    s.phase = .data ∧ t = { s with
      phase := .over
      calls := s.calls ++ (otaNotifyDataEnd s.ctx ended booted).2 } := by
  rw [step, Option.ite_none_right_eq_some] at h
  exact ⟨h.1, (Option.some.inj h.2).symm⟩

theorem orderly_over {ctx : Option Installer} {begun : Bool} {calls : List FlashCall} :
    Orderly ⟨ctx, .over, begun, calls⟩ where
  clean h := absurd rfl h
  early h := h.elim nofun nofun
  begun h := h.elim nofun nofun
  before h := nomatch h

theorem Orderly.step (hs : s.Orderly) (h : s.step op = some t) : t.Orderly := by
  cases op with
  | dataBegin partition =>
    obtain ⟨hphase, rfl | ⟨pdata, partition, rfl⟩⟩ := step_dataBegin h
    · exact orderly_over
    · have hcalls := hs.early (.inl hphase)
      refine ⟨fun _ ↦ hs.clean (hphase ▸ nofun), fun _ ↦ hcalls, fun _ ↦ ⟨rfl, ?_⟩, nofun⟩
      exact Option.some_ne_none _
  | metaData moduleSize handle =>
    obtain ⟨hphase, ctx, phase, rfl, rfl | ⟨rfl, hctx⟩, -⟩ := step_metaData h
    · exact orderly_over
    · refine ⟨fun _ ↦ hs.clean (hphase ▸ nofun), fun h ↦ h.elim nofun nofun, fun _ ↦ ?_, nofun⟩
      exact ⟨(hs.begun (.inl hphase)).1, hctx⟩
  | moduleData size ok =>
    obtain ⟨hphase, rfl⟩ := step_moduleData h
    obtain ⟨hbegun, hctx⟩ := hs.begun (.inr hphase)
    obtain ⟨pdata, hpdata⟩ := Option.ne_none_iff_exists'.mp hctx
    rw [hpdata, otaNotifyModuleData]
    split_ifs with hlt hok
    · exact orderly_over
    · subst hok
      refine ⟨fun _ c hc ↦ ?_, fun h ↦ h.elim nofun nofun, fun _ ↦ ⟨hbegun, ?_⟩, nofun⟩
      · obtain hc | hc := List.mem_append.mp hc
        · exact hs.clean (hphase ▸ nofun) c hc
        · exact ⟨_, _, List.mem_singleton.mp hc⟩
      · exact Option.some_ne_none _
    · exact orderly_over
  | dataEnd ended booted =>
    obtain ⟨-, rfl⟩ := step_dataEnd h
    exact orderly_over

/-- Nothing has been switched to. -/
theorem complete_of_writes {calls : List FlashCall}
    (h : ∀ c ∈ calls, ∃ handle size ok, c = .write handle size ok) {partition : ℕ}
    (hmem : .setBoot partition true ∈ calls) (P : Prop) : P := by
  obtain ⟨handle, size, ok, heq⟩ := h _ hmem
  cases heq

/-- A chunk keeps the accounts right if and only if it is written and fits, or is empty. -/
theorem Accounted.moduleData (hs : s.Accounted) (horderly : s.Orderly) {size : BitVec 32}
    {ok : Bool} (h : s.step (.moduleData size ok) = some t) :
    t.Accounted ↔ s.Fits (.moduleData size ok) := by
  obtain ⟨hphase, rfl⟩ := step_moduleData h
  obtain ⟨hbegun, hctx⟩ := horderly.begun (.inr hphase)
  obtain ⟨pdata, hpdata⟩ := Option.ne_none_iff_exists'.mp hctx
  have hcounted := hs.counted hbegun pdata hpdata
  have hbounded := hs.bounded hbegun pdata hpdata
  have hwrites : ∀ c ∈ s.calls ++ [FlashCall.write pdata.updateHandle size ok],
      ∃ handle size ok, c = .write handle size ok := by
    intro c hc
    obtain hc | hc := List.mem_append.mp hc
    · obtain ⟨handle, size, rfl⟩ := horderly.clean (hphase ▸ nofun) c hc
      exact ⟨handle, size, true, rfl⟩
    · exact ⟨_, _, _, List.mem_singleton.mp hc⟩
  rw [hpdata, otaNotifyModuleData, if_neg (not_lt_offset hcounted hbounded), Fits, hpdata]
  have hbytes : bytesWritten (s.calls ++ [.write pdata.updateHandle size ok])
      = bytesWritten s.calls + if ok = true then size.toNat else 0 := by
    rw [bytesWritten_append]
    cases ok with
    | _ => rfl
  -- the offset advances as it should if there is no overflow, or not at all
  constructor
  · intro ht
    have hcounted' := ht.counted hbegun _ rfl
    have hbounded' := ht.bounded hbegun _ rfl
    dsimp only at hcounted' hbounded'
    rw [hbytes] at hcounted'
    rintro _ ⟨⟩
    split_ifs at hcounted' ⊢ with hok
    · rw [hcounted'] at hbounded'
      exact ⟨by exact_mod_cast hbounded', (toInt_add_iff hcounted).mp hcounted'⟩
    · exact (toInt_add_eq_iff hcounted).mp hcounted'
  · intro hfits
    have hfits := hfits pdata rfl
    refine ⟨fun _ ↦ ?_, fun _ ↦ ?_, fun partition hmem ↦ complete_of_writes hwrites hmem _⟩
    · rintro _ ⟨⟩
      dsimp only
      rw [hbytes]
      split_ifs at hfits ⊢ with hok
      · exact (toInt_add_iff hcounted).mpr hfits.2
      · exact (toInt_add_eq_iff hcounted).mpr hfits
    · rintro _ ⟨⟩
      dsimp only
      split_ifs at hfits with hok
      · rw [(toInt_add_iff hcounted).mpr hfits.2]
        exact_mod_cast hfits.1
      · rw [(toInt_add_eq_iff hcounted).mpr hfits, ← hcounted]
        exact hbounded

/-- The end writes nothing, so only the switch counts. -/
theorem Accounted.append (hs : s.Accounted) {calls : List FlashCall} (phase : Phase)
    (hbytes : bytesWritten calls = 0) :
    Accounted { s with phase, calls := s.calls ++ calls } ↔
      ∀ partition, .setBoot partition true ∈ s.calls ++ calls →
        (∀ pdata ∈ s.ctx, bytesWritten s.calls = pdata.firmwareSize.toNat) ∧
          (∀ handle size ok, .write handle size ok ∈ s.calls ++ calls → ok = true) ∧
          ∃ handle, .finish handle true ∈ s.calls ++ calls := by
  have hsame : bytesWritten (s.calls ++ calls) = bytesWritten s.calls := by
    rw [bytesWritten_append, hbytes, Nat.add_zero]
  constructor
  · intro ht partition hmem
    rw [← hsame]
    exact ht.complete partition hmem
  · intro hcomplete
    refine ⟨?_, hs.bounded, ?_⟩
    · dsimp only
      rw [hsame]
      exact hs.counted
    · dsimp only
      rw [hsame]
      exact hcomplete

/-- The end keeps the accounts right if and only if a switch finds the firmware written in full. -/
theorem Accounted.dataEnd (hs : s.Accounted) (horderly : s.Orderly) {ended booted : Bool}
    (h : s.step (.dataEnd ended booted) = some t) :
    t.Accounted ↔ s.Fits (.dataEnd ended booted) := by
  obtain ⟨hphase, rfl⟩ := step_dataEnd h
  obtain ⟨-, hctx⟩ := horderly.begun (.inr hphase)
  obtain ⟨pdata, hpdata⟩ := Option.ne_none_iff_exists'.mp hctx
  have hclean := horderly.clean (hphase ▸ nofun)
  -- so far there have only been writes, so a switch is the one that is made now
  have hboot : ∀ partition, FlashCall.setBoot partition true ∉ s.calls := by
    intro partition hmem
    obtain ⟨handle, size, heq⟩ := hclean _ hmem
    cases heq
  have hbytes : bytesWritten (otaNotifyDataEnd s.ctx ended booted).2 = 0 := by
    rw [hpdata, otaNotifyDataEnd]
    split_ifs <;> rfl
  rw [hs.append .over hbytes, Fits, hpdata, otaNotifyDataEnd]
  cases ended with
  | false =>
    refine iff_of_true (fun partition hmem ↦ ?_) nofun
    obtain hmem | hmem := List.mem_append.mp hmem
    · exact absurd hmem (hboot partition)
    · cases List.mem_singleton.mp hmem
  | true =>
    cases booted with
    | false =>
      refine iff_of_true (fun partition hmem ↦ ?_) fun _ ↦ nofun
      obtain hmem | hmem := List.mem_append.mp hmem
      · exact absurd hmem (hboot partition)
      · simp at hmem
    | true =>
      constructor
      · intro hcomplete _ _
        refine (hcomplete pdata.updatePartition (List.mem_append_right _ ?_)).1
        exact List.mem_cons_of_mem _ (List.mem_singleton_self _)
      · intro hfits partition _
        refine ⟨hfits rfl rfl, fun handle size ok hmem ↦ ?_, pdata.updateHandle, ?_⟩
        · obtain hmem | hmem := List.mem_append.mp hmem
          · obtain ⟨handle', size', heq⟩ := hclean _ hmem
            exact (FlashCall.write.inj heq).2.2
          · simp at hmem
        · exact List.mem_append_right _ List.mem_cons_self

theorem Accounted.step (hs : s.Accounted) (horderly : s.Orderly) (h : s.step op = some t) :
    t.Accounted ↔ s.Fits op := by
  cases op with
  | dataBegin partition =>
    refine iff_of_true ?_ trivial
    obtain ⟨hphase, rfl | ⟨pdata, partition, rfl⟩⟩ := step_dataBegin h
    · refine ⟨nofun, nofun, fun p hmem ↦ ?_⟩
      rw [horderly.early (.inl hphase)] at hmem
      exact absurd hmem List.not_mem_nil
    · have hcalls := horderly.early (.inl hphase)
      refine ⟨fun _ ↦ ?_, fun _ ↦ ?_, fun p hmem ↦ ?_⟩
      · rintro _ ⟨⟩
        rw [hcalls]
        rfl
      · rintro _ ⟨⟩
        exact Int.natCast_nonneg _
      · rw [hcalls] at hmem
        exact absurd hmem List.not_mem_nil
  | metaData moduleSize handle =>
    refine iff_of_true ?_ trivial
    obtain ⟨hphase, ctx, phase, rfl, -, hctx⟩ := step_metaData h
    have hcalls := horderly.early (.inr hphase)
    -- nothing has been written yet, and `ota_notify_data_begin` has set the offset to 0
    have hzero : ∀ pdata ∈ ctx, s.begun = true → pdata.firmwareOffset.toInt = 0 := by
      intro pdata hpdata hbegun
      obtain ⟨pdata', hpdata', heq⟩ := hctx pdata hpdata
      rw [heq, hs.counted hbegun pdata' hpdata', hcalls]
      rfl
    refine ⟨fun hbegun pdata hpdata ↦ ?_, fun hbegun pdata hpdata ↦ ?_, fun p hmem ↦ ?_⟩
    · rw [hzero pdata hpdata hbegun, hcalls]
      rfl
    · rw [hzero pdata hpdata hbegun]
      exact Int.natCast_nonneg _
    · rw [hcalls] at hmem
      exact absurd hmem List.not_mem_nil
  | moduleData size ok => exact hs.moduleData horderly h
  | dataEnd ended booted => exact hs.dataEnd horderly h

end Installation

/-- **The accounts are right throughout an installation if and only if chunks that fit are written,
and the end comes when they make up the firmware.** -/
theorem accounted_iff (ctx : Option Installer) {ops : List InstallOp} {s : Installation}
    (h : AnyRun Installation.step (.init ctx) ops s) :
    Always Installation.step Installation.Accounted (.init ctx) ops ↔
      Run Installation.step Installation.Fits (.init ctx) ops s :=
  h.always_iff (J := Installation.Orderly) (fun _ _ _ hs hstep ↦ hs.step hstep)
    (fun _ _ _ horderly hs hstep ↦ hs.step horderly hstep) (Installation.orderly_init ctx)
    (Installation.accounted_init ctx)

/-- A module of eight bytes comes in two chunks. -/
theorem accounted_twoChunks : Always Installation.step Installation.Accounted
    (.init (some ⟨0, 0, 0, 0⟩)) [.dataBegin (some 1), .metaData (some 8) (some 7),
      .moduleData 5 true, .moduleData 3 true, .dataEnd true true] := by
  have hrun : AnyRun Installation.step (.init (some ⟨0, 0, 0, 0⟩)) [.dataBegin (some 1),
      .metaData (some 8) (some 7), .moduleData 5 true, .moduleData 3 true,
      .dataEnd true true] _ := anyRun_of_foldlM rfl
  refine (accounted_iff _ hrun).mpr <| .cons trivial rfl <| .cons trivial rfl <|
    .cons ?_ rfl <| .cons ?_ rfl <| .cons ?_ rfl <| .nil _
  · rintro _ ⟨⟩
    decide
  · rintro _ ⟨⟩
    decide
  · rintro - - _ ⟨⟩
    decide

/-- The module ends early, and `esp_ota_end` accepts the image. -/
theorem not_accounted_short : ¬∀ ctx ops s, AnyRun Installation.step (.init ctx) ops s →
    s.Accounted := by
  intro h
  have haccounted := h (some ⟨0, 0, 0, 0⟩) [.dataBegin (some 1), .metaData (some 8) (some 7),
      .moduleData 5 true, .dataEnd true true] _ <| anyRun_of_foldlM rfl
  exact absurd ((haccounted.complete 1 (by decide)).1 _ rfl) (by decide)

end Ddmz.Duer
