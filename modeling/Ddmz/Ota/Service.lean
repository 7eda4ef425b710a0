import Ddmz.Ota.Transfer

/-!
# The OTA update from end to end

`OtaServiceStart` of `OtaService/Ota.c` with the functions it chains: `ota_init`, the begin and end
of the flash writes, the two downloads and the change of the boot partition.

Which images take part is said by two flags in the global `operate_partition`. `OtaServiceStart`
sets both, and calls `ota_init`; `ota_init` clears the whole structure before it fills in the
partitions, and sets no flag. Every later function asks the flags, finds both zero and does
nothing, and the last one, `esp_ota_audio_set_boot_partition`, has no partition to set and fails.
`otaServiceStart_inert` states this for every environment. The only operations that a run makes
are therefore the lookups of the partitions, and that a run in which every operation succeeds
should succeed itself is kept exactly by the runs in which one of the lookups fails.
-/

namespace Ddmz.Ota

/-! ## Partitions and images -/

/-- `esp_partition_type_t`. -/
inductive PartitionType
  | app
  | data
deriving DecidableEq, Repr

/-- `esp_partition_subtype_t`, as far as `ota_init` tells subtypes apart. -/
inductive PartitionSubtype
  | factory
  | ota0
  | ota1
  | ota2
  | ota3
  | other (code : ℕ)
deriving DecidableEq, Repr

/-- The fields of `esp_partition_t` that the update reads. -/
structure EspPartition where
  type : PartitionType
  subtype : PartitionSubtype
deriving DecidableEq, Repr

/-- The two images of an update. -/
inductive Image
  | wifi
  | bt
deriving DecidableEq, Repr

/-- The `in_ota_select` of an image. -/
def Image.select : Image → ℤ
  | wifi => 0
  | bt => 1

/-- `audio_partition`. -/
structure AudioPartition where
  wifiPartition : EspPartition
  btPartition : EspPartition
  wifiFlag : UInt8
  btFlag : UInt8
deriving DecidableEq, Repr

/-- `audio_partition` after `memset` to zero. -/
def AudioPartition.zero : AudioPartition := ⟨⟨.app, .factory⟩, ⟨.app, .factory⟩, 0, 0⟩

/-! ## Environment and state -/

/-- The answers of the system during one update. -/
structure OtaEnv where
  /-- `esp_partition_find_first`, with `none` for `NULL`. -/
  findFirst : PartitionType → PartitionSubtype → Option EspPartition
  /-- `esp_ota_begin`: the handle it hands out, or `none` for an error. -/
  otaBegin : Image → Option ℕ
  /-- The connection and the response of each download. -/
  network : Image → Network
  flash : Flash
  /-- `esp_ota_end` returns `ESP_OK`. -/
  otaEnd : Image → Bool
  /-- `esp_ota_set_boot_partition` returns `ESP_OK`. -/
  setBoot : EspPartition → Bool
  /-- The memory behind `text`. -/
  beyond : ℕ → ℕ → UInt8

/-- What an update has done, in order and with its outcome. -/
inductive OtaCall
  | begun (image : Image) (ok : Bool)
  | downloaded (image : Image) (ok : Bool)
  | ended (image : Image) (ok : Bool)
  | setBoot (partition : EspPartition) (ok : Bool)
deriving DecidableEq, Repr

/-- Its outcome. -/
def OtaCall.ok : OtaCall → Bool
  | begun _ ok => ok
  | downloaded _ ok => ok
  | ended _ ok => ok
  | setBoot _ ok => ok

/-- The globals of the module and the boot partition. -/
structure ServiceState where
  operatePartition : AudioPartition
  outHandle : AudioHandle
  ota : OtaState
  boot : Option EspPartition
  calls : List OtaCall
deriving DecidableEq, Repr

def ServiceState.log (s : ServiceState) (c : OtaCall) : ServiceState :=
  { s with calls := s.calls ++ [c] }

/-! ## The functions of the module

The Boolean results stand for `ESP_OK` and `ESP_FAIL`; `none` is an abort of the whole program,
by a crash or by a failed `assert`. -/

def setHandle (handle : AudioHandle) (value : ℕ) : Image → AudioHandle
  | .wifi => { handle with outWifiHandle := value }
  | .bt => { handle with outBtHandle := value }

def espOtaBegin (env : OtaEnv) (image : Image) (s : ServiceState) : Bool × ServiceState :=
  match env.otaBegin image with
  | some value =>
    (true, { s.log (.begun image true) with outHandle := setHandle s.outHandle value image })
  | none => (false, s.log (.begun image false))

def espOtaAudioBegin (env : OtaEnv) (operPartition : AudioPartition) (s : ServiceState) :
    Bool × ServiceState :=
  let r := if operPartition.wifiFlag ≠ 0 then espOtaBegin env .wifi s else (true, s)
  if r.1 then if operPartition.btFlag ≠ 0 then espOtaBegin env .bt r.2 else r else r

def espOtaEnd (env : OtaEnv) (image : Image) (s : ServiceState) : Bool × ServiceState :=
  (env.otaEnd image, s.log (.ended image (env.otaEnd image)))

def espOtaAudioEnd (env : OtaEnv) (s : ServiceState) : Bool × ServiceState :=
  let r := if s.operatePartition.wifiFlag ≠ 0 then espOtaEnd env .wifi s else (true, s)
  if r.1 then if r.2.operatePartition.btFlag ≠ 0 then espOtaEnd env .bt r.2 else r else r

def espOtaSetBootPartition (env : OtaEnv) (partition : EspPartition) (s : ServiceState) :
    Bool × ServiceState :=
  if env.setBoot partition then
    (true, { s.log (.setBoot partition true) with boot := some partition })
  else (false, s.log (.setBoot partition false))

def espOtaAudioSetBootPartition (env : OtaEnv) (operPartition : AudioPartition)
    (s : ServiceState) : Bool × ServiceState :=
  if operPartition.wifiFlag = 1 then espOtaSetBootPartition env operPartition.wifiPartition s
  else if operPartition.btFlag = 1 then espOtaSetBootPartition env operPartition.btPartition s
  else (false, s)

/-- The subtypes that `ota_init` looks for, given the subtype it runs from: the Wi-Fi partition
and the Bluetooth one. The `default` case leaves the cleared subtype. -/
def targetSubtypes : PartitionSubtype → PartitionSubtype × PartitionSubtype
  | .ota0 => (.ota2, .ota3)
  | .ota1 => (.ota2, .ota3)
  | .ota2 => (.ota0, .ota1)
  | .ota3 => (.ota0, .ota1)
  | _ => (.factory, .factory)

def otaInit (env : OtaEnv) (s : ServiceState) : Option Bool × ServiceState :=
  match s.boot with
  | none => (some false, s)
  | some current =>
    if current.type ≠ .app then (some false, s)
    else
      let s := { s with operatePartition := AudioPartition.zero }
      let target := targetSubtypes current.subtype
      match env.findFirst .app target.1, env.findFirst .app target.2 with
      | some wifi, some bt =>
        let oper := { s.operatePartition with wifiPartition := wifi, btPartition := bt }
        let r := espOtaAudioBegin env oper { s with operatePartition := oper }
        (some r.1, r.2)
      | _, _ => (none, s) -- `assert(wifi_partition != NULL && bt_partition != NULL)`

/-- The download of one image, with its length counted from zero. -/
def downloadImage (env : OtaEnv) (image : Image) (s : ServiceState) :
    Option Bool × ServiceState :=
  let start := { s.ota with binaryFileLength := 0 }
  match otaDataFromServer env.flash env.beyond s.outHandle image.select (env.network image)
      start with
  | none => (none, { s with ota := start })
  | some (ok, ota) => (some ok, { s with ota := ota }.log (.downloaded image ok))

/-- The part of `OtaServiceStart` behind the downloads. -/
def finishUpdate (env : OtaEnv) (s : ServiceState) : Option Bool × ServiceState :=
  let r := espOtaAudioEnd env s
  if r.1 then
    let r' := espOtaAudioSetBootPartition env r.2.operatePartition r.2
    (some r'.1, r'.2)
  else (some false, r.2)

/-- `OtaServiceStart`. -/
def otaServiceStart (env : OtaEnv) (s : ServiceState) : Option Bool × ServiceState :=
  let s := { s with operatePartition := { AudioPartition.zero with btFlag := 1, wifiFlag := 1 } }
  match otaInit env s with
  | (some true, s) =>
    match (if s.operatePartition.wifiFlag ≠ 0 then downloadImage env .wifi s
      else (some true, s)) with
    | (some true, s) =>
      match (if s.operatePartition.btFlag ≠ 0 then downloadImage env .bt s
        else (some true, s)) with
      | (some true, s) => finishUpdate env s
      | r => r
    | r => r
  | r => r

/-! ## What every run does -/

/-- A successful `ota_init` leaves both flags cleared. -/
theorem otaInit_flags {env : OtaEnv} {s s' : ServiceState} {r : Option Bool}
    (h : otaInit env s = (r, s')) :
    s'.calls = s.calls ∧ s'.boot = s.boot ∧ s'.ota = s.ota ∧
      (r = some true → s'.operatePartition.wifiFlag = 0 ∧ s'.operatePartition.btFlag = 0) := by
  rw [otaInit] at h
  split at h
  · rw [Prod.mk.injEq] at h
    obtain ⟨rfl, rfl⟩ := h
    exact ⟨rfl, rfl, rfl, fun h ↦ absurd h (by decide)⟩
  · split at h
    · rw [Prod.mk.injEq] at h
      obtain ⟨rfl, rfl⟩ := h
      exact ⟨rfl, rfl, rfl, fun h ↦ absurd h (by decide)⟩
    · simp only at h
      split at h
      · -- the flags of the cleared structure reach `esp_ota_audio_begin`, which does nothing
        rw [Prod.mk.injEq] at h
        obtain ⟨-, rfl⟩ := h
        exact ⟨rfl, rfl, rfl, fun _ ↦ ⟨rfl, rfl⟩⟩
      · rw [Prod.mk.injEq] at h
        obtain ⟨rfl, rfl⟩ := h
        exact ⟨rfl, rfl, rfl, fun h ↦ absurd h (by decide)⟩

/-- With both flags cleared nothing is ended and nothing is set. -/
theorem finishUpdate_of_flags {env : OtaEnv} {s : ServiceState}
    (hw : s.operatePartition.wifiFlag = 0) (hb : s.operatePartition.btFlag = 0) :
    finishUpdate env s = (some false, s) := by
  have hend : espOtaAudioEnd env s = (true, s) := by
    rw [espOtaAudioEnd, hw, if_neg (not_not.mpr rfl)]
    simp [hb]
  have hset : espOtaAudioSetBootPartition env s.operatePartition s = (false, s) := by
    rw [espOtaAudioSetBootPartition, hw, hb, if_neg (by decide), if_neg (by decide)]
  rw [finishUpdate, hend]
  simp only [if_true, hset]

/-- **The update is inert.** In every environment and from every state, `OtaServiceStart` does not
return `ESP_OK`, opens, downloads and ends nothing, and leaves the boot partition alone. -/
theorem otaServiceStart_inert (env : OtaEnv) (s : ServiceState) :
    (otaServiceStart env s).1 ≠ some true ∧ (otaServiceStart env s).2.calls = s.calls ∧
      (otaServiceStart env s).2.boot = s.boot ∧ (otaServiceStart env s).2.ota = s.ota := by
  rw [otaServiceStart]
  simp only
  rcases hinit : otaInit env
    { s with operatePartition := { AudioPartition.zero with btFlag := 1, wifiFlag := 1 } }
    with ⟨r, s'⟩
  obtain ⟨hcalls, hboot, hota, hflags⟩ := otaInit_flags hinit
  match r, hflags with
  | none, _ => exact ⟨by simp, hcalls, hboot, hota⟩
  | some false, _ => exact ⟨by simp, hcalls, hboot, hota⟩
  | some true, hflags =>
    obtain ⟨hw, hb⟩ := hflags rfl
    simp only [hw, hb, ne_eq, not_true_eq_false, if_false, finishUpdate_of_flags hw hb]
    exact ⟨by simp, hcalls, hboot, hota⟩

/-! ## The contract of the update -/

/-- Both images were opened, downloaded and ended, and then the boot partition was set. -/
def Completed (calls : List OtaCall) : Prop :=
  ∃ before p after, calls = before ++ OtaCall.setBoot p true :: after ∧
    ∀ image : Image, OtaCall.begun image true ∈ before ∧ OtaCall.downloaded image true ∈ before ∧
      OtaCall.ended image true ∈ before

/-- The lookups of the partitions succeed: there is a boot partition for an application, and the
two partitions that the update is for. -/
def Located (env : OtaEnv) (s : ServiceState) : Prop :=
  ∃ current, s.boot = some current ∧ current.type = .app ∧
    (env.findFirst .app (targetSubtypes current.subtype).1).isSome ∧
    (env.findFirst .app (targetSubtypes current.subtype).2).isSome

/-- What a run has added to the record of its calls. -/
def madeCalls (env : OtaEnv) (s : ServiceState) : List OtaCall :=
  (otaServiceStart env s).2.calls.drop s.calls.length

/-- The calls of `esp_ota_write` that a run has made. -/
def madeWrites (env : OtaEnv) (s : ServiceState) : List OtaWrite :=
  (otaServiceStart env s).2.ota.writes.drop s.ota.writes.length

/-- Every operation that the run makes succeeds, and what it downloads is a whole response with an
image. -/
structure MadeSucceed (env : OtaEnv) (s : ServiceState) : Prop where
  located : Located env s
  calls : ∀ c ∈ madeCalls env s, c.ok = true
  writes : ∀ w ∈ madeWrites env s, w.ok = true
  response : ∀ image, OtaCall.downloaded image true ∈ madeCalls env s →
    ∃ r : ImageResponse, received (env.network image).packets = r.bytes

/-- The two downloads, one behind the other. -/
def downloadBoth (env : OtaEnv) (s : ServiceState) : Option Bool × ServiceState :=
  match downloadImage env .wifi s with
  | (some true, s) => downloadImage env .bt s
  | r => r

/-- Every operation succeeds that an update of both images consists of, also those that the run
does not make: both images are opened, each download is answered by a whole response with an image
and its writes are accepted, both are ended, and the Wi-Fi partition can be set. -/
structure AllSucceed (env : OtaEnv) (s : ServiceState) : Prop where
  located : Located env s
  otaBegin : ∀ image, (env.otaBegin image).isSome
  connect : ∀ image, connectToHttpServer (env.network image) = true
  send : ∀ image, (env.network image).send = true
  recv : ∀ image, (env.network image).ending = .closed
  response : ∀ image, ∃ r : ImageResponse, received (env.network image).packets = r.bytes
  writes : ∀ w ∈ (downloadBoth env s).2.ota.writes.drop s.ota.writes.length, w.ok = true
  otaEnd : ∀ image, env.otaEnd image = true
  setBoot : ∀ current p, s.boot = some current →
    env.findFirst .app (targetSubtypes current.subtype).1 = some p → env.setBoot p = true

/-- What one run of an update should satisfy, for the calls it has made, where `succeeded` says
that no operation has failed. -/
structure UpdateContract (env : OtaEnv) (s : ServiceState) (succeeded : Prop) : Prop where
  /-- Success is returned for a completed update, and for nothing else. -/
  ok_iff : (otaServiceStart env s).1 = some true ↔
    ∃ new, (otaServiceStart env s).2.calls = s.calls ++ new ∧ Completed new
  /-- The boot partition changes in successful runs only. -/
  boot_only : (otaServiceStart env s).2.boot ≠ s.boot → (otaServiceStart env s).1 = some true
  /-- A run in which nothing fails is successful. -/
  succeeds : succeeded → (otaServiceStart env s).1 = some true

/-- As the update is inert, the contract promises too much to a run in which nothing fails, and
nothing else. -/
theorem updateContract_iff_not (env : OtaEnv) (s : ServiceState) (succeeded : Prop) :
    UpdateContract env s succeeded ↔ ¬succeeded := by
  obtain ⟨hret, hcalls, hboot, -⟩ := otaServiceStart_inert env s
  constructor
  · intro hcontract hall
    exact hret (hcontract.succeeds hall)
  · intro hfail
    refine ⟨⟨fun h ↦ absurd h hret, ?_⟩, fun h ↦ absurd hboot h, fun h ↦ absurd h hfail⟩
    rintro ⟨new, hnew, before, p, after, hdone, -⟩
    rw [hcalls, List.self_eq_append_right] at hnew
    rw [hnew] at hdone
    exact absurd hdone.symm (by simp)

/-- A run makes no operation but the lookups. -/
theorem madeSucceed_iff (env : OtaEnv) (s : ServiceState) :
    MadeSucceed env s ↔ Located env s := by
  obtain ⟨-, hcalls, -, hota⟩ := otaServiceStart_inert env s
  have hnoCalls : madeCalls env s = [] := by rw [madeCalls, hcalls, List.drop_length]
  have hnoWrites : madeWrites env s = [] := by rw [madeWrites, hota, List.drop_length]
  constructor
  · exact MadeSucceed.located
  · intro hlocated
    refine ⟨hlocated, ?_, ?_, ?_⟩
    · rw [hnoCalls]
      exact nofun
    · rw [hnoWrites]
      exact nofun
    · rw [hnoCalls]
      exact nofun

/-- **The contract is kept exactly by the runs in which a lookup fails.** Where success is promised
only if the operations that the run leaves out would succeed as well, it is kept exactly by the
runs in which one of all these fails. -/
theorem updateContract_iff (env : OtaEnv) (s : ServiceState) :
    (UpdateContract env s (MadeSucceed env s) ↔ ¬Located env s) ∧
      (UpdateContract env s (AllSucceed env s) ↔ ¬AllSucceed env s) := by
  constructor
  · rw [updateContract_iff_not, madeSucceed_iff]
  · exact updateContract_iff_not env s _

/-- A device that runs from the first OTA partition. -/
def freshState : ServiceState where
  operatePartition := .zero
  outHandle := ⟨0, 0⟩
  ota := ⟨0, [], []⟩
  boot := some ⟨.app, .ota0⟩
  calls := []

/-- The partitions of a device with two pairs of images. -/
def otaTable : List EspPartition := [⟨.app, .ota0⟩, ⟨.app, .ota1⟩, ⟨.app, .ota2⟩, ⟨.app, .ota3⟩]

/-- An environment in which nothing of the update fails and each image arrives in one packet. -/
def obligingEnv : OtaEnv where
  findFirst type subtype := otaTable.find? fun p ↦ p = ⟨type, subtype⟩
  otaBegin _ := some 1
  network _ := deliver [wholePacket]
  flash n := n < 2
  otaEnd _ := true
  setBoot p := p = ⟨.app, .ota2⟩
  beyond _ _ := 0

theorem allSucceed_obligingEnv : AllSucceed obligingEnv freshState :=
  { located := ⟨_, rfl, rfl, rfl, rfl⟩
    otaBegin := fun _ ↦ rfl
    connect := fun _ ↦ rfl
    send := fun _ ↦ rfl
    recv := fun _ ↦ rfl
    response := fun _ ↦ ⟨shortResponse, rfl⟩
    writes := by decide
    otaEnd := fun _ ↦ rfl
    setBoot := by
      rintro _ _ ⟨⟩ ⟨⟩
      rfl }

/-- Nothing fails there, and yet the update does. -/
theorem not_updateContract_obligingEnv :
    otaServiceStart obligingEnv freshState = (some false, { freshState with
        operatePartition := ⟨⟨.app, .ota2⟩, ⟨.app, .ota3⟩, 0, 0⟩ }) ∧
      ¬UpdateContract obligingEnv freshState (MadeSucceed obligingEnv freshState) ∧
      ¬UpdateContract obligingEnv freshState (AllSucceed obligingEnv freshState) := by
  refine ⟨by decide, ?_, ?_⟩
  · rw [updateContract_iff_not, madeSucceed_iff]
    exact not_not.mpr allSucceed_obligingEnv.located
  · rw [updateContract_iff_not]
    exact not_not.mpr allSucceed_obligingEnv

end Ddmz.Ota
