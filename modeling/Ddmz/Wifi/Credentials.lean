import Ddmz.Foundation.Runs
import Ddmz.Wifi.Events

/-!
# The credentials of the station

The user provisions the station with a smart configuration, which brings all credentials at once,
or over BLUFI, field by field. Both set the configuration of the driver, but neither tells
`WifiManager.c`, and its handler for a lost connection, which knows only the configuration of the
build, sets that. The bits of the event groups keep it from doing so while a configuration is going
on, and it clears some of them as it reads them: the second of two disconnects in one configuration
finds them clear.

`Survives` says that the driver has what was provisioned last: the whole configuration that a smart
configuration has brought, or every byte of what has come over BLUFI. `survives_of_run` is about
the runs in which each disconnect finds the bits set, or the configuration of the build says what
the user has provisioned, and in which the strings that come over BLUFI leave room for a terminator
in their fields and have nothing behind a terminator of their own, where `strncpy` stops. What the
configuration tasks and `WifiManagerEvtTask` do to the event groups and the queue is arbitrary.
-/

namespace Ddmz.Wifi

/-! ## Credentials -/

/-- What comes over BLUFI, byte for byte. -/
structure Credentials where
  ssid : List UInt8
  password : List UInt8
  bssid : Option (List UInt8)
  deriving DecidableEq

/-- A field holds a string: all its bytes, and a terminator behind them if there is room. -/
structure HoldsString (config : Buffer) (off size : ℕ) (data : List UInt8) : Prop where
  le : data.length ≤ size
  bytes : config.read off data.length = data
  terminator : data.length < size → config.cells (off + data.length) = 0

/-- A configuration holds credentials. -/
structure Credentials.In (c : Credentials) (config : Buffer) : Prop where
  ssid : HoldsString config SSID SSID_SIZE c.ssid
  password : HoldsString config PASSWORD PASSWORD_SIZE c.password
  bssid : (if config.cells BSSID_SET = 0 then none else some (config.read BSSID BSSID_SIZE))
    = c.bssid

/-- Nothing but terminators stands behind a terminator. -/
def Plain (data : List UInt8) : Prop := ∀ c ∈ data.dropWhile (· ≠ 0), c = 0

instance (data : List UInt8) : Decidable (Plain data) :=
  inferInstanceAs (Decidable (∀ c ∈ data.dropWhile (· ≠ 0), c = 0))

section Fields

variable {config config' : Buffer} {off size : ℕ} {data : List UInt8}

theorem length_strncpy (data : List UInt8) : (strncpy data).length = data.length := by
  have hle : (text data).length ≤ data.length := (List.takeWhile_sublist _).length_le
  rw [strncpy, List.length_append, List.length_replicate]
  omega

/-- `strncpy` copies all bytes of a plain string, and of no other. -/
theorem strncpy_eq_self_iff : strncpy data = data ↔ Plain data := by
  have hsplit : text data ++ data.dropWhile (· ≠ 0) = data := List.takeWhile_append_dropWhile
  have hlength : data.length - (text data).length = (data.dropWhile (· ≠ 0)).length := by
    have hsum := congrArg List.length hsplit
    rw [List.length_append] at hsum
    omega
  rw [strncpy, hlength, Plain]
  constructor
  · intro h
    have hzeros := List.append_cancel_left (h.trans hsplit.symm)
    exact (List.eq_replicate_iff.mp hzeros.symm).2
  · intro h
    rw [← List.eq_replicate_iff.mpr ⟨rfl, h⟩, hsplit]

theorem writeField_eq (config : Buffer) (off : ℕ) (data : List UInt8) :
    writeField config off data = config.write off (strncpy data ++ [0]) := by
  rw [writeField, Buffer.write_append, length_strncpy]

/-- The terminator that is written. -/
theorem cells_writeField_last : (writeField config off data).cells (off + data.length) = 0 :=
  Buffer.cells_write_singleton

/-- **A field that has been written holds the string if and only if the string is plain.** -/
theorem holdsString_writeField_iff (hle : data.length ≤ size) :
    HoldsString (writeField config off data) off size data ↔ Plain data := by
  have hread : (writeField config off data).read off data.length = strncpy data := by
    have hall := Buffer.read_write config off (strncpy data ++ [0])
    rw [← writeField_eq] at hall
    have hprefix := Buffer.read_prefix hall (m := data.length)
      (by rw [List.length_append, length_strncpy]; exact Nat.le_add_right _ _)
    rwa [List.take_left' (length_strncpy data)] at hprefix
  rw [← strncpy_eq_self_iff, ← hread]
  exact ⟨HoldsString.bytes, fun h ↦ ⟨hle, h, fun _ ↦ cells_writeField_last⟩⟩

/-- Only the bytes of the field matter. -/
theorem HoldsString.congr (h : HoldsString config off size data)
    (hcells : ∀ k, off ≤ k → k < off + size → config'.cells k = config.cells k) :
    HoldsString config' off size data where
  le := h.le
  bytes := by
    refine (Buffer.read_congr fun k hk ↦ ?_).trans h.bytes
    exact hcells _ (Nat.le_add_right off k) (Nat.add_lt_add_left (hk.trans_le h.le) off)
  terminator hlt := by
    rw [hcells _ (Nat.le_add_right off _) (Nat.add_lt_add_left hlt off)]
    exact h.terminator hlt

/-- The other fields are as before. -/
theorem read_writeField_before {a n : ℕ} (h : a + n ≤ off) :
    (writeField config off data).read a n = config.read a n := by
  rw [writeField_eq, Buffer.read_write_before h]

theorem cells_writeField_behind {k : ℕ} (h : off + data.length < k) :
    (writeField config off data).cells k = config.cells k := by
  rw [writeField_eq, Buffer.cells_write_behind]
  rw [List.length_append, length_strncpy, List.length_singleton]
  omega

theorem read_writeField_behind {a n : ℕ} (h : off + data.length < a) :
    (writeField config off data).read a n = config.read a n :=
  Buffer.read_congr fun k _ ↦ cells_writeField_behind (Nat.lt_of_lt_of_le h (Nat.le_add_right a k))

end Fields

/-- What the user has provisioned: a configuration, or what has come over BLUFI. -/
inductive Provisioned
  | link (pdata : Buffer)
  | blufi (c : Credentials)

/-- A configuration is the one that has been provisioned. -/
def Provisioned.In (config : Buffer) : Provisioned → Prop
  | link pdata => config.read 0 STA_CONFIG_SIZE = pdata.read 0 STA_CONFIG_SIZE
  | blufi c => c.In config

/-! ## One event -/

/-- What the user sends over BLUFI, added to what has been sent before. -/
def BlufiEvent.provides : BlufiEvent → Credentials → Option Credentials
  | .RECV_STA_BSSID bssid, c => some { c with bssid := some (List.ofFn bssid) }
  | .RECV_STA_SSID ssid, c => some { c with ssid }
  | .RECV_STA_PASSWD passwd, c => some { c with password := passwd }
  | _, _ => none

/-- What the user sends in a smart configuration. -/
def SmartconfigStatus.provides : SmartconfigStatus → Option Provisioned
  | .LINK pdata => some (.link pdata)
  | _ => none

/-- A string is plain and leaves room for a terminator in its field. -/
def BlufiEvent.FitsField : BlufiEvent → Prop
  | .RECV_STA_SSID ssid => ssid.length < SSID_SIZE ∧ Plain ssid
  | .RECV_STA_PASSWD passwd => passwd.length < PASSWORD_SIZE ∧ Plain passwd
  | _ => True

/-- The configuration that a call sets. -/
def Call.config : Call → Option Buffer
  | .setConfig config => some config
  | _ => none

/-- The configuration that is set last. -/
def lastConfig (calls : List Call) : Option Buffer := (calls.filterMap Call.config).getLast?

section Events

variable {w : Manager} {evt : BlufiEvent} {c : Credentials}

/-- A name is put beside what is there. -/
theorem Credentials.In.writeSsid {config : Buffer} (h : c.In config) {ssid : List UInt8}
    (hlt : ssid.length < SSID_SIZE) (hplain : Plain ssid) :
    ({ c with ssid } : Credentials).In (writeField config SSID ssid) := by
  have hbehind : SSID + ssid.length < PASSWORD := (Nat.zero_add _).trans_lt hlt
  refine ⟨(holdsString_writeField_iff hlt.le).mpr hplain, h.password.congr fun k hk _ ↦ ?_, ?_⟩
  · exact cells_writeField_behind (hbehind.trans_le hk)
  · rw [cells_writeField_behind (hbehind.trans (by decide)),
      read_writeField_behind (hbehind.trans (by decide))]
    exact h.bssid

/-- So is a password. -/
theorem Credentials.In.writePassword {config : Buffer} (h : c.In config) {passwd : List UInt8}
    (hlt : passwd.length < PASSWORD_SIZE) (hplain : Plain passwd) :
    ({ c with password := passwd } : Credentials).In (writeField config PASSWORD passwd) := by
  have hbehind : PASSWORD + passwd.length < BSSID_SET := Nat.add_lt_add_left hlt PASSWORD
  refine ⟨h.ssid.congr fun k _ hk ↦ ?_, (holdsString_writeField_iff hlt.le).mpr hplain, ?_⟩
  · have hbefore : k < PASSWORD := hk.trans_eq (Nat.zero_add _)
    rw [writeField_eq, Buffer.cells_write_before hbefore]
  · rw [cells_writeField_behind hbehind, read_writeField_behind (hbehind.trans (by decide))]
    exact h.bssid

/-- And so is an address. -/
theorem Credentials.In.writeBssid {config : Buffer} (h : c.In config) (bssid : Fin 6 → UInt8) :
    ({ c with bssid := some (List.ofFn bssid) } : Credentials).In
      ((config.write BSSID (List.ofFn bssid)).write BSSID_SET [1]) := by
  have hbssid : ((config.write BSSID (List.ofFn bssid)).write BSSID_SET [1]).read BSSID BSSID_SIZE
      = List.ofFn bssid := by
    have hread := Buffer.read_write config BSSID (List.ofFn bssid)
    rw [List.length_ofFn] at hread
    exact (Buffer.read_congr fun k _ ↦
      Buffer.cells_write_behind (Nat.le_add_right BSSID k)).trans hread
  have hbefore : ∀ k < BSSID_SET,
      ((config.write BSSID (List.ofFn bssid)).write BSSID_SET [1]).cells k = config.cells k := by
    intro k hk
    rw [Buffer.cells_write_before hk, Buffer.cells_write_before (hk.trans (by decide))]
  refine ⟨h.ssid.congr fun k _ hk ↦ ?_, h.password.congr fun k _ hk ↦ hbefore k hk, ?_⟩
  · exact hbefore k (hk.trans (by decide))
  · rw [hbssid, Buffer.cells_write_singleton, if_neg (by decide)]

/-- **Every message sets what it provides.** -/
theorem audioBleEventCallback_provides (h : evt.FitsField) {c' : Credentials}
    (hin : c.In w.staConfig) (hc : evt.provides c = some c') :
    lastConfig (audioBleEventCallback w evt).1 = some (audioBleEventCallback w evt).2.staConfig ∧
      c'.In (audioBleEventCallback w evt).2.staConfig := by
  cases evt with
  | RECV_STA_BSSID bssid =>
    obtain rfl := Option.some.inj hc
    exact ⟨rfl, hin.writeBssid bssid⟩
  | RECV_STA_SSID ssid =>
    obtain rfl := Option.some.inj hc
    exact ⟨rfl, hin.writeSsid h.1 h.2⟩
  | RECV_STA_PASSWD passwd =>
    obtain rfl := Option.some.inj hc
    exact ⟨rfl, hin.writePassword h.1 h.2⟩
  | _ => cases hc

/-- The other messages set nothing. -/
theorem audioBleEventCallback_other (h : evt.provides c = none) :
    lastConfig (audioBleEventCallback w evt).1 = none ∧
      (audioBleEventCallback w evt).2.staConfig = w.staConfig := by
  cases evt with
  | RECV_STA_BSSID _ | RECV_STA_SSID _ | RECV_STA_PASSWD _ => cases h
  | _ => exact ⟨rfl, rfl⟩

/-- A link sets what it provides, and nothing else in a smart configuration sets anything. -/
theorem smartconfigDone_provides (status : SmartconfigStatus) :
    (∀ p ∈ status.provides, ∃ config, lastConfig (smartconfigDone w status).1 = some config ∧
        p.In config) ∧
      (status.provides = none → lastConfig (smartconfigDone w status).1 = none) ∧
      (smartconfigDone w status).2.staConfig = w.staConfig := by
  cases status with
  | LINK pdata =>
    refine ⟨?_, nofun, rfl⟩
    rintro _ ⟨⟩
    refine ⟨_, rfl, ?_⟩
    have hread := Buffer.read_write zeros 0 (pdata.read 0 STA_CONFIG_SIZE)
    rwa [Buffer.length_read] at hread
  | _ => exact ⟨nofun, fun _ ↦ rfl, rfl⟩

theorem lastConfig_append_cons (calls : List Call) (config : Buffer) {rest : List Call}
    (h : rest.filterMap Call.config = []) :
    lastConfig (calls ++ .setConfig config :: rest) = some config := by
  have hset : (Call.setConfig config :: rest).filterMap Call.config = [config] := by
    rw [List.filterMap_cons_some (f := Call.config) rfl, h]
  rw [lastConfig, List.filterMap_append, hset, List.getLast?_concat]

/-- The driver's events set nothing but the configuration of the build, and that only if a
disconnect finds no bits. -/
theorem wifiEvtHandlerCb_config (build : Build) (evt : SystemEvent) :
    (lastConfig (wifiEvtHandlerCb build w evt).1
        = if evt = .STA_DISCONNECTED ∧ w.pairing build = false then some build.staConfig
          else none) ∧
      (wifiEvtHandlerCb build w evt).2.staConfig = w.staConfig := by
  cases evt with
  | STA_DISCONNECTED =>
    rw [wifiEvtHandlerCb, staDisconnected]
    by_cases hpairing : w.pairing build = false
    · have hset : (if SystemEvent.STA_DISCONNECTED = .STA_DISCONNECTED ∧ w.pairing build = false
          then some build.staConfig else none) = some build.staConfig := if_pos ⟨rfl, hpairing⟩
      rw [hset, if_pos hpairing]
      refine ⟨lastConfig_append_cons _ _ ?_, ?_⟩
      · split_ifs <;> rfl
      · dsimp only
        split_ifs <;> rfl
    · have hset : (if SystemEvent.STA_DISCONNECTED = .STA_DISCONNECTED ∧ w.pairing build = false
          then some build.staConfig else none) = none := if_neg fun hand ↦ hpairing hand.2
      rw [hset, if_neg hpairing]
      dsimp only
      split_ifs <;> exact ⟨rfl, rfl⟩
  | STA_GOT_IP =>
    rw [wifiEvtHandlerCb, staGotIp]
    refine ⟨Eq.trans ?_ (if_neg fun hand ↦ nomatch hand.1).symm, ?_⟩
    · split_ifs <;> rfl
    · dsimp only
      split_ifs <;> rfl
  | _ => exact ⟨rfl, rfl⟩

end Events

/-! ## Runs -/

/-- The station, and what the user has sent. -/
structure Session where
  manager : Manager
  /-- The configuration last passed to `esp_wifi_set_config`. -/
  inForce : Option Buffer
  /-- What has come over BLUFI so far, the latest of each field. -/
  blufi : Credentials
  /-- What has been provisioned last. -/
  provisioned : Option Provisioned

/-- The station has been started with some configuration. -/
def Session.init (inForce : Option Buffer) : Session := ⟨.init, inForce, ⟨[], [], none⟩, none⟩

inductive SessionOp
  | driver (evt : SystemEvent)
  | smartconfig (status : SmartconfigStatus)
  | blufi (evt : BlufiEvent)
  /-- The tasks change the event groups and the queue. -/
  | tasks (sc : ScBits) (ble : BleBits) (queue : List WifiState)

namespace Session

variable (build : Build) (s : Session)

def step : SessionOp → Option Session
  | .driver evt =>
    let r := wifiEvtHandlerCb build s.manager evt
    some { s with manager := r.2, inForce := (lastConfig r.1).or s.inForce }
  | .smartconfig status =>
    let r := smartconfigDone s.manager status
    some { s with
      manager := r.2
      inForce := (lastConfig r.1).or s.inForce
      provisioned := status.provides.or s.provisioned }
  | .blufi evt =>
    let r := audioBleEventCallback s.manager evt
    some {
      manager := r.2
      inForce := (lastConfig r.1).or s.inForce
      blufi := (evt.provides s.blufi).getD s.blufi
      provisioned := ((evt.provides s.blufi).map .blufi).or s.provisioned }
  | .tasks sc ble queue => some { s with manager := { s.manager with sc, ble, queue } }

/-- The driver has what has been provisioned last. -/
def Survives : Prop := ∀ p, s.provisioned = some p → ∃ config, s.inForce = some config ∧ p.In config

/-- A disconnect finds the bits of a configuration that is going on, unless nothing has been
provisioned or the configuration of the build is what has been; and strings fit into their
fields. -/
def Spares : SessionOp → Prop
  | .driver .STA_DISCONNECTED => s.manager.pairing build = false →
    ∀ p, s.provisioned = some p → p.In build.staConfig
  | .blufi evt => evt.FitsField
  | _ => True

/-- The configuration of BLUFI holds what has come over BLUFI, and what has been provisioned is
there. -/
structure Kept : Prop where
  blufi : s.blufi.In s.manager.staConfig
  survives : s.Survives

variable {build s}

theorem kept_init (inForce : Option Buffer) : (Session.init inForce).Kept where
  blufi := ⟨⟨Nat.zero_le _, rfl, fun _ ↦ rfl⟩, ⟨Nat.zero_le _, rfl, fun _ ↦ rfl⟩, rfl⟩
  survives := nofun

theorem Kept.step {t : Session} {op : SessionOp} (h : s.Kept) (hok : s.Spares build op)
    (hstep : s.step build op = some t) : t.Kept := by
  cases op with
  | driver evt =>
    obtain rfl := Option.some.inj hstep
    obtain ⟨hconfig, hsta⟩ := wifiEvtHandlerCb_config (w := s.manager) build evt
    refine ⟨hsta.symm ▸ h.blufi, fun p hp ↦ ?_⟩
    dsimp only at hp ⊢
    rw [hconfig]
    split_ifs with hlost
    · obtain ⟨rfl, hpairing⟩ := hlost
      exact ⟨_, rfl, hok hpairing p hp⟩
    · exact h.survives p hp
  | smartconfig status =>
    obtain rfl := Option.some.inj hstep
    obtain ⟨hlink, hother, hsta⟩ := smartconfigDone_provides (w := s.manager) status
    refine ⟨hsta.symm ▸ h.blufi, fun p hp ↦ ?_⟩
    dsimp only at hp ⊢
    cases hprovides : status.provides with
    | none =>
      rw [hprovides] at hp
      rw [hother hprovides]
      exact h.survives p hp
    | some provided =>
      rw [hprovides] at hp
      obtain rfl := Option.some.inj hp
      obtain ⟨config, hlast, hin⟩ := hlink _ hprovides
      rw [hlast]
      exact ⟨config, rfl, hin⟩
  | blufi evt =>
    obtain rfl := Option.some.inj hstep
    cases hprovides : evt.provides s.blufi with
    | none =>
      obtain ⟨hlast, hsta⟩ := audioBleEventCallback_other (w := s.manager) hprovides
      refine ⟨?_, fun p hp ↦ ?_⟩
      · dsimp only
        rw [hsta]
        exact h.blufi
      · dsimp only at hp ⊢
        rw [hlast]
        exact h.survives p hp
    | some provided =>
      obtain ⟨hlast, hin⟩ := audioBleEventCallback_provides hok h.blufi hprovides
      refine ⟨hin, fun p hp ↦ ?_⟩
      dsimp only at hp ⊢
      rw [hlast, ← Option.some.inj hp]
      exact ⟨_, rfl, hin⟩
  | tasks sc ble queue =>
    obtain rfl := Option.some.inj hstep
    exact ⟨h.blufi, h.survives⟩

end Session

/-- **What the user has provisioned survives**, as long as no disconnect comes at the wrong time. -/
theorem survives_of_run (build : Build) {inForce : Option Buffer} {ops : List SessionOp}
    {s : Session} (h : Run (Session.step build) (Session.Spares build) (.init inForce) ops s) :
    s.Survives :=
  (h.invariant (I := Session.Kept) (fun _ _ _ hkept hok hstep ↦ hkept.step hok hstep)
    (Session.kept_init inForce)).survives

/-- `WIFI_SSID` and `WIFI_PASS` are `"kun"` and `"11223344"`, with the smart configuration. -/
def kunBuild : Build where
  ble := false
  smart := true
  staConfig := (zeros.write SSID [107, 117, 110]).write PASSWORD [49, 49, 50, 50, 51, 51, 52, 52]

/-- The user's network is `"home"`, with the password `"secret"`. -/
def homeConfig : Buffer :=
  (zeros.write SSID [104, 111, 109, 101]).write PASSWORD [115, 101, 99, 114, 101, 116]

/-- The connection is lost as the configuration goes on, and is not lost again. -/
theorem survives_home : ∃ s, Run (Session.step kunBuild) (Session.Spares kunBuild) (.init none)
    [.tasks ⟨false, false, true⟩ ⟨false, false, false, false⟩ [], .smartconfig (.LINK homeConfig),
      .driver .STA_DISCONNECTED, .driver .STA_CONNECTED, .driver .STA_GOT_IP] s ∧ s.Survives := by
  have hrun : Run (Session.step kunBuild) (Session.Spares kunBuild) (.init none)
      [.tasks ⟨false, false, true⟩ ⟨false, false, false, false⟩ [],
        .smartconfig (.LINK homeConfig), .driver .STA_DISCONNECTED, .driver .STA_CONNECTED,
        .driver .STA_GOT_IP] _ :=
    .cons trivial rfl <| .cons trivial rfl <| .cons nofun rfl <| .cons trivial rfl <|
    .cons trivial rfl <| .nil _
  exact ⟨_, hrun, survives_of_run kunBuild hrun⟩

/-- After the configuration the connection is lost again. -/
theorem not_survives_lostAgain : ¬∀ ops s, AnyRun (Session.step kunBuild) (.init none) ops s →
    s.Survives := by
  intro h
  have hsurvives := h [.tasks ⟨false, false, true⟩ ⟨false, false, false, false⟩ [],
    .smartconfig (.LINK homeConfig), .driver .STA_DISCONNECTED, .driver .STA_CONNECTED,
    .driver .STA_GOT_IP, .driver .STA_DISCONNECTED] _
    (anyRun_of_foldlM rfl) _ rfl
  obtain ⟨_, ⟨⟩, hin⟩ := hsurvives
  have hfirst := List.map_inj_left.mp hin 0 (List.mem_range.mpr (by decide))
  exact absurd hfirst (by decide)

end Ddmz.Wifi
