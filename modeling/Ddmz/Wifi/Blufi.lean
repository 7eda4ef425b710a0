import Ddmz.Wifi.Credentials

/-!
# Provisioning over BLUFI

The name of the network, its password and the address of the access point come in messages of their
own, in any order. A string is copied into its field by `strncpy`, and a terminator behind it. Two
things can go wrong. A string that fills its field leaves no room for the terminator, which lands
in the next field: a name of 32 bytes cuts the password to nothing, and a password of 64 bytes
clears `bssid_set`. That does no harm when the byte there is zero already. And of a string with a
zero in it, of which its length says that it goes on, `strncpy` copies only what stands in front.

That is all: with `Fits`, each message sets its own field, to every byte that has been received, and
nothing else, and only then: `stored_iff`.
-/

namespace Ddmz.Wifi

/-! ## One field -/

section Fields

variable {config : Buffer} {off size : ℕ} {data : List UInt8}

/-- A message leaves alone what is outside its field, if the byte behind the field is zero, or
there is room for the terminator. -/
theorem cells_writeField_outside (h : data.length ≤ size)
    (hzero : data.length = size → config.cells (off + size) = 0) {k : ℕ}
    (hk : k < off ∨ off + size ≤ k) : (writeField config off data).cells k = config.cells k := by
  rcases hk with hk | hk
  · rw [writeField_eq, Buffer.cells_write_before hk]
  · rcases (Nat.add_le_add_left h off).trans hk |>.lt_or_eq with hlt | heq
    · exact cells_writeField_behind hlt
    · have hfull : data.length = size := by omega
      rw [← heq, cells_writeField_last, hfull, hzero hfull]

end Fields

/-! ## Runs -/

/-- The configuration, except for what a message is about. -/
def BlufiEvent.others (config : Buffer) : BlufiEvent → List UInt8
  | .RECV_STA_BSSID _ => config.read 0 BSSID_SET
  | .RECV_STA_SSID _ => config.read PASSWORD (STA_CONFIG_SIZE - PASSWORD)
  | .RECV_STA_PASSWD _ =>
    config.read 0 PASSWORD ++ config.read BSSID_SET (STA_CONFIG_SIZE - BSSID_SET)
  | _ => config.read 0 STA_CONFIG_SIZE

/-- A string is not longer than its field. -/
def BlufiEvent.Sized : BlufiEvent → Prop
  | .RECV_STA_SSID ssid => ssid.length ≤ SSID_SIZE
  | .RECV_STA_PASSWD passwd => passwd.length ≤ PASSWORD_SIZE
  | _ => True

structure Provision where
  manager : Manager
  /-- The last of each kind that has been received. -/
  received : Credentials
  /-- Some message has changed a field that is not its own. -/
  disturbed : Bool

namespace Provision

def init : Provision := ⟨.init, ⟨[], [], none⟩, false⟩

variable (s : Provision)

def step (evt : BlufiEvent) : Option Provision :=
  let manager := (audioBleEventCallback s.manager evt).2
  some {
    manager
    received := (evt.provides s.received).getD s.received
    disturbed := s.disturbed ||
      decide (evt.others manager.staConfig ≠ evt.others s.manager.staConfig) }

/-- All that has been received is there, and nothing else has been touched. -/
structure Stored : Prop where
  received : s.received.In s.manager.staConfig
  undisturbed : s.disturbed = false

/-- A string is plain, and if it fills its field it finds a zero behind it. -/
def Fits : BlufiEvent → Prop
  | .RECV_STA_SSID ssid =>
    Plain ssid ∧ (ssid.length = SSID_SIZE → s.manager.staConfig.cells PASSWORD = 0)
  | .RECV_STA_PASSWD passwd =>
    Plain passwd ∧ (passwd.length = PASSWORD_SIZE → s.manager.staConfig.cells BSSID_SET = 0)
  | _ => True

variable {s} {t : Provision} {evt : BlufiEvent}

theorem stored_iff_others (hs : s.Stored) {c : Credentials}
    (hc : evt.provides s.received = some c) (h : s.step evt = some t) :
    t.Stored ↔ c.In t.manager.staConfig ∧
      evt.others t.manager.staConfig = evt.others s.manager.staConfig := by
  obtain rfl := Option.some.inj h
  have hreceived : (evt.provides s.received).getD s.received = c := by rw [hc]; rfl
  constructor
  · intro ht
    have hkept := ht.undisturbed
    rw [Bool.or_eq_false_iff, decide_eq_false_iff_not, not_not] at hkept
    exact ⟨hreceived ▸ ht.received, hkept.2⟩
  · rintro ⟨hin, hkept⟩
    constructor
    · exact hreceived.symm ▸ hin
    · rw [hs.undisturbed, Bool.false_or, decide_eq_false_iff_not, not_not]
      exact hkept

theorem read_eq_of_cells {b b' : Buffer} {off n : ℕ}
    (h : ∀ k, off ≤ k → k < off + n → b.cells k = b'.cells k) : b.read off n = b'.read off n :=
  Buffer.read_congr fun k hk ↦ h (off + k) (Nat.le_add_right off k) (Nat.add_lt_add_left hk off)

theorem cells_eq_of_read {b b' : Buffer} {off n k : ℕ} (h : b.read off n = b'.read off n)
    (hoff : off ≤ k) (hk : k < off + n) : b.cells k = b'.cells k := by
  obtain ⟨j, rfl⟩ := Nat.exists_eq_add_of_le hoff
  exact List.map_inj_left.mp h j (List.mem_range.mpr (Nat.lt_of_add_lt_add_left hk))

theorem ssid_iff (hs : s.Stored) {ssid : List UInt8} (hsize : ssid.length ≤ SSID_SIZE)
    (h : s.step (.RECV_STA_SSID ssid) = some t) : t.Stored ↔ s.Fits (.RECV_STA_SSID ssid) := by
  have hwrite : t.manager.staConfig = writeField s.manager.staConfig SSID ssid := by
    obtain rfl := Option.some.inj h
    rfl
  rw [stored_iff_others hs rfl h, BlufiEvent.others, BlufiEvent.others, hwrite]
  constructor
  · rintro ⟨hin, hothers⟩
    refine ⟨(holdsString_writeField_iff hsize).mp hin.ssid, fun hfull ↦ ?_⟩
    have hcell := cells_eq_of_read hothers (le_refl PASSWORD) (by decide)
    rw [← hcell, show PASSWORD = SSID + ssid.length by rw [hfull]; rfl]
    exact cells_writeField_last
  · rintro ⟨hplain, hfits⟩
    have hbehind : ∀ k, PASSWORD ≤ k →
        (writeField s.manager.staConfig SSID ssid).cells k = s.manager.staConfig.cells k :=
      fun k hk ↦ cells_writeField_outside hsize hfits (.inr hk)
    refine ⟨⟨(holdsString_writeField_iff hsize).mpr hplain, ?_, ?_⟩, ?_⟩
    · exact hs.received.password.congr fun k hk _ ↦ hbehind k hk
    · rw [hbehind BSSID_SET (by decide), read_eq_of_cells fun k hk _ ↦
        hbehind k (Nat.le_trans (by decide) hk)]
      exact hs.received.bssid
    · exact read_eq_of_cells fun k hk _ ↦ hbehind k hk

theorem passwd_iff (hs : s.Stored) {passwd : List UInt8} (hsize : passwd.length ≤ PASSWORD_SIZE)
    (h : s.step (.RECV_STA_PASSWD passwd) = some t) :
    t.Stored ↔ s.Fits (.RECV_STA_PASSWD passwd) := by
  have hwrite : t.manager.staConfig = writeField s.manager.staConfig PASSWORD passwd := by
    obtain rfl := Option.some.inj h
    rfl
  rw [stored_iff_others hs rfl h, BlufiEvent.others, BlufiEvent.others, hwrite]
  constructor
  · rintro ⟨hin, hothers⟩
    refine ⟨(holdsString_writeField_iff hsize).mp hin.password, fun hfull ↦ ?_⟩
    have hreads := List.append_inj hothers (by rw [Buffer.length_read, Buffer.length_read])
    have hcell := cells_eq_of_read hreads.2 (le_refl BSSID_SET) (by decide)
    rw [← hcell, show BSSID_SET = PASSWORD + passwd.length by rw [hfull]; rfl]
    exact cells_writeField_last
  · rintro ⟨hplain, hfits⟩
    have hbefore : ∀ k < PASSWORD,
        (writeField s.manager.staConfig PASSWORD passwd).cells k = s.manager.staConfig.cells k :=
      fun k hk ↦ cells_writeField_outside hsize hfits (.inl hk)
    have hbehind : ∀ k, BSSID_SET ≤ k →
        (writeField s.manager.staConfig PASSWORD passwd).cells k = s.manager.staConfig.cells k :=
      fun k hk ↦ cells_writeField_outside hsize hfits (.inr hk)
    refine ⟨⟨?_, (holdsString_writeField_iff hsize).mpr hplain, ?_⟩, ?_⟩
    · exact hs.received.ssid.congr fun k _ hk ↦ hbefore k (hk.trans_eq (Nat.zero_add _))
    · rw [hbehind BSSID_SET (le_refl _), read_eq_of_cells fun k hk _ ↦
        hbehind k (Nat.le_trans (by decide) hk)]
      exact hs.received.bssid
    · rw [read_eq_of_cells fun k _ hk ↦ hbefore k (hk.trans_eq (Nat.zero_add _)),
        read_eq_of_cells fun k hk _ ↦ hbehind k hk]

theorem bssid_stored (hs : s.Stored) {bssid : Fin 6 → UInt8}
    (h : s.step (.RECV_STA_BSSID bssid) = some t) : t.Stored := by
  have hwrite : t.manager.staConfig =
      (s.manager.staConfig.write BSSID (List.ofFn bssid)).write BSSID_SET [1] := by
    obtain rfl := Option.some.inj h
    rfl
  rw [stored_iff_others hs rfl h, hwrite]
  refine ⟨hs.received.writeBssid bssid, ?_⟩
  rw [BlufiEvent.others, BlufiEvent.others, Buffer.read_write_before (by decide),
    Buffer.read_write_before (by decide)]

theorem other_stored (hs : s.Stored) (hnone : ∀ c, evt.provides c = none)
    (h : s.step evt = some t) : t.Stored := by
  have hsta := (audioBleEventCallback_other (w := s.manager) (hnone ⟨[], [], none⟩)).2
  obtain rfl := Option.some.inj h
  constructor
  · rw [hsta, hnone]
    exact hs.received
  · rw [hsta, hs.undisturbed, Bool.false_or, decide_eq_false_iff_not, not_not]

theorem step_iff (hs : s.Stored) (hsize : evt.Sized) (h : s.step evt = some t) :
    t.Stored ↔ s.Fits evt := by
  cases evt with
  | RECV_STA_SSID ssid => exact ssid_iff hs hsize h
  | RECV_STA_PASSWD passwd => exact passwd_iff hs hsize h
  | RECV_STA_BSSID bssid => exact iff_of_true (bssid_stored hs h) trivial
  | _ => exact iff_of_true (other_stored hs (fun _ ↦ rfl) h) trivial

end Provision

end Ddmz.Wifi
