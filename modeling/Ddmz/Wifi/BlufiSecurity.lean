import Ddmz.Foundation.Runs

/-!
# The negotiation of keys over BLUFI

The peer announces the length of its Diffie-Hellman parameters in one packet, for which a block is
allocated, and sends them in another. `blufi_dh_negotiate_data_handler` copies as much as has been
announced, whatever the length of the packet is, and the key is as long as the peer wants it, but
the arrays for the public key and the shared one have 128 bytes.

Memory that is out of bounds has no contents here: a read or a write there is `none`. With `Fits`
the negotiation gets through, whatever `malloc` and `mbedtls` answer, and without it not:
`getsThrough_iff`.
-/

namespace Ddmz.Wifi

abbrev SEC_TYPE_DH_PARAM_LEN : UInt8 := 0x00
abbrev SEC_TYPE_DH_PARAM_DATA : UInt8 := 0x01

abbrev DH_SELF_PUB_KEY_LEN : ℕ := 128
abbrev SHARE_KEY_LEN : ℕ := 128

/-! ## Memory -/

/-- An array of `n` bytes. -/
abbrev Bytes (n : ℕ) := {bytes : List UInt8 // bytes.length = n}

/-- What has at most `n` bytes. -/
abbrev AtMost (n : ℕ) := {bytes : List UInt8 // bytes.length ≤ n}

/-- Read `n` bytes from offset `off` on. -/
def readBytes (data : List UInt8) (off n : ℕ) : Option (List UInt8) :=
  if off + n ≤ data.length then some ((data.drop off).take n) else none

/-- Write from the start of an array on. -/
def Bytes.write {n : ℕ} (array : Bytes n) (data : List UInt8) : Option (Bytes n) :=
  if h : data.length ≤ n then
    some ⟨data ++ array.1.drop data.length, by
      rw [List.length_append, List.length_drop, array.2]
      exact Nat.add_sub_cancel' h⟩
  else none

def Bytes.zeros (n : ℕ) : Bytes n := ⟨List.replicate n 0, List.length_replicate⟩

theorem Bytes.isSome_write {n : ℕ} {array : Bytes n} {data : List UInt8} :
    (array.write data).isSome ↔ data.length ≤ n := by
  rw [Bytes.write]
  split_ifs with h
  · exact iff_of_true rfl h
  · exact iff_of_false Bool.false_ne_true h

/-- What is as long as the array replaces it. -/
theorem Bytes.write_of_length {n : ℕ} {array : Bytes n} {data : List UInt8}
    (h : data.length = n) : array.write data = some ⟨data, h⟩ := by
  have hdrop : array.1.drop data.length = [] := List.drop_of_length_le (array.2.trans h.symm).le
  rw [Bytes.write, dif_pos h.le]
  exact congrArg some (Subtype.ext ((congrArg (data ++ ·) hdrop).trans (List.append_nil _)))

/-! ## The handler -/

/-- A packet of the negotiation. -/
structure NegotiationPacket where
  data : List UInt8
  nonempty : data ≠ []

/-- A packet, with the answers of `malloc` and `mbedtls`. -/
structure NegotiationCall where
  packet : NegotiationPacket
  granted : Bool
  /-- What `mbedtls_dhm_make_public` writes for a key of so many bytes. -/
  makePublic : (n : ℕ) → AtMost n
  /-- It succeeds. -/
  made : Bool
  /-- What `mbedtls_dhm_calc_secret` writes. -/
  calcSecret : (n : ℕ) → AtMost n

/-- `struct blufi_security`. -/
structure BlufiSecurity where
  selfPublicKey : Bytes DH_SELF_PUB_KEY_LEN
  shareKey : Bytes SHARE_KEY_LEN
  /-- The block, with its size. -/
  dhParam : Option ((n : ℕ) × Bytes n)
  dhParamLen : ℕ

namespace BlufiSecurity

/-- `blufi_security_init`. -/
def init : BlufiSecurity := ⟨.zeros _, .zeros _, none, 0⟩

variable (s : BlufiSecurity)

/-- The case of `SEC_TYPE_DH_PARAM_LEN`. What is in the block is never read. -/
def dhParamLenPacket (granted : Bool) (data : List UInt8) : Option BlufiSecurity :=
  data[1]?.bind fun high ↦ data[2]?.map fun low ↦
    let n := 256 * high.toNat + low.toNat
    { s with dhParamLen := n, dhParam := if granted then some ⟨n, .zeros n⟩ else none }

/-- The key in the case of `SEC_TYPE_DH_PARAM_DATA`, with the number of bytes to send. -/
def dhKey (x : NegotiationCall) (n : ℕ) : Option (BlufiSecurity × Option ℕ) :=
  (s.selfPublicKey.write (x.makePublic n).1).bind fun selfPublicKey ↦
    let s := { s with dhParam := none, selfPublicKey }
    if x.made then
      (s.shareKey.write (x.calcSecret n).1).map fun shareKey ↦ ({ s with shareKey }, some n)
    else some (s, none)

/-- The case of `SEC_TYPE_DH_PARAM_DATA`. `mbedtls_dhm_read_params` returns the length of the key
unless it fails. -/
def dhParamDataPacket (readParams : List UInt8 → Option ℕ) (x : NegotiationCall) :
    Option (BlufiSecurity × Option ℕ) :=
  match s.dhParam with
  | none => some (s, none)
  | some block =>
    (readBytes x.packet.data 1 s.dhParamLen).bind fun params ↦
      (block.2.write params).bind fun param ↦
        match readParams (param.1.take s.dhParamLen) with
        | none => some ({ s with dhParam := some ⟨_, param⟩ }, none)
        | some n => s.dhKey x n

/-- `blufi_dh_negotiate_data_handler`. -/
def blufiDhNegotiateDataHandler (readParams : List UInt8 → Option ℕ) (x : NegotiationCall) :
    Option (BlufiSecurity × Option ℕ) :=
  x.packet.data[0]?.bind fun type ↦
    if type = SEC_TYPE_DH_PARAM_LEN then
      (s.dhParamLenPacket x.granted x.packet.data).map fun s ↦ (s, none)
    else if type = SEC_TYPE_DH_PARAM_DATA then s.dhParamDataPacket readParams x
    else some (s, none)

def step (readParams : List UInt8 → Option ℕ) (s : BlufiSecurity) (x : NegotiationCall) :
    Option BlufiSecurity :=
  (s.blufiDhNegotiateDataHandler readParams x).map Prod.fst

/-- The negotiation gets through these packets without a read or a write out of bounds, whatever
`malloc` and `mbedtls` answer. -/
def GetsThrough (readParams : List UInt8 → Option ℕ) (packets : List NegotiationPacket) : Prop :=
  ∀ xs : List NegotiationCall, xs.map NegotiationCall.packet = packets →
    ∃ t, AnyRun (step readParams) init xs t

/-- A packet that announces a length has three bytes. One that comes while there is a block has all
that has been announced, and a key in it that `mbedtls` takes has at most 128 bytes. -/
structure Fits (readParams : List UInt8 → Option ℕ) (packet : NegotiationPacket) : Prop where
  announces : packet.data[0]? = some SEC_TYPE_DH_PARAM_LEN → 3 ≤ packet.data.length
  complete : packet.data[0]? = some SEC_TYPE_DH_PARAM_DATA → s.dhParam ≠ none →
    s.dhParamLen + 1 ≤ packet.data.length
  key : packet.data[0]? = some SEC_TYPE_DH_PARAM_DATA → s.dhParam ≠ none →
    ∀ n, readParams ((packet.data.drop 1).take s.dhParamLen) = some n → n ≤ 128

/-- The block is as large as has been announced. -/
def Sized : Prop := ∀ block, s.dhParam = some block → block.1 = s.dhParamLen

/-! ## One packet -/

variable {s} {t : BlufiSecurity} {x : NegotiationCall} {p : NegotiationPacket}
  {readParams : List UInt8 → Option ℕ}

theorem sized_init : init.Sized := fun _ h ↦ absurd h.symm (Option.some_ne_none _)

theorem isSome_dhParamLenPacket {granted : Bool} {data : List UInt8} :
    (s.dhParamLenPacket granted data).isSome ↔ 3 ≤ data.length := by
  rw [dhParamLenPacket]
  constructor
  · intro h
    obtain ⟨t, ht⟩ := Option.isSome_iff_exists.mp h
    obtain ⟨high, -, ht⟩ := Option.bind_eq_some_iff.mp ht
    obtain ⟨low, hlow, -⟩ := Option.map_eq_some_iff.mp ht
    exact (List.getElem?_eq_some_iff.mp hlow).1
  · intro h
    rw [List.getElem?_eq_getElem (show 1 < data.length by omega),
      List.getElem?_eq_getElem (show 2 < data.length by omega)]
    rfl

/-- The arrays are long enough for a key of at most 128 bytes. -/
theorem isSome_dhKey {n : ℕ} (hn : n ≤ 128) : (s.dhKey x n).isSome := by
  have hpublic : (s.selfPublicKey.write (x.makePublic n).1).isSome :=
    Bytes.isSome_write.mpr ((x.makePublic n).2.trans hn)
  have hshare : (s.shareKey.write (x.calcSecret n).1).isSome :=
    Bytes.isSome_write.mpr ((x.calcSecret n).2.trans hn)
  obtain ⟨selfPublicKey, hpublic⟩ := Option.isSome_iff_exists.mp hpublic
  obtain ⟨shareKey, hshare⟩ := Option.isSome_iff_exists.mp hshare
  rw [dhKey, hpublic]
  simp only [Option.bind_some, hshare, Option.map_some]
  split_ifs <;> rfl

/-- A call in which `mbedtls` writes all that it may. -/
def fullCall (p : NegotiationPacket) : NegotiationCall where
  packet := p
  granted := true
  makePublic n := ⟨List.replicate n 0, List.length_replicate.le⟩
  made := true
  calcSecret n := ⟨List.replicate n 0, List.length_replicate.le⟩

theorem le_of_dhKey_fullCall {n : ℕ} (h : (s.dhKey (fullCall p) n).isSome) : n ≤ 128 := by
  obtain ⟨r, hr⟩ := Option.isSome_iff_exists.mp h
  obtain ⟨selfPublicKey, hpublic, -⟩ := Option.bind_eq_some_iff.mp hr
  have hle := Bytes.isSome_write.mp (Option.isSome_of_eq_some hpublic)
  rwa [show ((fullCall p).makePublic n).1.length = n from List.length_replicate] at hle

theorem isSome_dhParamDataPacket {block : (n : ℕ) × Bytes n} (hs : s.Sized)
    (hblock : s.dhParam = some block) : (s.dhParamDataPacket readParams x).isSome ↔
      s.dhParamLen + 1 ≤ x.packet.data.length ∧
        ∀ n, readParams ((x.packet.data.drop 1).take s.dhParamLen) = some n →
          (s.dhKey x n).isSome := by
  obtain ⟨size, block⟩ := block
  obtain rfl : size = s.dhParamLen := hs _ hblock
  rw [dhParamDataPacket, hblock]
  by_cases hlength : s.dhParamLen + 1 ≤ x.packet.data.length
  · have hparams : ((x.packet.data.drop 1).take s.dhParamLen).length = s.dhParamLen := by
      rw [List.length_take, List.length_drop]
      omega
    rw [readBytes, if_pos (by omega)]
    simp only [Option.bind_some, Bytes.write_of_length hparams, List.take_take, min_self]
    cases hread : readParams ((x.packet.data.drop 1).take s.dhParamLen) with
    | none => exact iff_of_true rfl ⟨hlength, fun n hn ↦ absurd hn (Option.some_ne_none n).symm⟩
    | some n =>
      refine ⟨fun h ↦ ⟨hlength, fun m hm ↦ Option.some.inj hm ▸ h⟩, fun h ↦ h.2 n rfl⟩
  · rw [readBytes, if_neg (by omega)]
    exact iff_of_false Bool.false_ne_true fun h ↦ hlength h.1

theorem isSome_step {type : UInt8} (htype : x.packet.data[0]? = some type) :
    (step readParams s x).isSome =
      (if type = SEC_TYPE_DH_PARAM_LEN then
        (s.dhParamLenPacket x.granted x.packet.data).map fun s ↦ (s, none)
      else if type = SEC_TYPE_DH_PARAM_DATA then s.dhParamDataPacket readParams x
      else some (s, none)).isSome := by
  rw [step, Option.isSome_map, blufiDhNegotiateDataHandler, htype, Option.bind_some]

theorem isSome_step_len (htype : x.packet.data[0]? = some SEC_TYPE_DH_PARAM_LEN) :
    (step readParams s x).isSome ↔ 3 ≤ x.packet.data.length := by
  rw [isSome_step htype, if_pos rfl, Option.isSome_map, isSome_dhParamLenPacket]

theorem isSome_step_data (htype : x.packet.data[0]? = some SEC_TYPE_DH_PARAM_DATA) :
    (step readParams s x).isSome ↔ (s.dhParamDataPacket readParams x).isSome := by
  rw [isSome_step htype, if_neg (by decide), if_pos rfl]

theorem isSome_step_other {type : UInt8} (htype : x.packet.data[0]? = some type)
    (hlen : type ≠ SEC_TYPE_DH_PARAM_LEN) (hdata : type ≠ SEC_TYPE_DH_PARAM_DATA) :
    (step readParams s x).isSome := by
  rw [isSome_step htype, if_neg hlen, if_neg hdata]
  rfl

/-- A packet that fits is safe. -/
theorem Fits.isSome_step (h : s.Fits readParams x.packet) (hs : s.Sized) :
    (step readParams s x).isSome := by
  obtain ⟨type, htype⟩ : ∃ type, x.packet.data[0]? = some type :=
    ⟨_, List.getElem?_eq_getElem (List.length_pos_iff.mpr x.packet.nonempty)⟩
  by_cases hlen : type = SEC_TYPE_DH_PARAM_LEN
  · subst hlen
    exact (isSome_step_len htype).mpr (h.announces htype)
  by_cases hdata : type = SEC_TYPE_DH_PARAM_DATA
  · subst hdata
    rw [isSome_step_data htype]
    cases hblock : s.dhParam with
    | none =>
      rw [dhParamDataPacket, hblock]
      rfl
    | some block =>
      have hsome : s.dhParam ≠ none := hblock ▸ Option.some_ne_none block
      rw [isSome_dhParamDataPacket hs hblock]
      exact ⟨h.complete htype hsome, fun n hn ↦ isSome_dhKey (h.key htype hsome n hn)⟩
  · exact isSome_step_other htype hlen hdata

/-- A packet that is safe for all answers fits. -/
theorem fits_of_isSome (hs : s.Sized) (h : (step readParams s (fullCall p)).isSome) :
    s.Fits readParams p := by
  have hdata : p.data[0]? = some SEC_TYPE_DH_PARAM_DATA → s.dhParam ≠ none →
      s.dhParamLen + 1 ≤ p.data.length ∧
        ∀ n, readParams ((p.data.drop 1).take s.dhParamLen) = some n → n ≤ 128 := by
    intro htype hsome
    obtain ⟨block, hblock⟩ := Option.ne_none_iff_exists'.mp hsome
    have hcall := (isSome_dhParamDataPacket hs hblock).mp ((isSome_step_data htype).mp h)
    exact ⟨hcall.1, fun n hn ↦ le_of_dhKey_fullCall (hcall.2 n hn)⟩
  exact ⟨fun htype ↦ (isSome_step_len htype).mp h, fun htype hsome ↦ (hdata htype hsome).1,
    fun htype hsome ↦ (hdata htype hsome).2⟩

/-! ## All packets -/

theorem sized_of_none (h : s.dhParam = none) : s.Sized := fun _ hblock ↦
  absurd (h.symm.trans hblock).symm (Option.some_ne_none _)

theorem sized_dhParamLenPacket {granted : Bool} {data : List UInt8}
    (h : s.dhParamLenPacket granted data = some t) : t.Sized := by
  obtain ⟨high, -, h⟩ := Option.bind_eq_some_iff.mp h
  obtain ⟨low, -, rfl⟩ := Option.map_eq_some_iff.mp h
  cases granted with
  | false => exact sized_of_none rfl
  | true =>
    intro block hblock
    rw [← Option.some.inj hblock]

/-- The parameters are read, and the block is freed. -/
theorem dhParam_dhKey {n : ℕ} {r : BlufiSecurity × Option ℕ} (h : s.dhKey x n = some r) :
    r.1.dhParam = none := by
  obtain ⟨selfPublicKey, -, h⟩ := Option.bind_eq_some_iff.mp h
  dsimp only at h
  split_ifs at h
  · obtain ⟨shareKey, -, rfl⟩ := Option.map_eq_some_iff.mp h
    rfl
  · rw [← Option.some.inj h]

theorem Sized.dhParamDataPacket {r : BlufiSecurity × Option ℕ} (hs : s.Sized)
    (h : s.dhParamDataPacket readParams x = some r) : r.1.Sized := by
  rw [BlufiSecurity.dhParamDataPacket] at h
  split at h
  · rwa [← Option.some.inj h]
  · case _ block hblock =>
    obtain ⟨params, -, h⟩ := Option.bind_eq_some_iff.mp h
    obtain ⟨param, -, h⟩ := Option.bind_eq_some_iff.mp h
    split at h
    · obtain rfl := Option.some.inj h
      intro block' hblock'
      rw [← Option.some.inj hblock']
      exact hs block hblock
    · exact sized_of_none (dhParam_dhKey h)

/-- The block stays as large as has been announced. -/
theorem Sized.step (hs : s.Sized) (hstep : step readParams s x = some t) : t.Sized := by
  obtain ⟨r, hr, rfl⟩ := Option.map_eq_some_iff.mp hstep
  obtain ⟨type, -, hr⟩ := Option.bind_eq_some_iff.mp hr
  split_ifs at hr
  · obtain ⟨u, hu, rfl⟩ := Option.map_eq_some_iff.mp hr
    exact sized_dhParamLenPacket hu
  · exact hs.dhParamDataPacket hr
  · rwa [← Option.some.inj hr]

/-- **The negotiation is safe against a peer** exactly as long as its packets fit. -/
theorem getsThrough_iff {packets : List NegotiationPacket} :
    GetsThrough readParams packets ↔
      ∀ xs : List NegotiationCall, xs.map NegotiationCall.packet = packets →
        Throughout (step readParams) (fun s x ↦ s.Fits readParams x.packet) init xs := by
  have hexact : ∀ s p, Sized s →
      ((∀ x : NegotiationCall, x.packet = p → (step readParams s x).isSome) ↔
        s.Fits readParams p) := by
    intro s p hs
    refine ⟨fun h ↦ fits_of_isSome hs (h (fullCall p) rfl), ?_⟩
    rintro h x rfl
    exact h.isSome_step hs
  exact forall_exists_anyRun_iff (fun s x t hs hstep ↦ hs.step hstep) hexact sized_init

/-- Two bytes are missing. -/
theorem not_getsThrough_short : ¬∀ readParams packets, GetsThrough readParams packets := by
  intro h
  obtain ⟨t, ht⟩ := h (fun _ ↦ none) [⟨[0], List.cons_ne_nil _ _⟩]
    [fullCall ⟨[0], List.cons_ne_nil _ _⟩] rfl
  cases ht with
  | cons _ hstep _ => exact absurd hstep.symm (Option.some_ne_none _)

end BlufiSecurity

end Ddmz.Wifi
