import Ddmz.Alert.Player
import Ddmz.Foundation.Json

/-!
# The tones of an alert

`duer_create_alert_data` sizes the block of an alert for all tones of `assetPlayOrder` and looks up
their urls in `assets`. Here the payload is a tree of JSON, the loops count through its arrays, and
the tones are written into a block of memory; that this makes the alerts of the player is
`view_createAlertData`.

Two numbers go through a byte, the number of tones and `loopCount`, and the search for a url ends
with the first asset that has no `assetId`. An alert is complete if both numbers fit into the byte
and no search ends too soon: `complete_iff`.
-/

namespace Ddmz.Alert.Tones

/-! ## JSON -/

/-- `baidu_json_GetArraySize`. -/
def baiduJsonGetArraySize (array : CJson) : ℕ := array.child.length

/-- `baidu_json_GetArrayItem`. -/
def baiduJsonGetArrayItem (array : CJson) (item : ℕ) : Option CJson := array.child[item]?

/-- The `valuestring` of an item. -/
def valuestring (item : CJson) : Option Str := item.valuestring.map Subtype.val

/-- The string at a name of an object. A null pointer is the same as no item. -/
def stringAt (object : CJson) (name : String) : Option Str :=
  (object.getObjectItem name).bind valuestring

/-! ## The block of an alert -/

/-- `sizeof(char *)`. -/
abbrev sizeofPointer : ℕ := 4

/-- The offset of `tone_tab`, behind four pointers and four bytes. -/
abbrev toneTabOffset : ℕ := 20

/-- `sizeof(duerapp_alert_data)`, with one element of `tone_tab`. -/
abbrev sizeofAlertData : ℕ := 24

/-- `duerapp_alert_data` in a block of memory. A null pointer is `none`, and `toneTab` goes on
behind the end of the block. -/
structure AlertBlock where
  /-- The bytes that have been allocated. -/
  size : ℕ
  type : Option Str
  time : Option Str
  token : Option Str
  isActive : Bool
  toneCount : UInt8
  currentToneIndex : UInt8
  loopCount : UInt8
  toneTab : ℕ → Option Str
  /-- One past the last byte that has been written. -/
  high : ℕ

namespace AlertBlock

/-- A new block, after `memset`. -/
def zeroed (size : ℕ) : AlertBlock :=
  ⟨size, none, none, none, false, 0, 0, 0, fun _ ↦ none, size⟩

/-- `tone_tab[i] = url`. -/
def setTone (alert : AlertBlock) (i : ℕ) (url : Str) : AlertBlock :=
  { alert with
    toneTab := fun k ↦ if k = i then some url else alert.toneTab k
    high := max alert.high (toneTabOffset + sizeofPointer * (i + 1)) }

end AlertBlock

/-- The loop of `duer_find_target_url` with `n` assets left, from the `i`-th on: the item for the
url. -/
def findUrlItem (assets : CJson) (assetId : Str) : ℕ → ℕ → Option CJson
  | 0, _ => none
  | n + 1, i =>
    match baiduJsonGetArrayItem assets i with
    | none => none
    | some asset =>
      match stringAt asset "assetId" with
      | none => none
      | some id =>
        if id = assetId then asset.getObjectItem "url" else findUrlItem assets assetId n (i + 1)

/-- `duer_find_target_url`. -/
def duerFindTargetUrl (assets : CJson) (assetId : Str) : Option Str :=
  (findUrlItem assets assetId (baiduJsonGetArraySize assets) 0).bind valuestring

/-- The loop of `duer_set_alert_tone` with `n` tones left, from the `i`-th on. -/
def setTones (assets playOrder : CJson) : ℕ → ℕ → AlertBlock → AlertBlock
  | 0, i, alert => { alert with toneCount := UInt8.ofNat i }
  | n + 1, i, alert =>
    match (baiduJsonGetArrayItem playOrder i).bind valuestring with
    | none => { alert with toneCount := UInt8.ofNat i }
    | some assetId =>
      match duerFindTargetUrl assets assetId with
      | none => { alert with toneCount := UInt8.ofNat i }
      | some url => setTones assets playOrder n (i + 1) (alert.setTone i url)

/-- `duer_set_alert_tone`. -/
def duerSetAlertTone (alert : AlertBlock) (assets playOrder : CJson) : AlertBlock :=
  setTones assets playOrder alert.toneCount.toNat 0 alert

/-- `duer_create_alert_data`, with enough memory. What fails is freed. -/
def duerCreateAlertData (type time token : Option Str) (payload : CJson) : Option AlertBlock := do
  let playOrder ← payload.getObjectItem "assetPlayOrder"
  let toneCount := baiduJsonGetArraySize playOrder
  let alert := AlertBlock.zeroed (sizeofAlertData + toneCount * sizeofPointer)
  let alert := { alert with toneCount := UInt8.ofNat toneCount }
  let type ← type
  let time ← time
  let token ← token
  let alert := { alert with type := some type, time := some time, token := some token }
  let loopCount := payload.getObjectItem "loopCount"
  let alert := { alert with loopCount := loopCountOf (loopCount.map CJson.valueint) }
  let assets ← payload.getObjectItem "assets"
  return duerSetAlertTone alert assets playOrder

/-! ## What an alert should be -/

/-- The url of an asset with this id is among the assets. -/
def IsUrlOf (assets : CJson) (assetId url : Str) : Prop :=
  ∃ asset ∈ assets.child, stringAt asset "assetId" = some assetId ∧ stringAt asset "url" = some url

/-- The alert has a tone for each of the ids, which has been written into the block, and is repeated
`loopCount` times. -/
structure Complete (assetIds : List Str) (assets : CJson) (loopCount : ℤ) (alert : AlertBlock) :
    Prop where
  toneCount : alert.toneCount.toNat = assetIds.length
  toneTab : ∀ (i : ℕ) (hi : i < assetIds.length),
    ∃ url, IsUrlOf assets assetIds[i] url ∧ alert.toneTab i = some url
  inside : alert.high ≤ alert.size
  loopCount : (alert.loopCount.toNat : ℤ) = loopCount

/-- The first asset that has no id, or this one, has this one and a url. -/
def FoundFirst (assets : CJson) (assetId : Str) : Prop :=
  ∃ before asset after, assets.child = before ++ asset :: after ∧
    (∀ other ∈ before, ∃ id, stringAt other "assetId" = some id ∧ id ≠ assetId) ∧
    stringAt asset "assetId" = some assetId ∧ ∃ url, stringAt asset "url" = some url

/-- The numbers fit into a byte each, and every tone is found. -/
def TonesFit (assetIds : List Str) (assets : CJson) (loopCount : ℤ) : Prop :=
  assetIds.length < 256 ∧ loopCount < 256 ∧ ∀ assetId ∈ assetIds, FoundFirst assets assetId

/-! ## The search for a url -/

/-- What the search reads of an asset. -/
def assetOf (asset : CJson) : Asset := ⟨stringAt asset "assetId", stringAt asset "url"⟩

section Search

variable {assets : CJson} {assetId url : Str}

theorem findUrlItem_eq (n i : ℕ) : (findUrlItem assets assetId n i).bind valuestring
    = Alert.duerFindTargetUrl (((assets.child.drop i).take n).map assetOf) assetId := by
  induction n generalizing i with
  | zero => rfl
  | succ n ih =>
    rw [findUrlItem, baiduJsonGetArrayItem]
    rcases Nat.lt_or_ge i assets.child.length with hi | hi
    · rw [List.getElem?_eq_getElem hi, List.drop_eq_getElem_cons hi, List.take_succ_cons,
        List.map_cons, Alert.duerFindTargetUrl]
      dsimp only [assetOf]
      cases stringAt assets.child[i] "assetId" with
      | none => rfl
      | some id =>
        dsimp only
        by_cases hid : id = assetId
        · rw [if_pos hid, if_pos hid]
          rfl
        · rw [if_neg hid, if_neg hid]
          exact ih (i + 1)
    · rw [List.getElem?_eq_none hi, List.drop_eq_nil_of_le hi, List.take_nil, List.map_nil]
      rfl

theorem duerFindTargetUrl_eq : duerFindTargetUrl assets assetId
    = Alert.duerFindTargetUrl (assets.child.map assetOf) assetId := by
  rw [duerFindTargetUrl, findUrlItem_eq, baiduJsonGetArraySize, List.drop_zero, List.take_length]

/-- The search ends with the first asset that has this id or none. -/
theorem duerFindTargetUrl_eq_some_iff {l : List CJson} :
    Alert.duerFindTargetUrl (l.map assetOf) assetId = some url ↔
      ∃ before asset after, l = before ++ asset :: after ∧
        (∀ other ∈ before, ∃ id, stringAt other "assetId" = some id ∧ id ≠ assetId) ∧
        stringAt asset "assetId" = some assetId ∧ stringAt asset "url" = some url := by
  induction l with
  | nil =>
    refine iff_of_false nofun ?_
    rintro ⟨before, asset, after, h, -⟩
    exact List.cons_ne_nil _ _ (List.append_eq_nil_iff.mp h.symm).2
  | cons first l ih =>
    rw [List.map_cons, Alert.duerFindTargetUrl]
    dsimp only [assetOf]
    constructor
    · intro h
      cases hfirst : stringAt first "assetId" with
      | none => simp [hfirst] at h
      | some id =>
        rw [hfirst] at h
        dsimp only at h
        by_cases hid : id = assetId
        · rw [if_pos hid] at h
          exact ⟨[], first, l, rfl, fun _ hx ↦ absurd hx List.not_mem_nil, by rw [hfirst, hid], h⟩
        · rw [if_neg hid] at h
          obtain ⟨before, asset, after, rfl, hbefore, hasset⟩ := ih.mp h
          exact ⟨first :: before, asset, after, rfl,
            List.forall_mem_cons.mpr ⟨⟨id, hfirst, hid⟩, hbefore⟩, hasset⟩
    · rintro ⟨before, asset, after, heq, hbefore, hid, hurl⟩
      cases before with
      | nil =>
        obtain ⟨rfl, rfl⟩ := List.cons.inj heq
        rw [hid]
        dsimp only
        rw [if_pos rfl, hurl]
      | cons other before =>
        obtain ⟨rfl, rfl⟩ := List.cons.inj heq
        obtain ⟨⟨id, hfirst, hne⟩, hbefore⟩ := List.forall_mem_cons.mp hbefore
        rw [hfirst]
        dsimp only
        rw [if_neg hne]
        exact ih.mpr ⟨before, asset, after, rfl, hbefore, hid, hurl⟩

theorem foundFirst_iff : FoundFirst assets assetId ↔
    (Alert.duerFindTargetUrl (assets.child.map assetOf) assetId).isSome := by
  rw [Option.isSome_iff_exists]
  simp only [duerFindTargetUrl_eq_some_iff]
  constructor
  · rintro ⟨before, asset, after, heq, hbefore, hid, url, hurl⟩
    exact ⟨url, before, asset, after, heq, hbefore, hid, hurl⟩
  · rintro ⟨url, before, asset, after, heq, hbefore, hid, hurl⟩
    exact ⟨before, asset, after, heq, hbefore, hid, url, hurl⟩

theorem isUrlOf_of_find
    (h : Alert.duerFindTargetUrl (assets.child.map assetOf) assetId = some url) :
    IsUrlOf assets assetId url := by
  obtain ⟨before, asset, after, heq, -, hid, hurl⟩ := duerFindTargetUrl_eq_some_iff.mp h
  exact ⟨asset, heq ▸ List.mem_append_right _ List.mem_cons_self, hid, hurl⟩

end Search

/-! ## The tones that are set -/

/-- Tones that are written one after the other. -/
def AlertBlock.setTonesFrom (alert : AlertBlock) : ℕ → List Str → AlertBlock
  | _, [] => alert
  | i, url :: urls => (alert.setTone i url).setTonesFrom (i + 1) urls

section Tones

variable {assets playOrder : CJson} {alert : AlertBlock}

theorem setTones_eq {n i : ℕ} {tones : List Str}
    (h : Alert.duerSetAlertTone (assets.child.map assetOf)
      (((playOrder.child.drop i).take n).map valuestring) = tones) :
    setTones assets playOrder n i alert =
      { alert.setTonesFrom i tones with toneCount := UInt8.ofNat (i + tones.length) } := by
  subst h
  induction n generalizing i alert with
  | zero => rfl
  | succ n ih =>
    rw [setTones, baiduJsonGetArrayItem]
    rcases Nat.lt_or_ge i playOrder.child.length with hi | hi
    · rw [List.getElem?_eq_getElem hi, List.drop_eq_getElem_cons hi, List.take_succ_cons,
        List.map_cons, Option.bind_some]
      cases valuestring playOrder.child[i] with
      | none => rfl
      | some assetId =>
        rw [Alert.duerSetAlertTone]
        dsimp only
        rw [duerFindTargetUrl_eq]
        cases Alert.duerFindTargetUrl (assets.child.map assetOf) assetId with
        | none => rfl
        | some url =>
          dsimp only
          rw [ih, AlertBlock.setTonesFrom, List.length_cons, Nat.add_right_comm, Nat.add_assoc]
    · rw [List.getElem?_eq_none hi, List.drop_eq_nil_of_le hi, List.take_nil, List.map_nil]
      rfl

variable (alert)

@[simp] theorem high_setTone (i : ℕ) (url : Str) : (alert.setTone i url).high
    = max alert.high (toneTabOffset + sizeofPointer * (i + 1)) := rfl

theorem toneTab_setTonesFrom_of_lt {tones : List Str} {i k : ℕ} (h : k < i) :
    (alert.setTonesFrom i tones).toneTab k = alert.toneTab k := by
  induction tones generalizing i alert with
  | nil => rfl
  | cons url urls ih =>
    rw [AlertBlock.setTonesFrom, ih _ (Nat.lt_succ_of_lt h)]
    exact if_neg h.ne

theorem toneTab_setTonesFrom (tones : List Str) (i k : ℕ) :
    (alert.setTonesFrom i tones).toneTab (i + k) = tones[k]?.or (alert.toneTab (i + k)) := by
  induction tones generalizing i k alert with
  | nil => rfl
  | cons url urls ih =>
    rw [AlertBlock.setTonesFrom]
    cases k with
    | zero =>
      rw [List.getElem?_cons_zero, Option.some_or]
      exact (toneTab_setTonesFrom_of_lt _ (Nat.lt_succ_self i)).trans (if_pos rfl)
    | succ k =>
      rw [Nat.add_comm k, ← Nat.add_assoc, ih, Nat.add_comm 1 k, List.getElem?_cons_succ]
      congr 1
      exact if_neg (by omega)

/-- Nothing is written behind the last tone. -/
theorem high_setTonesFrom (tones : List Str) (i : ℕ) : (alert.setTonesFrom i tones).high
    ≤ max alert.high (toneTabOffset + sizeofPointer * (i + tones.length)) := by
  induction tones generalizing i alert with
  | nil => exact le_max_left _ _
  | cons url urls ih =>
    refine (ih _ (i + 1)).trans ?_
    rw [high_setTone, List.length_cons]
    dsimp only [toneTabOffset, sizeofPointer]
    omega

/-- Only the tones are written. -/
theorem setTonesFrom_eq (tones : List Str) (i : ℕ) : alert.setTonesFrom i tones =
    { alert with
      toneTab := (alert.setTonesFrom i tones).toneTab
      high := (alert.setTonesFrom i tones).high } := by
  induction tones generalizing i alert with
  | nil => rfl
  | cons url urls ih => exact ih _ (i + 1)

/-- The tones that are found, and nothing else, are written to an empty table. -/
theorem duerSetAlertTone_eq (assets : CJson) {tones : List Str}
    (hcount : alert.toneCount = UInt8.ofNat playOrder.child.length)
    (hnull : ∀ i, alert.toneTab i = none)
    (htones : toneTabOf (assets.child.map assetOf) (playOrder.child.map valuestring) = tones) :
    ∃ high ≤ max alert.high (toneTabOffset + sizeofPointer * tones.length),
      duerSetAlertTone alert assets playOrder =
        { alert with toneCount := UInt8.ofNat tones.length, toneTab := (tones[·]?), high } := by
  refine ⟨(alert.setTonesFrom 0 tones).high, ?_, ?_⟩
  · have hhigh := high_setTonesFrom alert tones 0
    rwa [Nat.zero_add] at hhigh
  · have htab : (alert.setTonesFrom 0 tones).toneTab = (tones[·]?) := by
      funext k
      have hk := toneTab_setTonesFrom alert tones 0 k
      rwa [Nat.zero_add, hnull, Option.or_none] at hk
    have htake : ((playOrder.child.drop 0).take (UInt8.ofNat playOrder.child.length).toNat).map
        valuestring = (playOrder.child.map valuestring).take
          ((playOrder.child.map valuestring).length % 256) := by
      rw [List.drop_zero, List.map_take, List.length_map]
      rfl
    rw [duerSetAlertTone, hcount, setTones_eq ((congrArg _ htake).trans htones), Nat.zero_add,
      setTonesFrom_eq]
    dsimp only
    rw [htab]

end Tones

/-! ## The alert that is created -/

/-- What the handler reads of a payload. -/
def payloadOf (payload : CJson) : Payload where
  token := (payload.getObjectItem "token").map valuestring
  scheduledTime := (payload.getObjectItem "scheduledTime").map valuestring
  type := (payload.getObjectItem "type").map valuestring
  assetPlayOrder :=
    (payload.getObjectItem "assetPlayOrder").map fun order ↦ order.child.map valuestring
  loopCount := (payload.getObjectItem "loopCount").map CJson.valueint
  assets := (payload.getObjectItem "assets").map fun assets ↦ assets.child.map assetOf

/-- The block holds the alert, with null pointers behind the last tone. -/
structure Holds (block : AlertBlock) (alert : AlertData) : Prop where
  type : block.type = some alert.alertInfo.type
  time : block.time = some alert.alertInfo.time
  token : block.token = some alert.alertInfo.token
  isActive : block.isActive = alert.isActive
  toneCount : block.toneCount.toNat = alert.toneTab.length
  currentToneIndex : block.currentToneIndex.toNat = alert.currentToneIndex
  loopCount : block.loopCount = alert.loopCount
  toneTab : ∀ i, block.toneTab i = alert.toneTab[i]?
  inside : block.high ≤ block.size

theorem length_toneTabOf_le (assets : List Asset) (playOrder : List (Option Str)) :
    (toneTabOf assets playOrder).length ≤ playOrder.length :=
  (length_duerSetAlertTone_le assets _).trans (List.length_take_le' _ _)

theorem holds_setAlertTone (assets playOrder : CJson) (type time token : Str) (loopCount : UInt8) :
    Holds (duerSetAlertTone { AlertBlock.zeroed
          (sizeofAlertData + baiduJsonGetArraySize playOrder * sizeofPointer) with
        toneCount := UInt8.ofNat (baiduJsonGetArraySize playOrder), type := some type,
        time := some time, token := some token, loopCount } assets playOrder)
      { alertInfo := ⟨type, time, token⟩
        toneTab := toneTabOf (assets.child.map assetOf) (playOrder.child.map valuestring)
        isActive := false
        currentToneIndex := 0
        loopCount := loopCount
        stage := .queued
        expired := false
        toneCount_lt := length_toneTabOf_lt _ _
        index_lt := id } := by
  obtain ⟨high, hhigh, heq⟩ := duerSetAlertTone_eq { AlertBlock.zeroed
          (sizeofAlertData + baiduJsonGetArraySize playOrder * sizeofPointer) with
        toneCount := UInt8.ofNat (baiduJsonGetArraySize playOrder), type := some type,
        time := some time, token := some token, loopCount } assets rfl (fun _ ↦ rfl) rfl
  rw [heq]
  have hlt := length_toneTabOf_lt (assets.child.map assetOf) (playOrder.child.map valuestring)
  have hle := length_toneTabOf_le (assets.child.map assetOf) (playOrder.child.map valuestring)
  rw [List.length_map] at hle
  refine ⟨rfl, rfl, rfl, rfl, UInt8.toNat_ofNat_of_lt' hlt, rfl, rfl, fun _ ↦ rfl, hhigh.trans ?_⟩
  refine max_le le_rfl ?_
  dsimp only [toneTabOffset, sizeofPointer, sizeofAlertData, AlertBlock.zeroed,
    baiduJsonGetArraySize]
  omega

/-- **What is created in memory is the alert of the player.** -/
theorem holds_createAlertData (type time token : Option Str) (payload : CJson) :
    Option.Rel Holds (duerCreateAlertData type time token payload)
      (Alert.duerCreateAlertData type time token (payloadOf payload)) := by
  rw [duerCreateAlertData, Alert.duerCreateAlertData, payloadOf]
  cases payload.getObjectItem "assetPlayOrder" with
  | none => exact .none
  | some playOrder =>
    cases type with
    | none => exact .none
    | some type =>
      cases time with
      | none => exact .none
      | some time =>
        cases token with
        | none => exact .none
        | some token =>
          cases payload.getObjectItem "assets" with
          | none => exact .none
          | some assets =>
            refine .some ?_
            dsimp only [Option.map_some]
            exact holds_setAlertTone assets playOrder type time token _

/-! ## Complete alerts -/

/-- The tones are the urls up to the first id that none is found for. -/
theorem map_duerSetAlertTone (assets : List Asset) (assetIds : List Str) :
    (Alert.duerSetAlertTone assets (assetIds.map some)).map some
      = (assetIds.map (Alert.duerFindTargetUrl assets)).takeWhile Option.isSome := by
  induction assetIds with
  | nil => rfl
  | cons assetId assetIds ih =>
    rw [List.map_cons, List.map_cons, Alert.duerSetAlertTone, List.takeWhile_cons]
    cases Alert.duerFindTargetUrl assets assetId with
    | none => rfl
    | some url =>
      dsimp only
      rw [if_pos Option.isSome_some, ← ih, List.map_cons]

section Found

variable {assets : List Asset} {assetIds : List Str}

theorem toneTabOf_of_lt (h : assetIds.length < 256) :
    toneTabOf assets (assetIds.map some) = Alert.duerSetAlertTone assets (assetIds.map some) := by
  rw [toneTabOf, List.length_map, Nat.mod_eq_of_lt h,
    List.take_of_length_le (List.length_map some).le]

/-- The tones are the urls of the ids, if there is one for each. -/
theorem map_toneTabOf (hlt : assetIds.length < 256)
    (hfound : ∀ assetId ∈ assetIds, (Alert.duerFindTargetUrl assets assetId).isSome) :
    (toneTabOf assets (assetIds.map some)).map some
      = assetIds.map (Alert.duerFindTargetUrl assets) := by
  rw [toneTabOf_of_lt hlt, map_duerSetAlertTone]
  exact List.takeWhile_eq_self_iff.mpr (List.forall_mem_map.mpr hfound)

theorem length_toneTabOf_eq_iff :
    (toneTabOf assets (assetIds.map some)).length = assetIds.length ↔ assetIds.length < 256 ∧
      ∀ assetId ∈ assetIds, (Alert.duerFindTargetUrl assets assetId).isSome := by
  constructor
  · intro h
    have hlt := length_toneTabOf_lt assets (assetIds.map some)
    rw [h] at hlt
    refine ⟨hlt, List.forall_mem_map.mp (List.takeWhile_eq_self_iff.mp ?_)⟩
    -- what is taken has the length of the whole
    refine (List.takeWhile_prefix _).eq_of_length ?_
    rw [← map_duerSetAlertTone, ← toneTabOf_of_lt hlt, List.length_map, List.length_map, h]
  · rintro ⟨hlt, hfound⟩
    have hmap := congrArg List.length (map_toneTabOf hlt hfound)
    rwa [List.length_map, List.length_map] at hmap

theorem getElem?_toneTabOf (hlt : assetIds.length < 256)
    (hfound : ∀ assetId ∈ assetIds, (Alert.duerFindTargetUrl assets assetId).isSome) {i : ℕ}
    (hi : i < assetIds.length) : (toneTabOf assets (assetIds.map some))[i]?
      = Alert.duerFindTargetUrl assets assetIds[i] := by
  have hmap := congrArg (·[i]?) (map_toneTabOf hlt hfound)
  rw [List.getElem?_map, List.getElem?_map, List.getElem?_eq_getElem hi, Option.map_some] at hmap
  obtain ⟨url, hurl, heq⟩ := Option.map_eq_some_iff.mp hmap
  rw [hurl, heq]

end Found

theorem toNat_ofInt (n : ℕ) : (UInt8.ofInt n).toNat = n % 256 := by
  have hmod : ((n : ℤ) % 2 ^ 8).toNat = n % 256 := by omega
  rw [UInt8.ofInt, hmod, UInt8.toNat_ofNat', Nat.mod_mod]

/-- A positive number is kept if and only if it fits into a byte. -/
theorem toNat_loopCountOf_eq_iff {loopCount : ℤ} (h : 0 < loopCount) :
    ((loopCountOf (some loopCount)).toNat : ℤ) = loopCount ↔ loopCount < 256 := by
  obtain ⟨n, rfl⟩ := Int.eq_ofNat_of_zero_le h.le
  have hlow := toNat_ofInt n
  have hbyte := (loopCountOf (some (n : ℤ))).toNat_lt
  refine ⟨fun heq ↦ by omega, fun hlt ↦ ?_⟩
  have hne : UInt8.ofInt (n : ℤ) ≠ 0 := by
    intro hzero
    rw [hzero, UInt8.toNat_zero] at hlow
    omega
  rw [loopCountOf, Option.map_some, Option.getD_some, if_neg hne, hlow]
  omega

section Payload

variable {payload playOrder assets loopCount : CJson} {assetIds : List Str}

theorem createAlertData_eq_some (type time token : Str)
    (horder : payload.getObjectItem "assetPlayOrder" = some playOrder)
    (hids : playOrder.child.map valuestring = assetIds.map some)
    (hassets : payload.getObjectItem "assets" = some assets)
    (hloop : payload.getObjectItem "loopCount" = some loopCount) :
    ∃ block alert, duerCreateAlertData (some type) (some time) (some token) payload = some block ∧
      Holds block alert ∧
      alert.toneTab = toneTabOf (assets.child.map assetOf) (assetIds.map some) ∧
      alert.loopCount = loopCountOf (some loopCount.valueint) := by
  have hholds := holds_createAlertData (some type) (some time) (some token) payload
  have halert : ∃ alert, Alert.duerCreateAlertData (some type) (some time) (some token)
      (payloadOf payload) = some alert ∧
      alert.toneTab = toneTabOf (assets.child.map assetOf) (assetIds.map some) ∧
      alert.loopCount = loopCountOf (some loopCount.valueint) := by
    rw [payloadOf, horder, hassets, hloop, ← hids]
    exact ⟨_, rfl, rfl, rfl⟩
  obtain ⟨alert, halert, htab, hcount⟩ := halert
  rw [halert] at hholds
  generalize duerCreateAlertData (some type) (some time) (some token) payload = block at hholds ⊢
  cases hholds with
  | some hholds => exact ⟨_, alert, rfl, hholds, htab, hcount⟩

/-- **An alert has all its tones, and is repeated as often as it should be, if and only if the
numbers of both fit into a byte and the first asset that has the id of a tone, or none, has that id
and a url.** -/
theorem complete_iff (type time token : Str)
    (horder : payload.getObjectItem "assetPlayOrder" = some playOrder)
    (hids : playOrder.child.map valuestring = assetIds.map some)
    (hassets : payload.getObjectItem "assets" = some assets)
    (hloop : payload.getObjectItem "loopCount" = some loopCount) (hpos : 0 < loopCount.valueint) :
    (∃ alert, duerCreateAlertData (some type) (some time) (some token) payload = some alert ∧
        Complete assetIds assets loopCount.valueint alert) ↔
      TonesFit assetIds assets loopCount.valueint := by
  obtain ⟨block, alert, hcreate, hholds, htab, hcount⟩ :=
    createAlertData_eq_some type time token horder hids hassets hloop
  simp only [TonesFit, foundFirst_iff]
  rw [hcreate]
  constructor
  · rintro ⟨_, hblock, h⟩
    cases hblock
    have htones := h.toneCount
    rw [hholds.toneCount, htab, length_toneTabOf_eq_iff] at htones
    have hloops := h.loopCount
    rw [hholds.loopCount, hcount, toNat_loopCountOf_eq_iff hpos] at hloops
    exact ⟨htones.1, hloops, htones.2⟩
  · rintro ⟨hlt, hloops, hfound⟩
    refine ⟨block, rfl, ?_, fun i hi ↦ ?_, hholds.inside, ?_⟩
    · rw [hholds.toneCount, htab]
      exact length_toneTabOf_eq_iff.mpr ⟨hlt, hfound⟩
    · obtain ⟨url, hurl⟩ := Option.isSome_iff_exists.mp (hfound _ (List.getElem_mem hi))
      refine ⟨url, isUrlOf_of_find hurl, ?_⟩
      rw [hholds.toneTab, htab, getElem?_toneTabOf hlt hfound hi, hurl]
    · rw [hholds.loopCount, hcount]
      exact (toNat_loopCountOf_eq_iff hpos).mpr hloops

end Payload

/-! ## Two directives -/

/-- A string at a name. -/
def stringItem (name text : String) : CJson := ⟨.String, some (cstr text), 0, some (cstr name), []⟩

/-- An element of the array `assets`. -/
def assetItem (items : List CJson) : CJson := ⟨.Object, none, 0, none, items⟩

/-- An array at a name. -/
def arrayItem (name : String) (items : List CJson) : CJson :=
  ⟨.Array, none, 0, some (cstr name), items⟩

/-- A payload, as far as the tones are concerned. -/
def tonePayload (assetIds : List String) (assets : List CJson) (loopCount : ℤ) : CJson :=
  ⟨.Object, none, 0, none, [arrayItem "assets" assets,
    arrayItem "assetPlayOrder" (assetIds.map fun id ↦ ⟨.String, some (cstr id), 0, none, []⟩),
    ⟨.Number, none, loopCount, some (cstr "loopCount"), []⟩]⟩

/-- The urls of two assets. -/
def bellAndChime : List CJson :=
  [assetItem [stringItem "url" "u", stringItem "assetId" "bell"],
    assetItem [stringItem "assetId" "chime", stringItem "url" "v"]]

/-- Three tones, of which the last is the first again. -/
theorem complete_bellAndChime :
    ∃ alert, duerCreateAlertData (some (ascii "ALARM")) (some (ascii "T")) (some (ascii "1"))
        (tonePayload ["bell", "chime", "bell"] bellAndChime 3) = some alert ∧
      Complete [ascii "bell", ascii "chime", ascii "bell"] (arrayItem "assets" bellAndChime) 3
        alert := by
  have hloop : (tonePayload ["bell", "chime", "bell"] bellAndChime 3).getObjectItem "loopCount"
      = some ⟨.Number, none, 3, some (cstr "loopCount"), []⟩ := rfl
  refine (complete_iff _ _ _ rfl rfl rfl hloop (by decide)).mpr ⟨by decide, by decide, ?_⟩
  simp only [foundFirst_iff]
  decide

/-- In front of the bell is an asset without an id. -/
theorem not_complete_unnamed : ¬∀ (payload playOrder assets loopCount : CJson)
    (assetIds : List Str) (type time token : Str),
    payload.getObjectItem "assetPlayOrder" = some playOrder →
    playOrder.child.map valuestring = assetIds.map some →
    payload.getObjectItem "assets" = some assets →
    (∀ assetId ∈ assetIds, ∃ url, IsUrlOf assets assetId url) →
    payload.getObjectItem "loopCount" = some loopCount → 0 < loopCount.valueint →
    ∃ alert, duerCreateAlertData (some type) (some time) (some token) payload = some alert ∧
      Complete assetIds assets loopCount.valueint alert := by
  intro h
  have hurls : ∀ assetId ∈ [ascii "bell"], ∃ url,
      IsUrlOf (arrayItem "assets" (assetItem [] :: bellAndChime)) assetId url := by
    intro assetId hid
    cases List.mem_singleton.mp hid
    exact ⟨ascii "u", _, List.mem_cons_of_mem _ List.mem_cons_self, rfl, rfl⟩
  have hloop : (tonePayload ["bell"] (assetItem [] :: bellAndChime) 3).getObjectItem "loopCount"
      = some ⟨.Number, none, 3, some (cstr "loopCount"), []⟩ := rfl
  obtain ⟨alert, halert, hcomplete⟩ :=
    h _ _ _ _ _ (ascii "ALARM") (ascii "T") (ascii "1") rfl rfl rfl hurls hloop (by decide)
  cases halert
  exact absurd hcomplete.toneCount (by decide)

end Ddmz.Alert.Tones
