import Ddmz.Alert.Balance
import Ddmz.Foundation.ForwardList

/-!
# The search for the next alert

`duer_find_active_alert` walks over the nodes of `s_alert_list` as they lie in memory: behind the
node it is given, if it is given one, and then, if nothing active is there, from the head of the
list. The two loops are one search in cyclic order, `AlertMemory.Holds.find`, so the active alerts
take turns: whoever calls again with the node that has been returned gets to each of them before
one comes again.

`AlertPlayer` keeps the same list by the numbers of its alerts. `Represents` says that a memory
holds that list, and there the search is the player's. `StoredPlayer` is the player with a memory
in which the functions of the list work: they have the same runs, and in all of them the memory
represents the player.
-/

namespace Ddmz.Alert

/-- `s_alert_list` with its nodes, which point to the data of their alerts, and the alerts that have
not been freed. -/
structure AlertMemory where
  sAlertList : ForwardList ℕ (Option ℕ)
  alerts : ℕ → Option AlertData

namespace AlertMemory

/-- `node->data && node->data->is_active`. It has no result if it reads memory that is not live. -/
def dataIsActive (m : AlertMemory) (node : ℕ) : Option Bool :=
  (m.sAlertList.nodes node).bind fun x ↦
    match x.val with
    | none => some false
    | some data => (m.alerts data).map AlertData.isActive

/-- `duer_find_active_alert`, with a bound on the turns of its loops. -/
def duerFindActiveAlert (m : AlertMemory) (n : ℕ) (alertNode : Option ℕ) : Option (Option ℕ) :=
  (m.sAlertList.scanBehind m.dataIsActive n alertNode).bind fun found ↦
    match found with
    | some node => some (some node)
    | none => m.sAlertList.scan m.dataIsActive n m.sAlertList.first

/-- What the functions of the list return of `duer_errcode_t`. -/
inductive DuerErrcode
  | DUER_OK
  | DUER_ERR_FAILED
  | DUER_ERR_MEMORY_OVERLOW
  deriving DecidableEq

/-- `duer_alert_list_push`, with the new node if it could be allocated. -/
def duerAlertListPush (m : AlertMemory) (n : ℕ) (newNode : Option ℕ) (data : ℕ) :
    Option (DuerErrcode × AlertMemory) :=
  match newNode with
  | none => some (.DUER_ERR_MEMORY_OVERLOW, m)
  | some p =>
    (m.sAlertList.insertLast n p (some data)).map fun list ↦
      (.DUER_OK, { m with sAlertList := list })

/-- `duer_alert_list_remove`. -/
def duerAlertListRemove (m : AlertMemory) (n : ℕ) (node : ℕ) :
    Option (DuerErrcode × AlertMemory) :=
  (m.sAlertList.remove node n .head).map fun r ↦
    (if r.1 then .DUER_OK else .DUER_ERR_FAILED, { m with sAlertList := r.2 })

/-- The results of `k` calls, each with what the one before it has returned. -/
def calls (m : AlertMemory) (n : ℕ) : ℕ → Option ℕ → Option (List (Option ℕ))
  | 0, _ => some []
  | k + 1, node =>
    (m.duerFindActiveAlert n node).bind fun found ↦
      (m.calls n k found).map fun later ↦ found :: later

/-- The memory holds the list of the nodes `l`, and their data has not been freed. -/
structure Holds (m : AlertMemory) (l : List ℕ) : Prop where
  leads : m.sAlertList.Holds l
  live : ∀ p ∈ l, (m.dataIsActive p).isSome

/-- The node has an alert, which is active. -/
def isActive (m : AlertMemory) (node : ℕ) : Bool := m.dataIsActive node == some true

section Lemmas

variable {m : AlertMemory} {l : List ℕ} {node : Option ℕ} {n k p : ℕ}

theorem isActive_iff : m.isActive p = true ↔ ∃ x data alert, m.sAlertList.nodes p = some x ∧
    x.val = some data ∧ m.alerts data = some alert ∧ alert.isActive = true := by
  rw [isActive, beq_iff_eq, dataIsActive, Option.bind_eq_some_iff]
  refine exists_congr fun x ↦ ⟨fun ⟨hx, h⟩ ↦ ?_, fun ⟨data, alert, hx, hval, halert, h⟩ ↦ ?_⟩
  · cases hval : x.val with
    | none =>
      rw [hval] at h
      cases h
    | some data =>
      rw [hval] at h
      obtain ⟨alert, halert, hactive⟩ := Option.map_eq_some_iff.mp h
      exact ⟨data, alert, hx, rfl, halert, hactive⟩
  · rw [hval]
    exact ⟨hx, Option.map_eq_some_iff.mpr ⟨alert, halert, h⟩⟩

theorem Holds.nodup (h : m.Holds l) : l.Nodup := h.leads.nodup

theorem Holds.dataIsActive (h : m.Holds l) : ∀ p ∈ l, m.dataIsActive p = some (m.isActive p) := by
  intro p hp
  obtain ⟨b, hb⟩ := Option.isSome_iff_exists.mp (h.live p hp)
  rw [isActive, hb]
  cases b with
  | true => rfl
  | false => rfl

/-- **The two loops are one cyclic search.** -/
theorem Holds.find (h : m.Holds l) (hnode : ∀ p ∈ node, p ∈ l) (hn : l.length < n) :
    m.duerFindActiveAlert n node = some (cyclicFind m.isActive l node) := by
  have hstart : m.sAlertList.scan m.dataIsActive n m.sAlertList.first =
      some (l.find? m.isActive) := ForwardList.scan_eq h.leads h.dataIsActive hn
  cases node with
  | none =>
    obtain ⟨n, rfl⟩ := Nat.exists_eq_succ_of_ne_zero (Nat.ne_zero_of_lt hn)
    exact hstart
  | some p =>
    obtain ⟨l₁, l₂, rfl, hp⟩ := List.eq_append_cons_of_mem (hnode p rfl)
    have htest : ∀ q ∈ l₂, m.dataIsActive q = some (m.isActive q) := fun q hq ↦
      h.dataIsActive q (List.mem_append_right _ (List.mem_cons_of_mem _ hq))
    have hlength : (p :: l₂).length < n := by
      rw [List.length_append] at hn
      omega
    have hbehind : m.sAlertList.scanBehind m.dataIsActive n (some p) =
        some (l₂.find? m.isActive) := ForwardList.scanBehind_eq h.leads.tail htest hlength
    rw [duerFindActiveAlert, hbehind, hstart, cyclicFind, following_append hp, Option.bind_some]
    cases l₂.find? m.isActive with
    | none => rfl
    | some q => rfl

/-- So are the calls one search after the other. -/
theorem Holds.calls (h : m.Holds l) (hnode : ∀ p ∈ node, p ∈ l) (hn : l.length < n) :
    m.calls n k node = some (searches m.isActive l k node) := by
  induction k generalizing node with
  | zero => rfl
  | succ k ih =>
    rw [AlertMemory.calls, h.find hnode hn, Option.bind_some, ih (mem_of_cyclicFind hnode)]
    rfl

end Lemmas

/-! ## The order of the turns -/

/-- What `duer_find_active_alert` finds in the list `l`, when it is called with a null pointer or a
node of the list. -/
structure CyclicSearch (m : AlertMemory) (l : List ℕ) (n : ℕ) : Prop where
  /-- The first active node in cyclic order. -/
  first : ∀ node : Option ℕ, (∀ p ∈ node, p ∈ l) →
    m.duerFindActiveAlert n node = some ((searchOrder l node).find? m.isActive)
  /-- A null pointer exactly if there is none. -/
  null : ∀ node : Option ℕ, (∀ p ∈ node, p ∈ l) →
    (m.duerFindActiveAlert n node = some none ↔ ∀ p ∈ l, m.isActive p = false)
  /-- Call after call goes round and round through the active nodes. -/
  round : ∀ node : Option ℕ, (∀ p ∈ node, p ∈ l) → ∀ active,
    (searchOrder l node).filter m.isActive = active → ∀ k,
      m.calls n k node = some ((List.range k).map fun i ↦ active[i % active.length]?)
  /-- Between two calls that return the same node, every active one is returned. -/
  fair : ∀ node : Option ℕ, (∀ p ∈ node, p ∈ l) → ∀ k x y z q,
    m.calls n k node = some (x ++ some q :: y ++ some q :: z) →
      ∀ p ∈ l, m.isActive p = true → some p ∈ some q :: y

/-- **The search for an active alert is cyclic, and the active alerts take turns.** -/
theorem cyclicSearch_of_holds {m : AlertMemory} {l : List ℕ} {n : ℕ} (h : m.Holds l)
    (hn : l.length < n) : m.CyclicSearch l n where
  first node hnode := by rw [h.find hnode hn, cyclicFind_eq hnode]
  null node hnode := by
    rw [h.find hnode hn, cyclicFind_eq hnode, Option.some_inj, List.find?_eq_none]
    refine ⟨fun hnone p hp ↦ ?_, fun hnone p hp ↦ ?_⟩
    · exact Bool.eq_false_iff.mpr (hnone p ((searchOrder_perm hnode).mem_iff.mpr hp))
    · exact Bool.eq_false_iff.mp (hnone p ((searchOrder_perm hnode).mem_iff.mp hp))
  round node hnode active hactive k := by
    rw [h.calls hnode hn, searches_eq h.nodup hnode hactive]
  fair node hnode k x y z q hcalls := by
    rw [h.calls hnode hn] at hcalls
    exact searches_fair h.nodup hnode (Option.some.inj hcalls)

/-- An alert that is active. -/
def soundingAlert : AlertData where
  alertInfo := ⟨[], [], []⟩
  toneTab := []
  isActive := true
  currentToneIndex := 0
  loopCount := 1
  stage := .listed
  expired := true
  toneCount_lt := Nat.succ_pos _
  index_lt := id

/-- Three nodes, the second of which has no data. -/
def trio : AlertMemory where
  sAlertList.first := some 5
  sAlertList.nodes
    | 5 => some ⟨some 3, some 0⟩
    | 3 => some ⟨some 7, none⟩
    | 7 => some ⟨none, some 1⟩
    | _ => none
  alerts
    | 0 => some soundingAlert
    | 1 => some soundingAlert
    | _ => none

theorem cyclicSearch_of_holds_trio :
    trio.duerFindActiveAlert 4 (some 7) = some (some 5) ∧ trio.CyclicSearch [5, 3, 7] 4 := by
  refine ⟨by decide, cyclicSearch_of_holds ⟨?_, by decide⟩ (by decide)⟩
  exact ⟨rfl, _, rfl, rfl, _, rfl, rfl, _, rfl, rfl⟩

/-! ## The player's list -/

/-- The memory holds the list of the player, and its alerts. A node has the number of its alert. -/
structure Represents (m : AlertMemory) (s : AlertPlayer) : Prop where
  leads : m.sAlertList.Holds s.alertList
  data : ∀ p ∈ s.alertList, (m.sAlertList.nodes p).map Link.val = some (some p)
  alerts : m.alerts = s.data

section Lemmas

variable {m : AlertMemory} {s t : AlertPlayer} {l : List ℕ} {node : Option ℕ} {n p : ℕ}

theorem Represents.dataIsActive (h : m.Represents s) (hp : p ∈ s.alertList) :
    m.dataIsActive p = (s.data p).map AlertData.isActive := by
  obtain ⟨x, hx, hval⟩ := Option.map_eq_some_iff.mp (h.data p hp)
  rw [AlertMemory.dataIsActive, hx, Option.bind_some, hval, h.alerts]

theorem Represents.isActive (h : m.Represents s) (hp : p ∈ s.alertList) :
    m.isActive p = s.isActive p := by
  rw [AlertMemory.isActive, h.dataIsActive hp, AlertPlayer.isActive]
  cases s.data p with
  | none => rfl
  | some alert => rw [Option.map_some, Option.some_beq_some, beq_true, Option.any_some]

theorem Represents.holds (h : m.Represents s) (hplaced : s.Placed) : m.Holds s.alertList where
  leads := h.leads
  live p hp := by
    obtain ⟨alert, hdata, -⟩ := hplaced.listed p hp
    rw [h.dataIsActive hp, hdata]
    rfl

/-- **The search in memory is the player's.** -/
theorem Represents.find (h : m.Represents s) (hplaced : s.Placed)
    (hnode : ∀ p ∈ node, p ∈ s.alertList) (hn : s.alertList.length < n) :
    m.duerFindActiveAlert n node = some (s.duerFindActiveAlert node) := by
  rw [(h.holds hplaced).find hnode hn]
  exact congrArg some (cyclicFind_congr (fun p hp ↦ h.isActive hp) node)

theorem push_eq (hleads : m.sAlertList.Holds l) (hp : p ∉ l) (hn : l.length < n) :
    ∃ list, m.duerAlertListPush n (some p) p = some (.DUER_OK, { m with sAlertList := list }) ∧
      list.Holds (l ++ [p]) ∧ (list.nodes p).map Link.val = some (some p) ∧
      ∀ q ≠ p, (list.nodes q).map Link.val = (m.sAlertList.nodes q).map Link.val := by
  obtain ⟨list, hinsert, hlist, hself, hothers⟩ := hleads.insertLast hp hn (v := some p)
  refine ⟨list, ?_, hlist, hself, hothers⟩
  rw [duerAlertListPush, hinsert]
  rfl

theorem remove_eq (hleads : m.sAlertList.Holds l) (hp : p ∈ l) (hn : l.length < n) :
    ∃ list, m.duerAlertListRemove n p = some (.DUER_OK, { m with sAlertList := list }) ∧
      list.Holds (l.erase p) ∧
      ∀ q ≠ p, (list.nodes q).map Link.val = (m.sAlertList.nodes q).map Link.val := by
  obtain ⟨list, hremove, hlist, hothers⟩ := hleads.remove hp hn
  refine ⟨list, ?_, hlist, hothers⟩
  rw [duerAlertListRemove, hremove]
  rfl

/-- What is not in the list is not removed. -/
theorem remove_missing (hleads : m.sAlertList.Holds l) (hp : p ∉ l) (hn : l.length < n) :
    m.duerAlertListRemove n p = some (.DUER_ERR_FAILED, m) := by
  have hremove : m.sAlertList.remove p n .head = some (false, m.sAlertList) :=
    ForwardList.remove_eq_of_notMem ForwardList.load_head hleads hp hn
  rw [duerAlertListRemove, hremove]
  rfl

end Lemmas

end AlertMemory

namespace AlertPlayer

/-- What an action makes of the list. -/
def listAfter (s : AlertPlayer) : AlertAction → List ℕ
  | .push p => s.alertList ++ [p]
  | .delete token => (s.duerFindTargetAlertNode token).elim s.alertList s.alertList.erase
  | _ => s.alertList

variable {s t : AlertPlayer} {a : AlertAction}

/-- **Only a worker's push and a deletion change the list.** -/
theorem alertList_step (hstep : s.step a = some t) : t.alertList = s.listAfter a := by
  cases a with
  | set directive =>
    obtain rfl := Option.some.inj hstep
    rcases s.set_cases directive with heq | ⟨token, heq⟩ | ⟨alert, -, heq⟩
    · rw [heq]
      rfl
    · rw [heq]
      rfl
    · rw [heq]
      rfl
  | take =>
    rw [AlertPlayer.step, threadTake] at hstep
    split at hstep
    · cases hstep
    · obtain ⟨alert, -, rfl⟩ := Option.map_eq_some_iff.mp hstep
      rfl
  | fail n =>
    obtain ⟨alert, -, -, rfl⟩ := onAlert_eq_some hstep
    rfl
  | start n =>
    obtain ⟨alert, -, -, rfl⟩ := onAlert_eq_some hstep
    rfl
  | push n =>
    obtain ⟨alert, -, -, rfl⟩ := onAlert_eq_some hstep
    rfl
  | expire n =>
    obtain ⟨alert, -, -, rfl⟩ := onAlert_eq_some hstep
    rw [duerAlertCallback]
    split_ifs
    · rfl
    · rfl
    · rfl
  | status type status =>
    obtain rfl := Option.some.inj hstep
    exact (keeps_alertPalyStatusCallback s type status).alertList
  | delete token =>
    obtain rfl := Option.some.inj hstep
    rw [listAfter]
    cases hfind : s.duerFindTargetAlertNode token with
    | none =>
      rw [delete_missing hfind]
      rfl
    | some n =>
      obtain ⟨-, alert, hdata, -⟩ := duerFindTargetAlertNode_some hfind
      rw [delete_found hfind hdata]
      rfl

end AlertPlayer

/-! ## The system -/

/-- The player, and the memory in which its list lies. -/
structure StoredPlayer where
  player : AlertPlayer
  memory : AlertMemory

namespace StoredPlayer

open AlertPlayer AlertMemory

def init : StoredPlayer := ⟨.init, ⟨⟨none, fun _ ↦ none⟩, fun _ ↦ none⟩⟩

/-- What an action does to the list in memory. -/
def listStep (s : StoredPlayer) (n : ℕ) : AlertAction → Option AlertMemory
  | .push p => (s.memory.duerAlertListPush n (some p) p).map Prod.snd
  | .delete token =>
    match s.player.duerFindTargetAlertNode token with
    | none => some s.memory
    | some p => (s.memory.duerAlertListRemove n p).map Prod.snd
  | _ => some s.memory

def step (s : StoredPlayer) (a : AlertAction) : Option StoredPlayer :=
  (s.player.step a).bind fun t ↦
    (s.listStep (s.player.alertList.length + 1) a).map fun m ↦ ⟨t, { m with alerts := t.data }⟩

/-- The memory represents the player. -/
structure Inv (s : StoredPlayer) : Prop where
  sound : Sound s.player
  represents : s.memory.Represents s.player

variable {s s' : StoredPlayer} {t : AlertPlayer} {a : AlertAction}

/-- The memory is never corrupted: the list is changed as the player changes it. -/
theorem Inv.listStep (h : Inv s) (hstep : s.player.step a = some t) :
    ∃ m, s.listStep (s.player.alertList.length + 1) a = some m ∧
      m.sAlertList.Holds (s.player.listAfter a) ∧
      ∀ p ∈ s.player.listAfter a, (m.sAlertList.nodes p).map Link.val = some (some p) := by
  have hleads := h.represents.leads
  have hn := Nat.lt_succ_self s.player.alertList.length
  cases a with
  | push p =>
    obtain ⟨alert, hdata, hok, -⟩ := onAlert_eq_some hstep
    have hp := (h.sound.placed.not_mem hdata (.inr (of_decide_eq_true hok))).1
    obtain ⟨list, hpush, hlist, hself, hothers⟩ := push_eq hleads hp hn
    refine ⟨_, congrArg (Option.map Prod.snd) hpush, hlist, fun q hq ↦ ?_⟩
    rcases List.mem_append.mp hq with hq | hq
    · have hqp : q ≠ p := fun heq ↦ hp (heq ▸ hq)
      exact (hothers q hqp).trans (h.represents.data q hq)
    · rw [List.mem_singleton.mp hq]
      exact hself
  | delete token =>
    rw [StoredPlayer.listStep, AlertPlayer.listAfter]
    cases hfind : s.player.duerFindTargetAlertNode token with
    | none => exact ⟨_, rfl, hleads, h.represents.data⟩
    | some p =>
      obtain ⟨hp, -⟩ := duerFindTargetAlertNode_some hfind
      obtain ⟨list, hremove, hlist, hothers⟩ := remove_eq hleads hp hn
      refine ⟨_, congrArg (Option.map Prod.snd) hremove, hlist, fun q hq ↦ ?_⟩
      obtain ⟨hqp, hq⟩ := h.sound.placed.nodup.mem_erase_iff.mp hq
      exact (hothers q hqp).trans (h.represents.data q hq)
  | _ => exact ⟨_, rfl, hleads, h.represents.data⟩

/-- **Every step of the player can be taken in memory**, which represents what it leads to. -/
theorem Inv.simulates (h : Inv s) (hstep : s.player.step a = some t) :
    ∃ s', s.step a = some s' ∧ s'.player = t ∧ Inv s' := by
  obtain ⟨m, hm, hleads, hdata⟩ := h.listStep hstep
  refine ⟨⟨t, { m with alerts := t.data }⟩, ?_, rfl, h.sound.step hstep, ?_⟩
  · rw [StoredPlayer.step, hstep, Option.bind_some, hm]
    rfl
  · rw [← alertList_step hstep] at hleads hdata
    exact ⟨hleads, hdata, rfl⟩

theorem Inv.step (h : Inv s) (hstep : s.step a = some s') : Inv s' := by
  obtain ⟨t, ht, -⟩ := Option.bind_eq_some_iff.mp hstep
  obtain ⟨u, hu, -, hinv⟩ := h.simulates ht
  exact Option.some.inj (hu.symm.trans hstep) ▸ hinv

theorem inv_init : Inv init := ⟨sound_init, rfl, nofun, rfl⟩

theorem inv_of_run {as : List AlertAction} (h : AnyRun StoredPlayer.step init as s) : Inv s :=
  h.invariant (fun _ _ _ hI _ hstep ↦ hI.step hstep) inv_init

/-- **Every run of the player is one in memory.** -/
theorem exists_run {as : List AlertAction} (h : AnyRun AlertPlayer.step .init as t) :
    ∃ s, AnyRun StoredPlayer.step init as s ∧ s.player = t := by
  have hsimulates (p : AlertPlayer) (a : AlertAction) (t : AlertPlayer) (s : StoredPlayer) :
      s.player = p ∧ Inv s → True → p.step a = some t →
        ∃ s', s.step a = some s' ∧ s'.player = t ∧ Inv s' := by
    rintro ⟨rfl, hinv⟩ - hstep
    exact hinv.simulates hstep
  obtain ⟨s, hrun, heq, -⟩ := h.simulate hsimulates ⟨rfl, inv_init⟩
  exact ⟨s, hrun, heq⟩

/-- In memory, nothing else happens than what the player does. -/
theorem run_player {as : List AlertAction} (h : AnyRun StoredPlayer.step s as s') :
    AnyRun AlertPlayer.step s.player as s'.player := by
  have hfollows (s : StoredPlayer) (a : AlertAction) (s' : StoredPlayer) (p : AlertPlayer) :
      s.player = p → True → s.step a = some s' → ∃ t, p.step a = some t ∧ s'.player = t := by
    rintro rfl - hstep
    obtain ⟨t, ht, hmemory⟩ := Option.bind_eq_some_iff.mp hstep
    obtain ⟨m, -, rfl⟩ := Option.map_eq_some_iff.mp hmemory
    exact ⟨t, ht, rfl⟩
  obtain ⟨t, hrun, rfl⟩ := h.simulate hfollows rfl
  exact hrun

/-- **In every state that is reached, the list ends, its alerts have not been freed, and the search
from what rings finds in memory what the player goes on with.** -/
theorem find_of_run {as : List AlertAction} {n : ℕ} (h : AnyRun StoredPlayer.step init as s)
    (hn : s.player.alertList.length < n) : s.memory.Holds s.player.alertList ∧
      s.memory.duerFindActiveAlert n s.player.ringingAlertNode =
        some (s.player.duerFindActiveAlert s.player.ringingAlertNode) := by
  have hinv := inv_of_run h
  refine ⟨hinv.represents.holds hinv.sound.placed, ?_⟩
  exact hinv.represents.find hinv.sound.placed (fun p hp ↦ (hinv.sound.ringing p hp).1) hn

end StoredPlayer

end Ddmz.Alert
