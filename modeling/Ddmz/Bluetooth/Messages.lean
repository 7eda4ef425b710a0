import Ddmz.Bluetooth.Reconnect
import Ddmz.Foundation.Heap

/-!
# Messages for the Bluetooth task

`bt_app_transfer_context` copies the parameters of a callback into a block of its own and posts a
message for it; the Bluetooth task takes the messages in turn, calls their callbacks and frees their
blocks. Any number of tasks may be posting at the same time, and a post gives up when the queue
has been full for 10 ms.

A message is called back once, in the order of the posts, with the copy. But a post that gives up
leaves its block behind, so no block is lost in exactly the runs in which that does not happen:
`settles_iff`.
-/

namespace Ddmz.Bluetooth

def BT_APP_SIG_CONTEXT_SWITCH : UInt16 := 0x90

/-- `bt_app_msg_t`; functions are numbers, and the parameters are a block of memory. -/
structure BtAppMsgT where
  sig : UInt16
  event : UInt16
  cb : Option ℕ
  param : Option ℕ

/-- The arguments of `bt_app_transfer_context`, with what is in the memory of `p_params`. What the
copy callback does to the copy is a function of its bytes. -/
structure TransferCall where
  cback : Option ℕ
  event : UInt16
  params : Option (ℕ → UInt8)
  paramLen : ℤ
  copyCback : Option (List UInt8 → List UInt8)

/-- A callback with its arguments. -/
structure Callback where
  cb : ℕ
  event : UInt16
  param : Option (List UInt8)
  deriving DecidableEq

/-- Where `bt_app_task_handler` is: before its loop, at `xQueueSelectFromSet`, or with a message,
before and after its callback. -/
inductive HandlerPlace
  | start
  | select
  | context (msg : BtAppMsgT)
  | free (msg : BtAppMsgT)

/-- The message that the task has. -/
def HandlerPlace.msgs : HandlerPlace → List BtAppMsgT
  | .context msg | .free msg => [msg]
  | _ => []

/-- How far the task is from calling the next message back. -/
def HandlerPlace.distance : HandlerPlace → ℕ
  | .start | .free _ => 2
  | .select => 1
  | .context _ => 0

namespace TransferCall

variable (call : TransferCall)

/-- The bytes at `p_params`. -/
def bytes (mem : ℕ → UInt8) : List UInt8 := (List.range call.paramLen.toNat).map mem

/-- The copy. -/
def copy (mem : ℕ → UInt8) : List UInt8 := call.copyCback.getD id (call.bytes mem)

/-- What a call asks for, if it carries a callback. -/
def callback : Option Callback :=
  call.cback.map fun cb ↦
    ⟨cb, call.event, if call.paramLen = 0 then none else call.params.map call.copy⟩

end TransferCall

structure Messaging where
  heap : Heap
  /-- The contents of the blocks. -/
  memory : ℕ → List UInt8
  /-- The calls that are in `bt_app_post_msg`. -/
  posting : List (TransferCall × BtAppMsgT)
  tskQue : List BtAppMsgT
  place : HandlerPlace
  /-- The blocks that calls have allocated, and those that have been freed. -/
  allocated : List ℕ
  freed : List ℕ
  /-- What the calls that have returned `true` ask for, in the order of their posts. -/
  posted : List (Option Callback)
  /-- What has become of the messages. -/
  executed : List (Option Callback)

inductive Messaging.Op
  /-- A task calls `bt_app_transfer_context`. -/
  | call (call : TransferCall)
  /-- `xQueueSend` of one of the calls returns: there is room, or there has been none for 10 ms. -/
  | send (i : ℕ)
  | timeout (i : ℕ)
  /-- The Bluetooth task goes on. -/
  | handler

namespace Messaging

def init (grants : ℕ → Bool) : Messaging :=
  ⟨⟨0, 0, grants⟩, fun _ ↦ [], [], [], .start, [], [], [], []⟩

variable (s : Messaging)

def post (call : TransferCall) (param : Option ℕ) : Messaging :=
  { s with
    posting := s.posting ++ [(call, ⟨BT_APP_SIG_CONTEXT_SWITCH, call.event, call.cback, param⟩)] }

def btAppTransferContext (call : TransferCall) : Messaging :=
  if call.paramLen = 0 then s.post call none
  else
    match call.params with
    | none => s
    | some mem =>
      if 0 < call.paramLen then
        match s.heap.malloc with
        | (none, heap) => { s with heap }
        | (some p, heap) =>
          { s with
            heap
            memory := Function.update s.memory p (call.copy mem)
            allocated := s.allocated ++ [p] }.post call (some p)
      else s

/-- What a message does when it is handled. -/
def callbackOf (msg : BtAppMsgT) : Option Callback :=
  if msg.sig = BT_APP_SIG_CONTEXT_SWITCH then
    msg.cb.map fun cb ↦ ⟨cb, msg.event, msg.param.map s.memory⟩
  else none

def btAppTaskHandler : Option Messaging :=
  match s.place with
  | .start => some { s with place := .select }
  | .select =>
    match s.tskQue with
    | [] => none
    | msg :: tskQue => some { s with tskQue, place := .context msg }
  | .context msg =>
    some { s with executed := s.executed ++ [s.callbackOf msg], place := .free msg }
  | .free msg =>
    match msg.param with
    | none => some { s with place := .select }
    | some p => some { s with heap := s.heap.free p, freed := s.freed ++ [p], place := .select }

def step (s : Messaging) : Op → Option Messaging
  | .call call => some (s.btAppTransferContext call)
  | .send i =>
    match s.posting[i]? with
    | none => none
    | some (call, msg) =>
      if s.tskQue.length < BT_APP_TASK_QUE_LEN then
        some { s with
          posting := s.posting.eraseIdx i
          tskQue := s.tskQue ++ [msg]
          posted := s.posted ++ [call.callback] }
      else none
  | .timeout i =>
    if i < s.posting.length ∧ s.tskQue.length = BT_APP_TASK_QUE_LEN then
      some { s with posting := s.posting.eraseIdx i }
    else none
  | .handler => s.btAppTaskHandler

/-! ## What it is for -/

/-- All messages that are on their way. -/
def msgs : List BtAppMsgT := s.place.msgs ++ s.tskQue ++ s.posting.map Prod.snd

/-- Their blocks. -/
def owned : List ℕ := s.msgs.flatMap fun msg ↦ msg.param.toList

/-- The messages that have been posted and not been called back. -/
def underway : List BtAppMsgT :=
  (match s.place with
    | .context msg => [msg]
    | _ => []) ++ s.tskQue

def Op.isHandler : Op → Bool
  | .handler => true
  | _ => false

structure Settles : Prop where
  /-- A block has been freed, once, or belongs to one message that is on its way. -/
  blocks : (s.freed ++ s.owned).Perm s.allocated
  nodup : s.allocated.Nodup
  /-- What has been posted has been called back, or will be, in the order of the posts. -/
  inOrder : s.executed ++ s.underway.map s.callbackOf = s.posted
  executes : ∀ n ≤ s.posted.length,
    LeadsTo step (fun _ _ ↦ True) Op.isHandler (fun t ↦ n ≤ t.executed.length) s

/-- A call does not give up that has allocated a block. -/
def Fits : Op → Prop
  | .timeout i => ∀ call msg, s.posting[i]? = some (call, msg) → msg.param = none
  | _ => True

/-! ## One step -/

/-- What is always so; the blocks `lost` belong to nobody. -/
structure Keeps (lost : List ℕ) : Prop where
  blocks : (s.freed ++ s.owned ++ lost).Perm s.allocated
  nodup : s.allocated.Nodup
  fresh : ∀ p ∈ s.allocated, p < s.heap.asked
  posting : ∀ x ∈ s.posting, s.callbackOf x.2 = x.1.callback
  inOrder : s.executed ++ s.underway.map s.callbackOf = s.posted

/-- The blocks that a step leaves behind. -/
def lostBy : Op → List ℕ
  | .timeout i => s.posting[i]?.toList.flatMap fun x ↦ x.2.param.toList
  | _ => []

variable {s} {t : Messaging} {lost : List ℕ} {op : Op}

theorem owned_eq : s.owned = s.place.msgs.flatMap (fun msg ↦ msg.param.toList) ++
    s.tskQue.flatMap (fun msg ↦ msg.param.toList) ++
      s.posting.flatMap fun x ↦ x.2.param.toList := by
  rw [owned, msgs, List.flatMap_append, List.flatMap_append, List.flatMap_map]

theorem owned_post (call : TransferCall) (param : Option ℕ) :
    (s.post call param).owned = s.owned ++ param.toList := by
  rw [owned_eq, owned_eq, post, List.flatMap_append, List.flatMap_singleton, List.append_assoc _ _
    param.toList]

/-- What has been taken out of a list belongs to the rest of it. -/
theorem flatMap_eraseIdx_perm {α : Type*} {l : List α} {i : ℕ} {x : α} (f : α → List ℕ)
    (hx : l[i]? = some x) : (f x ++ (l.eraseIdx i).flatMap f).Perm (l.flatMap f) := by
  obtain ⟨hi, rfl⟩ := List.getElem?_eq_some_iff.mp hx
  exact (List.getElem_cons_eraseIdx_perm hi).flatMap_right f

theorem Keeps.perm_iff_not_lost (h : s.Keeps lost) :
    (s.freed ++ s.owned).Perm s.allocated ↔ lost = [] := by
  constructor
  · intro hperm
    have hlength := (h.blocks.trans hperm.symm).length_eq
    rw [List.length_append] at hlength
    exact List.length_eq_zero_iff.mp (by omega)
  · rintro rfl
    exact List.append_nil (s.freed ++ s.owned) ▸ h.blocks

theorem Keeps.owned_lt (h : s.Keeps lost) {p : ℕ} (hp : p ∈ s.owned) : p < s.heap.asked := by
  refine h.fresh p (h.blocks.mem_iff.mp ?_)
  exact List.mem_append_left _ (List.mem_append_right _ hp)

/-- A message of which no block is written is called back as before. -/
theorem callbackOf_congr {msg : BtAppMsgT} (h : ∀ p ∈ msg.param, t.memory p = s.memory p) :
    t.callbackOf msg = s.callbackOf msg := by
  have hparam : msg.param.map t.memory = msg.param.map s.memory := Option.map_congr h
  rw [callbackOf, callbackOf, hparam]

theorem mem_of_mem_underway {msg : BtAppMsgT} (h : msg ∈ s.underway) :
    msg ∈ s.place.msgs ++ s.tskQue := by
  rw [underway] at h
  split at h
  · case _ hplace =>
    rw [hplace]
    exact h
  · exact List.mem_append_right _ h

theorem Keeps.post_none {call : TransferCall} (h : s.Keeps lost) (hlen : call.paramLen = 0) :
    (s.post call none).Keeps lost := by
  constructor
  · rw [owned_post, Option.toList_none, List.append_nil]
    exact h.blocks
  · exact h.nodup
  · exact h.fresh
  · intro x hx
    rcases List.mem_append.mp hx with hx | hx
    · exact h.posting x hx
    · obtain rfl := List.mem_singleton.mp hx
      rw [callbackOf, TransferCall.callback, if_pos rfl, if_pos hlen]
      rfl
  · exact h.inOrder

/-- A block is taken for the parameters of a call. -/
theorem Keeps.post_some {call : TransferCall} {mem : ℕ → UInt8} (h : s.Keeps lost)
    (hlen : call.paramLen ≠ 0) (hparams : call.params = some mem) :
    ({ s with
      heap := { s.heap with live := s.heap.asked ::ₘ s.heap.live, asked := s.heap.asked + 1 }
      memory := Function.update s.memory s.heap.asked (call.copy mem)
      allocated := s.allocated ++ [s.heap.asked] }.post call (some s.heap.asked)).Keeps lost := by
  -- no message that is on its way has the new block
  have hold : ∀ msg ∈ s.msgs, ∀ p ∈ msg.param,
      Function.update s.memory s.heap.asked (call.copy mem) p = s.memory p := by
    intro msg hmsg p hp
    have hlt := h.owned_lt (List.mem_flatMap.mpr ⟨msg, hmsg, Option.mem_toList.mpr hp⟩)
    exact Function.update_of_ne hlt.ne _ _
  constructor
  · rw [owned_post, Option.toList_some]
    have hperm := h.blocks.append_right [s.heap.asked]
    refine List.Perm.trans ?_ hperm
    change (s.freed ++ (s.owned ++ [s.heap.asked]) ++ lost).Perm
      (s.freed ++ s.owned ++ lost ++ [s.heap.asked])
    simp only [List.append_assoc]
    have hcomm : ([s.heap.asked] ++ lost).Perm (lost ++ [s.heap.asked]) := List.perm_append_comm
    exact (hcomm.append_left s.owned).append_left s.freed
  · refine List.Nodup.append h.nodup (List.nodup_singleton _) ?_
    intro p hp hmem
    exact (h.fresh p hp).ne (List.mem_singleton.mp hmem)
  · intro p hp
    rcases List.mem_append.mp hp with hp | hp
    · exact Nat.lt_succ_of_lt (h.fresh p hp)
    · rw [List.mem_singleton.mp hp]
      exact Nat.lt_succ_self _
  · intro x hx
    rcases List.mem_append.mp hx with hx | hx
    · refine (callbackOf_congr (hold x.2 ?_)).trans (h.posting x hx)
      exact List.mem_append_right _ (List.mem_map_of_mem hx)
    · obtain rfl := List.mem_singleton.mp hx
      rw [callbackOf, TransferCall.callback, if_pos rfl, if_neg hlen, hparams]
      simp [post]
  · refine Eq.trans (congrArg (s.executed ++ ·) (List.map_congr_left fun msg hmsg ↦ ?_)) h.inOrder
    exact callbackOf_congr (hold msg (List.mem_append_left _ (mem_of_mem_underway hmsg)))

theorem Keeps.call (h : s.Keeps lost) (call : TransferCall) :
    (s.btAppTransferContext call).Keeps lost := by
  rw [btAppTransferContext]
  split_ifs with hlen hpos
  · exact h.post_none hlen
  · split
    · exact h
    · case _ mem hparams =>
      by_cases hgrants : s.heap.grants s.heap.asked = true
      · rw [Heap.malloc, if_pos hgrants]
        exact h.post_some hlen hparams
      · rw [Heap.malloc, if_neg hgrants]
        exact ⟨h.blocks, h.nodup, fun p hp ↦ Nat.lt_succ_of_lt (h.fresh p hp), h.posting,
          h.inOrder⟩
  · split
    · exact h
    · exact h

theorem Keeps.send {i : ℕ} (h : s.Keeps lost) (hstep : s.step (.send i) = some t) :
    t.Keeps lost := by
  rw [step] at hstep
  split at hstep
  · exact absurd hstep.symm (Option.some_ne_none t)
  · case _ call msg hi =>
    split_ifs at hstep
    obtain rfl := Option.some.inj hstep
    have hmem : (call, msg) ∈ s.posting := List.mem_of_getElem? hi
    constructor
    · refine List.Perm.trans ?_ h.blocks
      have hperm := flatMap_eraseIdx_perm (fun x : TransferCall × BtAppMsgT ↦ x.2.param.toList) hi
      rw [owned_eq, owned_eq, List.flatMap_append, List.flatMap_singleton]
      refine ((List.Perm.append_left _ ?_).append_right lost)
      simp only [List.append_assoc]
      exact (hperm.append_left _).append_left _
    · exact h.nodup
    · exact h.fresh
    · intro x hx
      exact h.posting x (List.mem_of_mem_eraseIdx hx)
    · have hcallback := h.posting _ hmem
      change s.executed ++ (_ ++ (s.tskQue ++ [msg])).map s.callbackOf = s.posted ++ [call.callback]
      rw [← h.inOrder, ← List.append_assoc, List.map_append, List.map_singleton, hcallback,
        ← List.append_assoc]
      rfl

theorem Keeps.timeout {i : ℕ} (h : s.Keeps lost) (hstep : s.step (.timeout i) = some t) :
    t.Keeps (s.lostBy (.timeout i) ++ lost) := by
  rw [step] at hstep
  split_ifs at hstep with hi
  obtain rfl := Option.some.inj hstep
  have hget : s.posting[i]? = some s.posting[i] := List.getElem?_eq_getElem hi.1
  constructor
  · refine List.Perm.trans ?_ h.blocks
    have hperm := flatMap_eraseIdx_perm (fun x : TransferCall × BtAppMsgT ↦ x.2.param.toList) hget
    rw [owned_eq, owned_eq, lostBy, hget, Option.toList_some, List.flatMap_singleton]
    simp only [List.append_assoc]
    refine (((List.Perm.append_left _ ?_).append_left _).append_left _)
    simp only [← List.append_assoc]
    exact (List.perm_append_comm.trans hperm).append_right lost
  · exact h.nodup
  · exact h.fresh
  · intro x hx
    exact h.posting x (List.mem_of_mem_eraseIdx hx)
  · exact h.inOrder

theorem Keeps.handler (h : s.Keeps lost) (hstep : s.btAppTaskHandler = some t) :
    t.Keeps lost := by
  have hblocks := h.blocks
  have hinOrder := h.inOrder
  rw [owned, msgs] at hblocks
  rw [underway] at hinOrder
  rw [btAppTaskHandler] at hstep
  split at hstep
  · case _ hplace =>
    obtain rfl := Option.some.inj hstep
    rw [hplace] at hblocks hinOrder
    exact ⟨hblocks, h.nodup, h.fresh, h.posting, hinOrder⟩
  · case _ hplace =>
    rw [hplace] at hblocks hinOrder
    split at hstep
    · exact absurd hstep.symm (Option.some_ne_none t)
    · case _ msg tskQue hque =>
      obtain rfl := Option.some.inj hstep
      rw [hque] at hblocks hinOrder
      exact ⟨hblocks, h.nodup, h.fresh, h.posting, hinOrder⟩
  · case _ msg hplace =>
    obtain rfl := Option.some.inj hstep
    rw [hplace] at hblocks hinOrder
    refine ⟨hblocks, h.nodup, h.fresh, h.posting, ?_⟩
    rw [List.map_append, List.map_singleton, ← List.append_assoc] at hinOrder
    exact hinOrder
  · case _ msg hplace =>
    rw [hplace] at hblocks hinOrder
    split at hstep
    · case _ hparam =>
      obtain rfl := Option.some.inj hstep
      refine ⟨?_, h.nodup, h.fresh, h.posting, hinOrder⟩
      change ((s.freed ++ ([msg] ++ s.tskQue ++ _).flatMap _) ++ lost).Perm _ at hblocks
      rw [List.append_assoc [msg], List.singleton_append, List.flatMap_cons, hparam] at hblocks
      exact hblocks
    · case _ p hparam =>
      obtain rfl := Option.some.inj hstep
      refine ⟨?_, h.nodup, h.fresh, h.posting, hinOrder⟩
      change ((s.freed ++ ([msg] ++ s.tskQue ++ _).flatMap _) ++ lost).Perm _ at hblocks
      rw [List.append_assoc [msg], List.singleton_append, List.flatMap_cons, hparam,
        Option.toList_some, ← List.append_assoc] at hblocks
      exact hblocks

theorem Keeps.step (h : s.Keeps lost) (hstep : s.step op = some t) :
    t.Keeps (s.lostBy op ++ lost) := by
  cases op with
  | call call =>
    obtain rfl := Option.some.inj hstep
    exact h.call call
  | send i => exact h.send hstep
  | timeout i => exact h.timeout hstep
  | handler => exact h.handler hstep

/-! ## The Bluetooth task goes on -/

theorem btAppTransferContext_same (call : TransferCall) :
    (s.btAppTransferContext call).posted = s.posted ∧
      (s.btAppTransferContext call).executed = s.executed ∧
      (s.btAppTransferContext call).place = s.place := by
  rw [btAppTransferContext]
  split_ifs
  · exact ⟨rfl, rfl, rfl⟩
  · split
    · exact ⟨rfl, rfl, rfl⟩
    · split
      · exact ⟨rfl, rfl, rfl⟩
      · exact ⟨rfl, rfl, rfl⟩
  · split
    · exact ⟨rfl, rfl, rfl⟩
    · exact ⟨rfl, rfl, rfl⟩

/-- The steps of the others leave the task where it is, and its own bring it forward. -/
theorem forward (hstep : s.step op = some t) :
    s.posted.length ≤ t.posted.length ∧
      3 * s.executed.length + t.place.distance + (if op.isHandler = true then 1 else 0) =
        3 * t.executed.length + s.place.distance := by
  cases op with
  | call call =>
    obtain rfl := Option.some.inj hstep
    obtain ⟨hposted, hexecuted, hplace⟩ := s.btAppTransferContext_same call
    rw [hposted, hexecuted, hplace]
    exact ⟨le_rfl, rfl⟩
  | send i =>
    rw [step] at hstep
    split at hstep
    · exact absurd hstep.symm (Option.some_ne_none t)
    · split_ifs at hstep
      obtain rfl := Option.some.inj hstep
      refine ⟨?_, rfl⟩
      rw [List.length_append]
      exact Nat.le_add_right _ _
  | timeout i =>
    rw [step] at hstep
    split_ifs at hstep
    obtain rfl := Option.some.inj hstep
    exact ⟨le_rfl, rfl⟩
  | handler =>
    rw [step, btAppTaskHandler] at hstep
    split at hstep
    · case _ hplace =>
      obtain rfl := Option.some.inj hstep
      rw [hplace]
      exact ⟨le_rfl, rfl⟩
    · case _ hplace =>
      split at hstep
      · exact absurd hstep.symm (Option.some_ne_none t)
      · obtain rfl := Option.some.inj hstep
        rw [hplace]
        exact ⟨le_rfl, rfl⟩
    · case _ hplace =>
      obtain rfl := Option.some.inj hstep
      rw [hplace, List.length_append, List.length_singleton]
      refine ⟨le_rfl, ?_⟩
      change 3 * s.executed.length + 2 + 1 = 3 * (s.executed.length + 1) + 0
      omega
    · case _ hplace =>
      split at hstep
      · obtain rfl := Option.some.inj hstep
        rw [hplace]
        exact ⟨le_rfl, rfl⟩
      · obtain rfl := Option.some.inj hstep
        rw [hplace]
        exact ⟨le_rfl, rfl⟩

/-- There is something for the task to do until all messages have been called back. -/
theorem Keeps.handler_moves (h : s.Keeps lost) (hlt : s.executed.length < s.posted.length) :
    ∃ t, s.step .handler = some t := by
  rw [Messaging.step, btAppTaskHandler]
  cases hplace : s.place with
  | start => exact ⟨_, rfl⟩
  | select =>
    cases hque : s.tskQue with
    | nil =>
      have hinOrder := h.inOrder
      rw [underway, hplace, hque] at hinOrder
      rw [← hinOrder, List.length_append] at hlt
      exact absurd hlt (lt_irrefl _)
    | cons msg tskQue => exact ⟨_, rfl⟩
  | context msg => exact ⟨_, rfl⟩
  | free msg =>
    cases hparam : msg.param with
    | none => exact ⟨_, by simp only [hparam]; rfl⟩
    | some p => exact ⟨_, by simp only [hparam]; rfl⟩

/-- **What has been posted is called back.** -/
theorem Keeps.executes (h : s.Keeps lost) {n : ℕ} (hn : n ≤ s.posted.length) :
    LeadsTo Messaging.step (fun _ _ ↦ True) Op.isHandler (fun t ↦ n ≤ t.executed.length) s := by
  refine leadsTo_of_measure (I := fun s ↦ (∃ lost, s.Keeps lost) ∧ n ≤ s.posted.length)
    (fun s ↦ 3 * (n - s.executed.length) + s.place.distance) ?_ ?_ ⟨⟨lost, h⟩, hn⟩
  · rintro s ⟨⟨lost, h⟩, hn⟩ hgoal
    obtain ⟨t, hstep⟩ := h.handler_moves ((Nat.not_le.mp hgoal).trans_le hn)
    exact ⟨.handler, t, rfl, trivial, hstep⟩
  · rintro s op t ⟨⟨lost, h⟩, hn⟩ hgoal - hstep
    obtain ⟨hposted, hforward⟩ := forward hstep
    by_cases hdone : n ≤ t.executed.length
    · exact .inl hdone
    · refine .inr ⟨⟨⟨_, h.step hstep⟩, hn.trans hposted⟩, ?_⟩
      omega

theorem Keeps.settles_iff_not_lost (h : s.Keeps lost) : s.Settles ↔ lost = [] := by
  rw [← h.perm_iff_not_lost]
  exact ⟨fun hsettles ↦ hsettles.blocks,
    fun hblocks ↦ ⟨hblocks, h.nodup, h.inOrder, fun _ hn ↦ h.executes hn⟩⟩

theorem keeps_init (grants : ℕ → Bool) : (init grants).Keeps [] :=
  ⟨.nil, List.nodup_nil, fun _ hp ↦ absurd hp List.not_mem_nil,
    fun _ hx ↦ absurd hx List.not_mem_nil, rfl⟩

theorem fits_iff_lostBy (hstep : s.step op = some t) : s.Fits op ↔ s.lostBy op = [] := by
  cases op with
  | timeout i =>
    rw [step] at hstep
    split_ifs at hstep with hi
    rw [Fits, lostBy, List.getElem?_eq_getElem hi.1, Option.toList_some, List.flatMap_singleton,
      Option.toList_eq_nil_iff]
    constructor
    · intro hfits
      exact hfits _ _ rfl
    · rintro hnone call msg heq
      rw [Option.some.inj heq] at hnone
      exact hnone
  | _ => exact iff_of_true trivial rfl

/-- **Messages are called back once, in order, and no block is lost**, throughout a run in which no
call gives up that has allocated a block, and in no other. -/
theorem settles_iff {grants : ℕ → Bool} {ops : List Op}
    (h : AnyRun step (init grants) ops s) :
    Always step Settles (init grants) ops ↔ Run step Fits (init grants) ops s := by
  refine h.always_iff (J := fun s ↦ ∃ lost, s.Keeps lost) ?_ ?_ ⟨[], keeps_init grants⟩
    ((keeps_init grants).settles_iff_not_lost.mpr rfl)
  · rintro s op t ⟨lost, h⟩ hstep
    exact ⟨_, h.step hstep⟩
  · rintro s op t ⟨lost, h⟩ hsettles hstep
    obtain rfl := h.settles_iff_not_lost.mp hsettles
    rw [(h.step hstep).settles_iff_not_lost, List.append_nil, fits_iff_lostBy hstep]

/-- A call with two bytes, of which the first is 1. -/
def twoBytes : TransferCall := ⟨some 7, 3, some fun k ↦ UInt8.ofNat (k + 1), 2, none⟩

/-- It is called back. -/
theorem settles_twoBytes : Always step Settles (init fun _ ↦ true)
    [.handler, .call twoBytes, .send 0, .handler, .handler, .handler] := by
  refine (settles_iff (anyRun_of_foldlM rfl)).mpr ?_
  exact .cons trivial rfl <| .cons trivial rfl <| .cons trivial rfl <| .cons trivial rfl <|
    .cons trivial rfl <| .cons trivial rfl <| .nil _

/-- The queue stays full, and the eleventh call gives up. -/
theorem not_settles_full : ¬∀ grants ops s, AnyRun step (init grants) ops s → s.Settles := by
  intro h
  have hsettles := h (fun _ ↦ true) ((List.replicate 10 [.call twoBytes, .send 0]).flatten ++
      [.call twoBytes, .timeout 0]) _ <| anyRun_of_foldlM rfl
  exact absurd hsettles.blocks.length_eq (by decide)

end Messaging

end Ddmz.Bluetooth
