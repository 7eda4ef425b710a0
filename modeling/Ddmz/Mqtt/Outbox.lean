import Ddmz.Foundation.Eviction

/-!
# The outbox

`mqtt_outbox.c` keeps a copy of each packet that waits for its acknowledgement, in the order in
which they have been sent. A packet is taken out when it is acknowledged, and the task of the
client takes out those that have become too old and, while the rest is too large, the oldest that
is not pending.

The clean-up ends for every outbox, takes out no more than it has to and nothing that is pending,
and fails only where what is pending is too large by itself: `outboxCleanup_spec`.
-/

namespace Ddmz.Mqtt

open Eviction

/-- `outbox_item_t`. -/
structure OutboxItem where
  buffer : List UInt8
  msgId : ℕ
  msgType : ℕ
  tick : Int32
  pending : Bool

/-! ## The code -/

/-- `outbox_enqueue`, which may find no memory. -/
def outboxEnqueue (outbox : List OutboxItem) (data : List UInt8) (msgId msgType : ℕ) (tick : Int32)
    (granted : Bool) : List OutboxItem :=
  if granted then outbox ++ [⟨data, msgId, msgType, tick, false⟩] else outbox

def outboxDequeue (outbox : List OutboxItem) : Option OutboxItem :=
  outbox.find? fun item ↦ !item.pending

/-- `outbox_delete`, with whether it returns `ESP_OK`. -/
def outboxDelete (msgId msgType : ℕ) : List OutboxItem → List OutboxItem × Bool
  | [] => ([], false)
  | item :: outbox =>
    if item.msgId = msgId ∧ item.msgType = msgType then (outbox, true)
    else (item :: (outboxDelete msgId msgType outbox).1, (outboxDelete msgId msgType outbox).2)

/-- The loop of `outbox_delete_expired`, over the items that are too old. -/
def outboxDeleteAll (p : OutboxItem → Bool) : List OutboxItem → List OutboxItem
  | [] => []
  | item :: outbox =>
    if p item then outboxDeleteAll p outbox else item :: outboxDeleteAll p outbox

def outboxDeleteExpired (outbox : List OutboxItem) (currentTick timeout : Int32) :
    List OutboxItem :=
  outboxDeleteAll (fun item ↦ currentTick - item.tick > timeout) outbox

def outboxGetSize (outbox : List OutboxItem) : ℕ :=
  outbox.foldl (fun siz item ↦ siz + item.buffer.length) 0

/-- `outbox_cleanup`, with whether it returns `ESP_OK`. -/
def outboxCleanup (outbox : List OutboxItem) (maxSize : ℕ) : List OutboxItem × Bool :=
  if outboxGetSize outbox > maxSize then
    if _h : (outboxDequeue outbox).isSome then
      outboxCleanup (outbox.eraseP fun item ↦ !item.pending) maxSize
    else (outbox, false)
  else (outbox, true)
termination_by outbox.length
decreasing_by
  obtain ⟨item, hitem⟩ := Option.isSome_iff_exists.mp _h
  have hmem := List.mem_of_find?_eq_some hitem
  rw [List.length_eraseP_of_mem hmem (List.find?_some hitem)]
  exact Nat.sub_one_lt_of_lt (List.length_pos_of_mem hmem)

/-! ## What is taken out -/

section Removal

variable {outbox : List OutboxItem}

theorem outboxGetSize_eq (outbox : List OutboxItem) :
    outboxGetSize outbox = load (·.buffer.length) outbox := by
  have hfold (n : ℕ) : outbox.foldl (fun siz item ↦ siz + item.buffer.length) n
      = n + load (·.buffer.length) outbox := by
    induction outbox generalizing n with
    | nil => rfl
    | cons item outbox ih =>
      rw [List.foldl_cons, ih, load, load, List.map_cons, List.sum_cons, Nat.add_assoc]
  rw [outboxGetSize, hfold, Nat.zero_add]

theorem outboxDelete_eq (msgId msgType : ℕ) (outbox : List OutboxItem) :
    outboxDelete msgId msgType outbox =
      (outbox.eraseP fun item ↦ item.msgId = msgId ∧ item.msgType = msgType,
        outbox.any fun item ↦ item.msgId = msgId ∧ item.msgType = msgType) := by
  induction outbox with
  | nil => rfl
  | cons item outbox ih =>
    rw [outboxDelete, List.any_cons]
    split_ifs with h
    · rw [List.eraseP_cons_of_pos (by simpa using h), decide_eq_true h, Bool.true_or]
    · rw [List.eraseP_cons_of_neg (by simpa using h), decide_eq_false h, Bool.false_or, ih]

theorem outboxDeleteAll_eq (p : OutboxItem → Bool) (outbox : List OutboxItem) :
    outboxDeleteAll p outbox = outbox.filter fun item ↦ !p item := by
  induction outbox with
  | nil => rfl
  | cons item outbox ih =>
    rw [outboxDeleteAll, ih, List.filter_cons]
    cases p item <;> rfl

/-- The clean-up makes room. -/
theorem makesRoom_outboxCleanup (outbox : List OutboxItem) (maxSize : ℕ) :
    MakesRoom (fun item : OutboxItem ↦ !item.pending) (·.buffer.length) maxSize outbox
      (outboxCleanup outbox maxSize) := by
  induction hn : outbox.length using Nat.strongRecOn generalizing outbox with
  | ind n ih =>
    rw [outboxCleanup, outboxGetSize_eq]
    split_ifs with hsize hsome
    · obtain ⟨item, hitem⟩ := Option.isSome_iff_exists.mp hsome
      have hmem := List.mem_of_find?_eq_some hitem
      have hlength := List.length_eraseP_of_mem hmem (List.find?_some hitem)
      have hpos := List.length_pos_of_mem hmem
      exact makesRoom_step hsize (ih _ (by omega) _ rfl)
    · refine makesRoom_stuck hsize fun item hitem ↦ ?_
      have hnone := List.find?_eq_none.mp (Option.not_isSome_iff_eq_none.mp hsome) item hitem
      exact Bool.eq_false_iff.mpr hnone
    · exact makesRoom_done (Nat.not_lt.mp hsize)

/-- **The clean-up**, of every outbox: what is pending stays, of the rest the oldest go, no more of
them than it takes, and only where what is pending is too large by itself is it given up, when just
that is left. -/
theorem outboxCleanup_spec (outbox : List OutboxItem) (maxSize : ℕ) :
    let r := outboxCleanup outbox maxSize
    r.1.filter (·.pending) = outbox.filter (·.pending) ∧
      (∃ k, r.1.filter (!·.pending) = (outbox.filter (!·.pending)).drop k) ∧
      (∀ k, outboxGetSize (evict (!·.pending) k outbox) ≤ maxSize →
        (evict (!·.pending) k outbox).Sublist r.1) ∧
      (r.2 = true ↔ outboxGetSize r.1 ≤ maxSize) ∧
      (r.2 = false ↔ maxSize < outboxGetSize (outbox.filter (·.pending))) ∧
      (r.2 = false → r.1 = outbox.filter (·.pending)) ∧ r.1.Sublist outbox := by
  have hroom := makesRoom_outboxCleanup outbox maxSize
  obtain ⟨k, hk, -⟩ := hroom.steps
  have hpending : (outboxCleanup outbox maxSize).1.filter (·.pending)
      = outbox.filter (·.pending) := by
    have hfilter : (evict (!·.pending) k outbox).filter (fun item ↦ !!item.pending)
        = outbox.filter (fun item ↦ !!item.pending) := filter_not_evict
    simpa only [Bool.not_not, ← hk] using hfilter
  refine ⟨hpending, ⟨k, by rw [hk, filter_evict]⟩, fun k hle ↦ ?_, ?_, ?_, fun hfalse ↦ ?_,
    hroom.sublist⟩
  · rw [outboxGetSize_eq] at hle
    exact hroom.keeps_most hle
  · rw [outboxGetSize_eq]
    exact hroom.snd_iff
  · have hstuck := hroom.snd_false_iff
    simp only [Bool.not_not] at hstuck
    rw [outboxGetSize_eq]
    exact hstuck
  · have hleft := hroom.fst_of_snd_false hfalse
    simpa only [Bool.not_not] using hleft

end Removal

end Ddmz.Mqtt
