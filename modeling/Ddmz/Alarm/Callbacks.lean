import Ddmz.Alarm.Store
import Ddmz.Foundation.Runs

/-!
# Callbacks that change the list

`PollTimerCallback` keeps the address of an alarm while it calls the function of the alarm, and
reads the link to the next one behind the call. The function may call the service: it may add
alarms, which are put in front of the list, and it may delete them. The loop does not mind if it
deletes another alarm, whether the loop has been there or not. But if it deletes its own, the loop
goes on with memory that has been freed.

A visit of the loop is a step here, and what the function does in the meantime is its label. Blocks
that `calloc` returns are numbered, so that a block that has been freed is not used again.
With functions that do nothing the loop is that of `pollTimerCallback`,
`anyRun_of_pollTimerCallback`.

`walks_iff` says that the loop comes through, and to every alarm, if and only if no function deletes
the alarm that it is called for.
-/

namespace Ddmz.Alarm

/-- What a trigger function may do with the service. -/
inductive CallbackOp
  | add (x : AddCall) (granted : Bool)
  | delete (handle : UInt32)

/-- The service, and the next block that `calloc` returns. -/
structure Blocks where
  store : AlarmStore
  next : ℕ

namespace Blocks

variable (b : Blocks)

/-- Whether a block is in use. -/
def InUse (p : ℕ) : Prop := (b.store.list.entries p).isSome

instance (p : ℕ) : Decidable (b.InUse p) := inferInstanceAs (Decidable (_ = true))

/-- There are no more alarms than blocks, which is a bound for the loop of `esp_alarm_delete`. -/
def perform (b : Blocks) : CallbackOp → Option Blocks
  | .add x granted =>
    some ⟨(espAlarmAdd { x with newEntry := if granted then some b.next else none } b.store).2,
      b.next + 1⟩
  | .delete handle =>
    (espAlarmDelete (b.next + 1) handle b.store).map fun r ↦ { b with store := r.2 }

def performAll (ops : List CallbackOp) : Option Blocks := ops.foldlM perform b

/-- Write to an entry, which must be in use. -/
def write (p : ℕ) (f : EspAlarmInfo → EspAlarmInfo) : Option Blocks :=
  if b.InUse p then some { b with store := { b.store with list := b.store.list.setVal p f } }
  else none

end Blocks

/-- The call of its trigger function that an alarm gets. -/
def triggerCall (type : TriggerType) (info : EspAlarmInfo) : Option TriggerCall :=
  match type, info.triggerFunc with
  | .ESP_OK, _ => none
  | _, none => none
  | _, some func =>
    if info.status = .A_running then some ⟨func, info.triggerArg, info.handle⟩ else none

/-- `PollTimerCallback` at the beginning of a round of its loop. -/
structure Polling where
  blocks : Blocks
  it : Option ℕ
  /-- How often a difference of times has been computed. -/
  diffs : ℕ
  /-- Where the loop has been. -/
  visits : List ℕ
  calls : List TriggerCall

namespace Polling

def start (b : Blocks) : Polling := ⟨b, b.store.list.lhFirst, 0, [], []⟩

variable (diff : ℕ → Date → ℤ) (s : Polling) (ops : List CallbackOp)

/-- What is done to the alarm in the entry `p`: `alarmTrigger`, and the call of its function, which
does `ops`. -/
def trigger (p : ℕ) (info : EspAlarmInfo) : Option Blocks :=
  let r := alarmTrigger diff s.diffs info
  (s.blocks.write p fun _ ↦ r.2.2).bind fun b ↦
    match triggerCall r.1 r.2.2 with
    | none => some b
    | some _ => (b.performAll ops).bind fun b ↦
      if r.1 = .ABS_SUCC then b.write p fun info ↦ { info with status := .A_idle } else some b

/-- A round of the loop. It ends with a null pointer, and is not possible where it would read or
write what is not in use. -/
def visit : Option Polling :=
  s.it.bind fun p ↦ (s.blocks.store.list.entries p).bind fun e ↦
    let r := alarmTrigger diff s.diffs e.val
    (s.trigger diff ops p e.val).bind fun b ↦ (b.store.list.entries p).map fun e' ↦
      { blocks := b
        it := e'.leNext
        diffs := r.2.1
        visits := s.visits ++ [p]
        calls := s.calls ++ (triggerCall r.1 r.2.2).toList }

/-- If a function is called in this round, the alarm that it is called for is still there when it
returns. -/
def Spares : Prop :=
  ∀ p e b b', s.it = some p → s.blocks.store.list.entries p = some e →
    (triggerCall (alarmTrigger diff s.diffs e.val).1 (alarmTrigger diff s.diffs e.val).2.2).isSome →
    s.blocks.write p (fun _ ↦ (alarmTrigger diff s.diffs e.val).2.2) = some b →
    b.performAll ops = some b' → b'.InUse p

/-- With the functions doing `ops k` in the `k`-th round, the loop ends without touching memory that
is not in use, and has been exactly once to each alarm of `l` that is there all the time. -/
def Walks (ops : ℕ → List CallbackOp) (b : Blocks) (l : List (ℕ × EspAlarmInfo)) : Prop :=
  ∃ n t l', AnyRun (visit diff) (start b) ((List.range n).map ops) t ∧ t.it = none ∧
    t.blocks.store.list.Holds l' ∧
    ∀ p ∈ l.map Prod.fst, p ∈ l'.map Prod.fst → t.visits.count p = 1

end Polling

/-! ## What a function does -/

section Performing

variable {b b' b'' : Blocks} {l l' l'' : List (ℕ × EspAlarmInfo)} {p : ℕ} {op : CallbackOp}
  {ops : List CallbackOp}

/-- The list is in order, and the next block is a new one. -/
structure Blocks.Keeps (b : Blocks) (l : List (ℕ × EspAlarmInfo)) : Prop where
  holds : b.store.list.Holds l
  below : ∀ p, b.InUse p → p < b.next

theorem Blocks.Keeps.inUse (h : b.Keeps l) (hp : p ∈ l.map Prod.fst) : b.InUse p := by
  obtain ⟨x, hx, rfl⟩ := List.mem_map.mp hp
  obtain ⟨next, prev, hentry⟩ := h.holds.chain.entry_of_mem hx
  exact Option.isSome_of_eq_some hentry

/-- There are no more alarms than blocks. -/
theorem Blocks.Keeps.length_lt (h : b.Keeps l) : l.length < b.next + 1 := by
  have hsub : l.map Prod.fst ⊆ List.range b.next := fun p hp ↦
    List.mem_range.mpr (h.below p (h.inUse hp))
  have hle := (h.holds.nodup.subperm hsub).length_le
  rw [List.length_map, List.length_range] at hle
  exact Nat.lt_succ_of_le hle

/-- What may have become of the list `l`: new alarms are in front, and what is gone is freed. -/
structure Later (b : Blocks) (l : List (ℕ × EspAlarmInfo)) (b' : Blocks)
    (l' : List (ℕ × EspAlarmInfo)) : Prop where
  keeps : b'.Keeps l'
  next_le : b.next ≤ b'.next
  list : ∃ new kept, l'.map Prod.fst = new ++ kept ∧ kept.Sublist (l.map Prod.fst) ∧
    ∀ p ∈ new, b.next ≤ p
  stays : ∀ p ∈ l.map Prod.fst, b'.InUse p → p ∈ l'.map Prod.fst
  freed : ∀ p < b.next, ¬b.InUse p → ¬b'.InUse p

theorem Blocks.Keeps.later (h : b.Keeps l) : Later b l b l where
  keeps := h
  next_le := le_rfl
  list := ⟨[], l.map Prod.fst, rfl, List.Sublist.refl _, nofun⟩
  stays _ hp _ := hp
  freed _ _ hp := hp

theorem Later.trans (h : Later b l b' l') (hl : b.Keeps l) (h' : Later b' l' b'' l'') :
    Later b l b'' l'' where
  keeps := h'.keeps
  next_le := h.next_le.trans h'.next_le
  list := by
    obtain ⟨new, kept, heq, hkept, hnew⟩ := h.list
    obtain ⟨new', kept', heq', hkept', hnew'⟩ := h'.list
    rw [heq] at hkept'
    obtain ⟨new₁, kept₁, rfl, hnew₁, hkept₁⟩ := List.sublist_append_iff.mp hkept'
    refine ⟨new' ++ new₁, kept₁, by rw [heq', List.append_assoc], hkept₁.trans hkept,
      fun p hp ↦ ?_⟩
    obtain hp | hp := List.mem_append.mp hp
    · exact h.next_le.trans (hnew' p hp)
    · exact hnew p (hnew₁.subset hp)
  stays p hp huse := by
    refine h'.stays p (h.stays p hp (not_not.mp fun hnot ↦ ?_)) huse
    exact h'.freed p ((hl.below p (hl.inUse hp)).trans_le h.next_le) hnot huse
  freed p hlt hp := h'.freed p (hlt.trans_le h.next_le) (h.freed p hlt hp)

theorem Blocks.not_inUse : ¬b.InUse p ↔ b.store.list.entries p = none :=
  Option.not_isSome_iff_eq_none

/-- One block has been allocated, and perhaps put in front of the list. -/
theorem later_allocated {store : AlarmStore} (new : List (ℕ × EspAlarmInfo)) (h : b.Keeps l)
    (hholds : store.list.Holds (new ++ l)) (hnew : ∀ x ∈ new, x.1 = b.next)
    (hnone : ∀ q ≠ b.next, b.store.list.entries q = none → store.list.entries q = none) :
    Later b l ⟨store, b.next + 1⟩ (new ++ l) where
  keeps := by
    refine ⟨hholds, fun p hp ↦ not_le.mp fun hle ↦ ?_⟩
    change b.next + 1 ≤ p at hle
    have hfree : ¬b.InUse p := fun huse ↦ absurd (h.below p huse) (by omega)
    exact Blocks.not_inUse.mpr (hnone p (by omega) (Blocks.not_inUse.mp hfree)) hp
  next_le := Nat.le_succ _
  list := by
    refine ⟨new.map Prod.fst, l.map Prod.fst, List.map_append, List.Sublist.refl _, fun p hp ↦ ?_⟩
    obtain ⟨x, hx, rfl⟩ := List.mem_map.mp hp
    exact (hnew x hx).ge
  stays p hp _ := by
    rw [List.map_append]
    exact List.mem_append_right _ hp
  freed p hlt hp := Blocks.not_inUse.mpr (hnone p hlt.ne (Blocks.not_inUse.mp hp))

/-- An alarm is added in front, or none. -/
theorem later_add (h : b.Keeps l) {x : AddCall} (hx : ∀ p, x.newEntry = some p → p = b.next) :
    ∃ l', Later b l ⟨(espAlarmAdd x b.store).2, b.next + 1⟩ l' := by
  cases hp : x.newEntry with
  | none =>
    rw [(espAlarmAdd_newEntry_none hp).2]
    exact ⟨l, later_allocated [] h h.holds (fun _ hx ↦ absurd hx List.not_mem_nil)
      fun _ _ hq ↦ hq⟩
  | some p =>
    obtain rfl := hx p hp
    have hfresh : b.store.list.entries b.next = none :=
      Blocks.not_inUse.mp fun huse ↦ Nat.lt_irrefl _ (h.below _ huse)
    have hadd := espAlarmAdd_eq b.store hp
    cases hout : x.outcome with
    | error code =>
      rw [hout] at hadd
      obtain ⟨-, heq | heq⟩ := hadd
      · rw [heq]
        exact ⟨l, later_allocated [] h h.holds (fun _ hx ↦ absurd hx List.not_mem_nil)
      fun _ _ hq ↦ hq⟩
      · rw [heq]
        exact ⟨l, later_allocated [] h (h.holds.put hfresh _)
          (fun _ hx ↦ absurd hx List.not_mem_nil)
          fun q hne hq ↦ (ListMem.entries_put_ne _ hne).trans hq⟩
    | ok alarmInfo =>
      have hholds := holds_added h.holds hfresh hp hout
      rw [hout] at hadd
      dsimp only at hadd
      rw [hadd] at hholds ⊢
      refine ⟨_, later_allocated [_] h hholds ?_ fun q hne hq ↦ ?_⟩
      · exact fun y hy ↦ congrArg Prod.fst (List.mem_singleton.mp hy)
      · exact ListMem.entries_insertHead_none ((ListMem.entries_put_ne _ hne).trans hq)

/-- An alarm is deleted, or none. -/
theorem later_delete (h : b.Keeps l) (handle : UInt32) :
    ∃ b' l', b.perform (.delete handle) = some b' ∧ Later b l b' l' := by
  have hfind : findHandle (b.next + 1) handle b.store
      = some ((l.find? fun x ↦ handle == x.2.handle).map Prod.fst) :=
    ListMem.find_eq h.holds.chain h.length_lt
  cases hx : l.find? fun x ↦ handle == x.2.handle with
  | none =>
    refine ⟨b, l, ?_, h.later⟩
    rw [Blocks.perform, espAlarmDelete, hfind, hx]
    rfl
  | some x =>
    obtain ⟨-, l₁, l₂, rfl, -⟩ := List.find?_eq_some_iff_append.mp hx
    obtain ⟨m, hremove, hholds⟩ := h.holds.remove
    have hnone : ∀ q, b.store.list.entries q = none → (m.free x.1).entries q = none :=
      fun q hq ↦ ListMem.entries_free_none (ListMem.entries_remove_none hq hremove)
    refine ⟨{ b with store := { b.store with list := m.free x.1 } }, l₁ ++ l₂, ?_, ⟨hholds, ?_⟩,
      le_rfl, ⟨[], (l₁ ++ l₂).map Prod.fst, rfl, ?_, fun _ hp ↦ absurd hp List.not_mem_nil⟩,
      fun p hp huse ↦ ?_, ?_⟩
    · rw [Blocks.perform, espAlarmDelete, hfind, hx]
      dsimp only [Option.map_some]
      rw [hremove]
      rfl
    · exact fun p hp ↦ h.below p (not_not.mp fun hnot ↦
        Blocks.not_inUse.mpr (hnone p (Blocks.not_inUse.mp hnot)) hp)
    · rw [List.map_append, List.map_append]
      exact (List.Sublist.refl _).append (List.sublist_cons_self _ _)
    · rw [List.map_append, List.map_cons, List.mem_append, List.mem_cons] at hp
      have hne : p ≠ x.1 := by
        rintro rfl
        exact Blocks.not_inUse.mpr ListMem.entries_free_self huse
      rw [List.map_append, List.mem_append]
      exact hp.imp_right fun hp ↦ hp.resolve_left hne
    · exact fun p _ hp ↦ Blocks.not_inUse.mpr (hnone p (Blocks.not_inUse.mp hp))

theorem later_performAll (ops : List CallbackOp) (h : b.Keeps l) :
    ∃ b' l', b.performAll ops = some b' ∧ Later b l b' l' := by
  induction ops generalizing b l with
  | nil => exact ⟨b, l, rfl, h.later⟩
  | cons op ops ih =>
    have hop : ∃ b' l', b.perform op = some b' ∧ Later b l b' l' := by
      cases op with
      | add x granted =>
        have hx : ∀ p, (if granted then some b.next else none) = some p → p = b.next := by
          cases granted with
          | false => exact nofun
          | true => exact fun p hp ↦ (Option.some.inj hp).symm
        obtain ⟨l', hlater⟩ := later_add h (x := { x with newEntry := _ }) hx
        exact ⟨_, l', rfl, hlater⟩
      | delete handle => exact later_delete h handle
    obtain ⟨b', l', hb', hlater⟩ := hop
    obtain ⟨b'', l'', hb'', hlater'⟩ := ih hlater.keeps
    refine ⟨b'', l'', ?_, hlater.trans h hlater'⟩
    rw [Blocks.performAll, List.foldlM_cons, hb']
    exact hb''

/-- Writing to an alarm does not change the list. -/
theorem later_write (h : b.Keeps l) (hp : p ∈ l.map Prod.fst) (f : EspAlarmInfo → EspAlarmInfo) :
    ∃ b' l', b.write p f = some b' ∧ b'.next = b.next ∧ b'.Keeps l' ∧
      l'.map Prod.fst = l.map Prod.fst := by
  have huse := h.inUse hp
  refine ⟨_, _, if_pos huse, rfl, ⟨h.holds.setVal p f, fun q hq ↦ h.below q ?_⟩, ?_⟩
  · exact not_not.mp fun hnot ↦ Blocks.not_inUse.mpr
      (ListMem.entries_modify_none (Blocks.not_inUse.mp hnot)) hq
  · rw [List.map_map]
    rfl

/-- The link of an alarm in the list. -/
theorem Blocks.Keeps.entry (h : b.Keeps l) {pre post : List ℕ}
    (hl : l.map Prod.fst = pre ++ p :: post) :
    ∃ e, b.store.list.entries p = some e ∧ e.leNext = post.head? := by
  obtain ⟨l₁, l₂, rfl, -, hpost⟩ := List.map_eq_append_iff.mp hl
  obtain ⟨x, l₃, rfl, rfl, rfl⟩ := List.map_eq_cons_iff.mp hpost
  obtain ⟨-, -, hentry, hchain⟩ := ListMem.chain_append.mp h.holds.chain
  refine ⟨_, hentry, ?_⟩
  cases l₃ with
  | nil => exact hchain
  | cons y l₃ => exact hchain.1

end Performing

/-! ## Functions that leave the service alone -/

section Quiet

variable {diff : ℕ → Date → ℤ} {s : Polling} {b : Blocks} {p : ℕ}

namespace Polling

/-- The body of the loop in terms of the call. -/
theorem pollAlarm_eq (diff : ℕ → Date → ℤ) (r : ℕ × List TriggerCall) (info : EspAlarmInfo) :
    pollAlarm diff r info =
      (((alarmTrigger diff r.1 info).2.1, r.2 ++ (triggerCall (alarmTrigger diff r.1 info).1
        (alarmTrigger diff r.1 info).2.2).toList),
      if (triggerCall (alarmTrigger diff r.1 info).1 (alarmTrigger diff r.1 info).2.2).isSome ∧
          (alarmTrigger diff r.1 info).1 = .ABS_SUCC then
        { (alarmTrigger diff r.1 info).2.2 with status := .A_idle }
      else (alarmTrigger diff r.1 info).2.2) := by
  rw [pollAlarm]
  generalize alarmTrigger diff r.1 info = a
  obtain ⟨type, k, it⟩ := a
  dsimp only
  cases hfunc : it.triggerFunc with
  | none => cases type <;> simp [triggerCall, hfunc]
  | some func =>
    by_cases hrun : it.status = .A_running
    · cases type <;> simp [triggerCall, hfunc, hrun]
    · cases type <;> simp [triggerCall, hfunc, hrun]

theorem write_eq {f : EspAlarmInfo → EspAlarmInfo} {e : Entry ℕ EspAlarmInfo}
    (he : b.store.list.entries p = some e) : b.write p f =
      some { b with store := { b.store with
        list := b.store.list.put p { e with val := f e.val } } } := by
  have huse : b.InUse p := Option.isSome_of_eq_some he
  rw [Blocks.write, if_pos huse, ListMem.setVal, ListMem.modify, ListMem.put, he]
  rfl

/-- A round of the loop in which a function does nothing to the service. -/
theorem visit_nil {e : Entry ℕ EspAlarmInfo} (hit : s.it = some p)
    (he : s.blocks.store.list.entries p = some e) : s.visit diff [] = some
      { blocks := { s.blocks with store := { s.blocks.store with
          list := s.blocks.store.list.put p
            { e with val := (pollAlarm diff (s.diffs, s.calls) e.val).2 } } }
        it := e.leNext
        diffs := (pollAlarm diff (s.diffs, s.calls) e.val).1.1
        visits := s.visits ++ [p]
        calls := (pollAlarm diff (s.diffs, s.calls) e.val).1.2 } := by
  have htrigger : s.trigger diff [] p e.val = some { s.blocks with store := { s.blocks.store with
      list := s.blocks.store.list.put p
        { e with val := (pollAlarm diff (s.diffs, s.calls) e.val).2 } } } := by
    rw [trigger, write_eq he, pollAlarm_eq]
    dsimp only [Option.bind_some]
    cases triggerCall (alarmTrigger diff s.diffs e.val).1 (alarmTrigger diff s.diffs e.val).2.2 with
    | none => rw [if_neg fun h ↦ Bool.false_ne_true h.1]
    | some call =>
      dsimp only
      rw [Blocks.performAll, List.foldlM_nil]
      dsimp only [pure, Option.bind_some]
      by_cases hsucc : (alarmTrigger diff s.diffs e.val).1 = .ABS_SUCC
      · rw [if_pos hsucc, if_pos ⟨rfl, hsucc⟩, write_eq (ListMem.entries_put_self _)]
        dsimp only
        rw [ListMem.put_put]
      · rw [if_neg hsucc, if_neg fun h ↦ hsucc h.2]
  rw [visit, hit, Option.bind_some, he, Option.bind_some]
  dsimp only
  rw [htrigger, Option.bind_some, ListMem.entries_put_self, pollAlarm_eq]
  rfl

theorem anyRun_of_traverse {n : ℕ} {r : (ℕ × List TriggerCall) × ListMem ℕ EspAlarmInfo}
    (h : ListMem.traverse (fun b it ↦ ((pollAlarm diff b it.val).1,
      { it with val := (pollAlarm diff b it.val).2 })) n s.blocks.store.list s.it
        (s.diffs, s.calls) = some r) :
    ∃ m t, AnyRun (visit diff) s (List.replicate m []) t ∧ t.it = none ∧ t.calls = r.1.2 ∧
      t.blocks = { s.blocks with store := { s.blocks.store with list := r.2 } } := by
  induction n generalizing s with
  | zero => exact absurd h.symm (Option.some_ne_none r)
  | succ n ih =>
    cases hit : s.it with
    | none =>
      rw [hit] at h
      obtain rfl := Option.some.inj h
      exact ⟨0, s, .nil s, hit, rfl, rfl⟩
    | some p =>
      rw [hit, ListMem.traverse] at h
      cases he : s.blocks.store.list.entries p with
      | none =>
        rw [he] at h
        exact absurd h.symm (Option.some_ne_none r)
      | some e =>
        rw [he] at h
        obtain ⟨m, t, hrun, hend, hcalls, hblocks⟩ := ih (s := ⟨⟨{ s.blocks.store with list := _ },
          s.blocks.next⟩, e.leNext, _, s.visits ++ [p], _⟩) h
        exact ⟨m + 1, t, .cons trivial (visit_nil hit he) hrun, hend, hcalls, hblocks⟩

/-- **With functions that leave the service alone, the loop is `pollTimerCallback`.** -/
theorem anyRun_of_pollTimerCallback {n : ℕ} {r : List TriggerCall × AlarmStore}
    (h : pollTimerCallback n b.store diff = some r) :
    ∃ m t, AnyRun (visit diff) (start b) (List.replicate m []) t ∧ t.it = none ∧
      t.calls = r.1 ∧ t.blocks = { b with store := r.2 } := by
  obtain ⟨r', htraverse, rfl⟩ := Option.map_eq_some_iff.mp h
  exact anyRun_of_traverse (s := start b) htraverse

end Polling

end Quiet

/-! ## The loop -/

section Loop

variable {diff : ℕ → Date → ℤ} {s t : Polling} {b : Blocks} {l : List (ℕ × EspAlarmInfo)}
  {ids pre post : List ℕ} {p : ℕ} {ops : List CallbackOp}

namespace Polling

/-- The loop has been to the alarms in `pre`, and those in `post` are to come; `ids` are the alarms
that were in the list from the beginning. -/
structure OnWay (ids : List ℕ) (s : Polling) (pre post : List ℕ) : Prop where
  list : ∃ l, s.blocks.Keeps l ∧ l.map Prod.fst = pre ++ post
  it : s.it = post.head?
  old : ∀ p ∈ ids, p < s.blocks.next
  behind : ∀ p ∈ pre, p ∈ ids → p ∈ s.visits
  ahead : ∀ p ∈ post, p ∈ ids ∧ p ∉ s.visits
  nodup : s.visits.Nodup

/-- What is left of a list around an alarm that is still there. -/
theorem split_of_sublist {kept : List ℕ} (h : kept.Sublist (pre ++ p :: post))
    (hnodup : (pre ++ p :: post).Nodup) (hp : p ∈ kept) :
    ∃ pre' post', kept = pre' ++ p :: post' ∧ pre'.Sublist pre ∧ post'.Sublist post := by
  obtain ⟨pre', rest, rfl, hpre, hrest⟩ := List.sublist_append_iff.mp h
  obtain ⟨-, hcons, hdisjoint⟩ := List.nodup_append.mp hnodup
  obtain hskip | ⟨post', rfl, hpost⟩ := List.sublist_cons_iff.mp hrest
  · obtain hmem | hmem := List.mem_append.mp hp
    · exact absurd rfl (hdisjoint p (hpre.subset hmem) p List.mem_cons_self)
    · exact absurd (hskip.subset hmem) (List.nodup_cons.mp hcons).1
  · exact ⟨pre', post', rfl, hpre, hpost⟩

/-- A round leaves the alarm where it is, if no function deletes it. -/
theorem trigger_spares (h : s.OnWay ids pre (p :: post)) {e : Entry ℕ EspAlarmInfo}
    (he : s.blocks.store.list.entries p = some e) (hspares : s.Spares diff ops) :
    ∃ b l pre' post', s.trigger diff ops p e.val = some b ∧ b.Keeps l ∧
      s.blocks.next ≤ b.next ∧ l.map Prod.fst = pre' ++ p :: post' ∧ post'.Sublist post ∧
      ∀ q ∈ pre', q ∈ pre ∨ s.blocks.next ≤ q := by
  obtain ⟨l, hkeeps, hl⟩ := h.list
  have hp : p ∈ l.map Prod.fst := hl ▸ List.mem_append_right pre List.mem_cons_self
  obtain ⟨b₁, l₁, hwrite, hnext₁, hkeeps₁, hl₁⟩ :=
    later_write hkeeps hp fun _ ↦ (alarmTrigger diff s.diffs e.val).2.2
  rw [hl] at hl₁
  rw [trigger, hwrite, Option.bind_some]
  cases hcall : triggerCall (alarmTrigger diff s.diffs e.val).1
      (alarmTrigger diff s.diffs e.val).2.2 with
  | none =>
    exact ⟨b₁, l₁, pre, post, rfl, hkeeps₁, hnext₁.ge, hl₁, List.Sublist.refl _,
      fun _ hq ↦ .inl hq⟩
  | some call =>
    obtain ⟨b₂, l₂, hperform, hlater⟩ := later_performAll ops hkeeps₁
    have huse : b₂.InUse p := hspares p e b₁ b₂ h.it he (Option.isSome_of_eq_some hcall) hwrite
      hperform
    -- the alarm is none of the new ones, so it is where it was in what is left of the list
    obtain ⟨new, kept, heq, hkept, hnew⟩ := hlater.list
    have hp₁ : p ∈ l₁.map Prod.fst := hl₁ ▸ List.mem_append_right pre List.mem_cons_self
    have hp₂ : p ∈ kept := by
      have hmem := hlater.stays p hp₁ huse
      rw [heq] at hmem
      refine (List.mem_append.mp hmem).resolve_left fun hmem ↦ ?_
      exact absurd (hnew p hmem) (not_le.mpr (hkeeps₁.below p (hkeeps₁.inUse hp₁)))
    rw [hl₁] at hkept
    obtain ⟨pre', post', rfl, hpre, hpost⟩ :=
      split_of_sublist hkept (hl₁ ▸ hkeeps₁.holds.nodup) hp₂
    rw [← List.append_assoc] at heq
    have hlast : ∃ b₃ l₃, (if (alarmTrigger diff s.diffs e.val).1 = .ABS_SUCC then
        b₂.write p fun info ↦ { info with status := .A_idle } else some b₂) = some b₃ ∧
        b₃.next = b₂.next ∧ b₃.Keeps l₃ ∧ l₃.map Prod.fst = l₂.map Prod.fst := by
      split_ifs
      · exact later_write hlater.keeps (hlater.stays p hp₁ huse) _
      · exact ⟨b₂, l₂, rfl, rfl, hlater.keeps, rfl⟩
    obtain ⟨b₃, l₃, hwrite₃, hnext₃, hkeeps₃, hl₃⟩ := hlast
    dsimp only
    rw [hperform, Option.bind_some, hwrite₃]
    refine ⟨b₃, l₃, new ++ pre', post', rfl, hkeeps₃, ?_, hl₃.trans heq, hpost, fun q hq ↦ ?_⟩
    · rw [hnext₃, ← hnext₁]
      exact hlater.next_le
    · obtain hq | hq := List.mem_append.mp hq
      · exact .inr (hnext₁ ▸ hnew q hq)
      · exact .inl (hpre.subset hq)

/-- **A round of the loop** brings it closer to the end. -/
theorem OnWay.visit (h : s.OnWay ids pre (p :: post)) (hspares : s.Spares diff ops) :
    ∃ t pre' post', s.visit diff ops = some t ∧ t.OnWay ids pre' post' ∧
      post'.length ≤ post.length := by
  obtain ⟨l, hkeeps, hl⟩ := h.list
  obtain ⟨e, he, -⟩ := hkeeps.entry hl
  obtain ⟨b, l', pre', post', htrigger, hkeeps', hnext, hl', hpost, hpre⟩ :=
    trigger_spares h he hspares
  obtain ⟨e', he', hlink⟩ := hkeeps'.entry hl'
  have hnodup := hl ▸ hkeeps.holds.nodup
  have hp := h.ahead p List.mem_cons_self
  have hvisit : s.visit diff ops = some ⟨b, e'.leNext, (alarmTrigger diff s.diffs e.val).2.1,
      s.visits ++ [p], s.calls ++ (triggerCall (alarmTrigger diff s.diffs e.val).1
        (alarmTrigger diff s.diffs e.val).2.2).toList⟩ := by
    rw [Polling.visit, h.it, List.head?_cons, Option.bind_some, he, Option.bind_some]
    dsimp only
    rw [htrigger, Option.bind_some, he']
    rfl
  refine ⟨_, pre' ++ [p], post', hvisit, ⟨⟨l', hkeeps', ?_⟩, hlink, ?_, ?_, ?_, ?_⟩,
    hpost.length_le⟩
  · rw [hl', List.append_assoc]
    rfl
  · exact fun q hq ↦ (h.old q hq).trans_le hnext
  · intro q hq hold
    obtain hq | hq := List.mem_append.mp hq
    · obtain hq | hq := hpre q hq
      · exact List.mem_append_left _ (h.behind q hq hold)
      · exact absurd (h.old q hold) (not_lt.mpr hq)
    · exact List.mem_append_right _ hq
  · intro q hq
    have hahead := h.ahead q (List.mem_cons_of_mem _ (hpost.subset hq))
    refine ⟨hahead.1, fun hmem ↦ ?_⟩
    obtain hmem | hmem := List.mem_append.mp hmem
    · exact hahead.2 hmem
    · obtain rfl := List.mem_singleton.mp hmem
      have hcons := (List.nodup_append.mp hnodup).2.1
      exact (List.nodup_cons.mp hcons).1 (hpost.subset hq)
  · exact List.nodup_append.mpr ⟨h.nodup, List.nodup_singleton p, fun a ha c hc ↦ by
      rintro rfl
      exact hp.2 (List.mem_singleton.mp hc ▸ ha)⟩

/-- A function that deletes its alarm leaves the loop with memory that is not in use. -/
theorem visit_of_not_spares (h : ¬s.Spares diff ops) : s.visit diff ops = none := by
  rw [Spares] at h
  push Not at h
  obtain ⟨p, e, b, b', hit, he, hcall, hwrite, hperform, hfree⟩ := h
  obtain ⟨call, hcall⟩ := Option.isSome_iff_exists.mp hcall
  rw [Polling.visit, hit, Option.bind_some, he, Option.bind_some, trigger, hwrite]
  dsimp only [Option.bind_some]
  rw [hcall]
  dsimp only
  rw [hperform, Option.bind_some]
  split_ifs
  · rw [Blocks.write, if_neg hfree]
    rfl
  · rw [Option.bind_some, Blocks.not_inUse.mp hfree]
    rfl

theorem onWay_start (hkeeps : b.Keeps l) :
    (start b).OnWay (l.map Prod.fst) [] (l.map Prod.fst) where
  list := ⟨l, hkeeps, rfl⟩
  it := by
    have hchain := hkeeps.holds.chain
    cases l with
    | nil => exact hchain
    | cons x l => exact hchain.1
  old p hp := hkeeps.below p (hkeeps.inUse hp)
  behind := nofun
  ahead p hp := ⟨hp, List.not_mem_nil⟩
  nodup := List.nodup_nil

/-- The rounds up to the end. -/
theorem OnWay.exists_end {ops : ℕ → List CallbackOp} {n : ℕ}
    (hspares : ∀ n t, AnyRun (Polling.visit diff) (start b) ((List.range n).map ops) t →
      t.Spares diff (ops n))
    (hrun : AnyRun (Polling.visit diff) (start b) ((List.range n).map ops) s)
    (h : s.OnWay ids pre post) : ∃ n t pre',
      AnyRun (Polling.visit diff) (start b) ((List.range n).map ops) t ∧ t.OnWay ids pre' [] := by
  induction hlength : post.length using Nat.strong_induction_on generalizing n s pre post with
  | _ k ih =>
    cases post with
    | nil => exact ⟨n, s, pre, hrun, h⟩
    | cons p post =>
      obtain ⟨t, pre', post', hvisit, hnext, hle⟩ := h.visit (hspares n s hrun)
      have hrun' : AnyRun (Polling.visit diff) (start b) ((List.range (n + 1)).map ops) t := by
        rw [List.range_succ, List.map_append]
        exact hrun.append (.cons trivial hvisit (.nil t))
      rw [List.length_cons] at hlength
      exact ih post'.length (by omega) hrun' hnext rfl

/-- A run of the loop that is longer takes its next round where the shorter one ends. -/
theorem next_round {ops : ℕ → List CallbackOp} {m n : ℕ} (hlt : n < m) {u : Polling}
    (hrun : AnyRun (visit diff) (start b) ((List.range n).map ops) t)
    (hrun' : AnyRun (visit diff) (start b) ((List.range m).map ops) u) :
    (t.visit diff (ops n)).isSome := by
  obtain ⟨k, rfl⟩ := Nat.exists_eq_add_of_lt hlt
  rw [Nat.add_assoc, List.range_add, List.range_succ_eq_map, List.map_append] at hrun'
  obtain ⟨v, hfirst, hrest⟩ := hrun'.split
  obtain rfl := hrun.unique hfirst
  cases hrest with
  | cons _ hstep _ => exact Option.isSome_of_eq_some hstep

/-- **The loop comes through** if and only if no function deletes the alarm that it is called
for. -/
theorem walks_iff {ops : ℕ → List CallbackOp} (hholds : b.store.list.Holds l)
    (hnew : ∀ p, b.InUse p → p < b.next) :
    Walks diff ops b l ↔
      ∀ n t, AnyRun (visit diff) (start b) ((List.range n).map ops) t → t.Spares diff (ops n) := by
  constructor
  · rintro ⟨m, u, -, hrun, hend, -⟩ n t hrun'
    by_contra hspares
    have hstuck := visit_of_not_spares hspares
    obtain hlt | heq | hlt := Nat.lt_trichotomy n m
    · have hsome := next_round hlt hrun' hrun
      rw [hstuck] at hsome
      exact Bool.false_ne_true hsome
    · subst heq
      obtain rfl := hrun.unique hrun'
      refine hspares fun p e b b' hit ↦ ?_
      exact absurd (hend.symm.trans hit).symm (Option.some_ne_none p)
    · have hsome := next_round hlt hrun hrun'
      rw [visit, hend] at hsome
      exact Bool.false_ne_true hsome
  · intro hspares
    obtain ⟨n, t, pre', hrun, hend⟩ :=
      (onWay_start ⟨hholds, hnew⟩).exists_end (n := 0) hspares (.nil (start b))
    obtain ⟨l', hkeeps', hl'⟩ := hend.list
    refine ⟨n, t, l', hrun, hend.it, hkeeps'.holds, fun p hp hp' ↦ ?_⟩
    rw [hl', List.append_nil] at hp'
    exact List.count_eq_one_of_mem hend.nodup (hend.behind p hp' hp)

/-- One alarm, which goes off once. -/
def oneAlarm : Blocks where
  store :=
    { list := ⟨some 0, fun p ↦ if p = 0 then
        some ⟨{ EspAlarmInfo.zero with status := .A_running, triggerFunc := some 7 }, none,
          some .head⟩ else none⟩
      lastHandle := 1
      pollTimer := true }
  next := 1

theorem inUse_oneAlarm (h : oneAlarm.InUse p) : p < oneAlarm.next := by
  by_contra hlt
  have hp : p ≠ 0 := fun hp ↦ hlt (hp ▸ Nat.zero_lt_one)
  exact absurd h (Blocks.not_inUse.mpr (if_neg hp))

theorem holds_oneAlarm : oneAlarm.store.list.Holds
    [(0, { EspAlarmInfo.zero with status := .A_running, triggerFunc := some 7 })] :=
  ⟨⟨rfl, rfl, rfl⟩, List.nodup_singleton 0⟩

/-- Its function deletes an alarm that is not there. -/
theorem walks_oneAlarm : Walks (fun _ _ ↦ 1) (fun _ ↦ [.delete 5]) oneAlarm
    [(0, { EspAlarmInfo.zero with status := .A_running, triggerFunc := some 7 })] := by
  refine (walks_iff holds_oneAlarm fun _ ↦ inUse_oneAlarm).mpr fun n t hrun ↦ ?_
  cases n with
  | zero =>
    cases hrun
    intro p e b b' hit he _ hwrite hperform
    obtain rfl := Option.some.inj hit
    obtain rfl := Option.some.inj he
    obtain rfl := Option.some.inj hwrite
    obtain rfl := Option.some.inj hperform
    rfl
  | succ n =>
    -- behind the one alarm there is none
    have hone : ((start oneAlarm).visit (fun _ _ ↦ 1) [.delete 5]).map Polling.it = some none :=
      rfl
    rw [List.range_succ_eq_map] at hrun
    cases hrun with
    | cons _ hstep hrest =>
      rw [hstep] at hone
      have hend := Option.some.inj hone
      cases n with
      | zero =>
        cases hrest
        exact fun p _ _ _ hit ↦ absurd (hend.symm.trans hit).symm (Option.some_ne_none p)
      | succ n =>
        rw [List.range_succ_eq_map] at hrest
        cases hrest with
        | cons _ hnext _ =>
          rw [visit, hend] at hnext
          exact absurd hnext.symm (Option.some_ne_none _)

/-- Its function deletes it. -/
theorem not_walks_deletesItself : ¬∀ diff ops b l, b.store.list.Holds l →
    (∀ p, b.InUse p → p < b.next) → Walks diff ops b l := by
  intro h
  obtain ⟨n, t, -, hrun, hend, -⟩ := h (fun _ _ ↦ 1) (fun _ ↦ [.delete 0]) oneAlarm _
    holds_oneAlarm fun _ ↦ inUse_oneAlarm
  have hstuck : (start oneAlarm).visit (fun _ _ ↦ 1) [.delete 0] = none := rfl
  cases n with
  | zero =>
    cases hrun
    exact absurd hend (Option.some_ne_none 0)
  | succ n =>
    rw [List.range_succ_eq_map] at hrun
    cases hrun with
    | cons _ hstep _ => exact Option.some_ne_none _ (hstep.symm.trans hstuck)

end Polling

end Loop

end Ddmz.Alarm
