import Ddmz.Foundation.Runs
import Ddmz.Foundation.Traces

/-!
# The card in the slot

Each edge on the detection pin runs an interrupt handler, which puts an item into a queue for one.
`SDCardDetectionTask` waits until there is an item, without taking it; it unmounts what is mounted,
waits a second and reads the pin, mounts the card if there is one, and takes the item at the end.

So the handler of an edge that comes after the pin has been read finds the queue full, and the task
takes the item that stands for the new edge as well. Otherwise the file system follows the card:
`agrees_of_run`.
-/

namespace Ddmz.SdCard

/-- `DeviceNotifySDCardMsg`. -/
inductive NotifyMsg
  | UNDEFINED
  | MOUNTED
  | UNMOUNTED
  | MOUNT_FAILED
  deriving DecidableEq

def NotifyMsg.tells : NotifyMsg → Bool
  | .MOUNTED | .UNMOUNTED => true
  | _ => false

/-- What the services are to know. -/
def NotifyMsg.ofMounted (mounted : Bool) : NotifyMsg := if mounted then .MOUNTED else .UNMOUNTED

/-- Where the program is: in `SDCardManagerActive`, which has enabled the interrupt, and then in
`SDCardDetectionTask`. -/
inductive DetectionPlace
  /-- In `sd_card_status_detect`, before `sd_card_mount`, and before `notify`. -/
  | active
  | activeMount
  | activeNotify
  /-- The task looks for the card before its loop. -/
  | first
  /-- At `xQueuePeek`. -/
  | peek
  /-- Before `sd_card_unmount`, which waits for `TfCardMounting`. -/
  | unmount
  | detect
  | mount
  | notify
  /-- Before `xQueueReceive`. -/
  | receive
  deriving DecidableEq

structure Detection where
  /-- The level of the pin is low: there is a card. -/
  present : Bool
  /-- Edges whose handler has not run yet. -/
  pending : ℕ
  /-- An edge has come since the pin was read last. -/
  moved : Bool
  /-- There is an item in `sdcardEvtQueue`. -/
  sdcardEvtQueue : Bool
  TfCardMounting : Bool
  mounted : Bool
  lastState : Bool
  msg : NotifyMsg
  place : DetectionPlace
  /-- What the services have been told. -/
  notified : List NotifyMsg

inductive Detection.Op
  /-- The card is put in or taken out. -/
  | edge
  /-- `sd_card_gpio_intr_handler` runs. -/
  | handler
  /-- Another task says whether it mounts a card. -/
  | mounting (busy : Bool)
  /-- The program goes on; `mounts` is whether a card can be mounted that has just been taken
  out. -/
  | task (mounts : Bool)

namespace Detection

def init (present : Bool) : Detection :=
  ⟨present, 0, false, false, false, false, false, .UNDEFINED, .active, []⟩

variable (s : Detection)

/-- `sd_card_gpio_intr_handler`: there may be an item already. -/
def sdCardGpioIntrHandler : Option Detection :=
  if 0 < s.pending then some { s with pending := s.pending - 1, sdcardEvtQueue := true } else none

/-- `sd_card_mount` returns `ESP_OK`, or `ESP_ERR_INVALID_STATE` as it has been mounted already. -/
def mountsNow (mounts : Bool) : Bool := s.mounted || s.present || mounts

def sdCardManagerActive (mounts : Bool) : Option Detection :=
  match s.place with
  | .active =>
    some { s with moved := false, place := if s.present then .activeMount else .first }
  | .activeMount =>
    let mounted := s.mountsNow mounts
    some { s with mounted, msg := .ofMounted mounted, place := .activeNotify }
  | .activeNotify => some { s with notified := s.notified ++ [s.msg], place := .first }
  | _ => none

def sdCardDetectionTask (mounts : Bool) : Option Detection :=
  match s.place with
  | .first => some { s with moved := false, lastState := s.present, place := .peek }
  | .peek =>
    if s.sdcardEvtQueue then
      some { s with msg := .UNDEFINED, place := if s.lastState then .unmount else .detect }
    else none
  | .unmount =>
    if s.TfCardMounting then some s
    else some { s with mounted := false, lastState := false, msg := .UNMOUNTED, place := .detect }
  | .detect =>
    some { s with
      moved := false
      place := if s.present ∧ s.lastState = false then .mount else .notify }
  | .mount =>
    let mounted := s.mountsNow mounts
    some { s with
      mounted
      lastState := mounted
      msg := if mounted then .MOUNTED else .MOUNT_FAILED
      place := .notify }
  | .notify => some { s with notified := s.notified ++ [s.msg], place := .receive }
  | .receive =>
    if s.sdcardEvtQueue then some { s with sdcardEvtQueue := false, place := .peek } else none
  | _ => s.sdCardManagerActive mounts

def step (s : Detection) : Op → Option Detection
  | .edge => some { s with present := !s.present, pending := s.pending + 1, moved := true }
  | .handler => s.sdCardGpioIntrHandler
  | .mounting busy => some { s with TfCardMounting := busy }
  | .task mounts => s.sdCardDetectionTask mounts

/-! ## What it is for -/

/-- The task waits, and the handlers of all edges have run. -/
structure Rests : Prop where
  place : s.place = .peek
  queue : s.sdcardEvtQueue = false
  pending : s.pending = 0

/-- The last of these messages that says whether there is a file system. -/
def told : Option NotifyMsg := lastOf NotifyMsg.tells s.notified

/-- When the task rests, the file system is there exactly if the card is, and nobody has been told
otherwise. -/
structure Agrees : Prop where
  mounted : s.Rests → s.mounted = s.present
  lastState : s.Rests → s.lastState = s.present
  told : s.Rests → ∀ msg, s.told = some msg → msg = .ofMounted s.present

/-- What is mounted before the task has its own first look at the card is still in the slot then;
when the task has unmounted a card, its attempt to mount one does not fail because that has been
taken out since it was seen, which puts `MOUNT_FAILED` over `UNMOUNTED`; and when the task takes the
item from the queue, no edge has come since it read the pin, or the handler of one has still to
run. -/
def Fits : Op → Prop
  | .task mounts =>
    match s.place with
    | .first => s.mounted = true → s.present = true
    | .mount => s.msg = .UNMOUNTED → s.present = true ∨ mounts = true
    | .receive => s.moved = true → 0 < s.pending
    | _ => True
  | _ => True

/-! ## What holds at each place -/

/-- Nobody has been told otherwise. -/
def Told : Prop := ∀ msg, s.told = some msg → msg = .ofMounted s.mounted

/-- The file system, the variables of the task, and what the services know. -/
def Holds : DetectionPlace → Prop
  | .active | .activeMount => s.mounted = false ∧ s.notified = []
  | .activeNotify => s.msg = .ofMounted s.mounted ∧ s.notified = []
  | .first => s.Told
  | .peek => s.Told ∧ (s.mounted = true → s.lastState = true)
  | .unmount => True
  | .detect | .mount => s.mounted = false ∧ s.lastState = false ∧
      (s.msg = .UNMOUNTED ∨ s.msg = .UNDEFINED ∧ s.Told)
  | .notify => s.lastState = s.mounted ∧
      (s.msg = .ofMounted s.mounted ∨ s.msg.tells = false ∧ s.Told)
  | .receive => s.lastState = s.mounted ∧ s.Told

/-- There is an item in the queue, or will be. -/
def Woken : Prop := s.sdcardEvtQueue = true ∨ 0 < s.pending

/-- Either the file system is what the card is, or the task will look again. -/
def Sees : DetectionPlace → Prop
  | .active => True
  | .activeMount => s.present = true ∨ s.Woken
  | .activeNotify | .first => s.mounted = s.present ∨ s.Woken
  | .peek => s.mounted = s.present ∧ s.lastState = s.present ∨ s.Woken
  | .unmount | .detect => s.sdcardEvtQueue = true
  | .mount => s.sdcardEvtQueue = true ∧ (s.moved = false → s.present = true)
  | .notify | .receive => s.sdcardEvtQueue = true ∧ (s.moved = false → s.mounted = s.present)

structure Keeps : Prop where
  holds : s.Holds s.place
  sees : s.Sees s.place

variable {s} {t : Detection} {op : Op} {mounts : Bool}

theorem told_of_nil (h : s.notified = []) : s.Told := by
  intro msg hmsg
  rw [told, h, lastOf_nil] at hmsg
  exact absurd hmsg.symm (Option.some_ne_none msg)

/-- The services are told of the file system as it is. -/
theorem told_of_concat {msg : NotifyMsg} (hnotified : t.notified = s.notified ++ [msg])
    (hmsg : msg = .ofMounted t.mounted) : t.Told := by
  have htells : msg.tells = true := by
    rw [hmsg, NotifyMsg.ofMounted]
    split_ifs
    · rfl
    · rfl
  intro msg' hmsg'
  rw [told, hnotified, lastOf_concat_pos _ htells] at hmsg'
  rw [← Option.some.inj hmsg', hmsg]

/-- They are told of something else. -/
theorem Told.concat {msg : NotifyMsg} (h : s.Told) (hmounted : t.mounted = s.mounted)
    (hnotified : t.notified = s.notified ++ [msg]) (hmsg : msg.tells = false) : t.Told := by
  intro msg' hmsg'
  rw [told, hnotified, lastOf_concat_neg _ hmsg] at hmsg'
  rw [hmounted]
  exact h msg' hmsg'

/-- An edge, and its handler, do not touch what the task has. -/
theorem sees_edge {place : DetectionPlace} (h : s.Sees place) :
    ({ s with present := !s.present, pending := s.pending + 1, moved := true } : Detection).Sees
      place := by
  cases place with
  | active => trivial
  | activeMount | activeNotify | first | peek => exact .inr (.inr (Nat.succ_pos _))
  | unmount | detect => exact h
  | mount | notify | receive => exact ⟨h.1, fun hnot ↦ absurd hnot Bool.true_eq_false.mp⟩

theorem sees_handler {place : DetectionPlace} (h : s.Sees place) :
    ({ s with pending := s.pending - 1, sdcardEvtQueue := true } : Detection).Sees place := by
  cases place with
  | active => trivial
  | activeMount | activeNotify | first | peek => exact .inr (.inl rfl)
  | unmount | detect => rfl
  | mount | notify | receive => exact ⟨rfl, h.2⟩

theorem mountsNow_of_present (h : s.present = true) : s.mountsNow mounts = s.present := by
  rw [mountsNow, h, Bool.or_true, Bool.true_or]

theorem Keeps.active (h : s.Keeps) (hstep : s.sdCardManagerActive mounts = some t) : t.Keeps := by
  obtain ⟨hholds, hsees⟩ := h
  rw [sdCardManagerActive] at hstep
  split at hstep
  · case _ hplace =>
    obtain rfl := Option.some.inj hstep
    rw [hplace] at hholds
    by_cases hpresent : s.present = true
    · rw [if_pos hpresent]
      exact ⟨hholds, .inl hpresent⟩
    · rw [if_neg hpresent]
      refine ⟨told_of_nil hholds.2, .inl ?_⟩
      exact hholds.1.trans (Bool.eq_false_of_not_eq_true hpresent).symm
  · case _ hplace =>
    obtain rfl := Option.some.inj hstep
    rw [hplace] at hholds hsees
    exact ⟨⟨rfl, hholds.2⟩, hsees.imp_left mountsNow_of_present⟩
  · case _ hplace =>
    obtain rfl := Option.some.inj hstep
    rw [hplace] at hholds hsees
    exact ⟨told_of_concat rfl hholds.1, hsees⟩
  · exact absurd hstep.symm (Option.some_ne_none t)

/-- The pin is read. -/
theorem Keeps.detect (h : s.Keeps) (hplace : s.place = .detect)
    (hstep : s.sdCardDetectionTask mounts = some t) : t.Keeps := by
  obtain ⟨hholds, hsees⟩ := h
  rw [hplace] at hholds hsees
  rw [sdCardDetectionTask, hplace] at hstep
  obtain rfl := Option.some.inj hstep
  obtain ⟨hmounted, hlast, hmsg⟩ := hholds
  by_cases hpresent : s.present = true
  · rw [if_pos ⟨hpresent, hlast⟩]
    exact ⟨⟨hmounted, hlast, hmsg⟩, hsees, fun _ ↦ hpresent⟩
  · rw [if_neg fun hand ↦ hpresent hand.1]
    have hsame : s.mounted = s.present :=
      hmounted.trans (Bool.eq_false_of_not_eq_true hpresent).symm
    refine ⟨⟨hlast.trans hmounted.symm, ?_⟩, hsees, fun _ ↦ hsame⟩
    rcases hmsg with hmsg | ⟨hmsg, htold⟩
    · left
      change s.msg = .ofMounted s.mounted
      rw [hmsg, hmounted]
      rfl
    · right
      change s.msg.tells = false ∧ _
      rw [hmsg]
      exact ⟨rfl, htold⟩

/-- The card is mounted, or cannot be. -/
theorem Keeps.mount (h : s.Keeps) (hplace : s.place = .mount)
    (hfits : s.msg = .UNMOUNTED → s.present = true ∨ mounts = true)
    (hstep : s.sdCardDetectionTask mounts = some t) : t.Keeps := by
  obtain ⟨hholds, hsees⟩ := h
  rw [hplace] at hholds hsees
  rw [sdCardDetectionTask, hplace] at hstep
  obtain rfl := Option.some.inj hstep
  obtain ⟨hmounted, hlast, hmsg⟩ := hholds
  refine ⟨⟨rfl, ?_⟩, hsees.1, fun hmoved ↦ mountsNow_of_present (hsees.2 hmoved)⟩
  by_cases hmounts : s.mountsNow mounts = true
  · left
    simp only [hmounts, if_true, NotifyMsg.ofMounted]
  · -- a card that has been mounted before is still there
    have hundefined : s.Told := by
      rcases hmsg with hmsg | ⟨-, htold⟩
      · refine absurd ?_ hmounts
        rw [mountsNow, Bool.or_assoc, Bool.or_eq_true, Bool.or_eq_true]
        exact .inr (hfits hmsg)
      · exact htold
    right
    simp only [hmounts, Bool.false_eq_true, if_false]
    refine ⟨rfl, fun msg hmsg ↦ ?_⟩
    have hsame := hundefined msg hmsg
    rw [hmounted] at hsame
    exact hsame

/-- **A step of the program.** -/
theorem Keeps.task (h : s.Keeps) (hfits : s.Fits (.task mounts))
    (hstep : s.sdCardDetectionTask mounts = some t) : t.Keeps := by
  obtain ⟨hholds, hsees⟩ := h
  rw [Fits] at hfits
  cases hplace : s.place with
  | active | activeMount | activeNotify =>
    rw [sdCardDetectionTask, hplace] at hstep
    exact Keeps.active ⟨hholds, hsees⟩ hstep
  | first =>
    rw [hplace] at hholds hsees hfits
    rw [sdCardDetectionTask, hplace] at hstep
    obtain rfl := Option.some.inj hstep
    exact ⟨⟨hholds, hfits⟩, hsees.imp_left fun hmounted ↦ ⟨hmounted, rfl⟩⟩
  | peek =>
    rw [hplace] at hholds
    rw [sdCardDetectionTask, hplace] at hstep
    simp only at hstep
    split_ifs at hstep with hqueue hlast
    · obtain rfl := Option.some.inj hstep
      exact ⟨trivial, hqueue⟩
    · obtain rfl := Option.some.inj hstep
      have hmounted := Bool.eq_false_of_not_eq_true fun hmounted ↦ hlast (hholds.2 hmounted)
      exact ⟨⟨hmounted, Bool.eq_false_of_not_eq_true hlast, .inr ⟨rfl, hholds.1⟩⟩, hqueue⟩
  | unmount =>
    rw [hplace] at hholds hsees
    rw [sdCardDetectionTask, hplace] at hstep
    simp only at hstep
    split_ifs at hstep
    · obtain rfl := Option.some.inj hstep
      rw [← hplace] at hholds hsees
      exact ⟨hholds, hsees⟩
    · obtain rfl := Option.some.inj hstep
      exact ⟨⟨rfl, rfl, .inl rfl⟩, hsees⟩
  | detect => exact Keeps.detect ⟨hholds, hsees⟩ hplace hstep
  | mount =>
    rw [hplace] at hfits
    exact Keeps.mount ⟨hholds, hsees⟩ hplace hfits hstep
  | notify =>
    rw [hplace] at hholds hsees
    rw [sdCardDetectionTask, hplace] at hstep
    obtain rfl := Option.some.inj hstep
    refine ⟨⟨hholds.1, ?_⟩, hsees⟩
    rcases hholds.2 with hmsg | ⟨hmsg, htold⟩
    · exact told_of_concat rfl hmsg
    · exact htold.concat rfl rfl hmsg
  | receive =>
    rw [hplace] at hholds hsees hfits
    rw [sdCardDetectionTask, hplace] at hstep
    simp only [hsees.1, if_true] at hstep
    obtain rfl := Option.some.inj hstep
    refine ⟨⟨hholds.2, fun hmounted ↦ hholds.1.trans hmounted⟩, ?_⟩
    cases hmoved : s.moved with
    | false => exact .inl ⟨hsees.2 hmoved, hholds.1.trans (hsees.2 hmoved)⟩
    | true => exact .inr (.inr (hfits hmoved))

theorem Keeps.step (h : s.Keeps) (hfits : s.Fits op) (hstep : s.step op = some t) : t.Keeps := by
  cases op with
  | edge =>
    obtain rfl := Option.some.inj hstep
    exact ⟨h.holds, sees_edge h.sees⟩
  | handler =>
    rw [Detection.step, sdCardGpioIntrHandler] at hstep
    split_ifs at hstep
    obtain rfl := Option.some.inj hstep
    exact ⟨h.holds, sees_handler h.sees⟩
  | mounting busy =>
    obtain rfl := Option.some.inj hstep
    exact ⟨h.holds, h.sees⟩
  | task mounts => exact h.task hfits hstep

theorem keeps_init (present : Bool) : (init present).Keeps := ⟨⟨rfl, rfl⟩, trivial⟩

theorem Keeps.agrees (h : s.Keeps) : s.Agrees := by
  have hall : s.Rests → s.Told ∧ s.mounted = s.present ∧ s.lastState = s.present := by
    intro hrests
    obtain ⟨hholds, hsees⟩ := h
    rw [hrests.place] at hholds hsees
    refine ⟨hholds.1, hsees.resolve_right ?_⟩
    rintro (hqueue | hpending)
    · exact Bool.false_ne_true (hrests.queue.symm.trans hqueue)
    · exact hpending.ne' hrests.pending
  constructor
  · exact fun hrests ↦ (hall hrests).2.1
  · exact fun hrests ↦ (hall hrests).2.2
  · intro hrests
    rw [← (hall hrests).2.1]
    exact (hall hrests).1

/-- **The file system follows the card** in every run whose steps are as in `Fits`. -/
theorem agrees_of_run {present : Bool} {ops : List Op} (h : Run step Fits (init present) ops s) :
    s.Agrees :=
  (h.invariant (fun _ _ _ hs hfits hstep ↦ Keeps.step hs hfits hstep)
    (keeps_init present)).agrees

/-- A card that is there from the start is taken out. -/
theorem agrees_once : ∃ s, Run step Fits (init true)
      [.task false, .task false, .task false, .task false, .edge, .handler, .task false,
        .task false, .task false, .task false, .task false] s ∧ s.Agrees := by
  have hrun : Run step Fits (init true)
      [.task false, .task false, .task false, .task false, .edge, .handler, .task false,
        .task false, .task false, .task false, .task false] _ :=
    .cons trivial rfl <| .cons trivial rfl <| .cons trivial rfl <| .cons (fun _ ↦ rfl) rfl <|
    .cons trivial rfl <| .cons trivial rfl <| .cons trivial rfl <| .cons trivial rfl <|
    .cons trivial rfl <| .cons trivial rfl <|
    .cons (fun h ↦ absurd h Bool.false_ne_true) rfl <| .nil _
  exact ⟨_, hrun, agrees_of_run hrun⟩

/-- A card is taken out and put in again while the task handles that it was taken out. -/
theorem not_agrees_reinserted :
    ¬∀ present ops s, AnyRun step (init present) ops s → s.Agrees := by
  intro h
  have hagrees := h true [.task false, .task false, .task false, .task false, .edge, .handler,
      .task false, .task false, .task false, .edge, .handler, .task false, .task false] _ <|
    anyRun_of_foldlM rfl
  exact absurd (hagrees.mounted ⟨rfl, rfl, rfl⟩) Bool.false_ne_true

end Detection

end Ddmz.SdCard
