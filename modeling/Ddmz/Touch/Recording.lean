import Ddmz.Alert.Player
import Ddmz.Foundation.Traces

/-!
# Push to record

`touchServiceTask` starts a recording when a key is pressed and stops it when the key is released.
The two notifications go through a queue, and `_blocking`, which another task sets while something
is plugged into the AUX input, is looked at for each of them on its own. To stop the recording the
task clears `syncQ`, calls `rawStop`, and waits there for a status that says that the player has
stopped or finished.

So a recording goes on if the AUX input is in use when its end is handled, and the task waits for
ever if the player fails: `AUDIO_STATUS_ERROR` is not what it waits for. Otherwise starts and stops
are paired: `paired_iff`.
-/

namespace Ddmz.Touch

open Alert (AudioStatus PlayerWorkingMode isTerminal)

structure PlayerStatus where
  status : AudioStatus
  mode : PlayerWorkingMode
  deriving DecidableEq

/-- The status for which the task waits. -/
def PlayerStatus.isRawStop (p : PlayerStatus) : Bool :=
  (p.status == .STOP || p.status == .FINISHED) && p.mode == .RAW

/-- What comes through `xQueueTouchService`. -/
inductive TouchKey
  | KEY_REC
  | KEY_REC_QUIT
  | other
  deriving DecidableEq

/-- Where `touchServiceTask` is. -/
inductive TouchPlace
  /-- At `xQueueReceive` for the next key. -/
  | receive
  /-- Before `xQueueReset`, `rawStop`, and `xQueueReceive` on `syncQ`. -/
  | reset
  | rawStop
  | waiting
  deriving DecidableEq

inductive TouchEntry
  /-- The task has received a key. -/
  | key (key : TouchKey)
  | rawStart
  | rawStop
  deriving DecidableEq

structure Recording where
  xQueueTouchService : List TouchKey
  syncQ : List PlayerStatus
  blocking : Bool
  recodingFlg : Bool
  place : TouchPlace
  /-- Calls of `rawStop` that the player has not answered yet. -/
  pending : ℕ
  trace : List TouchEntry

inductive Recording.Op
  /-- `DeviceEvtNotifiedToTouch`, for a key and for the AUX input. -/
  | notifyKey (key : TouchKey)
  | notifyAux (inserted : Bool)
  /-- The player tells its listeners of a status. -/
  | status (p : PlayerStatus)
  /-- The player answers a `rawStop`. -/
  | answer (status : AudioStatus)
  | task

namespace Recording

def init : Recording := ⟨[], [], false, false, .receive, 0, []⟩

variable (s : Recording)

/-- What the task does with a key. -/
def process : TouchKey → Recording
  | .KEY_REC =>
    if s.blocking then s else { s with recodingFlg := true, trace := s.trace ++ [.rawStart] }
  | .KEY_REC_QUIT =>
    if s.blocking then s
    else if s.recodingFlg then { s with place := .reset }
    else s
  | .other => s

def touchServiceTask : Option Recording :=
  match s.place with
  | .receive =>
    match s.xQueueTouchService with
    | [] => none
    | key :: keys =>
      some ({ s with
        xQueueTouchService := keys
        trace := s.trace ++ [TouchEntry.key key] }.process key)
  | .reset => some { s with syncQ := [], place := .rawStop }
  | .rawStop =>
    some { s with pending := s.pending + 1, trace := s.trace ++ [.rawStop], place := .waiting }
  | .waiting =>
    match s.syncQ with
    | [] => none
    | p :: ps =>
      if p.isRawStop then some { s with syncQ := ps, recodingFlg := false, place := .receive }
      else some { s with syncQ := ps }

/-- `auxin` says whether the board is one of those with an AUX input that stops the player. -/
def step (auxin : Bool) (s : Recording) : Op → Option Recording
  | .notifyKey key =>
    if s.xQueueTouchService.length < 5 then
      some { s with xQueueTouchService := s.xQueueTouchService ++ [key] }
    else some s
  | .notifyAux inserted => some (if auxin then { s with blocking := inserted } else s)
  | .status p => some (if s.syncQ.length < 4 then { s with syncQ := s.syncQ ++ [p] } else s)
  | .answer status =>
    if 0 < s.pending ∧ isTerminal status = true ∧ s.syncQ.length < 4 then
      some { s with pending := s.pending - 1, syncQ := s.syncQ ++ [⟨status, .RAW⟩] }
    else none
  | .task => s.touchServiceTask

end Recording

def TouchEntry.isCall : TouchEntry → Bool
  | .key _ => false
  | _ => true

/-- A recording has been started and not been stopped. -/
def running (trace : List TouchEntry) : Bool := lastOf TouchEntry.isCall trace == some .rawStart

namespace Recording

variable (s : Recording)

/-- `recodingFlg` says whether a recording runs, until the task has seen that the player has
stopped. Between two keys that is a recording whose end has not been handled. While the task waits
for the player, what it waits for has come, or will. -/
structure Paired : Prop where
  flag : s.recodingFlg = (s.place == .waiting || running s.trace)
  ended : s.place = .receive → running s.trace = true →
    .key .KEY_REC_QUIT ∉ since TouchEntry.isCall s.trace
  wakes : s.place = .waiting → 0 < s.pending ∨ ∃ p ∈ s.syncQ, p.isRawStop = true

/-- The end of a recording is handled while nothing is plugged in, and the player does not fail
while the task waits for its last answer. -/
def Fits : Op → Prop
  | .task => s.place = .receive → s.recodingFlg = true →
    s.xQueueTouchService.head? = some .KEY_REC_QUIT → s.blocking = false
  | .answer .ERROR => s.place = .waiting → 1 < s.pending ∨ ∃ p ∈ s.syncQ, p.isRawStop = true
  | _ => True

/-- While the task stops a recording, there is one. -/
structure Stops : Prop where
  before : s.place = .reset ∨ s.place = .rawStop → running s.trace = true
  after : s.place = .waiting → running s.trace = false

variable {s} {auxin : Bool} {t : Recording} {op : Op}

/-- A place at which the task is neither at a key nor waiting. -/
theorem paired_of_between (hreceive : s.place ≠ .receive) (hwaiting : s.place ≠ .waiting)
    (hflag : s.recodingFlg = running s.trace) : s.Paired := by
  constructor
  · rw [hflag, beq_eq_false_iff_ne.mpr hwaiting, Bool.false_or]
  · intro hplace
    exact absurd hplace hreceive
  · intro hplace
    exact absurd hplace hwaiting

/-- Between two keys. -/
theorem paired_of_receive (hplace : s.place = .receive) (hflag : s.recodingFlg = running s.trace)
    (hended : running s.trace = true → .key .KEY_REC_QUIT ∉ since TouchEntry.isCall s.trace) :
    s.Paired := by
  constructor
  · rw [hflag, hplace]
    rfl
  · intro _
    exact hended
  · intro hwaiting
    exact TouchPlace.noConfusion (hplace.symm.trans hwaiting)

theorem stops_of_receive (hplace : s.place = .receive) : s.Stops := by
  constructor
  · rw [hplace]
    rintro (h | h)
    · exact TouchPlace.noConfusion h
    · exact TouchPlace.noConfusion h
  · rw [hplace]
    intro h
    exact TouchPlace.noConfusion h

theorem stops_of_running (hwaiting : s.place ≠ .waiting) (h : running s.trace = true) :
    s.Stops := by
  constructor
  · intro _
    exact h
  · intro hplace
    exact absurd hplace hwaiting

/-- A step in which the task does nothing. -/
theorem paired_of_others (hs : s.Paired) (hplace : t.place = s.place)
    (hflag : t.recodingFlg = s.recodingFlg) (htrace : t.trace = s.trace)
    (hwakes : s.place = .waiting → 0 < t.pending ∨ ∃ p ∈ t.syncQ, p.isRawStop = true) :
    t.Paired := by
  constructor
  · rw [hplace, hflag, htrace]
    exact hs.flag
  · rw [hplace, htrace]
    exact hs.ended
  · rw [hplace]
    exact hwakes

theorem running_key {trace : List TouchEntry} (key : TouchKey) :
    running (trace ++ [.key key]) = running trace := by
  rw [running, running, lastOf_concat_neg _ rfl]

theorem running_start {trace : List TouchEntry} : running (trace ++ [.rawStart]) = true := by
  rw [running, lastOf_concat_pos _ rfl]
  rfl

theorem running_stop {trace : List TouchEntry} : running (trace ++ [.rawStop]) = false := by
  rw [running, lastOf_concat_pos _ rfl]
  rfl

theorem not_mem_since_start {trace : List TouchEntry} {x : TouchEntry} :
    x ∉ since TouchEntry.isCall (trace ++ [.rawStart]) := by
  rw [since_concat_pos _ rfl]
  exact List.not_mem_nil

/-- The task takes a key. -/
theorem receive_iff (hs : s.Paired) (hplace : s.place = .receive) {key : TouchKey}
    {keys : List TouchKey} (ht : t =
      { s with xQueueTouchService := keys, trace := s.trace ++ [TouchEntry.key key] }.process key) :
    t.Paired ↔ (s.recodingFlg = true → key = .KEY_REC_QUIT → s.blocking = false) := by
  have hflag : s.recodingFlg = running s.trace := by
    rw [hs.flag, hplace]
    rfl
  have hended := hs.ended hplace
  -- a key that changes nothing
  have hother : key ≠ .KEY_REC_QUIT ∨ s.recodingFlg = false → Paired
      { s with xQueueTouchService := keys, trace := s.trace ++ [TouchEntry.key key] } := by
    intro h
    refine paired_of_receive hplace (hflag.trans (running_key key).symm) fun hrunning ↦ ?_
    rw [running_key] at hrunning
    rw [since_concat_neg _ rfl, List.mem_append, not_or]
    refine ⟨hended hrunning, ?_⟩
    intro hmem
    obtain rfl := TouchEntry.key.inj (List.mem_singleton.mp hmem)
    rcases h with hne | hnot
    · exact hne rfl
    · exact Bool.false_ne_true (hnot.symm.trans (hflag.trans hrunning))
  cases key with
  | KEY_REC =>
    refine iff_of_true ?_ fun _ hne ↦ TouchKey.noConfusion hne
    rw [process] at ht
    split_ifs at ht
    · subst ht
      exact hother (.inl TouchKey.noConfusion)
    · subst ht
      exact paired_of_receive hplace running_start.symm fun _ ↦ not_mem_since_start
  | KEY_REC_QUIT =>
    rw [process] at ht
    split_ifs at ht with hblocking hrecording
    · subst ht
      constructor
      · intro hpaired hrecording
        -- the recording goes on, and its end has been handled
        have hrunning := hflag.symm.trans hrecording
        refine absurd ?_ (hpaired.ended hplace ((running_key _).trans hrunning))
        rw [since_concat_neg _ rfl]
        exact List.mem_append_right _ (List.mem_singleton_self _)
      · intro h
        refine hother (.inr (Bool.eq_false_of_not_eq_true fun hrecording ↦ ?_))
        exact Bool.false_ne_true ((h hrecording rfl).symm.trans hblocking)
    · subst ht
      refine iff_of_true ?_ fun _ _ ↦ Bool.eq_false_of_not_eq_true hblocking
      exact paired_of_between TouchPlace.noConfusion TouchPlace.noConfusion
        (hflag.trans (running_key _).symm)
    · subst ht
      exact iff_of_true (hother (.inr (Bool.eq_false_of_not_eq_true hrecording)))
        fun h ↦ absurd h hrecording
  | other =>
    subst ht
    exact iff_of_true (hother (.inl TouchKey.noConfusion)) fun _ hne ↦ TouchKey.noConfusion hne

theorem stops_receive (hs : s.Paired) (hplace : s.place = .receive) {key : TouchKey}
    {keys : List TouchKey} (ht : t =
      { s with xQueueTouchService := keys, trace := s.trace ++ [TouchEntry.key key] }.process key) :
    t.Stops := by
  cases key with
  | KEY_REC =>
    rw [process] at ht
    split_ifs at ht
    · exact stops_of_receive (ht ▸ hplace)
    · exact stops_of_receive (ht ▸ hplace)
  | KEY_REC_QUIT =>
    rw [process] at ht
    split_ifs at ht with _ hrecording
    · exact stops_of_receive (ht ▸ hplace)
    · subst ht
      refine stops_of_running TouchPlace.noConfusion ?_
      rw [running_key]
      have hflag := hs.flag
      rw [hplace] at hflag
      exact hflag.symm.trans hrecording
    · exact stops_of_receive (ht ▸ hplace)
  | other => exact stops_of_receive (ht ▸ hplace)

/-- A step of the task. -/
theorem task_spec (hs : s.Paired) (hstops : s.Stops) (h : s.touchServiceTask = some t) :
    (t.Paired ↔ s.Fits .task) ∧ t.Stops := by
  rw [touchServiceTask] at h
  split at h
  · case _ hplace =>
    split at h
    · exact absurd h.symm (Option.some_ne_none t)
    · case _ key keys hqueue =>
      have ht := (Option.some.inj h).symm
      refine ⟨(receive_iff hs hplace ht).trans ?_, stops_receive hs hplace ht⟩
      rw [Fits, hqueue, List.head?_cons, Option.some.injEq]
      exact ⟨fun hkey _ ↦ hkey, fun hfits ↦ hfits hplace⟩
  · case _ hplace =>
    obtain rfl := Option.some.inj h
    have hfits : s.Fits .task := fun hnot ↦ TouchPlace.noConfusion (hplace.symm.trans hnot)
    have hrunning := hstops.before (.inl hplace)
    refine ⟨iff_of_true ?_ hfits, stops_of_running TouchPlace.noConfusion hrunning⟩
    refine paired_of_between TouchPlace.noConfusion TouchPlace.noConfusion ?_
    rw [hs.flag, hplace]
    rfl
  · case _ hplace =>
    obtain rfl := Option.some.inj h
    have hfits : s.Fits .task := fun hnot ↦ TouchPlace.noConfusion (hplace.symm.trans hnot)
    have hrunning := hstops.before (.inr hplace)
    refine ⟨iff_of_true ?_ hfits, ?_⟩
    · constructor
      · rw [hs.flag, hplace, hrunning]
        rfl
      · intro hnot
        exact TouchPlace.noConfusion hnot
      · intro _
        exact .inl (Nat.succ_pos _)
    · constructor
      · rintro (hnot | hnot)
        · exact TouchPlace.noConfusion hnot
        · exact TouchPlace.noConfusion hnot
      · intro _
        exact running_stop
  · case _ hplace =>
    have hfits : s.Fits .task := fun hnot ↦ TouchPlace.noConfusion (hplace.symm.trans hnot)
    have hrunning := hstops.after hplace
    split at h
    · exact absurd h.symm (Option.some_ne_none t)
    · case _ p ps hqueue =>
      split_ifs at h with hp
      · obtain rfl := Option.some.inj h
        refine ⟨iff_of_true ?_ hfits, stops_of_receive rfl⟩
        refine paired_of_receive rfl hrunning.symm fun hnot ↦ ?_
        exact absurd (hrunning.symm.trans hnot) Bool.false_ne_true
      · obtain rfl := Option.some.inj h
        refine ⟨iff_of_true (paired_of_others hs rfl rfl rfl ?_) hfits, hstops.before, hstops.after⟩
        intro hwaiting
        -- what the task has taken is not what it waits for
        refine (hs.wakes hwaiting).imp_right ?_
        rintro ⟨q, hq, hraw⟩
        rw [hqueue, List.mem_cons] at hq
        rcases hq with rfl | hq
        · exact absurd hraw hp
        · exact ⟨q, hq, hraw⟩

/-- The player answers. -/
theorem answer_iff (hs : s.Paired) {status : AudioStatus} (hterminal : isTerminal status = true)
    (ht : t = { s with pending := s.pending - 1, syncQ := s.syncQ ++ [⟨status, .RAW⟩] }) :
    t.Paired ↔ s.Fits (.answer status) := by
  subst ht
  have hstop : PlayerStatus.isRawStop ⟨status, .RAW⟩ = true → Paired
      { s with pending := s.pending - 1, syncQ := s.syncQ ++ [⟨status, .RAW⟩] } := by
    intro hraw
    refine paired_of_others hs rfl rfl rfl fun _ ↦ .inr ⟨_, ?_, hraw⟩
    exact List.mem_append_right _ (List.mem_singleton_self _)
  cases status with
  | STOP => exact iff_of_true (hstop rfl) trivial
  | FINISHED => exact iff_of_true (hstop rfl) trivial
  | ERROR =>
    constructor
    · intro hpaired hwaiting
      rcases hpaired.wakes hwaiting with hpending | ⟨p, hp, hraw⟩
      · exact .inl (Nat.add_lt_of_lt_sub hpending)
      · rcases List.mem_append.mp hp with hp | hp
        · exact .inr ⟨p, hp, hraw⟩
        · rw [List.mem_singleton.mp hp] at hraw
          exact absurd hraw Bool.false_ne_true
    · intro hfits
      refine paired_of_others hs rfl rfl rfl fun hwaiting ↦ ?_
      rcases hfits hwaiting with hpending | ⟨p, hp, hraw⟩
      · exact .inl (Nat.sub_pos_of_lt hpending)
      · exact .inr ⟨p, List.mem_append_left _ hp, hraw⟩
  | _ => exact absurd hterminal Bool.false_ne_true

theorem step_spec (hs : s.Paired) (hstops : s.Stops) (h : s.step auxin op = some t) :
    (t.Paired ↔ s.Fits op) ∧ t.Stops := by
  cases op with
  | notifyKey key =>
    rw [step] at h
    split_ifs at h
    · obtain rfl := Option.some.inj h
      exact ⟨iff_of_true (paired_of_others hs rfl rfl rfl hs.wakes) trivial, hstops.before,
        hstops.after⟩
    · obtain rfl := Option.some.inj h
      exact ⟨iff_of_true hs trivial, hstops⟩
  | notifyAux inserted =>
    obtain rfl := Option.some.inj h
    split_ifs
    · exact ⟨iff_of_true (paired_of_others hs rfl rfl rfl hs.wakes) trivial, hstops.before,
        hstops.after⟩
    · exact ⟨iff_of_true hs trivial, hstops⟩
  | status p =>
    obtain rfl := Option.some.inj h
    split_ifs
    · refine ⟨iff_of_true (paired_of_others hs rfl rfl rfl ?_) trivial, hstops.before,
        hstops.after⟩
      intro hwaiting
      refine (hs.wakes hwaiting).imp_right ?_
      rintro ⟨q, hq, hraw⟩
      exact ⟨q, List.mem_append_left _ hq, hraw⟩
    · exact ⟨iff_of_true hs trivial, hstops⟩
  | answer status =>
    rw [step] at h
    split_ifs at h with hanswer
    obtain rfl := Option.some.inj h
    exact ⟨answer_iff hs hanswer.2.1 rfl, hstops.before, hstops.after⟩
  | task => exact task_spec hs hstops h

theorem paired_init : init.Paired :=
  paired_of_receive rfl rfl fun hnot ↦ absurd hnot Bool.false_ne_true

end Recording

/-- **Starts and stops of recordings are paired, and the task is not left waiting, throughout a run
whose steps are as in `Fits`, and in no other.** -/
theorem paired_iff {auxin : Bool} {ops : List Recording.Op} {s : Recording}
    (h : AnyRun (Recording.step auxin) .init ops s) :
    Always (Recording.step auxin) Recording.Paired .init ops ↔
      Run (Recording.step auxin) Recording.Fits .init ops s := by
  refine h.always_iff_while (J := Recording.Stops) ?_ ?_
    (Recording.stops_of_receive rfl) Recording.paired_init
  · intro s op t hstops hs _ _ hstep
    exact (Recording.step_spec hs hstops hstep).2
  · intro s op t hstops hs _ hstep
    exact (Recording.step_spec hs hstops hstep).1

/-- A recording from the key to the answer of the player. -/
theorem paired_iff_once : Always (Recording.step true) Recording.Paired .init
    [.notifyKey .KEY_REC, .task, .notifyKey .KEY_REC_QUIT, .task, .task, .task, .answer .STOP,
      .task] := by
  refine (paired_iff (anyRun_of_foldlM rfl)).mpr ?_
  exact .cons trivial rfl <| .cons nofun rfl <| .cons trivial rfl <| .cons (fun _ _ _ ↦ rfl) rfl <|
    .cons nofun rfl <| .cons nofun rfl <| .cons trivial rfl <| .cons nofun rfl <| .nil _

/-- The player fails, and the task waits. -/
theorem not_paired_error : ¬∀ auxin ops s, AnyRun (Recording.step auxin) .init ops s →
    s.Paired := by
  intro h
  have hpaired := h false [.notifyKey .KEY_REC, .task, .notifyKey .KEY_REC_QUIT, .task, .task,
      .task, .answer .ERROR] _ <| anyRun_of_foldlM rfl
  exact absurd (hpaired.wakes rfl) (by decide)

end Ddmz.Touch
