import Ddmz.Alert.HandOff

/-!
# The lifetime of alerts

An alert is freed by `duer_dcs_alert_delete_handler`, with its node, and by a worker thread that
gives it up. Meanwhile its timer may have expired: `duer_alert_callback` has a pointer to the alert
and reads the head of the list before it takes `s_alert_mutex`, and a worker that has put an alert
into the list reports that when it has given the mutex back.

Here a step is one thread's, up to where it takes or gives back the mutex, and every callback has a
thread of its own. A pointer is followed where the source follows it, except that a search is taken
to look at the whole list; if what it points to has been freed that is a fault, and the end. An
alert and its node have one number, which is not used again.

Whether a thread still needs an alert is said by where it is: `LifetimePc.held`, `tells` and
`calls`. The invariant is that what is needed has not been freed, and the condition on a step of the
run is that it frees nothing of the kind.
-/

namespace Ddmz.Alert

/-! ## The threads -/

/-- What is done with `s_alert_mutex` taken. -/
inductive Job
  | push (n : ℕ)
  /-- The head of the list has been read before. -/
  | callback (n : ℕ) (head : Option ℕ)
  | status (type : AudioType) (status : AudioStatus)
  | delete (token : Str)

/-- Where a thread is. -/
inductive LifetimePc
  | absent
  /-- A worker is at the top of its loop. -/
  | next
  /-- The timer is to be set. -/
  | start (n : ℕ)
  /-- `duer_alert_callback` has been called. -/
  | fired (n : ℕ)
  | lock (job : Job)
  | run (job : Job)
  | unlock (job : Job) (ok : Bool)
  | success (n : ℕ)
  | fail (n : ℕ)
  | done

namespace LifetimePc

/-- The thread has the mutex. -/
def inside : LifetimePc → Bool
  | .run _ | .unlock _ _ => true
  | _ => false

/-- The alert that a worker is at work on, and that is not in the list yet. -/
def held : LifetimePc → Option ℕ
  | .start n | .lock (.push n) | .run (.push n) | .unlock (.push n) false | .fail n => some n
  | _ => none

/-- The alert that is in the list, which the worker has yet to report. -/
def tells : LifetimePc → Option ℕ
  | .unlock (.push n) true | .success n => some n
  | _ => none

/-- The alert whose callback has yet to look at it. -/
def calls : LifetimePc → Option ℕ
  | .fired n | .lock (.callback n _) | .run (.callback n _) => some n
  | _ => none

end LifetimePc

/-- What comes when the mutex has been given back. -/
def Job.after : Job → Bool → LifetimePc
  | .push n, true => .success n
  | .push n, false => .fail n
  | _, _ => .done

section Pc

variable (job : Job) (ok : Bool)

theorem LifetimePc.held_run : (run job).held = (lock job).held := by
  cases job with
  | _ => rfl

theorem LifetimePc.calls_run : (run job).calls = (lock job).calls := by
  cases job with
  | _ => rfl

theorem Job.inside_after : (job.after ok).inside = false := by
  cases job with
  | push n => cases ok with
    | _ => rfl
  | _ => rfl

theorem Job.held_after : (job.after ok).held = (LifetimePc.unlock job ok).held := by
  cases job with
  | push n => cases ok with
    | _ => rfl
  | _ => rfl

theorem Job.tells_after : (job.after ok).tells = (LifetimePc.unlock job ok).tells := by
  cases job with
  | push n => cases ok with
    | _ => rfl
  | _ => rfl

theorem Job.calls_after : (job.after ok).calls = none := by
  cases job with
  | push n => cases ok with
    | _ => rfl
  | _ => rfl

end Pc

/-! ## The system -/

structure Lifetime where
  player : AlertPlayer
  /-- The nodes of `s_alert_list` that have been allocated and not freed. -/
  node : ℕ → Bool
  alertMutex : Option ℕ
  thread : ℕ → LifetimePc
  /-- Something has been touched, or freed, that had been freed. -/
  fault : Bool

inductive LifetimeAction
  | set (directive : Option Payload)
  /-- A worker thread is created. -/
  | work (i : ℕ)
  /-- A timer expires, and is no longer there to be cancelled. -/
  | fire (i n : ℕ)
  | status (i : ℕ) (type : AudioType) (status : AudioStatus)
  | delete (i : ℕ) (token : Str)
  /-- The thread goes on, and its calls succeed or not. -/
  | advance (i : ℕ) (ok : Bool)

namespace AlertPlayer

/-- The list from a node on. -/
def nodesFrom (s : AlertPlayer) : Option ℕ → List ℕ
  | none => []
  | some head => s.alertList.dropWhile (· ≠ head)

/-- `duer_alert_callback`, with the head of the list as it was read. -/
def duerAlertCallbackFrom (s : AlertPlayer) (n : ℕ) (alert : AlertData) (head : Option ℕ) :
    AlertPlayer :=
  let s' := (s.write n (some { alert with isActive := true, expired := true })).report n alert
    .ALERT_START
  if s.ringingAlertNode.isSome then s'
  else if n ∈ s.nodesFrom head then ({ s' with ringingAlertNode := some n }).emit alert.playback
  else s'

/-- The list is all of it from its head on. -/
theorem nodesFrom_head (s : AlertPlayer) : s.nodesFrom s.alertList.head? = s.alertList := by
  cases hlist : s.alertList with
  | nil => rfl
  | cons m list =>
    rw [List.head?_cons, nodesFrom, hlist, List.dropWhile_cons_of_neg]
    simp

/-- With the head as it is, the callback does what it does in one step. -/
theorem duerAlertCallbackFrom_head (s : AlertPlayer) (n : ℕ) (alert : AlertData) :
    s.duerAlertCallbackFrom n alert s.alertList.head? = s.duerAlertCallback n alert := by
  rw [duerAlertCallbackFrom, nodesFrom_head, duerAlertCallback]

/-- What is overwritten does not matter, as far as it says the same. -/
theorem duerAlertCallback_write {s : AlertPlayer} {n : ℕ} {alert : AlertData}
    (x : Option AlertData) : (s.write n x).duerAlertCallback n { alert with expired := true } =
      s.duerAlertCallback n alert := by
  have hwrite (y : Option AlertData) : (s.write n x).write n y = s.write n y := by
    rw [write, write, Function.update_idem, write]
  rw [duerAlertCallback, hwrite]
  rfl

end AlertPlayer

namespace Lifetime

def init : Lifetime := ⟨.init, fun _ ↦ false, none, fun _ ↦ .absent, false⟩

def goTo (s : Lifetime) (i : ℕ) (pc : LifetimePc) : Lifetime :=
  { s with thread := Function.update s.thread i pc }

def fail (s : Lifetime) : Lifetime := { s with fault := true }

/-- An alert is touched. -/
def touch (s : Lifetime) (n : ℕ) (f : AlertData → Lifetime) : Lifetime :=
  match s.player.data n with
  | none => s.fail
  | some alert => f alert

/-- Nodes are touched. -/
def walk (s : Lifetime) (ns : List ℕ) (t : Lifetime) : Lifetime :=
  if ns.all s.node then t else s.fail

/-- Nodes are touched, and the alerts in them. -/
def search (s : Lifetime) (ns : List ℕ) (t : Lifetime) : Lifetime :=
  if ns.all fun n ↦ s.node n && (s.player.data n).isSome then t else s.fail

/-- The mutex is taken. -/
def acquire (s : Lifetime) (i : ℕ) (job : Job) : Lifetime :=
  { s.goTo i (.run job) with alertMutex := some i }

/-- What is done with it. -/
def work (s : Lifetime) (i : ℕ) (ok : Bool) : Job → Lifetime
  | .push n =>
    -- there is no memory for the node, or the loop goes through the list to its end
    if ok = false then s.goTo i (.unlock (.push n) false)
    else s.walk s.player.alertList
      { s.goTo i (.unlock (.push n) true) with
        player := { s.player.setStage n .listed with alertList := s.player.alertList ++ [n] }
        node := Function.update s.node n true }
  | .callback n head =>
    s.touch n fun alert ↦
      let t := { s.goTo i (.unlock (.callback n head) ok) with
        player := s.player.duerAlertCallbackFrom n alert head }
      if s.player.ringingAlertNode.isSome then t
      else s.walk (head.toList ++ s.player.nodesFrom head) t
  | .status type status =>
    s.search (s.player.ringingAlertNode.toList ++ s.player.alertList)
      { s.goTo i (.unlock (.status type status) ok) with
        player := s.player.alertPalyStatusCallback type status }
  | .delete token =>
    s.search s.player.alertList
      { s.goTo i (.unlock (.delete token) ok) with
        player := s.player.duerDcsAlertDeleteHandler token
        node := match s.player.duerFindTargetAlertNode token with
          | none => s.node
          | some n => Function.update s.node n false }

def advance (s : Lifetime) (i : ℕ) (ok : Bool) : Option Lifetime :=
  match s.thread i with
  | .absent | .done => none
  | .next =>
    match s.player.alertQueue with
    | [] => some (s.goTo i .done)
    | n :: queue =>
      some { s.goTo i (.start n) with
        player := { s.player.setStage n .taken with alertQueue := queue } }
  | .start n =>
    some (s.touch n fun _ ↦
      if ok then { s.goTo i (.lock (.push n)) with player := s.player.setStage n .started }
      else s.goTo i (.fail n))
  | .fired n => some (s.goTo i (.lock (.callback n s.player.alertList.head?)))
  | .lock job => if s.alertMutex = none then some (s.acquire i job) else none
  | .run job => some (s.work i ok job)
  | .unlock job ok => some { s.goTo i (job.after ok) with alertMutex := none }
  | .success n =>
    some (s.touch n fun alert ↦
      { s.goTo i .next with player := s.player.report n alert .SET_ALERT_SUCCESS })
  | .fail n =>
    -- the timer is cancelled, if it has been set
    some (s.touch n fun alert ↦
      { s.goTo i .next with player := (s.player.report n alert .SET_ALERT_FAIL).write n none })

/-- A thread comes into being. -/
def enter (s : Lifetime) (i : ℕ) (pc : LifetimePc) : Option Lifetime :=
  match s.thread i with
  | .absent => some (s.goTo i pc)
  | _ => none

def fire (s : Lifetime) (i n : ℕ) : Option Lifetime :=
  match s.player.data n with
  | none => none
  | some alert =>
    if (alert.stage = .started ∨ alert.stage = .listed) ∧ alert.expired = false then
      ({ s with player := s.player.write n (some { alert with expired := true }) }).enter i
        (.fired n)
    else none

def step (s : Lifetime) (a : LifetimeAction) : Option Lifetime :=
  if s.fault then none
  else
    match a with
    | .set directive =>
      some { s with player := (s.player.duerDcsToneAlertSetHandler directive).2 }
    | .work i => s.enter i .next
    | .fire i n => s.fire i n
    | .status i type status =>
      -- the callback has nothing to do otherwise
      if isAlert type ∧ isTerminal status then s.enter i (.lock (.status type status))
      else some s
    | .delete i token => s.enter i (.lock (.delete token))
    | .advance i ok => s.advance i ok

/-- Nothing is freed that a thread has a pointer to and will follow, where it cannot know of it:
the timer's callback the alert's, and the head of the list unless something rings; and a worker
that of the alert it is about to report. -/
def Allowed (s : Lifetime) : LifetimeAction → Prop
  | .advance i _ =>
    match s.thread i with
    | .run (.delete token) => ∀ n, s.player.duerFindTargetAlertNode token = some n →
        ∀ j, (s.thread j).calls ≠ some n ∧ (s.thread j).tells ≠ some n
    | .fail n => ∀ j, (s.thread j).calls ≠ some n
    | .run (.callback _ (some head)) => s.player.ringingAlertNode = none → s.node head = true
    | _ => True
  | _ => True

/-! ## What the callbacks keep -/

end Lifetime

namespace AlertPlayer

section Lemmas

variable {s t u : AlertPlayer} {n m : ℕ} {alert alert' : AlertData} {x : Option AlertData}
  {o : Output}

theorem mem_of_mem_nodesFrom {head : Option ℕ} (h : n ∈ s.nodesFrom head) : n ∈ s.alertList := by
  cases head with
  | none => cases h
  | some head => exact (List.dropWhile_sublist _).subset h

theorem keeps_duerAlertCallbackFrom (head : Option ℕ) (hdata : s.data n = some alert) :
    Keeps s (s.duerAlertCallbackFrom n alert head) := by
  have hwrite : Keeps s ((s.write n (some { alert with isActive := true, expired := true })).report
      n alert .ALERT_START) :=
    (keeps_write { alert with isActive := true, expired := true } hdata rfl).emit _
  rw [duerAlertCallbackFrom]
  split
  · exact hwrite
  · split
    · next hmem =>
      refine Keeps.emit (hwrite.ring ?_) _
      rintro m ⟨⟩
      exact mem_of_mem_nodesFrom hmem
    · exact hwrite

/-- Alerts are where their stages say, those in the list have their nodes, and what rings is in the
list. -/
structure Whole (s : AlertPlayer) (node : ℕ → Bool) : Prop where
  nodup : s.alertList.Nodup
  nodupQueue : s.alertQueue.Nodup
  listed : ∀ n ∈ s.alertList, s.stageOf n = some .listed ∧ node n = true
  queued : ∀ n ∈ s.alertQueue, s.stageOf n = some .queued
  created : ∀ n, s.stageOf n ≠ none → n < s.created
  ringing : ∀ n, s.ringingAlertNode = some n → n ∈ s.alertList

variable {node node' : ℕ → Bool}

theorem whole_init (node : ℕ → Bool) : Whole init node :=
  ⟨List.nodup_nil, List.nodup_nil, nofun, nofun, fun _ h ↦ absurd rfl h, nofun⟩

theorem Whole.keep (h : Whole s node) (hkeeps : Keeps s t) : Whole t node where
  nodup := hkeeps.alertList ▸ h.nodup
  nodupQueue := hkeeps.alertQueue ▸ h.nodupQueue
  listed n hn := by
    rw [hkeeps.stageOf]
    exact h.listed n (hkeeps.alertList ▸ hn)
  queued n hn := by
    rw [hkeeps.stageOf]
    exact h.queued n (hkeeps.alertQueue ▸ hn)
  created n hn := by
    rw [hkeeps.stageOf] at hn
    rw [hkeeps.created]
    exact h.created n hn
  ringing n hn := by
    rw [hkeeps.alertList]
    exact (hkeeps.ringing n hn).elim (h.ringing n) id

/-- One alert moves between the places. -/
theorem Whole.move (h : Whole s node) (hstage : ∀ m, m ≠ n → t.stageOf m = s.stageOf m)
    (hnode : ∀ m, m ≠ n → node' m = node m) (hcreated : s.created ≤ t.created)
    (hn : n < t.created) (hnodup : t.alertList.Nodup) (hnodupQueue : t.alertQueue.Nodup)
    (hlist : ∀ m ∈ t.alertList, m ≠ n → m ∈ s.alertList)
    (hqueue : ∀ m ∈ t.alertQueue, m ≠ n → m ∈ s.alertQueue)
    (hlisted : n ∈ t.alertList → t.stageOf n = some .listed ∧ node' n = true)
    (hqueued : n ∈ t.alertQueue → t.stageOf n = some .queued)
    (hringing : ∀ m, t.ringingAlertNode = some m → m ∈ t.alertList) : Whole t node' where
  nodup := hnodup
  nodupQueue := hnodupQueue
  listed m hm := by
    by_cases hmn : m = n
    · subst hmn
      exact hlisted hm
    · rw [hstage m hmn, hnode m hmn]
      exact h.listed m (hlist m hm hmn)
  queued m hm := by
    by_cases hmn : m = n
    · subst hmn
      exact hqueued hm
    · rw [hstage m hmn]
      exact h.queued m (hqueue m hm hmn)
  created m hm := by
    by_cases hmn : m = n
    · rw [hmn]
      exact hn
    · rw [hstage m hmn] at hm
      exact (h.created m hm).trans_le hcreated
  ringing := hringing

/-- Once a worker has taken it, an alert is not in the queue, and not yet in the list. -/
theorem Whole.not_mem (h : Whole s node)
    (hstage : s.stageOf n = some .taken ∨ s.stageOf n = some .started) :
    n ∉ s.alertList ∧ n ∉ s.alertQueue := by
  refine ⟨fun hmem ↦ ?_, fun hmem ↦ ?_⟩
  · rw [(h.listed n hmem).1] at hstage
    exact absurd hstage (by decide)
  · rw [h.queued n hmem] at hstage
    exact absurd hstage (by decide)

/-- The alert that is created next is not known yet. -/
theorem Whole.fresh (h : Whole s node) : s.stageOf s.created = none :=
  not_not.mp fun hne ↦ absurd (h.created s.created hne) (Nat.lt_irrefl _)

end Lemmas

end AlertPlayer

/-! ## What is invariant -/

namespace Lifetime

open AlertPlayer

/-- The thread has `s_alert_mutex`. -/
def inside (s : Lifetime) (i : ℕ) : Prop := (s.thread i).inside = true

/-- What a thread needs has not been freed. -/
structure Inv (s : Lifetime) : Prop where
  unharmed : s.fault = false
  guards : Guards s.alertMutex s.inside
  whole : s.player.Whole s.node
  held : ∀ i n, (s.thread i).held = some n →
    s.player.stageOf n = some .taken ∨ s.player.stageOf n = some .started
  held_inj : ∀ i j n, (s.thread i).held = some n → (s.thread j).held = some n → i = j
  told : ∀ i n, (s.thread i).tells = some n → n ∈ s.player.alertList
  called : ∀ i n, (s.thread i).calls = some n → s.player.stageOf n ≠ none

theorem inv_init : Inv init where
  unharmed := rfl
  guards := guards_none fun _ ↦ Bool.false_ne_true
  whole := whole_init _
  held := nofun
  held_inj := nofun
  told := nofun
  called := nofun

section Inv

variable {s t : Lifetime} {i n : ℕ} {pc : LifetimePc}

/-! ### Steps of a thread -/

theorem inside_of_ne (hthread : t.thread = Function.update s.thread i pc) (j : ℕ) (hj : j ≠ i) :
    t.inside j ↔ s.inside j := by
  rw [inside, inside, hthread, Function.update_of_ne hj]

theorem inside_self (hthread : t.thread = Function.update s.thread i pc) :
    t.inside i ↔ pc.inside = true := by
  rw [inside, hthread, Function.update_self]

theorem Inv.guards_stay (h : Inv s) (hthread : t.thread = Function.update s.thread i pc)
    (hinside : pc.inside = (s.thread i).inside) (hmutex : t.alertMutex = s.alertMutex) :
    Guards t.alertMutex t.inside := by
  rw [hmutex]
  refine h.guards.congr fun j ↦ ?_
  by_cases hj : j = i
  · rw [hj, inside_self hthread, inside, hinside]
  · exact inside_of_ne hthread j hj

/-- What the other threads need is still there, and what this one does is. -/
theorem Inv.move (h : Inv s) (hthread : t.thread = Function.update s.thread i pc)
    (hfault : t.fault = false) (hguards : Guards t.alertMutex t.inside)
    (hwhole : t.player.Whole t.node)
    (hheld : ∀ j, j ≠ i → ∀ m, (s.thread j).held = some m →
      t.player.stageOf m = s.player.stageOf m)
    (htold : ∀ j, j ≠ i → ∀ m, (s.thread j).tells = some m → m ∈ t.player.alertList)
    (hcalled : ∀ j, j ≠ i → ∀ m, (s.thread j).calls = some m → t.player.stageOf m ≠ none)
    (hheld' : ∀ m, pc.held = some m →
      (t.player.stageOf m = some .taken ∨ t.player.stageOf m = some .started) ∧
        ∀ j, j ≠ i → (s.thread j).held ≠ some m)
    (htold' : ∀ m, pc.tells = some m → m ∈ t.player.alertList)
    (hcalled' : ∀ m, pc.calls = some m → t.player.stageOf m ≠ none) : Inv t := by
  have hself : t.thread i = pc := by rw [hthread, Function.update_self]
  have hother (j : ℕ) (hj : j ≠ i) : t.thread j = s.thread j := by
    rw [hthread, Function.update_of_ne hj]
  refine ⟨hfault, hguards, hwhole, fun j m hm ↦ ?_, fun j k m hj hk ↦ ?_, fun j m hm ↦ ?_,
    fun j m hm ↦ ?_⟩
  · by_cases hj : j = i
    · rw [hj, hself] at hm
      exact (hheld' m hm).1
    · rw [hother j hj] at hm
      rw [hheld j hj m hm]
      exact h.held j m hm
  · by_cases hji : j = i
    · rw [hji, hself] at hj
      by_cases hki : k = i
      · rw [hji, hki]
      · rw [hother k hki] at hk
        exact absurd hk ((hheld' m hj).2 k hki)
    · rw [hother j hji] at hj
      by_cases hki : k = i
      · rw [hki, hself] at hk
        exact absurd hj ((hheld' m hk).2 j hji)
      · rw [hother k hki] at hk
        exact h.held_inj j k m hj hk
  · by_cases hj : j = i
    · rw [hj, hself] at hm
      exact htold' m hm
    · rw [hother j hj] at hm
      exact htold j hj m hm
  · by_cases hj : j = i
    · rw [hj, hself] at hm
      exact hcalled' m hm
    · rw [hother j hj] at hm
      exact hcalled j hj m hm

/-- No alert moves, and the thread needs nothing new, but that a callback may be called. -/
theorem Inv.keep (h : Inv s) (hthread : t.thread = Function.update s.thread i pc)
    (hplayer : s.player.Keeps t.player) (hnode : t.node = s.node) (hfault : t.fault = false)
    (hguards : Guards t.alertMutex t.inside)
    (hheld : ∀ m, pc.held = some m → (s.thread i).held = some m)
    (htold : ∀ m, pc.tells = some m → (s.thread i).tells = some m)
    (hcalled : ∀ m, pc.calls = some m → s.player.stageOf m ≠ none) : Inv t := by
  refine h.move hthread hfault hguards (hnode ▸ h.whole.keep hplayer)
    (fun _ _ m _ ↦ hplayer.stageOf m) (fun j _ m hm ↦ ?_) (fun j _ m hm ↦ ?_) (fun m hm ↦ ⟨?_, ?_⟩)
    (fun m hm ↦ ?_) (fun m hm ↦ ?_)
  · rw [hplayer.alertList]
    exact h.told j m hm
  · rw [hplayer.stageOf]
    exact h.called j m hm
  · rw [hplayer.stageOf]
    exact h.held i m (hheld m hm)
  · exact fun j hj hjm ↦ hj (h.held_inj j i m hjm (hheld m hm))
  · rw [hplayer.alertList]
    exact h.told i m (htold m hm)
  · rw [hplayer.stageOf]
    exact hcalled m hm

theorem Inv.enter (h : Inv s) (hstep : s.enter i pc = some t) (hinside : pc.inside = false)
    (hheld : pc.held = none) (htold : pc.tells = none)
    (hcalled : ∀ m, pc.calls = some m → s.player.stageOf m ≠ none) : Inv t := by
  rw [Lifetime.enter] at hstep
  split at hstep
  · next hpc =>
    obtain rfl := Option.some.inj hstep
    refine h.keep (i := i) rfl (.refl _) rfl h.unharmed
      (h.guards_stay rfl (by rw [hinside, hpc]; rfl) rfl) (fun m hm ↦ ?_) (fun m hm ↦ ?_) hcalled
    · rw [hheld] at hm
      cases hm
    · rw [htold] at hm
      cases hm
  · cases hstep

theorem Inv.fire (h : Inv s) (hstep : s.fire i n = some t) : Inv t := by
  rw [Lifetime.fire] at hstep
  split at hstep
  · cases hstep
  · next alert hdata =>
    split at hstep
    · have hkeeps := keeps_write { alert with expired := true } hdata rfl
      have hwritten : Inv { s with
          player := s.player.write n (some { alert with expired := true }) } := by
        refine h.keep (Function.update_eq_self i s.thread).symm hkeeps rfl h.unharmed h.guards
          (fun _ ↦ id) (fun _ ↦ id) (h.called i)
      refine hwritten.enter hstep rfl rfl rfl ?_
      rintro m ⟨⟩
      rw [hkeeps.stageOf, stageOf_of_data hdata]
      exact nofun
    · cases hstep

/-- A thread goes on, and the mutex with it, where it needs nothing new. -/
theorem Inv.goOn (h : Inv s) (hinside : pc.inside = (s.thread i).inside)
    (hheld : ∀ m, pc.held = some m → (s.thread i).held = some m)
    (htold : ∀ m, pc.tells = some m → (s.thread i).tells = some m)
    (hcalled : ∀ m, pc.calls = some m → (s.thread i).calls = some m) : Inv (s.goTo i pc) := by
  refine h.keep (i := i) rfl (.refl _) rfl h.unharmed (h.guards_stay rfl hinside rfl) hheld htold ?_
  intro m hm
  exact h.called i m (hcalled m hm)

theorem Inv.lock {job : Job} (h : Inv s) (hpc : s.thread i = .lock job)
    (hfree : s.alertMutex = none) : Inv (s.acquire i job) := by
  have hnone := h.guards
  rw [hfree] at hnone
  refine h.keep (i := i) rfl (.refl _) rfl h.unharmed (hnone.acquire ((inside_self rfl).mpr rfl)
    (inside_of_ne rfl)) (fun m hm ↦ ?_) nofun fun m hm ↦ h.called i m ?_
  · rwa [hpc, ← LifetimePc.held_run]
  · rwa [hpc, ← LifetimePc.calls_run]

theorem Inv.unlock {job : Job} {ok : Bool} (h : Inv s) (hpc : s.thread i = .unlock job ok) :
    Inv { s.goTo i (job.after ok) with alertMutex := none } := by
  have hi : s.inside i := by rw [inside, hpc]; rfl
  refine h.keep (i := i) rfl (.refl _) rfl h.unharmed (h.guards.release hi ?_
    (inside_of_ne rfl)) (fun m hm ↦ ?_) (fun m hm ↦ ?_) fun m hm ↦ ?_
  · rw [inside_self rfl, Job.inside_after]
    exact Bool.false_ne_true
  · rwa [hpc, ← Job.held_after]
  · rwa [hpc, ← Job.tells_after]
  · rw [Job.calls_after] at hm
    cases hm

theorem Inv.success {alert : AlertData} (h : Inv s) (hpc : s.thread i = .success n) :
    Inv { s.goTo i .next with player := s.player.report n alert .SET_ALERT_SUCCESS } :=
  h.keep (i := i) rfl ((Keeps.refl _).emit _) rfl h.unharmed
    (h.guards_stay rfl (by rw [hpc]; rfl) rfl) nofun nofun nofun

theorem Inv.live_of_held (h : Inv s) (hi : (s.thread i).held = some n) :
    s.player.stageOf n ≠ none := by
  rcases h.held i n hi with hstage | hstage
  · rw [hstage]
    exact nofun
  · rw [hstage]
    exact nofun

theorem Inv.set (h : Inv s) (directive : Option Payload) :
    Inv { s with player := (s.player.duerDcsToneAlertSetHandler directive).2 } := by
  rcases s.player.set_cases directive with heq | ⟨token, heq⟩ | ⟨alert, ⟨hstage, -, -⟩, heq⟩
  · rw [heq]
    exact h
  · rw [heq]
    exact h.keep (i := 0) (Function.update_eq_self _ _).symm ((Keeps.refl _).emit _) rfl h.unharmed
      h.guards (fun _ ↦ id) (fun _ ↦ id) (h.called 0)
  · rw [heq]
    have hfresh := h.whole.fresh
    -- nothing is known of the new alert
    have hkept (m : ℕ) (hm : s.player.stageOf m ≠ none) :
        (s.player.write s.player.created (some alert)).stageOf m = s.player.stageOf m :=
      stageOf_write_ne fun heq ↦ hm (heq ▸ hfresh)
    have hlist : s.player.created ∉ s.player.alertList := fun hmem ↦ by
      rw [(h.whole.listed _ hmem).1] at hfresh
      cases hfresh
    have hqueue : s.player.created ∉ s.player.alertQueue := fun hmem ↦ by
      rw [h.whole.queued _ hmem] at hfresh
      cases hfresh
    refine ⟨h.unharmed, h.guards, ?_, fun i m hm ↦ ?_, h.held_inj, h.told, fun i m hm ↦ ?_⟩
    · refine h.whole.move (fun m hm ↦ stageOf_write_ne hm) (fun _ _ ↦ rfl) (Nat.le_succ _)
        (Nat.lt_succ_self _) h.whole.nodup ?_ (fun _ hm _ ↦ hm) (fun m hm hne ↦ ?_)
        (fun hmem ↦ absurd hmem hlist) (fun _ ↦ ?_) h.whole.ringing
      · exact (List.perm_append_singleton _ _).nodup_iff.mpr
          (List.nodup_cons.mpr ⟨hqueue, h.whole.nodupQueue⟩)
      · exact (List.mem_append.mp hm).resolve_right fun hm ↦ hne (List.mem_singleton.mp hm)
      · exact (stageOf_write_self (x := some alert)).trans (congrArg some hstage)
    · have hheld := h.held i m hm
      rwa [← hkept m (h.live_of_held hm)] at hheld
    · have hcalled := h.called i m hm
      rwa [← hkept m hcalled] at hcalled

theorem stageOf_setStage_self {p : AlertPlayer} {stage stage' : Stage}
    (hstage : p.stageOf n = some stage') : (p.setStage n stage).stageOf n = some stage := by
  obtain ⟨alert, hdata, -⟩ := Option.map_eq_some_iff.mp hstage
  rw [setStage, stageOf_write_self, hdata]
  rfl

theorem stageOf_setStage_ne {p : AlertPlayer} {m : ℕ} {stage : Stage} (hm : m ≠ n) :
    (p.setStage n stage).stageOf m = p.stageOf m :=
  stageOf_write_ne hm

/-- A worker moves an alert on that nobody else is at work on. -/
theorem Inv.stage (h : Inv s) (hthread : t.thread = Function.update s.thread i pc)
    (hfault : t.fault = false) (hguards : Guards t.alertMutex t.inside)
    (hwhole : t.player.Whole t.node)
    (hother : ∀ m, m ≠ n → t.player.stageOf m = s.player.stageOf m)
    (hlist : s.player.alertList ⊆ t.player.alertList) (hlive : t.player.stageOf n ≠ none)
    (hnot : ∀ j, j ≠ i → (s.thread j).held ≠ some n)
    (hheld : ∀ m, pc.held = some m → m = n ∧
      (t.player.stageOf m = some .taken ∨ t.player.stageOf m = some .started))
    (htold : ∀ m, pc.tells = some m → m ∈ t.player.alertList) (hcalls : pc.calls = none) :
    Inv t := by
  have hstage (m : ℕ) (hm : s.player.stageOf m ≠ none) : t.player.stageOf m ≠ none := by
    by_cases hmn : m = n
    · rwa [hmn]
    · rwa [hother m hmn]
  refine h.move hthread hfault hguards hwhole (fun j hj m hm ↦ hother m fun hmn ↦ ?_)
    (fun j _ m hm ↦ hlist (h.told j m hm)) (fun j _ m hm ↦ hstage m (h.called j m hm))
    (fun m hm ↦ ⟨(hheld m hm).2, ?_⟩) htold (fun m hm ↦ ?_)
  · exact hnot j hj (hmn ▸ hm)
  · rw [(hheld m hm).1]
    exact hnot
  · rw [hcalls] at hm
    cases hm

theorem Inv.take {queue : List ℕ} (h : Inv s) (hpc : s.thread i = .next)
    (hqueue : s.player.alertQueue = n :: queue) :
    Inv { s.goTo i (.start n) with
      player := { s.player.setStage n .taken with alertQueue := queue } } := by
  have hmem : n ∈ s.player.alertQueue := hqueue ▸ List.mem_cons_self
  have hstage := h.whole.queued n hmem
  have hnodup := h.whole.nodupQueue
  rw [hqueue, List.nodup_cons] at hnodup
  have htaken : AlertPlayer.stageOf { s.player.setStage n .taken with alertQueue := queue } n =
      some .taken := stageOf_setStage_self hstage
  have hnot (j : ℕ) : (s.thread j).held ≠ some n := fun hj ↦ by
    have hheld := h.held j n hj
    rw [hstage] at hheld
    exact absurd hheld (by decide)
  refine h.stage (n := n) rfl h.unharmed (h.guards_stay rfl (by rw [hpc]; rfl) rfl) ?_
    (fun m hm ↦ stageOf_setStage_ne hm) (List.Subset.refl _) (htaken ▸ nofun) (fun j _ ↦ hnot j) ?_
    nofun rfl
  · refine h.whole.move (fun m hm ↦ stageOf_setStage_ne hm) (fun _ _ ↦ rfl) le_rfl
      (h.whole.created n (hstage ▸ nofun)) h.whole.nodup hnodup.2 (fun _ hm _ ↦ hm)
      (fun m hm _ ↦ hqueue ▸ List.mem_cons_of_mem _ hm) (fun hlisted ↦ ?_)
      (fun hqueued ↦ absurd hqueued hnodup.1) h.whole.ringing
    have hlisted' := (h.whole.listed n hlisted).1
    rw [hstage] at hlisted'
    cases hlisted'
  · rintro m ⟨⟩
    exact ⟨rfl, .inl htaken⟩

theorem Inv.not_held (h : Inv s) (hi : (s.thread i).held = some n) (j : ℕ) (hj : j ≠ i) :
    (s.thread j).held ≠ some n :=
  fun hjn ↦ hj (h.held_inj j i n hjn hi)

theorem Inv.start (h : Inv s) (hpc : s.thread i = .start n) :
    Inv { s.goTo i (.lock (.push n)) with player := s.player.setStage n .started } := by
  have hi : (s.thread i).held = some n := by rw [hpc]; rfl
  have hlive := h.live_of_held hi
  have hnot := h.whole.not_mem (h.held i n hi)
  obtain ⟨stage, hstage⟩ := Option.ne_none_iff_exists'.mp hlive
  have hstarted : (s.player.setStage n .started).stageOf n = some .started :=
    stageOf_setStage_self hstage
  refine h.stage (n := n) rfl h.unharmed (h.guards_stay rfl (by rw [hpc]; rfl) rfl) ?_
    (fun m hm ↦ stageOf_setStage_ne hm) (List.Subset.refl _) (hstarted ▸ nofun) (h.not_held hi) ?_
    nofun rfl
  · exact h.whole.move (fun m hm ↦ stageOf_setStage_ne hm) (fun _ _ ↦ rfl) le_rfl
      (h.whole.created n hlive) h.whole.nodup h.whole.nodupQueue (fun _ hm _ ↦ hm)
      (fun _ hm _ ↦ hm) (fun hmem ↦ absurd hmem hnot.1) (fun hmem ↦ absurd hmem hnot.2)
      h.whole.ringing
  · rintro m ⟨⟩
    exact ⟨rfl, .inr hstarted⟩

theorem Inv.push (h : Inv s) (hpc : s.thread i = .run (.push n)) :
    Inv { s.goTo i (.unlock (.push n) true) with
      player := { s.player.setStage n .listed with alertList := s.player.alertList ++ [n] }
      node := Function.update s.node n true } := by
  have hi : (s.thread i).held = some n := by rw [hpc]; rfl
  have hlive := h.live_of_held hi
  have hnot := h.whole.not_mem (h.held i n hi)
  obtain ⟨stage, hstage⟩ := Option.ne_none_iff_exists'.mp hlive
  have hlisted : AlertPlayer.stageOf
      { s.player.setStage n .listed with alertList := s.player.alertList ++ [n] } n =
      some .listed := stageOf_setStage_self hstage
  refine h.stage (n := n) rfl h.unharmed (h.guards_stay rfl (by rw [hpc]; rfl) rfl) ?_
    (fun m hm ↦ stageOf_setStage_ne hm) (List.subset_append_left _ _) (hlisted ▸ nofun)
    (h.not_held hi) nofun ?_ rfl
  · refine h.whole.move (fun m hm ↦ stageOf_setStage_ne hm)
      (fun m hm ↦ Function.update_of_ne hm _ _) le_rfl (h.whole.created n hlive) ?_
      h.whole.nodupQueue (fun m hm hne ↦ ?_) (fun _ hm _ ↦ hm)
      (fun _ ↦ ⟨hlisted, Function.update_self _ _ _⟩) (fun hmem ↦ absurd hmem hnot.2)
      (fun m hm ↦ List.mem_append_left _ (h.whole.ringing m hm))
    · exact (List.perm_append_singleton _ _).nodup_iff.mpr
        (List.nodup_cons.mpr ⟨hnot.1, h.whole.nodup⟩)
    · exact (List.mem_append.mp hm).resolve_right fun hm ↦ hne (List.mem_singleton.mp hm)
  · rintro m ⟨⟩
    exact List.mem_append_right _ List.mem_cons_self

/-- An alert is freed that no other thread needs. -/
theorem Inv.free (h : Inv s) (hthread : t.thread = Function.update s.thread i pc)
    (hfault : t.fault = false) (hguards : Guards t.alertMutex t.inside)
    (hwhole : t.player.Whole t.node)
    (hother : ∀ m, m ≠ n → t.player.stageOf m = s.player.stageOf m)
    (hlist : ∀ m, m ≠ n → m ∈ s.player.alertList → m ∈ t.player.alertList)
    (hnot : ∀ j, j ≠ i → (s.thread j).held ≠ some n)
    (htells : ∀ j, j ≠ i → (s.thread j).tells ≠ some n)
    (hcalls : ∀ j, j ≠ i → (s.thread j).calls ≠ some n)
    (hpc : pc.held = none ∧ pc.tells = none ∧ pc.calls = none) : Inv t := by
  obtain ⟨hheld, htold, hcalled⟩ := hpc
  refine h.move hthread hfault hguards hwhole (fun j hj m hm ↦ hother m ?_)
    (fun j hj m hm ↦ hlist m ?_ (h.told j m hm)) (fun j hj m hm ↦ ?_)
    (fun m hm ↦ absurd (hheld.symm.trans hm) nofun)
    (fun m hm ↦ absurd (htold.symm.trans hm) nofun)
    (fun m hm ↦ absurd (hcalled.symm.trans hm) nofun)
  · exact fun hmn ↦ hnot j hj (hmn ▸ hm)
  · exact fun hmn ↦ htells j hj (hmn ▸ hm)
  · rw [hother m fun hmn ↦ hcalls j hj (hmn ▸ hm)]
    exact h.called j m hm

theorem Inv.giveUp {alert : AlertData} (h : Inv s) (hpc : s.thread i = .fail n)
    (hcalls : ∀ j, (s.thread j).calls ≠ some n) :
    Inv { s.goTo i .next with
      player := (s.player.report n alert .SET_ALERT_FAIL).write n none } := by
  have hi : (s.thread i).held = some n := by rw [hpc]; rfl
  have hnot := h.whole.not_mem (h.held i n hi)
  refine h.free (n := n) rfl h.unharmed (h.guards_stay rfl (by rw [hpc]; rfl) rfl) ?_
    (fun m hm ↦ stageOf_write_ne hm) (fun _ _ ↦ id) (h.not_held hi)
    (fun j _ hj ↦ hnot.1 (h.told j n hj)) (fun j _ ↦ hcalls j) ⟨rfl, rfl, rfl⟩
  exact h.whole.move (fun m hm ↦ stageOf_write_ne hm) (fun _ _ ↦ rfl) le_rfl
    (h.whole.created n (h.live_of_held hi)) h.whole.nodup h.whole.nodupQueue (fun _ hm _ ↦ hm)
    (fun _ hm _ ↦ hm) (fun hmem ↦ absurd hmem hnot.1) (fun hmem ↦ absurd hmem hnot.2)
    h.whole.ringing

/-! ### With the mutex taken -/

theorem search_eq (h : s.player.Whole s.node) {ns : List ℕ} (hns : ns ⊆ s.player.alertList) :
    s.search ns t = t := by
  rw [search, if_pos]
  refine List.all_eq_true.mpr fun n hn ↦ ?_
  obtain ⟨hstage, hnode⟩ := h.listed n (hns hn)
  rw [hnode, isSome_of_stageOf hstage]
  rfl

theorem Whole.ringing_subset {p : AlertPlayer} {node : ℕ → Bool} (h : p.Whole node) :
    p.ringingAlertNode.toList ++ p.alertList ⊆ p.alertList :=
  List.append_subset.mpr
    ⟨fun m hm ↦ h.ringing m (Option.mem_toList.mp hm), List.Subset.refl _⟩

theorem work_status {ok : Bool} {type : AudioType} {status : AudioStatus}
    (h : s.player.Whole s.node) : s.work i ok (.status type status) =
      { s.goTo i (.unlock (.status type status) ok) with
        player := s.player.alertPalyStatusCallback type status } :=
  search_eq h (Whole.ringing_subset h)

theorem work_delete {ok : Bool} {token : Str} (h : s.player.Whole s.node) :
    s.work i ok (.delete token) =
      { s.goTo i (.unlock (.delete token) ok) with
        player := s.player.duerDcsAlertDeleteHandler token
        node := match s.player.duerFindTargetAlertNode token with
          | none => s.node
          | some n => Function.update s.node n false } :=
  search_eq h (List.Subset.refl _)

theorem walk_eq {ns : List ℕ} (hns : ∀ n ∈ ns, s.node n = true) : s.walk ns t = t := by
  rw [walk, if_pos (List.all_eq_true.mpr hns)]

theorem touch_eq (h : s.player.stageOf n ≠ none) :
    ∃ alert, s.player.data n = some alert ∧ ∀ f, s.touch n f = f alert := by
  obtain ⟨alert, hdata⟩ := Option.ne_none_iff_exists'.mp (mt stageOf_eq_none.mpr h)
  refine ⟨alert, hdata, fun f ↦ ?_⟩
  rw [touch, hdata]

theorem stageOf_delete {p : AlertPlayer} {token : Str} {alert : AlertData}
    (hfind : p.duerFindTargetAlertNode token = some n) (hdata : p.data n = some alert) {m : ℕ}
    (hm : m ≠ n) : (p.duerDcsAlertDeleteHandler token).stageOf m = p.stageOf m := by
  obtain ⟨log, heq⟩ := p.stopTarget_eq n alert
  rw [delete_found hfind hdata, heq]
  exact stageOf_write_ne hm

/-- What the handler leaves of the places. -/
theorem lists_delete {p : AlertPlayer} {token : Str} {alert : AlertData}
    (hfind : p.duerFindTargetAlertNode token = some n) (hdata : p.data n = some alert) :
    (p.duerDcsAlertDeleteHandler token).alertList = p.alertList.erase n ∧
      (p.duerDcsAlertDeleteHandler token).alertQueue = p.alertQueue ∧
      (p.duerDcsAlertDeleteHandler token).created = p.created := by
  obtain ⟨log, heq⟩ := p.stopTarget_eq n alert
  rw [delete_found hfind hdata, heq]
  exact ⟨rfl, rfl, rfl⟩

theorem Whole.delete {p : AlertPlayer} {node : ℕ → Bool} {token : Str} {alert : AlertData}
    (h : p.Whole node) (hfind : p.duerFindTargetAlertNode token = some n)
    (hdata : p.data n = some alert) :
    (p.duerDcsAlertDeleteHandler token).Whole (Function.update node n false) := by
  have hmem := (duerFindTargetAlertNode_some hfind).1
  obtain ⟨hlist, hqueue, hcreated⟩ := lists_delete hfind hdata
  have hstage := (h.listed n hmem).1
  refine h.move (fun m hm ↦ stageOf_delete hfind hdata hm)
    (fun m hm ↦ Function.update_of_ne hm _ _) hcreated.ge ?_ ?_ ?_ (fun m hm _ ↦ ?_)
    (fun m hm _ ↦ ?_) (fun hlisted ↦ ?_) (fun hqueued ↦ ?_) (fun m hm ↦ ?_)
  · rw [hcreated]
    exact h.created n (hstage ▸ nofun)
  · rw [hlist]
    exact h.nodup.erase n
  · rw [hqueue]
    exact h.nodupQueue
  · rw [hlist] at hm
    exact List.mem_of_mem_erase hm
  · rwa [hqueue] at hm
  · rw [hlist] at hlisted
    exact absurd rfl (h.nodup.mem_erase_iff.mp hlisted).1
  · rw [hqueue] at hqueued
    have hqueued' := h.queued n hqueued
    rw [hstage] at hqueued'
    cases hqueued'
  · rw [ringing_delete hfind hdata] at hm
    obtain ⟨hother, hringing⟩ := Option.ite_none_left_eq_some.mp hm
    have hne : m ≠ n := fun hmn ↦ hother (hmn ▸ hringing)
    rw [hlist]
    exact (List.mem_erase_of_ne hne).mpr (h.ringing m hringing)

theorem Inv.delete {ok : Bool} {token : Str} (h : Inv s) (hpc : s.thread i = .run (.delete token))
    (hallowed : ∀ n, s.player.duerFindTargetAlertNode token = some n →
      ∀ j, (s.thread j).calls ≠ some n ∧ (s.thread j).tells ≠ some n) :
    Inv (s.work i ok (.delete token)) := by
  rw [work_delete h.whole]
  cases hfind : s.player.duerFindTargetAlertNode token with
  | none =>
    refine h.keep (i := i) rfl ?_ rfl h.unharmed (h.guards_stay rfl (by rw [hpc]; rfl) rfl) nofun
      nofun nofun
    rw [delete_missing hfind]
    exact (Keeps.refl _).emit _
  | some n =>
    obtain ⟨hmem, alert, hdata, -⟩ := duerFindTargetAlertNode_some hfind
    have hstage := (h.whole.listed n hmem).1
    refine h.free (n := n) rfl h.unharmed (h.guards_stay rfl (by rw [hpc]; rfl) rfl)
      (Whole.delete h.whole hfind hdata) (fun m hm ↦ stageOf_delete hfind hdata hm)
      (fun m hm hlisted ↦ ?_) (fun j _ hj ↦ ?_) (fun j _ ↦ (hallowed n hfind j).2)
      (fun j _ ↦ (hallowed n hfind j).1) ⟨rfl, rfl, rfl⟩
    · rw [(lists_delete hfind hdata).1]
      exact (List.mem_erase_of_ne hm).mpr hlisted
    · have hheld := h.held j n hj
      rw [hstage] at hheld
      exact absurd hheld (by decide)

theorem work_callback {ok : Bool} {head : Option ℕ} {alert : AlertData}
    (h : s.player.Whole s.node) (hdata : s.player.data n = some alert)
    (hhead : ∀ m, head = some m → s.player.ringingAlertNode = none → s.node m = true) :
    s.work i ok (.callback n head) = { s.goTo i (.unlock (.callback n head) ok) with
      player := s.player.duerAlertCallbackFrom n alert head } := by
  rw [work, touch, hdata]
  dsimp only
  split
  · rfl
  · next hringing =>
    refine walk_eq fun m hm ↦ ?_
    rcases List.mem_append.mp hm with hm | hm
    · exact hhead m (Option.mem_toList.mp hm) (Option.not_isSome_iff_eq_none.mp hringing)
    · exact (h.listed m (mem_of_mem_nodesFrom hm)).2

theorem Inv.callback {ok : Bool} {head : Option ℕ} (h : Inv s)
    (hpc : s.thread i = .run (.callback n head))
    (hallowed : ∀ m, head = some m → s.player.ringingAlertNode = none → s.node m = true) :
    Inv (s.work i ok (.callback n head)) := by
  have hlive := h.called i n (by rw [hpc]; rfl)
  obtain ⟨alert, hdata⟩ := Option.ne_none_iff_exists'.mp (mt stageOf_eq_none.mpr hlive)
  rw [work_callback h.whole hdata hallowed]
  exact h.keep (i := i) rfl (keeps_duerAlertCallbackFrom head hdata) rfl h.unharmed
    (h.guards_stay rfl (by rw [hpc]; rfl) rfl) nofun nofun nofun

theorem Inv.work {ok : Bool} {job : Job} (h : Inv s) (hpc : s.thread i = .run job)
    (hallowed : s.Allowed (.advance i ok)) : Inv (s.work i ok job) := by
  rw [Allowed, hpc] at hallowed
  cases job with
  | push n =>
    rw [Lifetime.work]
    split
    · exact h.goOn (by rw [hpc]; rfl) (fun m hm ↦ hpc ▸ hm) nofun nofun
    · rw [walk_eq fun m hm ↦ (h.whole.listed m hm).2]
      exact h.push hpc
  | callback n head =>
    refine h.callback hpc ?_
    rintro m rfl
    exact hallowed
  | status type status =>
    rw [work_status h.whole]
    exact h.keep (i := i) rfl (keeps_alertPalyStatusCallback _ type status) rfl h.unharmed
      (h.guards_stay rfl (by rw [hpc]; rfl) rfl) nofun nofun nofun
  | delete token => exact h.delete hpc hallowed

/-! ### Every step -/

theorem Inv.advance {ok : Bool} (h : Inv s) (hallowed : s.Allowed (.advance i ok))
    (hstep : s.advance i ok = some t) : Inv t := by
  rw [Lifetime.advance] at hstep
  cases hpc : s.thread i with
  | absent =>
    rw [hpc] at hstep
    cases hstep
  | done =>
    rw [hpc] at hstep
    cases hstep
  | next =>
    rw [hpc] at hstep
    dsimp only at hstep
    cases hqueue : s.player.alertQueue with
    | nil =>
      rw [hqueue] at hstep
      obtain rfl := Option.some.inj hstep
      exact h.goOn (by rw [hpc]; rfl) nofun nofun nofun
    | cons n queue =>
      rw [hqueue] at hstep
      obtain rfl := Option.some.inj hstep
      exact h.take hpc hqueue
  | start n =>
    rw [hpc] at hstep
    obtain ⟨alert, hdata, heq⟩ := touch_eq (h.live_of_held (i := i) (by rw [hpc]; rfl))
    obtain rfl := Option.some.inj hstep
    rw [heq]
    cases ok with
    | true => exact h.start hpc
    | false => exact h.goOn (by rw [hpc]; rfl) (fun m hm ↦ hpc ▸ hm) nofun nofun
  | fired n =>
    rw [hpc] at hstep
    obtain rfl := Option.some.inj hstep
    exact h.goOn (by rw [hpc]; rfl) nofun nofun fun m hm ↦ hpc ▸ hm
  | lock job =>
    rw [hpc] at hstep
    obtain ⟨hfree, hstep⟩ := Option.ite_none_right_eq_some.mp hstep
    obtain rfl := Option.some.inj hstep
    exact h.lock hpc hfree
  | run job =>
    rw [hpc] at hstep
    obtain rfl := Option.some.inj hstep
    exact h.work hpc hallowed
  | unlock job ok' =>
    rw [hpc] at hstep
    obtain rfl := Option.some.inj hstep
    exact h.unlock hpc
  | success n =>
    rw [hpc] at hstep
    have hmem := h.told i n (by rw [hpc]; rfl)
    have hlive : s.player.stageOf n ≠ none := by
      rw [(h.whole.listed n hmem).1]
      exact nofun
    obtain ⟨alert, hdata, heq⟩ := touch_eq hlive
    obtain rfl := Option.some.inj hstep
    rw [heq]
    exact h.success hpc
  | fail n =>
    rw [hpc] at hstep
    obtain ⟨alert, hdata, heq⟩ := touch_eq (h.live_of_held (i := i) (by rw [hpc]; rfl))
    obtain rfl := Option.some.inj hstep
    rw [heq]
    rw [Allowed, hpc] at hallowed
    exact h.giveUp hpc hallowed

theorem Inv.step {a : LifetimeAction} (h : Inv s) (hallowed : s.Allowed a)
    (hstep : s.step a = some t) : Inv t := by
  unfold Lifetime.step at hstep
  rw [if_neg (by rw [h.unharmed]; exact Bool.false_ne_true)] at hstep
  cases a with
  | set directive =>
    obtain rfl := Option.some.inj hstep
    exact h.set directive
  | work i => exact h.enter hstep rfl rfl rfl nofun
  | fire i n => exact h.fire hstep
  | status i type status =>
    dsimp only at hstep
    split at hstep
    · exact h.enter hstep rfl rfl rfl nofun
    · obtain rfl := Option.some.inj hstep
      exact h
  | delete i token => exact h.enter hstep rfl rfl rfl nofun
  | advance i ok => exact h.advance hallowed hstep

/-! ### A handler alone -/

section Alone

variable {ok : Bool} {job : Job} {pc' : LifetimePc}

theorem enter_eq (hi : s.thread i = .absent) : s.enter i pc = some (s.goTo i pc) := by
  rw [Lifetime.enter, hi]

theorem step_advance (h : s.fault = false) (i : ℕ) (ok : Bool) :
    s.step (.advance i ok) = s.advance i ok := by
  rw [Lifetime.step, if_neg]
  rw [h]
  exact Bool.false_ne_true

/-- A thread that finds the mutex free gets through to where it gives it back. -/
theorem job_alone (h : s.fault = false) (hfree : s.alertMutex = none)
    (hpc : s.thread i = .lock job)
    (hwork : (s.acquire i job).work i ok job = t)
    (ht : t.fault = false) (hpc' : t.thread i = .unlock job ok) :
    AnyRun step s [.advance i ok, .advance i ok, .advance i ok]
      { t.goTo i (job.after ok) with alertMutex := none } := by
  refine .cons trivial ((step_advance h i ok).trans ?_) (.cons trivial
    ((step_advance (s := s.acquire i job) h i ok).trans ?_)
    (.cons trivial ((step_advance ht i ok).trans ?_) (.nil _)))
  · rw [Lifetime.advance, hpc]
    dsimp only
    rw [if_pos hfree]
  · have hself : (s.acquire i job).thread i = .run job := Function.update_self _ _ _
    rw [Lifetime.advance, hself]
    dsimp only
    rw [hwork]
  · rw [Lifetime.advance, hpc']

theorem goTo_self : (s.goTo i pc).thread i = pc := Function.update_self _ _ _

theorem delete_alone (h : Inv s) (hfree : s.alertMutex = none) (hi : s.thread i = .absent)
    (token : Str) : ∃ t, AnyRun step s
      [.delete i token, .advance i ok, .advance i ok, .advance i ok] t ∧
      t.player = s.player.duerDcsAlertDeleteHandler token := by
  refine ⟨_, .cons trivial (t := s.goTo i (.lock (.delete token))) ?_
    (job_alone h.unharmed hfree goTo_self (work_delete h.whole) h.unharmed goTo_self), rfl⟩
  rw [Lifetime.step, if_neg (by rw [h.unharmed]; exact Bool.false_ne_true), enter_eq hi]

theorem status_alone (h : Inv s) (hfree : s.alertMutex = none) (hi : s.thread i = .absent)
    {type : AudioType} {status : AudioStatus}
    (hhandles : isAlert type = true ∧ isTerminal status = true) :
    ∃ t, AnyRun step s [.status i type status, .advance i ok, .advance i ok, .advance i ok] t ∧
      t.player = s.player.alertPalyStatusCallback type status := by
  refine ⟨_, .cons trivial (t := s.goTo i (.lock (.status type status))) ?_
    (job_alone h.unharmed hfree goTo_self (work_status h.whole) h.unharmed goTo_self), rfl⟩
  rw [Lifetime.step, if_neg (by rw [h.unharmed]; exact Bool.false_ne_true)]
  exact (if_pos hhandles).trans (enter_eq hi)

theorem callback_alone {p : AlertPlayer} (h : Inv s) (hfree : s.alertMutex = none)
    (hi : s.thread i = .absent) (hexpire : s.player.expire n = some p) :
    ∃ t, AnyRun step s
      [.fire i n, .advance i ok, .advance i ok, .advance i ok, .advance i ok] t ∧
      t.player = p := by
  obtain ⟨alert, hdata, hok, rfl⟩ := onAlert_eq_some hexpire
  set alert' : AlertData := { alert with expired := true }
  set p := s.player.write n (some alert')
  have hwhole : p.Whole s.node := h.whole.keep (keeps_write alert' hdata rfl)
  set fired := ({ s with player := p } : Lifetime).goTo i (.fired n)
  have hfired : fired.fault = false := h.unharmed
  have hfire : s.step (.fire i n) = some fired := by
    rw [Lifetime.step, if_neg (by rw [h.unharmed]; exact Bool.false_ne_true), Lifetime.fire, hdata]
    exact (if_pos (of_decide_eq_true hok)).trans (enter_eq hi)
  set waiting := fired.goTo i (.lock (.callback n p.alertList.head?))
  have hread : fired.step (.advance i ok) = some waiting := by
    rw [step_advance hfired, Lifetime.advance, goTo_self]
    rfl
  have hwork : (waiting.acquire i (.callback n p.alertList.head?)).work i ok
      (.callback n p.alertList.head?) = _ :=
    work_callback hwhole data_write_self fun m hm _ ↦ (hwhole.listed m (List.mem_of_head? hm)).2
  have hjob := job_alone (s := waiting) hfired hfree goTo_self hwork hfired goTo_self
  refine ⟨_, .cons trivial hfire (.cons trivial hread hjob), ?_⟩
  exact (duerAlertCallbackFrom_head _ _ _).trans (duerAlertCallback_write _)

theorem work_push (h : s.player.Whole s.node) :
    s.work i true (.push n) = { s.goTo i (.unlock (.push n) true) with
      player := { s.player.setStage n .listed with alertList := s.player.alertList ++ [n] }
      node := Function.update s.node n true } :=
  walk_eq fun m hm ↦ (h.listed m hm).2

theorem step_success {alert : AlertData} (h : s.fault = false) (hpc : s.thread i = .success n)
    (hdata : s.player.data n = some alert) : s.step (.advance i ok) =
      some { s.goTo i .next with player := s.player.report n alert .SET_ALERT_SUCCESS } := by
  rw [step_advance h, Lifetime.advance, hpc]
  dsimp only
  rw [touch, hdata]

theorem push_alone {p : AlertPlayer} (h : Inv s) (hfree : s.alertMutex = none)
    (hpc : s.thread i = .lock (.push n)) (hpush : s.player.threadPush n = some p) :
    ∃ t, AnyRun step s
      [.advance i true, .advance i true, .advance i true, .advance i true] t ∧
      t.player = p := by
  obtain ⟨alert, hdata, hok, rfl⟩ := onAlert_eq_some hpush
  have hjob := job_alone h.unharmed hfree hpc (work_push h.whole) h.unharmed goTo_self
  have hset : s.player.setStage n .listed =
      s.player.write n (some { alert with stage := .listed }) := by
    rw [setStage, hdata]
    rfl
  have hlisted : (s.player.setStage n .listed).data n = some { alert with stage := .listed } :=
    hset ▸ data_write_self
  refine ⟨_, hjob.append (.cons trivial (step_success ?_ goTo_self hlisted) (.nil _)), ?_⟩
  · exact h.unharmed
  · exact congrArg (fun p : AlertPlayer ↦ AlertPlayer.report
      { p with alertList := s.player.alertList ++ [n] } n alert .SET_ALERT_SUCCESS) hset

end Alone

end Inv

end Lifetime

/-- **Nothing that has been freed is touched or freed again** in a run that frees nothing that is
still needed. -/
theorem unharmed_of_run (as : List LifetimeAction) {s : Lifetime}
    (h : Run Lifetime.step Lifetime.Allowed .init as s) : s.fault = false :=
  (h.invariant (fun _ _ _ hI hok hstep ↦ Lifetime.Inv.step hI hok hstep) Lifetime.inv_init).unharmed

/-- An alert is set, and rings. -/
def oneRings : List LifetimeAction :=
  [.set (some oneTonePayload), .work 0, .advance 0 true, .advance 0 true, .advance 0 true,
    .advance 0 true, .advance 0 true, .advance 0 true, .fire 1 0, .advance 1 true, .advance 1 true,
    .advance 1 true, .advance 1 true]

theorem unharmed_oneRings : ∃ s : Lifetime, s.player.ringingAlertNode = some 0 ∧
    s.fault = false :=
  ⟨_, rfl, unharmed_of_run oneRings
    (.cons trivial rfl <| .cons trivial rfl <| .cons trivial rfl <| .cons trivial rfl <|
      .cons trivial rfl <| .cons trivial rfl <| .cons trivial rfl <| .cons trivial rfl <|
      .cons trivial rfl <| .cons trivial rfl <| .cons trivial rfl <| .cons (fun _ ↦ rfl) rfl <|
      .cons trivial rfl <| .nil _)⟩

/-- The alert is deleted while the callback of its timer waits for the mutex. -/
def deletedTooSoon : List LifetimeAction :=
  [.set (some oneTonePayload), .work 0, .advance 0 true, .advance 0 true, .advance 0 true,
    .advance 0 true, .advance 0 true, .advance 0 true, .delete 2 [1], .advance 2 true, .fire 1 0,
    .advance 1 true, .advance 2 true, .advance 2 true, .advance 1 true, .advance 1 true]

theorem not_unharmed_deletedTooSoon :
    ¬∀ as s, AnyRun Lifetime.step .init as s → s.fault = false := by
  intro h
  have hfault := h deletedTooSoon _ (anyRun_of_foldlM rfl)
  exact Bool.noConfusion hfault

end Ddmz.Alert
