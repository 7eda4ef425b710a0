import Ddmz.Alert.Player

/-!
# Every alert that starts stops

The handlers report `ALERT_START` when an alert becomes active and `ALERT_STOP` when it stops being
active or is deleted while it is. `Balance` is that these reports keep step with the flags, and
`Ringing` that the ringing node is in the list and active.

Within a handler the node may have stopped ringing already, so `Ringing` is only restored at the
end of it; `Balance` is preserved by every part. A timer that is handled needs its alert to be
inactive, and an alert that is put into the list not to be there yet: `Placed`.
-/

namespace Ddmz.Alert

/-- A report of this event about this alert. -/
def Output.isReport (n : ℕ) (event : AlertEvent) : Output → Bool
  | .report alert _ event' => decide (alert = some n ∧ event' = event)
  | _ => false

/-- An output that is no report of a start or of a stop. -/
def Output.isNeutral (output : Output) : Prop :=
  ∀ n, output.isReport n .ALERT_START = false ∧ output.isReport n .ALERT_STOP = false

/-- An alert is inactive until its timer expires, which it does not before it has been started. -/
structure AlertData.Waiting (alert : AlertData) : Prop where
  unexpired : alert.expired = false → alert.isActive = false
  unstarted : alert.stage = .queued ∨ alert.stage = .taken → alert.expired = false

namespace AlertPlayer

/-- How many reports of this event there have been about this alert. -/
def reports (s : AlertPlayer) (n : ℕ) (event : AlertEvent) : ℕ :=
  s.log.countP (Output.isReport n event)

/-- The alert has been reported to start once more than to stop if it is active, and as often
otherwise. -/
def Balance (s : AlertPlayer) : Prop :=
  ∀ n, s.reports n .ALERT_START = s.reports n .ALERT_STOP + if s.isActive n then 1 else 0

/-- What rings is in the list and active. -/
def Ringing (s : AlertPlayer) : Prop :=
  ∀ n, s.ringingAlertNode = some n → n ∈ s.alertList ∧ s.isActive n = true

/-- Alerts are where their stages say. -/
structure Placed (s : AlertPlayer) : Prop where
  nodup : s.alertList.Nodup
  nodupQueue : s.alertQueue.Nodup
  listed : ∀ n ∈ s.alertList, ∃ alert, s.data n = some alert ∧ alert.stage = .listed
  queued : ∀ n ∈ s.alertQueue, ∃ alert, s.data n = some alert ∧ alert.stage = .queued
  created : ∀ n alert, s.data n = some alert → n < s.created
  waiting : ∀ n alert, s.data n = some alert → alert.Waiting

variable {s t : AlertPlayer} {n m : ℕ} {alert alert' : AlertData} {o : Output} {e : AlertEvent}

/-! ## The balance -/

@[simp] theorem reports_write {x : Option AlertData} :
    (s.write n x).reports m e = s.reports m e := rfl

theorem reports_emit :
    (s.emit o).reports m e = s.reports m e + if o.isReport m e then 1 else 0 := by
  rw [reports, log_emit, List.countP_append, List.countP_singleton, reports]

theorem isReport_report (n m : ℕ) (token : Option Str) (e e' : AlertEvent) :
    Output.isReport m e' (.report (some n) token e) = decide (n = m ∧ e = e') := by
  simp only [Output.isReport, Option.some.injEq]

theorem isNeutral_play (url : Str) (type : AudioType) : (Output.play url type).isNeutral :=
  fun _ ↦ ⟨rfl, rfl⟩

theorem isNeutral_stop : Output.stop.isNeutral := fun _ ↦ ⟨rfl, rfl⟩

theorem isNeutral_playback (alert : AlertData) : alert.playback.isNeutral := by
  rw [AlertData.playback]
  split
  · exact isNeutral_play _ _
  · exact isNeutral_play _ _

theorem isNeutral_report {a : Option ℕ} {token : Option Str} (hstart : e ≠ .ALERT_START)
    (hstop : e ≠ .ALERT_STOP) : (Output.report a token e).isNeutral := fun _ ↦
  ⟨decide_eq_false fun h ↦ hstart h.2, decide_eq_false fun h ↦ hstop h.2⟩

theorem Balance.emit (h : Balance s) (ho : o.isNeutral) : Balance (s.emit o) := by
  intro m
  rw [reports_emit, reports_emit, (ho m).1, (ho m).2]
  exact h m

/-- The balance is about the flags and the log. -/
theorem Balance.congr (h : Balance s) (hactive : ∀ m, t.isActive m = s.isActive m)
    (hlog : t.log = s.log) : Balance t := by
  intro m
  rw [reports, reports, hlog, hactive]
  exact h m

theorem Balance.write {x : Option AlertData} (h : Balance s)
    (hx : x.any AlertData.isActive = s.isActive n) : Balance (s.write n x) :=
  h.congr (isActive_write hx) rfl

/-- An alert whose flag changes is reported. -/
theorem Balance.change (h : Balance s) {x : Option AlertData} {token : Option Str}
    (hx : (e = .ALERT_START ∧ s.isActive n = false ∧ x.any AlertData.isActive = true) ∨
      (e = .ALERT_STOP ∧ s.isActive n = true ∧ x.any AlertData.isActive = false)) :
    Balance ((s.write n x).emit (.report (some n) token e)) := by
  intro m
  rw [reports_emit, reports_emit, isReport_report, isReport_report, reports_write, reports_write,
    isActive_congr (congrFun data_emit m), h m]
  by_cases hmn : m = n
  · -- the report and the flag change together
    subst hmn
    rw [isActive_write_self]
    rcases hx with ⟨rfl, hold, hnew⟩ | ⟨rfl, hold, hnew⟩
    · rw [hold, hnew]
      simp
    · rw [hold, hnew]
      simp
  · rw [isActive_write_ne hmn]
    simp [Ne.symm hmn]

theorem Balance.deactivate (h : Balance s) (hactive : s.isActive n = true) :
    Balance (s.deactivate n alert) :=
  h.change (.inr ⟨rfl, hactive, rfl⟩)

theorem Balance.stopAll (h : Balance s) : Balance s.stopAll := by
  fun_induction AlertPlayer.stopAll s with
  | case1 s hfind => exact h
  | case2 s n hfind hdata => exact h
  | case3 s n hfind alert hdata ih => exact ih (h.deactivate (duerFindActiveAlert_some hfind).2)

/-! ## The places -/

/-- The log and what rings do not matter. -/
theorem Placed.congr (h : Placed s) (hdata : t.data = s.data) (hlist : t.alertList = s.alertList)
    (hqueue : t.alertQueue = s.alertQueue) (hcreated : t.created = s.created) : Placed t := by
  obtain ⟨data, queue, list, ringing, log, created⟩ := t
  dsimp only at hdata hlist hqueue hcreated
  subst hdata hlist hqueue hcreated
  exact ⟨h.nodup, h.nodupQueue, h.listed, h.queued, h.created, h.waiting⟩

/-- An alert is written, and it alone moves between the places. -/
theorem Placed.move {x : Option AlertData} {list queue : List ℕ} {created : ℕ} (h : Placed s)
    (hcreated : s.created ≤ created) (hn : n < created) (hnodup : list.Nodup)
    (hnodupQueue : queue.Nodup) (hlist : ∀ m ∈ list, m ≠ n → m ∈ s.alertList)
    (hqueue : ∀ m ∈ queue, m ≠ n → m ∈ s.alertQueue)
    (hlisted : n ∈ list → ∃ alert, x = some alert ∧ alert.stage = .listed)
    (hqueued : n ∈ queue → ∃ alert, x = some alert ∧ alert.stage = .queued)
    (hwaiting : ∀ alert, x = some alert → alert.Waiting) :
    Placed { s.write n x with alertList := list, alertQueue := queue, created := created } where
  nodup := hnodup
  nodupQueue := hnodupQueue
  listed m hm := by
    by_cases hmn : m = n
    · obtain ⟨alert, hx, hstage⟩ := hlisted (hmn ▸ hm)
      exact ⟨alert, by rw [hmn, ← hx]; exact data_write_self, hstage⟩
    · obtain ⟨alert, hdata, hstage⟩ := h.listed m (hlist m hm hmn)
      exact ⟨alert, (data_write_ne hmn).trans hdata, hstage⟩
  queued m hm := by
    by_cases hmn : m = n
    · obtain ⟨alert, hx, hstage⟩ := hqueued (hmn ▸ hm)
      exact ⟨alert, by rw [hmn, ← hx]; exact data_write_self, hstage⟩
    · obtain ⟨alert, hdata, hstage⟩ := h.queued m (hqueue m hm hmn)
      exact ⟨alert, (data_write_ne hmn).trans hdata, hstage⟩
  created m alert hdata := by
    by_cases hmn : m = n
    · rw [hmn]
      exact hn
    · exact (h.created m alert ((data_write_ne hmn).symm.trans hdata)).trans_le hcreated
  waiting m alert hdata := by
    by_cases hmn : m = n
    · rw [hmn] at hdata
      exact hwaiting alert (data_write_self.symm.trans hdata)
    · exact h.waiting m alert ((data_write_ne hmn).symm.trans hdata)

theorem Placed.stage_of_listed (h : Placed s) (hdata : s.data n = some alert)
    (hn : n ∈ s.alertList) : alert.stage = .listed := by
  obtain ⟨_, hdata', hstage⟩ := h.listed n hn
  rwa [Option.some.inj (hdata.symm.trans hdata')]

theorem Placed.stage_of_queued (h : Placed s) (hdata : s.data n = some alert)
    (hn : n ∈ s.alertQueue) : alert.stage = .queued := by
  obtain ⟨_, hdata', hstage⟩ := h.queued n hn
  rwa [Option.some.inj (hdata.symm.trans hdata')]

/-- A live alert may be overwritten by one in the same place. -/
theorem Placed.overwrite (h : Placed s) (alert' : AlertData) (hdata : s.data n = some alert)
    (hstage : alert'.stage = alert.stage) (hwaiting : alert'.Waiting) :
    Placed (s.write n (some alert')) := by
  refine h.move le_rfl (h.created n alert hdata) h.nodup h.nodupQueue (fun _ hm _ ↦ hm)
    (fun _ hm _ ↦ hm) (fun hn ↦ ?_) (fun hn ↦ ?_) ?_
  · exact ⟨alert', rfl, hstage.trans (h.stage_of_listed hdata hn)⟩
  · exact ⟨alert', rfl, hstage.trans (h.stage_of_queued hdata hn)⟩
  · rintro _ ⟨⟩
    exact hwaiting

theorem Placed.deactivate (h : Placed s) (hdata : s.data n = some alert)
    (hstage : alert'.stage = alert.stage) (hexpired : alert'.expired = alert.expired) :
    Placed (s.deactivate n alert') := by
  have hwaiting : AlertData.Waiting { alert' with isActive := false } := ⟨fun _ ↦ rfl,
    fun hstarted ↦ hexpired.trans ((h.waiting n alert hdata).unstarted (hstage ▸ hstarted))⟩
  have hwrite : Placed (s.write n (some { alert' with isActive := false })) :=
    h.overwrite _ hdata hstage hwaiting
  exact hwrite.congr rfl rfl rfl rfl

theorem Placed.stopAll (h : Placed s) : Placed s.stopAll := by
  fun_induction AlertPlayer.stopAll s with
  | case1 s hfind => exact h
  | case2 s n hfind hdata => exact h
  | case3 s n hfind alert hdata ih => exact ih (h.deactivate hdata rfl rfl)

theorem Placed.playNext (h : Placed s) : Placed s.playNext := by
  obtain ⟨log, heq⟩ := s.playNext_eq
  rw [heq]
  exact h.congr rfl rfl rfl rfl

/-! ## What rings -/

/-- A search leaves an active node of the list ringing. -/
theorem ringing_playNext (s : AlertPlayer) : Ringing s.playNext := by
  obtain ⟨log, heq⟩ := s.playNext_eq
  rw [heq]
  exact fun n hn ↦ duerFindActiveAlert_some hn

theorem Ringing.congr (h : Ringing s) (hringing : t.ringingAlertNode = s.ringingAlertNode)
    (hlist : s.alertList ⊆ t.alertList) (hactive : ∀ m, s.isActive m = true → t.isActive m = true) :
    Ringing t := by
  intro m hm
  obtain ⟨hmem, hm'⟩ := h m (hringing ▸ hm)
  exact ⟨hlist hmem, hactive m hm'⟩

theorem Balance.playNext (h : Balance s) : Balance s.playNext := by
  rw [AlertPlayer.playNext]
  dsimp only
  split
  · exact Balance.emit h (isNeutral_playback _)
  · exact h

/-! ## The handlers -/

/-- What every handler leaves behind. -/
structure Sound (s : AlertPlayer) : Prop where
  placed : Placed s
  balance : Balance s
  ringing : Ringing s

theorem Sound.next (hplaced : Placed s) (hbalance : Balance s) : Sound s.playNext :=
  ⟨hplaced.playNext, hbalance.playNext, ringing_playNext s⟩

/-- The active ringing alert may be overwritten by an active one, and something be played. -/
theorem Sound.emit (h : Sound s) (ho : o.isNeutral) : Sound (s.emit o) :=
  ⟨h.placed.congr rfl rfl rfl rfl, h.balance.emit ho,
    h.ringing.congr rfl (List.Subset.refl _) fun _ hm ↦ hm⟩

theorem Sound.overwrite (h : Sound s) (alert' : AlertData) (hdata : s.data n = some alert)
    (hstage : alert'.stage = alert.stage) (hexpired : alert'.expired = alert.expired)
    (hactive : alert'.isActive = alert.isActive) : Sound (s.write n (some alert')) := by
  have hsame : (some alert').any AlertData.isActive = s.isActive n :=
    hactive.trans (isActive_of_data hdata).symm
  have hwaiting : alert'.Waiting := by
    obtain ⟨hunexpired, hunstarted⟩ := h.placed.waiting n alert hdata
    refine ⟨fun hexp ↦ ?_, fun hst ↦ ?_⟩
    · rw [hactive]
      exact hunexpired (hexpired ▸ hexp)
    · rw [hexpired]
      exact hunstarted (hstage ▸ hst)
  refine ⟨h.placed.overwrite _ hdata hstage hwaiting, h.balance.write hsame, ?_⟩
  exact h.ringing.congr rfl (List.Subset.refl _) fun m hm ↦ (isActive_write hsame m).trans hm

theorem Sound.duerAudioPlayerOnStop (h : Sound s) : Sound s.duerAudioPlayerOnStop :=
  ⟨h.placed.stopAll.congr rfl rfl rfl rfl, h.balance.stopAll.congr (fun _ ↦ rfl) rfl, nofun⟩

theorem Sound.duerAudioPlayerOnFinish (h : Sound s) : Sound s.duerAudioPlayerOnFinish := by
  cases hringing : s.ringingAlertNode with
  | none =>
    rw [onFinish_silent hringing]
    exact .next h.placed h.balance
  | some n =>
    have hactive := (h.ringing n hringing).2
    obtain ⟨alert, hdata, -⟩ := isActive_eq_true.mp hactive
    rw [onFinish_ringing hringing hdata]
    split
    · next hnext =>
      exact (h.overwrite (alert.nextTone hnext) hdata rfl rfl rfl).emit
        (isNeutral_play _ _)
    · split
      · exact .next (h.placed.deactivate hdata rfl rfl) (h.balance.deactivate hactive)
      · have hpass := h.overwrite alert.nextPass hdata rfl rfl rfl
        exact .next hpass.placed hpass.balance

theorem Sound.duerAudioPlayerOnError (h : Sound s) (type : AudioType) :
    Sound (s.duerAudioPlayerOnError type) := by
  by_cases htype : type = .ALERT_RINGING
  · subst htype
    cases hringing : s.ringingAlertNode with
    | none =>
      rw [onError_silent hringing]
      exact .next h.placed h.balance
    | some n =>
      have hactive := (h.ringing n hringing).2
      obtain ⟨alert, hdata, -⟩ := isActive_eq_true.mp hactive
      rw [onError_ringing hringing hdata]
      exact .next (h.placed.deactivate hdata rfl rfl) (h.balance.deactivate hactive)
  · rw [onError_speech htype]
    exact h.emit (isNeutral_play _ _)

theorem Sound.alertPalyStatusCallback (h : Sound s) (type : AudioType) (status : AudioStatus) :
    Sound (s.alertPalyStatusCallback type status) := by
  unfold AlertPlayer.alertPalyStatusCallback
  split
  · exact h
  · cases status with
    | STOP => exact h.duerAudioPlayerOnStop
    | FINISHED => exact h.duerAudioPlayerOnFinish
    | ERROR => exact h.duerAudioPlayerOnError type
    | _ => exact h

/-! ## The other steps -/

/-- A new alert is not known yet. -/
theorem Placed.data_created (h : Placed s) : s.data s.created = none :=
  Option.eq_none_iff_forall_ne_some.mpr fun alert hdata ↦
    absurd (h.created s.created alert hdata) (Nat.lt_irrefl _)

/-- An alert is written, alone moves, and stays as active as it was. -/
theorem Sound.move {x : Option AlertData} {list queue : List ℕ} {created : ℕ} (h : Sound s)
    (hplaced : Placed { s.write n x with
      alertList := list, alertQueue := queue, created := created })
    (hactive : x.any AlertData.isActive = s.isActive n) (hlist : s.alertList ⊆ list) :
    Sound { s.write n x with alertList := list, alertQueue := queue, created := created } := by
  refine ⟨hplaced, h.balance.congr (fun m ↦ ?_) rfl, h.ringing.congr rfl hlist fun m hm ↦ ?_⟩
  · exact isActive_write hactive m
  · exact (isActive_write hactive m).trans hm

theorem Sound.set (h : Sound s) (directive : Option Payload) :
    Sound (s.duerDcsToneAlertSetHandler directive).2 := by
  rcases s.set_cases directive with heq | ⟨token, heq⟩ | ⟨alert, ⟨hstage, hactive, hexpired⟩, heq⟩
  · rw [heq]
    exact h
  · rw [heq]
    exact h.emit (isNeutral_report nofun nofun)
  · rw [heq]
    have hnone := h.placed.data_created
    have hfresh : s.created ∉ s.alertList := fun hmem ↦ by
      obtain ⟨_, hdata, -⟩ := h.placed.listed _ hmem
      rw [hnone] at hdata
      cases hdata
    have hfreshQueue : s.created ∉ s.alertQueue := fun hmem ↦ by
      obtain ⟨_, hdata, -⟩ := h.placed.queued _ hmem
      rw [hnone] at hdata
      cases hdata
    refine h.move ?_ (hactive.trans (isActive_of_none hnone).symm) (List.Subset.refl _)
    refine h.placed.move (Nat.le_succ _) (Nat.lt_succ_self _) h.placed.nodup ?_
      (fun _ hm _ ↦ hm) (fun m hm hne ↦ ?_) (fun hmem ↦ absurd hmem hfresh)
      (fun _ ↦ ⟨alert, rfl, hstage⟩) ?_
    · exact (List.perm_append_singleton _ _).nodup_iff.mpr
        (List.nodup_cons.mpr ⟨hfreshQueue, h.placed.nodupQueue⟩)
    · exact (List.mem_append.mp hm).resolve_right fun hm ↦ hne (List.mem_singleton.mp hm)
    · rintro _ ⟨⟩
      exact ⟨fun _ ↦ hactive, fun _ ↦ hexpired⟩

theorem Sound.take (h : Sound s) (hstep : s.threadTake = some t) : Sound t := by
  rw [threadTake] at hstep
  cases hqueue : s.alertQueue with
  | nil =>
    rw [hqueue] at hstep
    cases hstep
  | cons n queue =>
    rw [hqueue] at hstep
    obtain ⟨alert, hdata, rfl⟩ := Option.map_eq_some_iff.mp hstep
    have hmem : n ∈ s.alertQueue := hqueue ▸ List.mem_cons_self
    have hstage := h.placed.stage_of_queued hdata hmem
    have hwaiting := h.placed.waiting n alert hdata
    have hnodup := h.placed.nodupQueue
    rw [hqueue, List.nodup_cons] at hnodup
    refine h.move ?_ (isActive_of_data hdata).symm (List.Subset.refl _)
    refine h.placed.move le_rfl (h.placed.created n alert hdata) h.placed.nodup hnodup.2
      (fun _ hm _ ↦ hm) (fun m hm _ ↦ hqueue ▸ List.mem_cons_of_mem _ hm) (fun hlisted ↦ ?_)
      (fun hqueued ↦ absurd hqueued hnodup.1) ?_
    · exact absurd (hstage.symm.trans (h.placed.stage_of_listed hdata hlisted)) nofun
    · rintro _ ⟨⟩
      exact ⟨hwaiting.unexpired, fun _ ↦ hwaiting.unstarted (.inl hstage)⟩

/-- Once a worker has taken it, an alert is not in the queue, and not yet in the list. -/
theorem Placed.not_mem (h : Placed s) (hdata : s.data n = some alert)
    (hstage : alert.stage = .taken ∨ alert.stage = .started) :
    n ∉ s.alertList ∧ n ∉ s.alertQueue := by
  refine ⟨fun hmem ↦ ?_, fun hmem ↦ ?_⟩
  · rw [h.stage_of_listed hdata hmem] at hstage
    exact absurd hstage (by decide)
  · rw [h.stage_of_queued hdata hmem] at hstage
    exact absurd hstage (by decide)

theorem Sound.fail (h : Sound s) (hstep : s.threadFail n = some t) : Sound t := by
  obtain ⟨alert, hdata, hok, rfl⟩ := onAlert_eq_some hstep
  have hstage := of_decide_eq_true hok
  have hnot := h.placed.not_mem hdata (.inl hstage)
  have hwaiting := h.placed.waiting n alert hdata
  have hinactive := hwaiting.unexpired (hwaiting.unstarted (.inr hstage))
  have hplaced : Placed (s.write n none) := h.placed.move le_rfl (h.placed.created n alert hdata)
    h.placed.nodup h.placed.nodupQueue (fun _ hm _ ↦ hm) (fun _ hm _ ↦ hm)
    (fun hmem ↦ absurd hmem hnot.1) (fun hmem ↦ absurd hmem hnot.2) nofun
  -- its timer has not been started, so no stop is owed
  have hfreed : Sound (s.write n none) :=
    h.move hplaced ((isActive_of_data hdata).trans hinactive).symm (List.Subset.refl _)
  exact hfreed.emit (isNeutral_report nofun nofun)

theorem Sound.start (h : Sound s) (hstep : s.threadStart n = some t) : Sound t := by
  obtain ⟨alert, hdata, hok, rfl⟩ := onAlert_eq_some hstep
  have hnot := h.placed.not_mem hdata (.inl (of_decide_eq_true hok))
  refine h.move ?_ (isActive_of_data hdata).symm (List.Subset.refl _)
  refine h.placed.move le_rfl (h.placed.created n alert hdata) h.placed.nodup h.placed.nodupQueue
    (fun _ hm _ ↦ hm) (fun _ hm _ ↦ hm) (fun hmem ↦ absurd hmem hnot.1)
    (fun hmem ↦ absurd hmem hnot.2) ?_
  rintro _ ⟨⟩
  exact ⟨(h.placed.waiting n alert hdata).unexpired, fun hst ↦ hst.elim nofun nofun⟩

theorem Sound.push (h : Sound s) (hstep : s.threadPush n = some t) : Sound t := by
  obtain ⟨alert, hdata, hok, rfl⟩ := onAlert_eq_some hstep
  have hnot := h.placed.not_mem hdata (.inr (of_decide_eq_true hok))
  refine Sound.emit (h.move ?_ (isActive_of_data hdata).symm (List.subset_append_left _ _))
    (isNeutral_report nofun nofun)
  refine h.placed.move le_rfl (h.placed.created n alert hdata) ?_ h.placed.nodupQueue
    (fun m hm hne ↦ ?_) (fun _ hm _ ↦ hm) (fun _ ↦ ⟨_, rfl, rfl⟩)
    (fun hmem ↦ absurd hmem hnot.2) ?_
  · exact (List.perm_append_singleton _ _).nodup_iff.mpr
      (List.nodup_cons.mpr ⟨hnot.1, h.placed.nodup⟩)
  · exact (List.mem_append.mp hm).resolve_right fun hm ↦ hne (List.mem_singleton.mp hm)
  · rintro _ ⟨⟩
    exact ⟨(h.placed.waiting n alert hdata).unexpired, fun hst ↦ hst.elim nofun nofun⟩

theorem Sound.expire (h : Sound s) (hstep : s.expire n = some t) : Sound t := by
  obtain ⟨alert, hdata, hok, rfl⟩ := onAlert_eq_some hstep
  obtain ⟨hstage, hexpired⟩ := of_decide_eq_true hok
  have hinactive := (h.placed.waiting n alert hdata).unexpired hexpired
  have hold : s.isActive n = false := (isActive_of_data hdata).trans hinactive
  set s' := (s.write n (some { alert with isActive := true, expired := true })).report n alert
    .ALERT_START with hs'
  have hwaiting : AlertData.Waiting { alert with isActive := true, expired := true } := by
    refine ⟨nofun, fun hst ↦ ?_⟩
    rcases hstage with hstage | hstage
    · exact absurd (hst : alert.stage = .queued ∨ alert.stage = .taken) (by rw [hstage]; decide)
    · exact absurd (hst : alert.stage = .queued ∨ alert.stage = .taken) (by rw [hstage]; decide)
  have hplaced : Placed s' :=
    (h.placed.overwrite { alert with isActive := true, expired := true } hdata rfl
      hwaiting).congr rfl rfl rfl rfl
  have hbalance : Balance s' := h.balance.change (.inl ⟨rfl, hold, rfl⟩)
  -- what rings is active, and so is not this alert
  have hgrow (m : ℕ) (hm : s.isActive m = true) : s'.isActive m = true := by
    have hmn : m ≠ n := fun heq ↦ by rw [heq, hold] at hm; cases hm
    exact (isActive_write_ne hmn).trans hm
  have hkept : Sound s' := ⟨hplaced, hbalance, h.ringing.congr rfl (List.Subset.refl _) hgrow⟩
  rw [duerAlertCallback]
  split
  · exact hkept
  · split
    · next hmem =>
      refine Sound.emit ⟨hplaced.congr rfl rfl rfl rfl, hbalance.congr (fun _ ↦ rfl) rfl, ?_⟩
        (isNeutral_playback _)
      rintro m ⟨⟩
      exact ⟨hmem, isActive_write_self⟩
    · exact hkept

theorem Balance.stopRinging (h : Balance s) : Balance (s.stopRinging n) := by
  rw [AlertPlayer.stopRinging]
  split
  · exact Balance.emit (h.congr (fun _ ↦ rfl) rfl) isNeutral_stop
  · exact h

/-- An alert that is active is reported to stop before it is freed. -/
theorem Balance.free (h : Balance s) (hdata : s.data n = some alert) :
    Balance ((s.stopTarget n alert).write n none) := by
  have hstopped := h.stopRinging (n := n)
  have hactive : (s.stopRinging n).isActive n = alert.isActive := by
    refine (isActive_congr ?_).trans (isActive_of_data hdata)
    rw [AlertPlayer.stopRinging]
    split
    · rfl
    · rfl
  rw [stopTarget]
  split
  · next hstop => exact hstopped.change (.inr ⟨rfl, hactive.trans hstop, rfl⟩)
  · next hstop => exact hstopped.write (hactive.trans (Bool.eq_false_iff.mpr hstop)).symm

theorem Sound.delete (h : Sound s) (token : Str) : Sound (s.duerDcsAlertDeleteHandler token) := by
  cases hfind : s.duerFindTargetAlertNode token with
  | none =>
    rw [delete_missing hfind]
    exact h.emit (isNeutral_report nofun nofun)
  | some n =>
    obtain ⟨hmem, alert, hdata, -⟩ := duerFindTargetAlertNode_some hfind
    have hqueue : n ∉ s.alertQueue := fun hqueued ↦ absurd
      ((h.placed.stage_of_queued hdata hqueued).symm.trans (h.placed.stage_of_listed hdata hmem))
      nofun
    have hplaced : Placed { s.write n none with alertList := s.alertList.erase n } :=
      h.placed.move le_rfl (h.placed.created n alert hdata) (h.placed.nodup.erase n)
        h.placed.nodupQueue (fun _ hm _ ↦ List.mem_of_mem_erase hm) (fun _ hm _ ↦ hm)
        (fun hlisted ↦ absurd rfl (h.placed.nodup.mem_erase_iff.mp hlisted).1)
        (fun hqueued ↦ absurd hqueued hqueue) nofun
    refine ⟨?_, ?_, fun m hm ↦ ?_⟩
    · obtain ⟨log, heq⟩ := s.stopTarget_eq n alert
      rw [delete_found hfind hdata, heq]
      exact hplaced.congr rfl rfl rfl rfl
    · rw [delete_found hfind hdata]
      exact Balance.emit ((h.balance.free hdata).congr (fun _ ↦ rfl) rfl)
        (isNeutral_report nofun nofun)
    · rw [ringing_delete hfind hdata] at hm
      obtain ⟨hother, hringing⟩ := Option.ite_none_left_eq_some.mp hm
      have hne : m ≠ n := fun hmn ↦ hother (hmn ▸ hringing)
      obtain ⟨hlisted, hactive⟩ := h.ringing m hringing
      refine ⟨?_, (isActive_delete hfind hdata m).mpr ⟨hne, hactive⟩⟩
      rw [delete_found hfind hdata]
      exact (List.mem_erase_of_ne hne).mpr hlisted

/-! ## The result -/

/-- **Every step keeps the handlers' invariant.** -/
theorem Sound.step {a : AlertAction} (h : Sound s) (hstep : s.step a = some t) : Sound t := by
  cases a with
  | set directive =>
    obtain rfl := Option.some.inj hstep
    exact h.set directive
  | take => exact h.take hstep
  | fail n => exact h.fail hstep
  | start n => exact h.start hstep
  | push n => exact h.push hstep
  | expire n => exact h.expire hstep
  | status type status =>
    obtain rfl := Option.some.inj hstep
    exact h.alertPalyStatusCallback type status
  | delete token =>
    obtain rfl := Option.some.inj hstep
    exact h.delete token

theorem sound_init : Sound init where
  placed := ⟨List.nodup_nil, List.nodup_nil, nofun, nofun, nofun, nofun⟩
  balance _ := rfl
  ringing := nofun

theorem sound_of_run {as : List AlertAction} (h : AnyRun AlertPlayer.step init as s) : Sound s :=
  h.invariant (fun _ _ _ hI _ hstep ↦ hI.step hstep) sound_init

end AlertPlayer

/-- What is promised about the reports: a live alert has started once more than it has stopped if
it is active, and as often otherwise; a freed one has stopped as often as it has started; and what
rings is in the list and active. -/
structure Balanced (s : AlertPlayer) : Prop where
  live : ∀ n alert, s.data n = some alert →
    s.reports n .ALERT_START = s.reports n .ALERT_STOP + if alert.isActive then 1 else 0
  freed : ∀ n, s.data n = none → s.reports n .ALERT_START = s.reports n .ALERT_STOP
  ringing : ∀ n, s.ringingAlertNode = some n →
    n ∈ s.alertList ∧ ∃ alert, s.data n = some alert ∧ alert.isActive

/-- **Starts and stops are balanced in every state that the system reaches.** -/
theorem balanced_of_run (as : List AlertAction) {s : AlertPlayer}
    (h : AnyRun AlertPlayer.step .init as s) : Balanced s where
  live n alert hdata := by
    have hbalance := (AlertPlayer.sound_of_run h).balance n
    rwa [AlertPlayer.isActive_of_data hdata] at hbalance
  freed n hdata := by
    have hbalance := (AlertPlayer.sound_of_run h).balance n
    rwa [AlertPlayer.isActive_of_none hdata] at hbalance
  ringing n hn := by
    obtain ⟨hmem, hactive⟩ := (AlertPlayer.sound_of_run h).ringing n hn
    exact ⟨hmem, AlertPlayer.isActive_eq_true.mp hactive⟩

/-- A directive for an alert with one tone that is played once. -/
def oneTone (token : UInt8) : AlertAction :=
  .set (some
    { token := some (some [token])
      scheduledTime := some (some [])
      type := some (some [])
      assetPlayOrder := some [some [token]]
      loopCount := some 1
      assets := some [⟨some [token], some [token, token]⟩] })

/-- Two alerts are set; the first one rings until the player has finished, and then the second. -/
def twoAlerts : List AlertAction :=
  [oneTone 1, oneTone 2, .take, .start 0, .push 0, .take, .start 1, .push 1, .expire 0, .expire 1,
    .status .ALERT_SPEECH .FINISHED]

theorem balanced_twoAlerts : ∃ s : AlertPlayer, s.ringingAlertNode = some 1 ∧
    s.reports 0 .ALERT_STOP = 1 ∧ Balanced s :=
  ⟨_, rfl, rfl, balanced_of_run twoAlerts (anyRun_of_foldlM rfl)⟩

end Ddmz.Alert
