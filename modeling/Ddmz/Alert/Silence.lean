import Ddmz.Alert.Balance

/-!
# Active alerts that nobody hears

While an alert is active, one should ring. The callbacks of the player look for another one when
what rings stops, but three steps can leave an active alert silent: a timer that expires while
nothing rings and before its alert has been put into the list; the deletion of what rings, after
which nobody looks for another one; and the end of what rings when all the other active alerts are
not in the list yet. The player's `STOP` stops only the alerts of the list, and is a fourth.

`KeepsPlaying` is the absence of these, as a condition on the state before the step. It is exact:
`audible_iff`.
-/

namespace Ddmz.Alert

namespace AlertPlayer

/-- Nothing is active, or something rings. -/
def Audible (s : AlertPlayer) : Prop :=
  (∃ n alert, s.data n = some alert ∧ alert.isActive) → s.ringingAlertNode ≠ none

/-- Apart from `n`, an alert of the list is active, or none at all. -/
def HasSuccessor (s : AlertPlayer) (n : ℕ) : Prop :=
  (∃ m ∈ s.alertList, m ≠ n ∧ s.isActive m = true) ∨ ∀ m, s.isActive m = true → m = n

/-- The condition on a status of the player. -/
def KeepsPlayingAfter (s : AlertPlayer) (type : AudioType) : AudioStatus → Prop
  | .STOP => ∀ m, s.isActive m = true → m ∈ s.alertList
  | .FINISHED => ∀ n alert, s.ringingAlertNode = some n → s.data n = some alert →
      alert.toneTab.length ≤ alert.currentToneIndex + 1 → alert.loopCount = 1 → s.HasSuccessor n
  | .ERROR => ∀ n, type = .ALERT_RINGING → s.ringingAlertNode = some n → s.HasSuccessor n
  | _ => True

/-- The step leaves no active alert silent. -/
def KeepsPlaying (s : AlertPlayer) : AlertAction → Prop
  | .expire n => s.ringingAlertNode ≠ none ∨ n ∈ s.alertList
  | .status type status =>
    type = .ALERT_SPEECH ∨ type = .ALERT_RINGING → s.KeepsPlayingAfter type status
  | .delete token => ∀ n, s.duerFindTargetAlertNode token = some n →
      s.ringingAlertNode = some n → ∀ m, s.isActive m = true → m = n
  | _ => True

variable {s t : AlertPlayer} {n m : ℕ} {alert : AlertData}

theorem audible_iff_isActive :
    s.Audible ↔ ((∃ n, s.isActive n = true) → s.ringingAlertNode ≠ none) := by
  rw [Audible]
  refine imp_congr_left ⟨?_, ?_⟩
  · rintro ⟨n, hn⟩
    exact ⟨n, isActive_eq_true.mpr hn⟩
  · rintro ⟨n, hn⟩
    exact ⟨n, isActive_eq_true.mp hn⟩

theorem audible_of_ringing (h : s.ringingAlertNode ≠ none) : s.Audible := fun _ ↦ h

/-- What is silent has nothing active. -/
theorem Audible.inactive (h : s.Audible) (hringing : s.ringingAlertNode = none) (m : ℕ) :
    s.isActive m = false :=
  Bool.eq_false_iff.mpr fun hm ↦ audible_iff_isActive.mp h ⟨m, hm⟩ hringing

theorem audible_of_inactive (h : ∀ m, s.isActive m = false) : s.Audible :=
  audible_iff_isActive.mpr fun ⟨m, hm⟩ ↦ absurd hm (Bool.eq_false_iff.mp (h m))

theorem audible_iff_of_silent (hringing : s.ringingAlertNode = none) :
    s.Audible ↔ ∀ m, s.isActive m = false :=
  ⟨fun h ↦ h.inactive hringing, audible_of_inactive⟩

/-- Where nothing changes, nothing is to be shown. -/
theorem Audible.congr (h : s.Audible) (hringing : t.ringingAlertNode = s.ringingAlertNode)
    (hactive : ∀ m, t.isActive m = s.isActive m) : t.Audible := by
  rw [audible_iff_isActive] at h ⊢
  rintro ⟨m, hm⟩
  rw [hringing]
  exact h ⟨m, (hactive m).symm.trans hm⟩

/-! ## Looking for another one -/

theorem isActive_playNext (m : ℕ) : s.playNext.isActive m = s.isActive m := by
  obtain ⟨log, heq⟩ := s.playNext_eq
  rw [heq]
  rfl

theorem ringing_playNext_eq :
    s.playNext.ringingAlertNode = s.duerFindActiveAlert s.ringingAlertNode := by
  obtain ⟨log, heq⟩ := s.playNext_eq
  rw [heq]

/-- The search is in vain only if no alert of the list is active. -/
theorem audible_playNext :
    s.playNext.Audible ↔ (∃ m ∈ s.alertList, s.isActive m = true) ∨ ∀ m, s.isActive m = false := by
  cases hfind : s.duerFindActiveAlert s.ringingAlertNode with
  | some n =>
    refine iff_of_true (audible_of_ringing ?_) (.inl ⟨n, duerFindActiveAlert_some hfind⟩)
    rw [ringing_playNext_eq, hfind]
    exact Option.some_ne_none n
  | none =>
    rw [audible_iff_of_silent (ringing_playNext_eq.trans hfind)]
    simp only [isActive_playNext]
    refine (or_iff_right ?_).symm
    rintro ⟨m, hm, hactive⟩
    rw [duerFindActiveAlert_none hfind m hm] at hactive
    cases hactive

theorem audible_deactivate_playNext :
    (s.deactivate n alert).playNext.Audible ↔ s.HasSuccessor n := by
  have hactive (m : ℕ) :
      (s.deactivate n alert).isActive m = true ↔ m ≠ n ∧ s.isActive m = true := by
    by_cases hmn : m = n
    · rw [hmn, isActive_deactivate_self]
      exact iff_of_false Bool.false_ne_true fun h ↦ h.1 rfl
    · rw [isActive_deactivate_ne hmn]
      exact (and_iff_right hmn).symm
  rw [audible_playNext, HasSuccessor]
  refine or_congr ?_ (forall_congr' fun m ↦ ?_)
  · simp only [hactive, alertList_deactivate]
  · rw [← Bool.not_eq_true, hactive, not_and']
    exact imp_congr_right fun _ ↦ not_not

/-! ## The callbacks -/

/-- The loop stops the alerts of the list, and no others. -/
theorem isActive_stopAll (s : AlertPlayer) (m : ℕ) :
    s.stopAll.isActive m = true ↔ s.isActive m = true ∧ m ∉ s.alertList := by
  fun_induction stopAll s with
  | case1 s hfind =>
    refine (and_iff_left_of_imp fun hm hmem ↦ ?_).symm
    rw [duerFindActiveAlert_none hfind m hmem] at hm
    cases hm
  | case2 s n hfind hdata =>
    have hactive := (duerFindActiveAlert_some hfind).2
    rw [isActive_of_none hdata] at hactive
    cases hactive
  | case3 s n hfind alert hdata ih =>
    rw [ih]
    by_cases hmn : m = n
    · rw [hmn, isActive_deactivate_self]
      exact iff_of_false (fun h ↦ Bool.false_ne_true h.1)
        fun h ↦ h.2 (duerFindActiveAlert_some hfind).1
    · rw [isActive_deactivate_ne hmn, alertList_deactivate]

theorem audible_onStop :
    s.duerAudioPlayerOnStop.Audible ↔ ∀ m, s.isActive m = true → m ∈ s.alertList := by
  rw [audible_iff_of_silent rfl]
  refine forall_congr' fun m ↦ ?_
  rw [← Bool.not_eq_true]
  exact (not_congr (isActive_stopAll s m)).trans (by rw [not_and_not_right])

/-- An alert that is overwritten by an equally active one rings on, or another one does. -/
theorem audible_write_playNext {alert' : AlertData} (h : Sound s)
    (hringing : s.ringingAlertNode = some n) (hactive : alert'.isActive = true) :
    (s.write n (some alert')).playNext.Audible := by
  refine audible_playNext.mpr (.inl ⟨n, (h.ringing n hringing).1, ?_⟩)
  exact isActive_write_self.trans hactive

theorem audible_onFinish (h : Sound s) (haudible : s.Audible) :
    s.duerAudioPlayerOnFinish.Audible ↔
      ∀ n alert, s.ringingAlertNode = some n → s.data n = some alert →
        alert.toneTab.length ≤ alert.currentToneIndex + 1 → alert.loopCount = 1 →
          s.HasSuccessor n := by
  cases hringing : s.ringingAlertNode with
  | none =>
    rw [onFinish_silent hringing, audible_playNext]
    -- nothing is active, so there is nobody to be silent
    exact iff_of_true (.inr (haudible.inactive hringing)) nofun
  | some n =>
    have hactive := (h.ringing n hringing).2
    obtain ⟨alert, hdata, halert⟩ := isActive_eq_true.mp hactive
    have hthis : (∀ n' alert', some n = some n' → s.data n' = some alert' →
        alert'.toneTab.length ≤ alert'.currentToneIndex + 1 → alert'.loopCount = 1 →
          s.HasSuccessor n') ↔ (alert.toneTab.length ≤ alert.currentToneIndex + 1 →
            alert.loopCount = 1 → s.HasSuccessor n) := by
      refine ⟨fun hall ↦ hall n alert rfl hdata, ?_⟩
      rintro hone _ alert' ⟨⟩ hdata'
      obtain rfl := Option.some.inj (hdata.symm.trans hdata')
      exact hone
    rw [hthis, onFinish_ringing hringing hdata]
    split
    · next hnext =>
      refine iff_of_true (audible_of_ringing ?_) fun hlast ↦ absurd hnext (Nat.not_lt.mpr hlast)
      rw [ringing_emit, ringing_write, hringing]
      exact Option.some_ne_none n
    · next hlast =>
      have hlast' := Nat.not_lt.mp hlast
      split
      · next hcount =>
        have hone := AlertData.loopCount_nextPass.mp hcount
        rw [audible_deactivate_playNext]
        exact ⟨fun hnext _ _ ↦ hnext, fun hnext ↦ hnext hlast' hone⟩
      · next hcount =>
        refine iff_of_true (audible_write_playNext h hringing halert) fun _ hone ↦ ?_
        exact absurd (AlertData.loopCount_nextPass.mpr hone) hcount

theorem audible_onError (h : Sound s) (haudible : s.Audible) (type : AudioType) :
    (s.duerAudioPlayerOnError type).Audible ↔
      ∀ n, type = .ALERT_RINGING → s.ringingAlertNode = some n → s.HasSuccessor n := by
  by_cases htype : type = .ALERT_RINGING
  · subst htype
    cases hringing : s.ringingAlertNode with
    | none =>
      rw [onError_silent hringing, audible_playNext]
      exact iff_of_true (.inr (haudible.inactive hringing)) nofun
    | some n =>
      obtain ⟨alert, hdata, -⟩ := isActive_eq_true.mp (h.ringing n hringing).2
      rw [onError_ringing hringing hdata, audible_deactivate_playNext]
      refine ⟨fun hnext _ _ hn ↦ Option.some.inj hn ▸ hnext, fun hnext ↦ hnext n rfl rfl⟩
  · rw [onError_speech htype]
    exact iff_of_true (haudible.congr rfl fun _ ↦ rfl) fun _ hringing ↦ absurd hringing htype

theorem audible_status (h : Sound s) (haudible : s.Audible) (type : AudioType)
    (status : AudioStatus) : (s.alertPalyStatusCallback type status).Audible ↔
      (type = .ALERT_SPEECH ∨ type = .ALERT_RINGING → s.KeepsPlayingAfter type status) := by
  unfold alertPalyStatusCallback
  split
  · next htype => exact iff_of_true haudible fun hor ↦ absurd hor (not_or.mpr htype)
  · next htype =>
    have hor : type = .ALERT_SPEECH ∨ type = .ALERT_RINGING := by
      rwa [← not_or, not_not] at htype
    rw [imp_iff_right hor]
    cases status with
    | STOP => exact audible_onStop
    | FINISHED => exact audible_onFinish h haudible
    | ERROR => exact audible_onError h haudible type
    | _ => exact iff_of_true haudible trivial

/-! ## The other steps -/

theorem audible_set (h : Placed s) (haudible : s.Audible) (directive : Option Payload) :
    (s.duerDcsToneAlertSetHandler directive).2.Audible := by
  rcases s.set_cases directive with heq | ⟨token, heq⟩ | ⟨alert, ⟨-, hinactive, -⟩, heq⟩
  · rw [heq]
    exact haudible
  · rw [heq]
    exact haudible.congr rfl fun _ ↦ rfl
  · rw [heq]
    have hsame : (some alert).any AlertData.isActive = s.isActive s.created :=
      hinactive.trans (isActive_of_none h.data_created).symm
    exact haudible.congr rfl (isActive_write hsame)

theorem audible_take (haudible : s.Audible) (hstep : s.threadTake = some t) : t.Audible := by
  rw [threadTake] at hstep
  split at hstep
  · cases hstep
  · obtain ⟨alert, hdata, rfl⟩ := Option.map_eq_some_iff.mp hstep
    exact haudible.congr rfl (isActive_write (isActive_of_data hdata).symm)

theorem audible_fail (h : Placed s) (haudible : s.Audible) (hstep : s.threadFail n = some t) :
    t.Audible := by
  obtain ⟨alert, hdata, hok, rfl⟩ := onAlert_eq_some hstep
  have hwaiting := h.waiting n alert hdata
  have hinactive := hwaiting.unexpired (hwaiting.unstarted (.inr (of_decide_eq_true hok)))
  have hsame : (none : Option AlertData).any AlertData.isActive = s.isActive n :=
    ((isActive_of_data hdata).trans hinactive).symm
  exact haudible.congr rfl (isActive_write hsame)

theorem audible_start (haudible : s.Audible) (hstep : s.threadStart n = some t) : t.Audible := by
  obtain ⟨alert, hdata, -, rfl⟩ := onAlert_eq_some hstep
  exact haudible.congr rfl (isActive_write (isActive_of_data hdata).symm)

theorem audible_push (haudible : s.Audible) (hstep : s.threadPush n = some t) : t.Audible := by
  obtain ⟨alert, hdata, -, rfl⟩ := onAlert_eq_some hstep
  exact haudible.congr rfl (isActive_write (isActive_of_data hdata).symm)

theorem audible_expire (hstep : s.expire n = some t) :
    t.Audible ↔ s.ringingAlertNode ≠ none ∨ n ∈ s.alertList := by
  obtain ⟨alert, hdata, -, rfl⟩ := onAlert_eq_some hstep
  rw [duerAlertCallback]
  cases hringing : s.ringingAlertNode with
  | some r =>
    refine iff_of_true (audible_of_ringing ?_) (.inl (Option.some_ne_none r))
    rw [Option.isSome_some, if_pos rfl]
    exact hringing.trans_ne (Option.some_ne_none r)
  | none =>
    rw [Option.isSome_none, if_neg Bool.false_ne_true]
    split
    · next hmem => exact iff_of_true (audible_of_ringing (Option.some_ne_none n)) (.inr hmem)
    · next hmem =>
      -- the alert is active now, but its node is not there to be found
      refine iff_of_false (fun h ↦ ?_) (not_or.mpr ⟨fun h ↦ h rfl, hmem⟩)
      have hinactive := h.inactive hringing n
      rw [isActive, data_report, data_write_self] at hinactive
      cases hinactive

theorem audible_delete (haudible : s.Audible) (token : Str) :
    (s.duerDcsAlertDeleteHandler token).Audible ↔ ∀ n, s.duerFindTargetAlertNode token = some n →
      s.ringingAlertNode = some n → ∀ m, s.isActive m = true → m = n := by
  cases hfind : s.duerFindTargetAlertNode token with
  | none =>
    rw [delete_missing hfind]
    exact iff_of_true (haudible.congr rfl fun _ ↦ rfl) nofun
  | some n =>
    obtain ⟨-, alert, hdata, -⟩ := duerFindTargetAlertNode_some hfind
    have hactive := isActive_delete hfind hdata
    have hringing' := ringing_delete hfind hdata
    by_cases hringing : s.ringingAlertNode = some n
    · -- nobody looks for another one here
      rw [if_pos hringing] at hringing'
      have hone : (∀ m, (s.duerDcsAlertDeleteHandler token).isActive m = false) ↔
          ∀ m, s.isActive m = true → m = n := by
        refine forall_congr' fun m ↦ ?_
        rw [← Bool.not_eq_true, hactive, not_and']
        exact imp_congr_right fun _ ↦ not_not
      rw [audible_iff_of_silent hringing', hone]
      exact ⟨fun hall n' hn' _ m hm ↦ (hall m hm).trans (Option.some.inj hn'),
        fun hall ↦ hall n rfl hringing⟩
    · rw [if_neg hringing] at hringing'
      refine iff_of_true (audible_iff_isActive.mpr ?_) fun n' hn' hr ↦ ?_
      · rintro ⟨m, hm⟩
        rw [hringing']
        exact audible_iff_isActive.mp haudible ⟨m, ((hactive m).mp hm).2⟩
      · exact absurd (hr.trans hn'.symm) hringing

/-- **Every step keeps something ringing if and only if it meets the condition.** -/
theorem audible_step {a : AlertAction} (h : Sound s) (haudible : s.Audible)
    (hstep : s.step a = some t) : t.Audible ↔ s.KeepsPlaying a := by
  cases a with
  | set directive =>
    obtain rfl := Option.some.inj hstep
    exact iff_of_true (audible_set h.placed haudible directive) trivial
  | take => exact iff_of_true (audible_take haudible hstep) trivial
  | fail n => exact iff_of_true (audible_fail h.placed haudible hstep) trivial
  | start n => exact iff_of_true (audible_start haudible hstep) trivial
  | push n => exact iff_of_true (audible_push haudible hstep) trivial
  | expire n => exact audible_expire hstep
  | status type status =>
    obtain rfl := Option.some.inj hstep
    exact audible_status h haudible type status
  | delete token =>
    obtain rfl := Option.some.inj hstep
    exact audible_delete haudible token

end AlertPlayer

/-- **Something rings while anything is active, throughout a run, if and only if every step of it
meets the condition.** -/
theorem audible_iff {as : List AlertAction} {s : AlertPlayer}
    (h : AnyRun AlertPlayer.step .init as s) :
    Always AlertPlayer.step AlertPlayer.Audible .init as ↔
      Run AlertPlayer.step AlertPlayer.KeepsPlaying .init as s :=
  h.always_iff (fun _ _ _ hsound hstep ↦ hsound.step hstep)
    (fun _ _ _ hsound haudible hstep ↦ AlertPlayer.audible_step hsound haudible hstep)
    AlertPlayer.sound_init fun ⟨_, _, hdata, _⟩ ↦ nomatch hdata

theorem audible_twoAlerts : Always AlertPlayer.step AlertPlayer.Audible .init twoAlerts :=
  (audible_iff (anyRun_of_foldlM rfl)).mpr
    (.cons trivial rfl <| .cons trivial rfl <| .cons trivial rfl <| .cons trivial rfl <|
      .cons trivial rfl <| .cons trivial rfl <| .cons trivial rfl <| .cons trivial rfl <|
      .cons (.inr (by decide)) rfl <| .cons (.inr (by decide)) rfl <|
      .cons (by rintro - _ _ ⟨⟩ - - -; exact .inl ⟨1, by decide, by decide, rfl⟩) rfl <| .nil _)

/-- What rings is deleted while another alert is active. -/
theorem not_audible_delete : ¬∀ (as : List AlertAction) (s : AlertPlayer),
    (∀ type, .status type .STOP ∉ as) → AnyRun AlertPlayer.step .init as s → s.Audible := by
  intro h
  have haudible := h [oneTone 1, oneTone 2, .take, .start 0, .push 0, .take, .start 1, .push 1,
    .expire 0, .expire 1, .delete [1]] _ (by rintro type hmem; simp [oneTone] at hmem)
    (anyRun_of_foldlM rfl)
  exact haudible ⟨1, _, rfl, rfl⟩ rfl

end Ddmz.Alert
