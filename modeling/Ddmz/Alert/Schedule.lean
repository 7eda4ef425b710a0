import Ddmz.Alert.Player

/-!
# The order in which alerts are played

Alerts have become active, one of them rings from its first tone, and from now on the player only
reports that it has finished. Then the active alerts take turns in the cyclic order of the list,
where a turn is one pass through the tones, until all of them have had as many as their loop counts
say.

`Playing` describes a moment at which an alert is in the middle of its pass and the others wait in a
queue. A callback starts the next playback of what is still to come, `Playing.onFinish`, and what
is to come is the service of the queue. Its closed form is `schedule`, and `playsOut_of_begun` says
that this is what is played.
-/

namespace Ddmz.Alert

/-- What an alert plays and is called, which never changes. -/
structure Script where
  token : Str
  toneTab : List Str

def AlertData.script (alert : AlertData) : Script := ⟨alert.alertInfo.token, alert.toneTab⟩

/-- A complete pass: all the tones, or the alarm tone if there are none. -/
def Script.pass (script : Script) : List Output :=
  if script.toneTab = [] then [.play TONE_URI_ALARM .ALERT_RINGING]
  else script.toneTab.map fun url ↦ .play url .ALERT_SPEECH

/-- The stop that follows the last pass of an alert. -/
def Script.stop (script : Script) (n : ℕ) (last : Bool) : List Output :=
  if last then [.report (some n) (some script.token) .ALERT_STOP] else []

/-- What is played and reported in a turn. -/
def turnLog (scripts : ℕ → Option Script) (turn : ℕ × Bool) : List Output :=
  match scripts turn.1 with
  | none => []
  | some script => script.pass ++ script.stop turn.1 turn.2

def Output.isPlay : Output → Bool
  | .play _ _ => true
  | _ => false

/-- How many of these outputs are playbacks. -/
def plays (log : List Output) : ℕ := log.countP Output.isPlay

variable {n m k : ℕ} {alert : AlertData} {script : Script} {log log' : List Output}

theorem plays_append : plays (log ++ log') = plays log + plays log' := List.countP_append

theorem plays_cons {o : Output} : plays (o :: log) = plays log + if o.isPlay then 1 else 0 :=
  List.countP_cons

theorem plays_stop (last : Bool) : plays (script.stop n last) = 0 := by
  cases last with
  | false => rfl
  | true => rfl

/-- A pass starts with the playback of the first tone. -/
theorem pass_eq_cons (h : alert.currentToneIndex = 0) :
    alert.script.pass = alert.playback :: alert.script.pass.drop 1 := by
  by_cases hpos : 0 < alert.toneTab.length
  · have hne : alert.script.toneTab ≠ [] := List.ne_nil_of_length_pos hpos
    have hget : alert.toneTab.get ⟨alert.currentToneIndex, alert.index_lt hpos⟩ =
        alert.toneTab.get ⟨0, hpos⟩ := congrArg _ (Fin.ext h)
    have hcons : alert.script.toneTab
        = alert.toneTab.get ⟨0, hpos⟩ :: alert.script.toneTab.drop 1 :=
      List.drop_eq_getElem_cons hpos
    rw [AlertData.playback, dif_pos hpos, hget, Script.pass, if_neg hne, ← List.map_drop, hcons]
    rfl
  · have hnil : alert.script.toneTab = [] :=
      List.eq_nil_of_length_eq_zero (Nat.eq_zero_of_not_pos hpos)
    rw [AlertData.playback, dif_neg hpos, Script.pass, if_pos hnil]
    rfl

/-- It goes on with the next tone. -/
theorem drop_pass (h : alert.currentToneIndex + 1 < alert.toneTab.length) :
    alert.script.pass.drop (alert.currentToneIndex + 1) =
      .play (alert.toneTab.get ⟨alert.currentToneIndex + 1, h⟩) .ALERT_SPEECH ::
        alert.script.pass.drop (alert.currentToneIndex + 1 + 1) := by
  have hne : alert.script.toneTab ≠ [] := List.ne_nil_of_length_pos (Nat.zero_lt_of_lt h)
  rw [Script.pass, if_neg hne, ← List.map_drop, ← List.map_drop]
  rw [List.drop_eq_getElem_cons (show _ < alert.script.toneTab.length from h), List.map_cons]
  rfl

/-- After the last tone it is over. -/
theorem drop_pass_last (h : ¬alert.currentToneIndex + 1 < alert.toneTab.length) :
    alert.script.pass.drop (alert.currentToneIndex + 1) = [] := by
  apply List.drop_eq_nil_of_le
  rw [Script.pass]
  split
  · exact Nat.succ_le_succ (Nat.zero_le _)
  · rw [List.length_map]
    exact Nat.not_lt.mp h

theorem isPlay_playback : alert.playback.isPlay = true := by
  rw [AlertData.playback]
  split
  · rfl
  · rfl

/-! ## The queue of the alerts -/

namespace AlertPlayer

/-- What the alerts play and are called. -/
def scripts (s : AlertPlayer) (n : ℕ) : Option Script := (s.data n).map AlertData.script

/-- The alert will play from its first tone, so many times. -/
def Ready (s : AlertPlayer) (x : ℕ × ℕ) : Prop :=
  ∃ alert, s.data x.1 = some alert ∧ alert.currentToneIndex = 0 ∧ alert.loopCount.toNat = x.2 ∧
    0 < x.2

/-- Between two turns: the active alerts wait in cyclic order from the one that has had its turn. -/
structure Waiting (S : ℕ → Option Script) (s : AlertPlayer) (n : ℕ) (q : List (ℕ × ℕ)) : Prop where
  nodup : s.alertList.Nodup
  ringing : s.ringingAlertNode = some n
  mem : n ∈ s.alertList
  listed : ∀ m, s.isActive m = true → m ∈ s.alertList
  order : (cyclicOrder s.alertList n).filter s.isActive = q.map Prod.fst
  ready : ∀ x ∈ q, s.Ready x
  scripts : s.scripts = S

/-- In a turn, with `k` passes to go, this one included: the others wait. -/
structure Playing (S : ℕ → Option Script) (s : AlertPlayer) (n k : ℕ) (alert : AlertData)
    (q : List (ℕ × ℕ)) : Prop where
  nodup : s.alertList.Nodup
  ringing : s.ringingAlertNode = some n
  mem : n ∈ s.alertList
  listed : ∀ m, s.isActive m = true → m ∈ s.alertList
  data : s.data n = some alert
  active : alert.isActive = true
  loopCount : alert.loopCount.toNat = k
  pos : 0 < k
  order : (others s.alertList n).filter s.isActive = q.map Prod.fst
  ready : ∀ x ∈ q, s.Ready x
  scripts : s.scripts = S

/-- What a queue plays. -/
def queueLog (S : ℕ → Option Script) (q : List (ℕ × ℕ)) : List Output :=
  (serve (total q) q).flatMap (turnLog S)

/-- What is still to come of a turn, and after it. -/
def pending (S : ℕ → Option Script) (n k : ℕ) (alert : AlertData) (q : List (ℕ × ℕ)) :
    List Output :=
  alert.script.pass.drop (alert.currentToneIndex + 1) ++ alert.script.stop n (k == 1) ++
    queueLog S (requeue n k q)

/-- With so many callbacks to go, the log will be `log`. With none, the player is at rest. -/
def Outcome (S : ℕ → Option Script) (log : List Output) (s : AlertPlayer) : ℕ → Prop
  | 0 => s.log = log ∧ s.ringingAlertNode = none ∧ ∀ m, s.isActive m = false
  | j + 1 => ∃ n k alert q, Playing S s n k alert q ∧ s.log ++ pending S n k alert q = log ∧
      plays (pending S n k alert q) = j

variable {S : ℕ → Option Script} {s t : AlertPlayer} {q : List (ℕ × ℕ)} {x : ℕ × ℕ} {j : ℕ}

theorem Ready.congr (h : s.Ready x) (hdata : t.data x.1 = s.data x.1) : t.Ready x := by
  obtain ⟨alert, hx, hready⟩ := h
  exact ⟨alert, hdata.trans hx, hready⟩

theorem queueLog_cons (hk : 0 < k) (hscript : S n = some script) :
    queueLog S ((n, k) :: q) = script.pass ++ script.stop n (k == 1) ++
      queueLog S (requeue n k q) := by
  rw [queueLog, serve_total_cons hk, List.flatMap_cons, turnLog, hscript, queueLog]

/-- When a turn is over the next one begins, if somebody waits. -/
theorem Waiting.playNext (h : Waiting S s n q) :
    Outcome S (s.log ++ queueLog S q) s.playNext (plays (queueLog S q)) := by
  have horder := h.order
  cases q with
  | nil =>
    have hfind : s.duerFindActiveAlert s.ringingAlertNode = none := by
      rw [h.ringing]
      exact cyclicFind_eq_none h.mem horder
    rw [playNext_none hfind]
    -- an active alert would be in the list, and so in the order that is empty
    refine ⟨(List.append_nil _).symm, rfl, fun m ↦ Bool.eq_false_iff.mpr fun hm ↦ ?_⟩
    have hmem := (cyclicOrder_perm h.mem).mem_iff.mpr (h.listed m hm)
    exact List.filter_eq_nil_iff.mp horder m hmem hm
  | cons x q =>
    obtain ⟨m, k⟩ := x
    obtain ⟨hfind, horder'⟩ := filter_cyclicOrder_next h.nodup h.mem horder
    obtain ⟨alert, hdata, hindex, hcount, hpos⟩ := h.ready (m, k) List.mem_cons_self
    have hfound : s.duerFindActiveAlert s.ringingAlertNode = some m := by
      rw [h.ringing]
      exact hfind
    obtain ⟨hmem, hactive⟩ := duerFindActiveAlert_some hfound
    have hscript : S m = some alert.script := by
      rw [← h.scripts, AlertPlayer.scripts, hdata]
      rfl
    have hlog : queueLog S ((m, k) :: q) = alert.playback :: pending S m k alert q := by
      rw [queueLog_cons hpos hscript, pass_eq_cons hindex, pending, hindex]
      rfl
    rw [hlog, playNext_some hfound hdata, plays_cons, isPlay_playback, if_pos rfl]
    refine ⟨m, k, alert, q, ?_, ?_, rfl⟩
    · exact ⟨h.nodup, rfl, hmem, h.listed, hdata, (isActive_of_data hdata).symm.trans hactive,
        hcount, hpos, horder', fun x hx ↦ h.ready x (List.mem_cons_of_mem _ hx), h.scripts⟩
    · rw [log_emit, List.append_assoc]
      rfl

/-! ## A callback -/

/-- Nobody waits who has a turn. -/
theorem Playing.ne (h : Playing S s n k alert q) (hx : x ∈ q) : x.1 ≠ n := by
  have hmem : x.1 ∈ (others s.alertList n).filter s.isActive := by
    rw [h.order]
    exact List.mem_map_of_mem hx
  rintro rfl
  exact notMem_others h.nodup h.mem (List.mem_of_mem_filter hmem)

/-- The others wait on, whatever becomes of the alert that has the turn. -/
theorem Playing.order_congr (h : Playing S s n k alert q)
    (hother : ∀ m, m ≠ n → t.isActive m = s.isActive m) :
    (others s.alertList n).filter t.isActive = q.map Prod.fst := by
  rw [← h.order]
  refine List.filter_congr fun m hm ↦ hother m fun heq ↦ ?_
  exact notMem_others h.nodup h.mem (heq ▸ hm)

theorem scripts_write (alert' : AlertData) (hdata : s.data n = some alert)
    (hscript : alert'.script = alert.script) : (s.write n (some alert')).scripts = s.scripts := by
  funext m
  by_cases hmn : m = n
  · rw [hmn, scripts, scripts, data_write_self, hdata, Option.map_some, Option.map_some, hscript]
  · rw [scripts, scripts, data_write_ne hmn]

/-- The next tone of the turn. -/
theorem Playing.nextTone (h : Playing S s n k alert q)
    (hnext : alert.currentToneIndex + 1 < alert.toneTab.length) :
    Outcome S (s.log ++ pending S n k alert q)
      ((s.write n (some (alert.nextTone hnext))).emit
        (.play (alert.toneTab.get ⟨alert.currentToneIndex + 1, hnext⟩) .ALERT_SPEECH))
      (plays (pending S n k alert q)) := by
  have hsame : (some (alert.nextTone hnext)).any AlertData.isActive = s.isActive n :=
    (isActive_of_data h.data).symm
  have hpending : pending S n k alert q =
      .play (alert.toneTab.get ⟨alert.currentToneIndex + 1, hnext⟩) .ALERT_SPEECH ::
        pending S n k (alert.nextTone hnext) q := by
    rw [pending, drop_pass hnext]
    rfl
  rw [hpending, plays_cons, Output.isPlay, if_pos rfl]
  refine ⟨n, k, alert.nextTone hnext, q, ?_, ?_, rfl⟩
  · refine ⟨h.nodup, h.ringing, h.mem, fun m hm ↦ ?_, data_write_self, h.active, h.loopCount, h.pos,
      h.order_congr fun m hm ↦ isActive_write_ne hm, fun x hx ↦ ?_, ?_⟩
    · exact h.listed m ((isActive_write hsame m).symm.trans hm)
    · exact (h.ready x hx).congr (data_write_ne (h.ne hx))
    · exact (scripts_write (alert.nextTone hnext) h.data rfl).trans h.scripts
  · rw [log_emit, List.append_assoc]
    rfl

/-- The end of the turn, which is not the last one of its alert. -/
theorem Playing.endPass (h : Playing S s n k alert q) (hk : k ≠ 1) :
    Waiting S (s.write n (some alert.nextPass)) n (requeue n k q) := by
  have hsame : (some alert.nextPass).any AlertData.isActive = s.isActive n :=
    (isActive_of_data h.data).symm
  have hactive : (s.write n (some alert.nextPass)).isActive n = true :=
    isActive_write_self.trans h.active
  have horder : (cyclicOrder s.alertList n).filter (s.write n (some alert.nextPass)).isActive =
      (requeue n k q).map Prod.fst := by
    rw [cyclicOrder, List.filter_append, h.order_congr fun m hm ↦ isActive_write_ne hm,
      List.filter_cons_of_pos hactive, List.filter_nil, fst_requeue, if_neg hk]
  refine ⟨h.nodup, h.ringing, h.mem, fun m hm ↦ ?_, horder, fun x hx ↦ ?_, ?_⟩
  · exact h.listed m ((isActive_write hsame m).symm.trans hm)
  · rw [requeue, if_neg hk, List.mem_append, List.mem_singleton] at hx
    rcases hx with hx | rfl
    · exact (h.ready x hx).congr (data_write_ne (h.ne hx))
    · -- the alert itself has gone to the back, with one pass less
      have hcount := h.loopCount
      have hpos := h.pos
      have hle : (1 : UInt8) ≤ alert.loopCount := by
        rw [UInt8.le_iff_toNat_le, hcount]
        exact hpos
      refine ⟨alert.nextPass, data_write_self, rfl, ?_, ?_⟩
      · rw [AlertData.nextPass, UInt8.toNat_sub_of_le _ _ hle, hcount]
        rfl
      · dsimp only
        omega
  · exact (scripts_write alert.nextPass h.data rfl).trans h.scripts

/-- The end of its last turn. -/
theorem Playing.endLastPass (h : Playing S s n 1 alert q) :
    Waiting S (s.deactivate n alert.nextPass) n q := by
  have hother (m : ℕ) (hm : m ≠ n) : (s.deactivate n alert.nextPass).isActive m = s.isActive m :=
    isActive_deactivate_ne hm
  have hself : ¬(s.deactivate n alert.nextPass).isActive n = true := by
    rw [isActive_deactivate_self]
    exact Bool.false_ne_true
  have horder : (cyclicOrder s.alertList n).filter (s.deactivate n alert.nextPass).isActive =
      q.map Prod.fst := by
    rw [cyclicOrder, List.filter_append, h.order_congr hother, List.filter_cons_of_neg hself,
      List.filter_nil, List.append_nil]
  refine ⟨h.nodup, h.ringing, h.mem, fun m hm ↦ ?_, horder, fun x hx ↦ ?_, ?_⟩
  · have hmn : m ≠ n := fun heq ↦ hself (heq ▸ hm)
    exact h.listed m ((hother m hmn).symm.trans hm)
  · exact (h.ready x hx).congr (data_write_ne (h.ne hx))
  · exact (scripts_write { alert.nextPass with isActive := false } h.data rfl).trans h.scripts

theorem plays_pending_last (hlast : ¬alert.currentToneIndex + 1 < alert.toneTab.length) :
    pending S n k alert q = alert.script.stop n (k == 1) ++ queueLog S (requeue n k q) := by
  rw [pending, drop_pass_last hlast, List.nil_append]

/-- **A callback leaves one callback less to go.** -/
theorem Outcome.onFinish (h : Outcome S log s (j + 1)) :
    Outcome S log s.duerAudioPlayerOnFinish j := by
  obtain ⟨n, k, alert, q, hplaying, rfl, rfl⟩ := h
  rw [onFinish_ringing hplaying.ringing hplaying.data]
  split
  · next hnext => exact hplaying.nextTone hnext
  · next hlast =>
    -- what is left of this turn is at most a stop, which is no playback
    rw [plays_pending_last hlast, plays_append, plays_stop, Nat.zero_add, ← List.append_assoc]
    have hcount : alert.nextPass.loopCount = 0 ↔ k = 1 := by
      rw [AlertData.loopCount_nextPass, ← hplaying.loopCount, ← UInt8.toNat_inj]
      rfl
    by_cases hk : k = 1
    · rw [if_pos (hcount.mpr hk)]
      subst hk
      exact hplaying.endLastPass.playNext
    · rw [if_neg (hcount.not.mpr hk)]
      have hstop : alert.script.stop n (k == 1) = [] := by
        rw [Script.stop, beq_eq_false_iff_ne.mpr hk]
        rfl
      rw [hstop, List.append_nil]
      exact (hplaying.endPass hk).playNext

/-! ## The run -/

/-- The player reports that it has finished, with these types. -/
def finishes (types : List AudioType) : List AlertAction :=
  types.map fun type ↦ .status type .FINISHED

/-- The types of the playbacks of alerts. -/
def AlertTypes (types : List AudioType) : Prop :=
  ∀ type ∈ types, type = .ALERT_SPEECH ∨ type = .ALERT_RINGING

theorem step_finished {type : AudioType} (htype : type = .ALERT_SPEECH ∨ type = .ALERT_RINGING) :
    s.step (.status type .FINISHED) = some s.duerAudioPlayerOnFinish := by
  have hnot : ¬(type ≠ .ALERT_SPEECH ∧ type ≠ .ALERT_RINGING) := fun h ↦
    htype.elim h.1 h.2
  exact congrArg some (if_neg hnot)

theorem Outcome.run {types : List AudioType} (h : Outcome S log s j) (htypes : AlertTypes types)
    (hlen : types.length ≤ j) :
    ∃ t, AnyRun AlertPlayer.step s (finishes types) t ∧ Outcome S log t (j - types.length) := by
  induction types generalizing s j with
  | nil => exact ⟨s, .nil s, h⟩
  | cons type types ih =>
    obtain ⟨j, rfl⟩ := Nat.exists_eq_add_of_le' hlen
    rw [List.length_cons, ← Nat.add_assoc] at h
    obtain ⟨t, hrun, houtcome⟩ := ih h.onFinish
      (fun type' htype' ↦ htypes type' (List.mem_cons_of_mem _ htype')) (Nat.le_add_left _ _)
    refine ⟨t, .cons trivial (step_finished (htypes type List.mem_cons_self)) hrun, ?_⟩
    rw [Nat.add_sub_cancel] at houtcome ⊢
    exact houtcome

/-- How many passes the alert has to go. -/
def passes (s : AlertPlayer) (n : ℕ) : ℕ :=
  ((s.data n).map fun alert ↦ alert.loopCount.toNat).getD 0

/-- The active alerts, in cyclic order from the one that rings. -/
def line (s : AlertPlayer) (n : ℕ) : List (ℕ × ℕ) :=
  (n :: (others s.alertList n).filter s.isActive).map fun m ↦ (m, s.passes m)

/-- The order of the passes. -/
def turns (s : AlertPlayer) (n : ℕ) : List (ℕ × Bool) := rounds 255 (s.line n)

/-- What is played and reported in all. -/
def schedule (s : AlertPlayer) (n : ℕ) : List Output := (s.turns n).flatMap (turnLog s.scripts)

end AlertPlayer

/-- Alerts of the list have become active, with passes to go, and one of them rings: after `pre` its
first tone has been started. -/
structure Begun (s : AlertPlayer) (n : ℕ) (pre : List Output) : Prop where
  nodup : s.alertList.Nodup
  ringing : s.ringingAlertNode = some n
  active : s.isActive n = true
  ready : ∀ m alert, s.data m = some alert → alert.isActive = true →
    m ∈ s.alertList ∧ alert.currentToneIndex = 0 ∧ alert.loopCount ≠ 0
  log : ∀ alert, s.data n = some alert → s.log = pre ++ [alert.playback]

open AlertPlayer in
/-- What is promised: every active alert has as many passes as it wants, the last one marked, and
nobody else has one; between two passes of an alert everybody has one who has one later; until all
is played, every callback starts one playback; and then the schedule has been played, nothing rings
and nobody is active. -/
structure PlaysOut (s : AlertPlayer) (n : ℕ) (pre : List Output) : Prop where
  passes : ∀ m alert, s.data m = some alert → alert.isActive = true →
    (s.turns n).filter (fun t ↦ t.1 = m) =
      List.replicate (alert.loopCount.toNat - 1) (m, false) ++ [(m, true)]
  only : ∀ t ∈ s.turns n, s.isActive t.1 = true
  fair : ∀ x y z a b e, s.turns n = x ++ (a, false) :: y ++ (a, e) :: z → b ≠ a →
    b ∈ z.map Prod.fst → b ∈ y.map Prod.fst
  starts : ∀ types, AlertTypes types → types.length < plays (s.schedule n) →
    ∃ t, AnyRun AlertPlayer.step s (finishes types) t ∧ t.ringingAlertNode ≠ none ∧
      plays t.log = plays pre + types.length + 1
  ends : ∀ types, AlertTypes types → types.length = plays (s.schedule n) →
    ∃ t, AnyRun AlertPlayer.step s (finishes types) t ∧ t.log = pre ++ s.schedule n ∧
      t.ringingAlertNode = none ∧ ∀ m alert, t.data m = some alert → alert.isActive = false

section Result

open AlertPlayer

variable {s : AlertPlayer} {pre : List Output}

theorem Begun.mem (h : Begun s n pre) : n ∈ s.alertList := by
  obtain ⟨alert, hdata, hactive⟩ := isActive_eq_true.mp h.active
  exact (h.ready n alert hdata hactive).1

theorem fst_line : (s.line n).map Prod.fst = n :: (others s.alertList n).filter s.isActive := by
  rw [line, List.map_map]
  exact List.map_id _

theorem passes_of_data (hdata : s.data n = some alert) : s.passes n = alert.loopCount.toNat := by
  rw [passes, hdata]
  rfl

/-- The line is that of the active alerts. -/
theorem Begun.mem_line (h : Begun s n pre) (hm : s.isActive m = true) :
    (m, s.passes m) ∈ s.line n := by
  apply List.mem_map_of_mem
  obtain ⟨alert, hdata, hactive⟩ := isActive_eq_true.mp hm
  have hlisted := (cyclicOrder_perm h.mem).mem_iff.mpr (h.ready m alert hdata hactive).1
  rcases List.mem_append.mp hlisted with hother | hself
  · exact List.mem_cons_of_mem _ (List.mem_filter.mpr ⟨hother, hm⟩)
  · rw [List.mem_singleton.mp hself]
    exact List.mem_cons_self

theorem Begun.active_of_mem_line (h : Begun s n pre) (hm : m ∈ (s.line n).map Prod.fst) :
    s.isActive m = true := by
  rw [fst_line] at hm
  rcases List.mem_cons.mp hm with rfl | hother
  · exact h.active
  · exact (List.mem_filter.mp hother).2

/-- Everybody in the line will play from its first tone, and at least once. -/
theorem Begun.ready_of_mem_line (h : Begun s n pre) {x : ℕ × ℕ} (hx : x ∈ s.line n) :
    s.Ready x := by
  obtain ⟨alert, hdata, hactive⟩ :=
    isActive_eq_true.mp (h.active_of_mem_line (List.mem_map_of_mem hx))
  obtain ⟨m, -, rfl⟩ := List.mem_map.mp hx
  obtain ⟨-, hindex, hcount⟩ := h.ready m alert hdata hactive
  refine ⟨alert, hdata, hindex, (passes_of_data hdata).symm, ?_⟩
  rw [passes_of_data hdata]
  exact Nat.pos_of_ne_zero fun hzero ↦ hcount (UInt8.toNat_inj.mp hzero)

theorem Begun.passes_pos (h : Begun s n pre) : ∀ x ∈ s.line n, 0 < x.2 := by
  intro x hx
  obtain ⟨_, _, _, _, hpos⟩ := h.ready_of_mem_line hx
  exact hpos

theorem Begun.passes_le (h : Begun s n pre) : ∀ x ∈ s.line n, x.2 ≤ 255 := by
  intro x hx
  obtain ⟨alert, _, _, hcount, _⟩ := h.ready_of_mem_line hx
  rw [← hcount]
  exact Nat.le_of_lt_succ alert.loopCount.toNat_lt

theorem Begun.nodup_line (h : Begun s n pre) : ((s.line n).map Prod.fst).Nodup := by
  have hnodup : (others s.alertList n ++ [n]).Nodup :=
    (cyclicOrder_perm h.mem).nodup_iff.mpr h.nodup
  rw [fst_line]
  refine List.nodup_cons.mpr ⟨fun hmem ↦ ?_, (List.nodup_append.mp hnodup).1.filter _⟩
  exact notMem_others h.nodup h.mem (List.mem_of_mem_filter hmem)

theorem Begun.turns_eq (h : Begun s n pre) : s.turns n = serve (total (s.line n)) (s.line n) :=
  (serve_total h.passes_pos h.passes_le).symm

/-- The run begins in the first turn of the schedule. -/
theorem Begun.outcome (h : Begun s n pre) :
    Outcome s.scripts (pre ++ s.schedule n) s (plays (s.schedule n)) := by
  obtain ⟨alert, hdata, hactive⟩ := isActive_eq_true.mp h.active
  have hself : s.Ready (n, s.passes n) := h.ready_of_mem_line List.mem_cons_self
  obtain ⟨_, hdata', hindex, hcount, hpos⟩ := hself
  obtain rfl := Option.some.inj (hdata.symm.trans hdata')
  set q := ((others s.alertList n).filter s.isActive).map fun m ↦ (m, s.passes m) with hq
  have hline : s.line n = (n, s.passes n) :: q := rfl
  have hscript : s.scripts n = some alert.script := by
    rw [scripts, hdata]
    rfl
  have hschedule : s.schedule n = alert.playback :: pending s.scripts n (s.passes n) alert q := by
    rw [schedule, h.turns_eq, hline]
    exact (queueLog_cons hpos hscript).trans (by rw [pass_eq_cons hindex, pending, hindex]; rfl)
  have horder : (others s.alertList n).filter s.isActive = q.map Prod.fst := by
    rw [hq, List.map_map]
    exact (List.map_id _).symm
  have hplaying : Playing s.scripts s n (s.passes n) alert q :=
    ⟨h.nodup, h.ringing, h.mem, fun m hm ↦ ?_, hdata, hactive, hcount, hpos, horder,
      fun x hx ↦ h.ready_of_mem_line (List.mem_cons_of_mem _ hx), rfl⟩
  · rw [hschedule, plays_cons, isPlay_playback, if_pos rfl]
    refine ⟨n, s.passes n, alert, q, hplaying, ?_, rfl⟩
    rw [h.log alert hdata, List.append_assoc]
    rfl
  · obtain ⟨alert', hm', hactive'⟩ := isActive_eq_true.mp hm
    exact (h.ready m alert' hm' hactive').1

/-- **The alerts are played in turns until all of them have been played as often as they want.** -/
theorem playsOut_of_begun (s : AlertPlayer) (n : ℕ) (pre : List Output) (h : Begun s n pre) :
    PlaysOut s n pre where
  passes m alert hdata hactive := by
    rw [← passes_of_data hdata]
    exact turns_rounds h.passes_pos h.passes_le h.nodup_line
      (h.mem_line (isActive_eq_true.mpr ⟨alert, hdata, hactive⟩))
  only t ht := by
    rw [h.turns_eq] at ht
    exact h.active_of_mem_line (fst_serve_subset (List.mem_map_of_mem ht))
  fair x y z a b e heq hne hb := by
    rw [h.turns_eq] at heq
    exact serve_fair h.nodup_line heq hne hb
  starts types htypes hlen := by
    obtain ⟨t, hrun, houtcome⟩ := h.outcome.run htypes hlen.le
    obtain ⟨j, hj⟩ := Nat.exists_eq_add_of_lt hlen
    -- there are callbacks to go, so somebody is in a turn
    have hleft : plays (s.schedule n) - types.length = j + 1 := by omega
    rw [hleft] at houtcome
    obtain ⟨m, k, alert, q, hplaying, hlog, hplays⟩ := houtcome
    refine ⟨t, hrun, ?_, ?_⟩
    · rw [hplaying.ringing]
      exact Option.some_ne_none m
    · have hsum := congrArg plays hlog
      rw [plays_append, plays_append, hplays] at hsum
      omega
  ends types htypes hlen := by
    obtain ⟨t, hrun, houtcome⟩ := h.outcome.run htypes hlen.le
    rw [hlen, Nat.sub_self] at houtcome
    obtain ⟨hlog, hringing, hinactive⟩ := houtcome
    refine ⟨t, hrun, hlog, hringing, fun m alert hdata ↦ ?_⟩
    exact (isActive_of_data hdata).symm.trans (hinactive m)

/-- An alert that is in the list and active. -/
def ringingAlert (toneTab : List Str) (loopCount : UInt8) (h : toneTab.length < 256) :
    AlertData where
  alertInfo := ⟨[], [], []⟩
  toneTab := toneTab
  isActive := true
  currentToneIndex := 0
  loopCount := loopCount
  stage := .listed
  expired := true
  toneCount_lt := h
  index_lt := id

/-- Two alerts: one with two tones, to be played twice, which rings, and one without tones, to be
played once. -/
def duet : AlertPlayer where
  data
    | 0 => some (ringingAlert [[97], [98]] 2 (by decide))
    | 1 => some (ringingAlert [] 1 (by decide))
    | _ => none
  alertQueue := []
  alertList := [0, 1]
  ringingAlertNode := some 0
  log := [.play [97] .ALERT_SPEECH]
  created := 2

theorem playsOut_duet : duet.line 0 = [(0, 2), (1, 1)] ∧ PlaysOut duet 0 [] := by
  refine ⟨by decide,
    playsOut_of_begun duet 0 [] ⟨by decide, rfl, rfl, fun m alert hdata _ ↦ ?_, ?_⟩⟩
  · match m, hdata with
    | 0, rfl => exact ⟨by decide, rfl, by decide⟩
    | 1, rfl => exact ⟨by decide, rfl, by decide⟩
  · rintro _ ⟨⟩
    rfl

end Result

end Ddmz.Alert
