import Ddmz.Foundation.Runs
import Ddmz.Wifi.Reports

/-!
# What the services are told about the connection

The handler sends a state for each event that says something new about the connection, and
`WifiManagerEvtTask` hands it on to the services. What they have been told, followed by what still
waits in the queue, is what has been reported.

`lastState`, by which the handler knows what is new, is set even if the queue is full and takes
nothing. Reports alternate and end with the last event if and only if the queue always has room for
what is new: `settled_iff`.
-/

namespace Ddmz.Wifi

/-! ## Notifications -/

/-- `DeviceNotifyMsg` for the type `DEVICE_NOTIFY_TYPE_WIFI`. -/
inductive DeviceNotifyMsg
  | WIFI_GOT_IP
  | WIFI_DISCONNECTED
  | WIFI_SETTING_TIMEOUT
  | WIFI_SC_DISCONNECTED
  | WIFI_BLE_DISCONNECTED
  deriving DecidableEq

/-- `DeviceNotifyAuxInMsg`. -/
inductive DeviceNotifyAuxInMsg
  | AUXIN_INSERTED
  | AUXIN_REMOVED

/-- `DeviceNotifySDCardMsg`. -/
inductive DeviceNotifySDCardMsg
  | SD_MOUNTED
  | SD_UNMOUNTED
  | SD_MOUNT_FAILED

/-- `DeviceNotification`, of whatever type. -/
inductive DeviceNotification
  | WIFI (msg : DeviceNotifyMsg)
  | AUXIN (msg : DeviceNotifyAuxInMsg)
  | SDCARD (msg : DeviceNotifySDCardMsg)
  | other

/-- What `ProcessWifiEvent` notifies the services of. -/
def WifiState.notifyMsg : WifiState → Option DeviceNotifyMsg
  | .GotIp => some .WIFI_GOT_IP
  | .Disconnected => some .WIFI_DISCONNECTED
  | .SC_Disconnected => some .WIFI_SC_DISCONNECTED
  | .BLE_Disconnected => some .WIFI_BLE_DISCONNECTED
  | .Config_Timeout => some .WIFI_SETTING_TIMEOUT
  | _ => none

def DeviceNotifyMsg.connected : DeviceNotifyMsg → Option Bool
  | .WIFI_GOT_IP => some true
  | .WIFI_DISCONNECTED | .WIFI_SC_DISCONNECTED | .WIFI_BLE_DISCONNECTED => some false
  | .WIFI_SETTING_TIMEOUT => none

theorem WifiState.notifyMsg_connected (state : WifiState) :
    state.notifyMsg.toList.filterMap DeviceNotifyMsg.connected = state.connected.toList := by
  cases state <;> rfl

/-- The two events that are told apart by whether there is a connection. -/
def SystemEvent.connected : SystemEvent → Option Bool
  | .STA_GOT_IP => some true
  | .STA_DISCONNECTED => some false
  | _ => none

/-- The event that says so. -/
theorem SystemEvent.eq_of_connected {evt : SystemEvent} {b : Bool} (h : evt.connected = some b) :
    evt = if b then .STA_GOT_IP else .STA_DISCONNECTED := by
  cases evt with
  | STA_GOT_IP | STA_DISCONNECTED =>
    obtain rfl := Option.some.inj h
    rfl
  | _ => cases h

/-- What the handler does about an event that says something about the connection. -/
theorem wifiEvtHandlerCb_connected (build : Build) (w : Manager) {evt : SystemEvent} {b : Bool}
    (h : evt.connected = some b) : (wifiEvtHandlerCb build w evt).2.lastState = some evt ∧
      ∃ state, state.connected = some b ∧ (wifiEvtHandlerCb build w evt).2.queue =
        if w.lastState ≠ some evt then (w.send state).queue else w.queue := by
  cases evt with
  | STA_GOT_IP =>
    obtain rfl := Option.some.inj h
    refine ⟨rfl, .GotIp, rfl, ?_⟩
    rw [wifiEvtHandlerCb, staGotIp]
    dsimp only
    split_ifs <;> rfl
  | STA_DISCONNECTED =>
    obtain rfl := Option.some.inj h
    rw [wifiEvtHandlerCb, staDisconnected]
    -- in a configuration the state that is sent depends on the build
    split_ifs with hpairing hfirst hfirst
    · exact ⟨rfl, .Disconnected, rfl, rfl⟩
    · exact ⟨rfl, .Disconnected, rfl, rfl⟩
    · refine ⟨rfl, build.disconnectedState, ?_, rfl⟩
      rw [Build.disconnectedState]
      split_ifs <;> rfl
    · exact ⟨rfl, .Disconnected, rfl, rfl⟩
  | _ => cases h

/-- The other events leave `lastState`, and send at most what is no report. -/
theorem wifiEvtHandlerCb_other (build : Build) (w : Manager) {evt : SystemEvent}
    (h : evt.connected = none) : (wifiEvtHandlerCb build w evt).2.lastState = w.lastState ∧
      ((wifiEvtHandlerCb build w evt).2.queue = w.queue ∨ ∃ state, state.connected = none ∧
        (wifiEvtHandlerCb build w evt).2.queue = (w.send state).queue) := by
  cases evt with
  | STA_GOT_IP | STA_DISCONNECTED => cases h
  | STA_START | STA_CONNECTED => exact ⟨rfl, .inr ⟨_, rfl, rfl⟩⟩
  | _ => exact ⟨rfl, .inl rfl⟩

/-! ## Runs -/

/-- The station, what the services have been told, and whether the last event that says something
about the connection says that there is one. -/
structure Reporting where
  station : Station
  delivered : List DeviceNotifyMsg
  lastEvent : Option Bool

namespace Reporting

def init : Reporting := ⟨.init, [], none⟩

variable (build : Build) (s : Reporting)

/-- What the services are told in a step. -/
def notified : Op → List DeviceNotifyMsg
  | .manager .evtTask => (s.station.manager.queue.head?.bind WifiState.notifyMsg).toList
  | _ => []

/-- What an event says about the connection. -/
def observed : Op → Option Bool
  | .manager (.driver evt) => evt.connected
  | _ => none

def step (op : Op) : Option Reporting :=
  (s.station.step build op).map fun station ↦
    ⟨station, s.delivered ++ s.notified op, (observed op).or s.lastEvent⟩

/-- What the services have been told about the connection. -/
def told : List Bool := s.delivered.filterMap DeviceNotifyMsg.connected

/-- Notifications alternate, and when the queue is empty the last one is that of the last event. -/
structure Agrees : Prop where
  alternate : s.told.IsChain (· ≠ ·)
  last : s.station.manager.queue = [] → s.lastEvent ≠ none → s.told.getLast? = s.lastEvent

/-- The services are told the right things, also while the task empties the queue. -/
def Settled : Prop :=
  ∀ n u, AnyRun (step build) s (List.replicate n (.manager .evtTask)) u → u.Agrees

/-- The queue has room for what is new about the connection. -/
def Heard : Op → Prop
  | .manager (.driver evt) => evt.connected ≠ none → s.station.manager.lastState ≠ some evt →
    s.station.manager.queue.length < WIFI_EVT_QUEUE_LEN
  | _ => True

/-- What has been reported: what the services know, and what is in the queue. -/
def reports : List Bool := s.told ++ s.station.manager.queue.filterMap WifiState.connected

/-- Reports alternate, and the last one is that of the last event. -/
structure Known : Prop where
  alternate : s.reports.IsChain (· ≠ ·)
  last : s.reports.getLast? = s.lastEvent

/-- `lastState` is the last event, and nothing has been reported before the first. -/
structure Recorded : Prop where
  lastState : s.station.manager.lastState =
    s.lastEvent.map fun b ↦ if b then .STA_GOT_IP else .STA_DISCONNECTED
  first : s.lastEvent = none → s.reports = []

variable {build s} {t : Reporting} {op : Op}

theorem recorded_init : init.Recorded := ⟨rfl, fun _ ↦ rfl⟩

theorem known_init : init.Known := ⟨.nil, rfl⟩

theorem send_reports_none (w : Manager) {state : WifiState} (h : state.connected = none) :
    (w.send state).queue.filterMap WifiState.connected
      = w.queue.filterMap WifiState.connected := by
  rw [Manager.send]
  dsimp only
  split_ifs
  · rw [List.filterMap_append, List.filterMap_cons_none h, List.filterMap_nil, List.append_nil]
  · rfl

theorem send_reports_some (w : Manager) {state : WifiState} {b : Bool}
    (h : state.connected = some b) : (w.send state).queue.filterMap WifiState.connected
      = w.queue.filterMap WifiState.connected ++
        if w.queue.length < WIFI_EVT_QUEUE_LEN then [b] else [] := by
  rw [Manager.send]
  dsimp only
  split_ifs
  · rw [List.filterMap_append, List.filterMap_cons_some h, List.filterMap_nil]
  · rw [List.append_nil]

/-! ## One step -/

/-- What a step does to the reports. -/
inductive Tells (s : Reporting) (op : Op) (t : Reporting) : Prop
  | nothing (hlast : t.lastEvent = s.lastEvent) (hreports : t.reports = s.reports)
      (hheard : s.Heard op)
  | news (b : Bool) (hnew : s.lastEvent ≠ some b) (hlast : t.lastEvent = some b)
      (hreports : t.reports = s.reports ++ [b]) (hheard : s.Heard op)
  /-- The queue is full. -/
  | lost (b : Bool) (hnew : s.lastEvent ≠ some b) (hlast : t.lastEvent = some b)
      (hreports : t.reports = s.reports) (hfull : ¬s.Heard op)

/-- The other steps say nothing about the connection, and tell the services nothing. -/
theorem quiet_of_isOther (s : Reporting) (h : op.isOther = true) :
    s.Heard op ∧ observed op = none ∧ s.notified op = [] := by
  cases op with
  | manager op =>
    cases op with
    | driver evt | evtTask => cases h
    | _ => exact ⟨trivial, rfl, rfl⟩
  | _ => exact ⟨trivial, rfl, rfl⟩

theorem Recorded.lastState_eq_iff (hs : s.Recorded) {evt : SystemEvent} {b : Bool}
    (h : evt.connected = some b) :
    s.station.manager.lastState = some evt ↔ s.lastEvent = some b := by
  rw [hs.lastState, SystemEvent.eq_of_connected h]
  cases s.lastEvent with
  | none => exact iff_of_false nofun nofun
  | some c => cases b <;> cases c <;> decide

theorem reports_eq (delivered : List DeviceNotifyMsg) (station : Station) (last : Option Bool) :
    (Reporting.mk station delivered last).reports =
      delivered.filterMap DeviceNotifyMsg.connected ++
        station.manager.queue.filterMap WifiState.connected := rfl

theorem reports_append_nil (station : Station) (last : Option Bool)
    (h : station.manager.queue.filterMap WifiState.connected
      = s.station.manager.queue.filterMap WifiState.connected) :
    (Reporting.mk station (s.delivered ++ []) last).reports = s.reports := by
  rw [reports_eq, List.append_nil, h, reports, told]

/-- What the task takes from the queue, the services are told. -/
theorem reports_takes {station : Station} {state : WifiState} (last : Option Bool)
    (hqueue : s.station.manager.queue = state :: station.manager.queue) :
    (Reporting.mk station (s.delivered ++ s.notified (.manager .evtTask)) last).reports
      = s.reports := by
  rw [reports_eq, notified, hqueue, List.head?_cons, Option.bind_some, List.filterMap_append,
    WifiState.notifyMsg_connected, reports, told, hqueue, List.append_assoc]
  cases h : state.connected with
  | none => rw [List.filterMap_cons_none h, Option.toList_none, List.nil_append]
  | some b => rw [List.filterMap_cons_some h, Option.toList_some, List.singleton_append]

/-- What an event does to the reports. -/
theorem Recorded.tells_driver (hs : s.Recorded) (evt : SystemEvent) {station : Station}
    (hw : station.manager = (wifiEvtHandlerCb build s.station.manager evt).2) :
    s.Tells (.manager (.driver evt))
      ⟨station, s.delivered ++ [], evt.connected.or s.lastEvent⟩ := by
  cases hevt : evt.connected with
  | none =>
    obtain ⟨-, hqueue⟩ := wifiEvtHandlerCb_other build s.station.manager hevt
    refine .nothing rfl (reports_append_nil _ _ ?_) fun hne ↦ absurd hevt hne
    rw [hw]
    obtain hqueue | ⟨state, hnone, hqueue⟩ := hqueue
    · rw [hqueue]
    · rw [hqueue, send_reports_none _ hnone]
  | some b =>
    obtain ⟨-, state, hstate, hqueue⟩ :=
      wifiEvtHandlerCb_connected build s.station.manager hevt
    have hnew := hs.lastState_eq_iff hevt
    -- `lastState` tells a repeated event, for which nothing is sent
    by_cases hlast : s.lastEvent = some b
    · rw [if_neg (not_not.mpr (hnew.mpr hlast))] at hqueue
      refine .nothing hlast.symm (reports_append_nil _ _ ?_) fun _ hne ↦ ?_
      · rw [hw, hqueue]
      · exact absurd (hnew.mpr hlast) hne
    rw [if_pos fun h ↦ hlast (hnew.mp h)] at hqueue
    have hreports : (Reporting.mk station (s.delivered ++ []) (some b)).reports
        = s.reports ++ if s.station.manager.queue.length < WIFI_EVT_QUEUE_LEN then [b] else [] := by
      rw [reports_eq, List.append_nil, hw, hqueue, send_reports_some _ hstate,
        ← List.append_assoc, reports, told]
    -- what is new is sent, and takes effect if there is room
    by_cases hroom : s.station.manager.queue.length < WIFI_EVT_QUEUE_LEN
    · rw [if_pos hroom] at hreports
      exact .news b hlast rfl hreports fun _ _ ↦ hroom
    · rw [if_neg hroom] at hreports
      refine .lost b hlast rfl (hreports.trans (List.append_nil _)) fun hheard ↦ hroom ?_
      exact hheard (hevt ▸ Option.some_ne_none b) fun h ↦ hlast (hnew.mp h)

/-- **What a step does to the reports.** -/
theorem Recorded.tells (hs : s.Recorded) (h : s.step build op = some t) : s.Tells op t := by
  obtain ⟨station, hstation, rfl⟩ := Option.map_eq_some_iff.mp h
  have hchanges := Station.step_changes hstation
  generalize hw : station.manager = w' at hchanges
  cases hchanges with
  | handles evt => exact hs.tells_driver evt hw
  | takes state same hqueue => exact .nothing rfl (reports_takes _ (hw ▸ hqueue)) trivial
  | sends state hop same hnone hqueue =>
    obtain ⟨hheard, hobserved, hnotified⟩ := s.quiet_of_isOther hop
    rw [hobserved, hnotified, Option.none_or]
    refine .nothing rfl (reports_append_nil _ _ ?_) hheard
    rw [hw, hqueue, send_reports_none _ hnone]
  | keeps hop same hqueue =>
    obtain ⟨hheard, hobserved, hnotified⟩ := s.quiet_of_isOther hop
    rw [hobserved, hnotified, Option.none_or]
    refine .nothing rfl (reports_append_nil _ _ ?_) hheard
    rw [hw, hqueue]

/-- `lastState` is set to every event, reported or not. -/
theorem Recorded.lastState_step (hs : s.Recorded) (h : s.step build op = some t) :
    t.station.manager.lastState =
      t.lastEvent.map fun b ↦ if b then .STA_GOT_IP else .STA_DISCONNECTED := by
  obtain ⟨station, hstation, rfl⟩ := Option.map_eq_some_iff.mp h
  have hchanges := Station.step_changes hstation
  dsimp only
  generalize station.manager = w' at hchanges ⊢
  cases hchanges with
  | handles evt =>
    rw [observed]
    cases hevt : evt.connected with
    | none =>
      rw [(wifiEvtHandlerCb_other build s.station.manager hevt).1, hs.lastState, Option.none_or]
    | some b =>
      rw [(wifiEvtHandlerCb_connected build s.station.manager hevt).1, Option.some_or,
        Option.map_some, ← SystemEvent.eq_of_connected hevt]
  | takes state same => exact same.lastState.trans hs.lastState
  | sends state hop same | keeps hop same =>
    rw [same.lastState, hs.lastState, (s.quiet_of_isOther hop).2.1, Option.none_or]

theorem Recorded.step (hs : s.Recorded) (h : s.step build op = some t) : t.Recorded := by
  refine ⟨hs.lastState_step h, fun hnone ↦ ?_⟩
  cases hs.tells h with
  | nothing hlast hreports => rw [hreports, hs.first (hlast ▸ hnone)]
  | news b _ hlast | lost b _ hlast => exact nomatch hlast.symm.trans hnone

/-- A step keeps the reports right if and only if the queue has room for what is new. -/
theorem Recorded.known_step (hs : s.Recorded) (hknown : s.Known) (h : s.step build op = some t) :
    t.Known ↔ s.Heard op := by
  cases hs.tells h with
  | nothing hlast hreports hheard =>
    refine iff_of_true ⟨?_, ?_⟩ hheard
    · rw [hreports]
      exact hknown.alternate
    · rw [hreports, hknown.last, hlast]
  | news b hnew hlast hreports hheard =>
    refine iff_of_true ⟨?_, ?_⟩ hheard
    · rw [hreports]
      refine hknown.alternate.append (List.isChain_singleton b) fun a ha c hc hac ↦ hnew ?_
      obtain rfl := Option.some.inj hc
      rw [← hknown.last, ← hac]
      exact ha
    · rw [hreports, hlast, List.getLast?_concat]
  | lost b hnew hlast hreports hfull =>
    -- the last report is that of an earlier event, and stays so
    refine iff_of_false (fun ht ↦ hnew ?_) hfull
    rw [← hknown.last, ← hreports, ht.last, hlast]

/-! ## Emptying the queue -/

theorem evtTask_reports (h : s.step build (.manager .evtTask) = some t) :
    t.reports = s.reports ∧ t.lastEvent = s.lastEvent := by
  obtain ⟨station, hstation, rfl⟩ := Option.map_eq_some_iff.mp h
  have hchanges := Station.step_changes hstation
  generalize hw : station.manager = w' at hchanges
  cases hchanges with
  | takes state same hqueue => exact ⟨reports_takes _ (hw ▸ hqueue), rfl⟩
  | sends state hop | keeps hop => cases hop

theorem drain_reports {n : ℕ}
    (h : AnyRun (step build) s (List.replicate n (.manager .evtTask)) t) :
    t.reports = s.reports ∧ t.lastEvent = s.lastEvent := by
  induction n generalizing s with
  | zero =>
    cases h
    exact ⟨rfl, rfl⟩
  | succ n ih =>
    obtain _ | ⟨-, hstep, hrest⟩ := h
    obtain ⟨hreports, hlast⟩ := ih hrest
    obtain ⟨hreports', hlast'⟩ := evtTask_reports hstep
    exact ⟨hreports.trans hreports', hlast.trans hlast'⟩

theorem exists_evtTask (build : Build) {state : WifiState} {queue : List WifiState}
    (h : s.station.manager.queue = state :: queue) :
    ∃ t, s.step build (.manager .evtTask) = some t ∧ t.station.manager.queue = queue := by
  have hmanager : ∃ w, s.station.manager.processWifiEvent = some w ∧ w.queue = queue := by
    rw [Manager.processWifiEvent, h]
    refine ⟨_, rfl, ?_⟩
    rw [Manager.bleConfigStop]
    split_ifs <;> rfl
  obtain ⟨w, hw, hqueue⟩ := hmanager
  exact ⟨_, Option.map_eq_some_iff.mpr ⟨_, Option.map_eq_some_iff.mpr ⟨w, hw, rfl⟩, rfl⟩, hqueue⟩

theorem exists_drain (build : Build) {queue : List WifiState}
    (h : s.station.manager.queue = queue) : ∃ t,
    AnyRun (step build) s (List.replicate queue.length (.manager .evtTask)) t ∧
      t.station.manager.queue = [] := by
  induction queue generalizing s with
  | nil => exact ⟨s, .nil s, h⟩
  | cons state queue ih =>
    obtain ⟨t, hstep, ht⟩ := exists_evtTask build h
    obtain ⟨u, hrun, hu⟩ := ih ht
    exact ⟨u, .cons trivial hstep hrun, hu⟩

theorem reports_eq_told (h : s.station.manager.queue = []) : s.reports = s.told := by
  rw [reports, h, List.filterMap_nil, List.append_nil]

/-- What the services are told is right while the queue is emptied if and only if the reports
are. -/
theorem Recorded.settled_iff_known (hs : s.Recorded) : s.Settled build ↔ s.Known := by
  constructor
  · intro h
    -- once the queue is empty, the services know what has been reported
    obtain ⟨t, hrun, hqueue⟩ := exists_drain build (s := s) rfl
    obtain ⟨hreports, hlast⟩ := drain_reports hrun
    have hagrees := h _ _ hrun
    rw [reports_eq_told hqueue] at hreports
    refine ⟨hreports ▸ hagrees.alternate, ?_⟩
    by_cases hnone : s.lastEvent = none
    · rw [hs.first hnone, hnone, List.getLast?_nil]
    · rw [← hreports, ← hlast, hagrees.last hqueue (hlast ▸ hnone)]
  · intro h n t hrun
    obtain ⟨hreports, hlast⟩ := drain_reports hrun
    constructor
    · -- what the services know meanwhile is the first part of what has been reported
      have hchain := h.alternate
      rw [← hreports, reports] at hchain
      exact hchain.left_of_append
    · intro hqueue _
      rw [← reports_eq_told hqueue, hreports, h.last, hlast]

end Reporting

/-- **The services come to know the last event, each time it changes and no more, if and only if
the queue has room for every change.** -/
theorem settled_iff (build : Build) {ops : List Op} {s : Reporting}
    (h : AnyRun (Reporting.step build) .init ops s) :
    Always (Reporting.step build) (Reporting.Settled build) .init ops ↔
      Run (Reporting.step build) Reporting.Heard .init ops s := by
  refine h.always_iff (J := Reporting.Recorded) (fun _ _ _ hs hstep ↦ hs.step hstep) ?_
    Reporting.recorded_init (Reporting.recorded_init.settled_iff_known.mpr Reporting.known_init)
  intro s op t hs hsettled hstep
  rw [(hs.step hstep).settled_iff_known]
  exact hs.known_step (hs.settled_iff_known.mp hsettled) hstep

/-- The station connects, loses the connection and finds it again, and the task comes last. -/
theorem settled_regained : Always (Reporting.step ⟨false, true, zeros⟩)
    (Reporting.Settled ⟨false, true, zeros⟩) .init
    [.manager (.driver .STA_START), .manager (.driver .STA_GOT_IP),
      .manager (.driver .STA_DISCONNECTED), .manager (.driver .STA_GOT_IP), .manager .evtTask] := by
  have hrun : AnyRun (Reporting.step ⟨false, true, zeros⟩) .init
      [.manager (.driver .STA_START), .manager (.driver .STA_GOT_IP),
        .manager (.driver .STA_DISCONNECTED), .manager (.driver .STA_GOT_IP),
        .manager .evtTask] _ := anyRun_of_foldlM rfl
  exact (settled_iff ⟨false, true, zeros⟩ hrun).mpr <|
    .cons (fun _ _ ↦ by decide) rfl <| .cons (fun _ _ ↦ by decide) rfl <|
    .cons (fun _ _ ↦ by decide) rfl <| .cons (fun _ _ ↦ by decide) rfl <|
    .cons trivial rfl <| .nil _

/-- The station associates twice before the task runs, and its address finds the queue full. -/
theorem not_agrees_full : ¬∀ build ops s, AnyRun (Reporting.step build) .init ops s →
    s.Agrees := by
  intro h
  have hagrees := h ⟨false, true, zeros⟩ [.manager (.driver .STA_START),
      .manager (.driver .STA_CONNECTED), .manager (.driver .STA_DISCONNECTED),
      .manager (.driver .STA_CONNECTED), .manager (.driver .STA_GOT_IP), .manager .evtTask,
      .manager .evtTask, .manager .evtTask, .manager .evtTask] _ <| anyRun_of_foldlM rfl
  exact absurd (hagrees.last rfl (Option.some_ne_none _)) (by decide)

end Ddmz.Wifi
