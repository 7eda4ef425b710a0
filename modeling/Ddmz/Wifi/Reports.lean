import Ddmz.Wifi.Tasks

/-!
# What the steps do to the variables of the handler

Only `wifiEvtHandlerCb` sets `lastState` and `retry_wifi_times`. The queue is shared: the tasks and
BLUFI send states to it that do not say whether there is a connection, and `WifiManagerEvtTask`
takes from it.
-/

namespace Ddmz.Wifi

/-- Whether a state says that there is a connection now, or that there is none. -/
def WifiState.connected : WifiState → Option Bool
  | .GotIp => some true
  | .Disconnected | .SC_Disconnected | .BLE_Disconnected => some false
  | _ => none

/-- A step that neither handles an event of the driver nor takes a state from the queue. -/
def Op.isOther : Op → Bool
  | .manager (.driver _) | .manager .evtTask => false
  | _ => true

/-- The variables that only the handler sets are as before. -/
structure Manager.SameVars (w w' : Manager) : Prop where
  lastState : w'.lastState = w.lastState
  retry : w'.retryWifiTimes = w.retryWifiTimes

/-- What a step does to the variables of the handler, and to its queue. -/
inductive Manager.Changes (build : Build) (w : Manager) : Op → Manager → Prop
  | handles (evt : SystemEvent) :
      Changes build w (.manager (.driver evt)) (wifiEvtHandlerCb build w evt).2
  | takes {w' : Manager} (state : WifiState) (same : w.SameVars w')
      (hqueue : w.queue = state :: w'.queue) : Changes build w (.manager .evtTask) w'
  | sends {op : Op} {w' : Manager} (state : WifiState) (hop : op.isOther = true)
      (same : w.SameVars w') (hnone : state.connected = none)
      (hqueue : w'.queue = (w.send state).queue) : Changes build w op w'
  | keeps {op : Op} {w' : Manager} (hop : op.isOther = true) (same : w.SameVars w')
      (hqueue : w'.queue = w.queue) : Changes build w op w'

section Changes

variable {build : Build} {w : Manager} {s s' : Station} {op : Op} {t : ℕ} {answer : EspErr}

theorem changes_refl (hop : op.isOther = true) : w.Changes build op w :=
  .keeps hop ⟨rfl, rfl⟩ rfl

theorem changes_send (hop : op.isOther = true) {state : WifiState}
    (hnone : state.connected = none) : w.Changes build op (w.send state) :=
  .sends state hop ⟨rfl, rfl⟩ hnone rfl

theorem changes_report (hop : op.isOther = true) (res : EspErr) :
    w.Changes build op (w.report res) := by
  rw [Manager.report]
  split_ifs
  · exact changes_send hop rfl
  · exact changes_refl hop

theorem changes_bleConfigStop (hop : op.isOther = true) :
    w.Changes build op w.bleConfigStop.2 := by
  rw [Manager.bleConfigStop]
  split_ifs
  · exact .keeps hop ⟨rfl, rfl⟩ rfl
  · exact changes_refl hop

theorem wifiConfigTask_changes {p : WifiPlace} (h : wifiConfigTask t answer s p = some s') :
    s.manager.Changes build (.scTask t answer) s'.manager := by
  cases p with
  | setPairing | getMode | clearHandle | exit =>
    obtain rfl := Option.some.inj h
    exact .keeps rfl ⟨rfl, rfl⟩ rfl
  | result res =>
    obtain rfl := Option.some.inj h
    exact changes_report rfl res
  | smart q =>
    obtain ⟨r, hr, rfl⟩ := Option.map_eq_some_iff.mp h
    cases q with
    | take =>
      rw [wifiSmartConnect] at hr
      split_ifs at hr
      · obtain rfl := Option.some.inj hr
        exact .keeps rfl ⟨rfl, rfl⟩ rfl
      · obtain rfl := Option.some.inj hr
        exact .keeps rfl ⟨rfl, rfl⟩ rfl
    | start =>
      rw [wifiSmartConnect, Option.ite_none_right_eq_some] at hr
      obtain rfl := Option.some.inj hr.2
      exact .keeps rfl ⟨rfl, rfl⟩ rfl
    | _ =>
      obtain rfl := Option.some.inj hr
      exact .keeps rfl ⟨rfl, rfl⟩ rfl

theorem bleConfigTask_changes {p : BlePlace} (h : bleConfigTask t answer s p = some s') :
    s.manager.Changes build (.bleTask t answer) s'.manager := by
  cases p with
  | stop =>
    obtain rfl := Option.some.inj h
    exact changes_bleConfigStop rfl
  | result res =>
    obtain rfl := Option.some.inj h
    exact changes_report rfl res
  | start q =>
    obtain ⟨r, hr, rfl⟩ := Option.map_eq_some_iff.mp h
    cases q with
    | take =>
      rw [bleConfigStart] at hr
      split_ifs at hr
      · obtain rfl := Option.some.inj hr
        exact .keeps rfl ⟨rfl, rfl⟩ rfl
      · obtain rfl := Option.some.inj hr
        exact .keeps rfl ⟨rfl, rfl⟩ rfl
    | stop res =>
      obtain rfl := Option.some.inj hr
      exact changes_bleConfigStop rfl
    | _ =>
      obtain rfl := Option.some.inj hr
      exact .keeps rfl ⟨rfl, rfl⟩ rfl
  -- the other places touch Bluetooth, the handles and `pairing`, none of which is listed
  | _ =>
    obtain rfl := Option.some.inj h
    exact .keeps rfl ⟨rfl, rfl⟩ rfl

theorem smartconfigDone_changes (status : SmartconfigStatus) :
    w.Changes build (.manager (.smartconfig status)) (smartconfigDone w status).2 := by
  cases status with
  | _ => exact .keeps rfl ⟨rfl, rfl⟩ rfl

theorem audioBleEventCallback_changes (evt : BlufiEvent) :
    w.Changes build (.manager (.blufi evt)) (audioBleEventCallback w evt).2 := by
  cases evt with
  | BLE_DISCONNECT => exact changes_send rfl rfl
  | _ => exact .keeps rfl ⟨rfl, rfl⟩ rfl

theorem processWifiEvent_changes {w' : Manager} (h : w.processWifiEvent = some w') :
    w.Changes build (.manager .evtTask) w' := by
  cases hqueue : w.queue with
  | nil =>
    rw [Manager.processWifiEvent, hqueue] at h
    cases h
  | cons state queue =>
    rw [Manager.processWifiEvent, hqueue] at h
    obtain rfl := Option.some.inj h
    rw [Manager.bleConfigStop]
    split_ifs
    all_goals exact .takes state ⟨rfl, rfl⟩ hqueue

/-- **What a step does to the variables of the handler.** -/
theorem Station.step_changes (h : s.step build op = some s') :
    s.manager.Changes build op s'.manager := by
  cases op with
  -- a request only creates and deletes tasks
  | smartConfig r | bleConfig r =>
    obtain ⟨c, -, rfl⟩ := Option.map_eq_some_iff.mp h
    exact changes_refl rfl
  | scTask t answer =>
    obtain ⟨p, -, h⟩ := Option.bind_eq_some_iff.mp h
    exact wifiConfigTask_changes h
  | bleTask t answer =>
    obtain ⟨p, -, h⟩ := Option.bind_eq_some_iff.mp h
    exact bleConfigTask_changes h
  | manager op =>
    obtain ⟨w', hw, rfl⟩ := Option.map_eq_some_iff.mp h
    cases op with
    | driver evt =>
      obtain rfl := Option.some.inj hw
      exact .handles evt
    | smartconfig status =>
      obtain rfl := Option.some.inj hw
      exact smartconfigDone_changes status
    | blufi evt =>
      obtain rfl := Option.some.inj hw
      exact audioBleEventCallback_changes evt
    | evtTask => exact processWifiEvent_changes hw
    | bleConfigStop =>
      obtain rfl := Option.some.inj hw
      exact changes_bleConfigStop rfl

end Changes

end Ddmz.Wifi
