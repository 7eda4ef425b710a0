import Ddmz.Wifi.Status

/-!
# The clients of the broker

The MQTT service of `dd_mqtt.c` makes a client of the library and starts it whenever it is told
that the station has an address. A client has a task of its own, which connects to the broker
again when it has lost the connection, and which nothing stops.

There is one client at most, and a published message is handled once at most, if and only if a
client is started only when none runs: `single_iff`. The Wi-Fi manager tells the service about
every address, the one after a loss of the connection included: `Device.run_service`.
-/

namespace Ddmz.Mqtt

open Wifi (DeviceNotifyMsg DeviceNotification)

/-! ## Clients -/

/-- `mqtt_client_state_t`. -/
inductive ClientState
  | UNKNOWN
  | INIT
  | CONNECTED
  | WAIT_TIMEOUT
  deriving DecidableEq

/-- `struct esp_mqtt_client` and its task. -/
structure Client where
  state : ClientState
  autoReconnect : Bool
  /-- There is a task, and it has not left its loop. -/
  run : Bool

/-- `esp_mqtt_client_init`, which may find no memory. -/
def espMqttClientInit (disableAutoReconnect granted : Bool) : Option Client :=
  if granted then some ⟨.UNKNOWN, !disableAutoReconnect, false⟩ else none

/-- `esp_mqtt_client_start`, with what `xTaskCreate` returns. -/
def espMqttClientStart (client : Client) (created : Bool) : Client :=
  if client.state ≠ .UNKNOWN then client else { client with run := created }

/-- What `esp_mqtt_task` does until it looks at the state of the client again. Whether what it
calls succeeds is `ok`; where it waits, whether it has waited long enough. -/
def espMqttTask (client : Client) (ok : Bool) : Client :=
  match client.state with
  | .UNKNOWN => { client with state := .INIT }
  | .INIT | .CONNECTED => { client with state := if ok then .CONNECTED else .WAIT_TIMEOUT }
  | .WAIT_TIMEOUT =>
    -- the loop is left
    if client.autoReconnect = false then { client with run := false }
    else { client with state := if ok then .INIT else .WAIT_TIMEOUT }

/-! ## The service -/

structure Service where
  clients : List Client
  /-- How many clients have handled each message. -/
  handled : List ℕ
  /-- The device does not come back from a null pointer. -/
  stopped : Bool

def Service.init : Service := ⟨[], [], false⟩

/-- `mqtt_app_start`; `mqtt_cfg` leaves `disable_auto_reconnect` as it is. -/
def mqttAppStart (s : Service) (granted created : Bool) : Service :=
  match espMqttClientInit false granted with
  | none => { s with stopped := true }
  | some client => { s with clients := s.clients ++ [espMqttClientStart client created] }

/-- `DeviceEvtNotifiedToMqtt`. -/
def deviceEvtNotifiedToMqtt (s : Service) (note : DeviceNotification) (granted created : Bool) :
    Service :=
  match note with
  | .WIFI .WIFI_GOT_IP => mqttAppStart s granted created
  | _ => s

inductive ServiceOp
  /-- A notification; if it makes a client, whether there is memory for it and its task. -/
  | notified (note : DeviceNotification) (granted created : Bool)
  | task (i : ℕ) (ok : Bool)
  /-- Somebody publishes a message, and every client that is connected gets it. -/
  | publish

namespace Service

variable (s : Service)

def connected : ℕ := s.clients.countP fun client ↦ client.state = .CONNECTED

def running : ℕ := s.clients.countP Client.run

def step : ServiceOp → Option Service
  | .notified note granted created =>
    if s.stopped = false then some (deviceEvtNotifiedToMqtt s note granted created) else none
  | .task i ok =>
    if s.stopped = false ∧ ∃ client ∈ s.clients[i]?, client.run = true then
      some { s with clients := s.clients.modify i fun client ↦ espMqttTask client ok }
    else none
  | .publish =>
    if s.stopped = false then some { s with handled := s.handled ++ [s.connected] } else none

/-- One client at most, and every message is handled once at most. -/
structure Single : Prop where
  running : s.running ≤ 1
  handled : ∀ n ∈ s.handled, n ≤ 1

/-- A client is started only when none runs. -/
def First : ServiceOp → Prop
  | .notified (.WIFI .WIFI_GOT_IP) true true => s.running = 0
  | _ => True

/-- A client connects again by itself, and does so only while its task runs. -/
def Sound : Prop :=
  ∀ client ∈ s.clients,
    client.autoReconnect = true ∧ (client.state = .CONNECTED → client.run = true)

variable {s} {t : Service} {op : ServiceOp}

theorem sound_init : init.Sound := nofun

theorem single_init : init.Single := ⟨Nat.zero_le 1, nofun⟩

/-! ## One step -/

theorem step_notified {note : DeviceNotification} {granted created : Bool}
    (h : s.step (.notified note granted created) = some t) :
    t = deviceEvtNotifiedToMqtt s note granted created := by
  rw [step, Option.ite_none_right_eq_some] at h
  exact (Option.some.inj h.2).symm

theorem step_publish (h : s.step .publish = some t) :
    t = { s with handled := s.handled ++ [s.connected] } := by
  rw [step, Option.ite_none_right_eq_some] at h
  exact (Option.some.inj h.2).symm

/-- A task that takes a step belongs to a client that runs, and changes nothing else. -/
theorem step_task {i : ℕ} {ok : Bool} (h : s.step (.task i ok) = some t) :
    ∃ before client after, s.clients = before ++ client :: after ∧ client.run = true ∧
      t = { s with clients := before ++ espMqttTask client ok :: after } := by
  rw [step, Option.ite_none_right_eq_some] at h
  obtain ⟨⟨-, client, hclient, hrun⟩, ht⟩ := h
  obtain ⟨hi, rfl⟩ := List.getElem?_eq_some_iff.mp hclient
  refine ⟨s.clients.take i, s.clients[i], s.clients.drop (i + 1), ?_, hrun, ?_⟩
  · rw [List.getElem_cons_drop, List.take_append_drop]
  · rw [← Option.some.inj ht, List.modify_eq_take_cons_drop hi]

/-- A client that connects again by itself keeps running. -/
theorem run_espMqttTask {client : Client} (h : client.autoReconnect = true) (ok : Bool) :
    (espMqttTask client ok).run = client.run ∧ (espMqttTask client ok).autoReconnect = true := by
  rw [espMqttTask]
  cases client.state with
  | WAIT_TIMEOUT =>
    dsimp only
    rw [if_neg (Bool.eq_false_iff.not.mpr (not_not.mpr h))]
    exact ⟨rfl, h⟩
  | _ => exact ⟨rfl, h⟩

/-- What a notification comes to: it stops the device, or makes a client, or nothing. -/
theorem deviceEvtNotifiedToMqtt_cases (s : Service) (note : DeviceNotification)
    (granted created : Bool) :
    (deviceEvtNotifiedToMqtt s note granted created).handled = s.handled ∧
      ((deviceEvtNotifiedToMqtt s note granted created).clients = s.clients ∧
          s.First (.notified note granted created) ∨
        note = .WIFI .WIFI_GOT_IP ∧ (deviceEvtNotifiedToMqtt s note granted created).clients =
            s.clients ++ [⟨.UNKNOWN, true, created⟩] ∧
          (s.First (.notified note granted created) ↔ created = true → s.running = 0)) := by
  cases note with
  | AUXIN | SDCARD | other => exact ⟨rfl, .inl ⟨rfl, trivial⟩⟩
  | WIFI msg =>
    cases msg with
    | WIFI_GOT_IP =>
      cases granted with
      | false => exact ⟨rfl, .inl ⟨rfl, trivial⟩⟩
      | true =>
        refine ⟨rfl, .inr ⟨rfl, rfl, ?_⟩⟩
        cases created with
        | false => exact iff_of_true trivial nofun
        | true => exact ⟨fun h _ ↦ h, fun h ↦ h rfl⟩
    | _ => exact ⟨rfl, .inl ⟨rfl, trivial⟩⟩

theorem Sound.step (hs : s.Sound) (h : s.step op = some t) : t.Sound := by
  intro client hclient
  cases op with
  | notified note granted created =>
    obtain rfl := step_notified h
    obtain ⟨-, ⟨hclients, -⟩ | ⟨-, hclients, -⟩⟩ :=
      deviceEvtNotifiedToMqtt_cases s note granted created
    · exact hs client (hclients ▸ hclient)
    · rw [hclients, List.mem_append, List.mem_singleton] at hclient
      obtain hclient | rfl := hclient
      · exact hs client hclient
      · exact ⟨rfl, nofun⟩
  | task i ok =>
    obtain ⟨before, client', after, hclients, hrun, rfl⟩ := step_task h
    rw [Sound, hclients] at hs
    rw [List.mem_append, List.mem_cons] at hclient
    obtain hclient | rfl | hclient := hclient
    · exact hs client (List.mem_append_left _ hclient)
    · -- the task that takes the step runs, and goes on running
      have hkeeps := run_espMqttTask
        (hs client' (List.mem_append_right _ List.mem_cons_self)).1 ok
      exact ⟨hkeeps.2, fun _ ↦ hkeeps.1.trans hrun⟩
    · exact hs client (List.mem_append_right _ (List.mem_cons_of_mem _ hclient))
  | publish =>
    obtain rfl := step_publish h
    exact hs client hclient

/-- No more clients are connected than run. -/
theorem Sound.connected_le (hs : s.Sound) : s.connected ≤ s.running :=
  List.countP_mono_left fun client hclient hstate ↦
    (hs client hclient).2 (of_decide_eq_true hstate)

theorem Sound.running_task (hs : s.Sound) {i : ℕ} {ok : Bool}
    (h : s.step (.task i ok) = some t) : t.running = s.running := by
  obtain ⟨before, client, after, hclients, -, rfl⟩ := step_task h
  have hauto := (hs client (hclients ▸ List.mem_append_right _ List.mem_cons_self)).1
  rw [Service.running, Service.running, hclients, List.countP_append, List.countP_append,
    List.countP_cons, List.countP_cons, (run_espMqttTask hauto ok).1]

/-- Where there is one client at most, a step keeps it so if and only if it does not start
another. -/
theorem Single.step (hs : s.Single) (hsound : s.Sound) (h : s.step op = some t) :
    t.Single ↔ s.First op := by
  cases op with
  | notified note granted created =>
    obtain rfl := step_notified h
    obtain ⟨hhandled, ⟨hclients, hfirst⟩ | ⟨-, hclients, hfirst⟩⟩ :=
      deviceEvtNotifiedToMqtt_cases s note granted created
    · refine iff_of_true ⟨?_, hhandled ▸ hs.handled⟩ hfirst
      rw [Service.running, hclients]
      exact hs.running
    · have hrunning : (deviceEvtNotifiedToMqtt s note granted created).running
          = s.running + if created = true then 1 else 0 := by
        rw [Service.running, hclients, List.countP_append, List.countP_singleton]
        rfl
      rw [hfirst]
      constructor
      · intro ht hcreated
        have hle := ht.running
        rw [hrunning, if_pos hcreated] at hle
        omega
      · intro hnone
        refine ⟨?_, hhandled ▸ hs.handled⟩
        rw [hrunning]
        split_ifs with hcreated
        · exact (congrArg (· + 1) (hnone hcreated)).le
        · exact hs.running
  | task i ok =>
    -- a task neither starts a client nor ends one
    have hrunning := hsound.running_task h
    obtain ⟨before, client, after, -, -, rfl⟩ := step_task h
    exact iff_of_true ⟨hrunning.le.trans hs.running, hs.handled⟩ trivial
  | publish =>
    obtain rfl := step_publish h
    refine iff_of_true ⟨hs.running, fun n hn ↦ ?_⟩ trivial
    rw [List.mem_append, List.mem_singleton] at hn
    obtain hn | rfl := hn
    · exact hs.handled n hn
    · exact hsound.connected_le.trans hs.running

end Service

/-- **There is one client at most throughout if and only if a client is started only when none
runs.** -/
theorem single_iff {ops : List ServiceOp} {s : Service} (h : AnyRun Service.step .init ops s) :
    Always Service.step Service.Single .init ops ↔ Run Service.step Service.First .init ops s :=
  h.always_iff (J := Service.Sound) (fun _ _ _ hs hstep ↦ hs.step hstep)
    (fun _ _ _ hsound hs hstep ↦ hs.step hsound hstep) Service.sound_init Service.single_init

/-- One connection; its client loses the broker, finds it again and gets a message. -/
theorem single_once : Always Service.step Service.Single .init
    [.notified (.WIFI .WIFI_GOT_IP) true true, .task 0 true, .task 0 true, .task 0 false,
      .notified (.WIFI .WIFI_DISCONNECTED) true true, .task 0 true, .task 0 true, .publish] := by
  have hrun : AnyRun Service.step .init
      [.notified (.WIFI .WIFI_GOT_IP) true true, .task 0 true, .task 0 true, .task 0 false,
        .notified (.WIFI .WIFI_DISCONNECTED) true true, .task 0 true, .task 0 true,
        .publish] _ := anyRun_of_foldlM rfl
  exact (single_iff hrun).mpr <|
    .cons rfl rfl <| .cons trivial rfl <| .cons trivial rfl <| .cons trivial rfl <|
    .cons trivial rfl <| .cons trivial rfl <| .cons trivial rfl <| .cons trivial rfl <| .nil _

/-- The station loses its connection and finds it again, and there are two clients. -/
theorem not_single_twice : ¬∀ ops s, AnyRun Service.step .init ops s → s.Single := by
  intro h
  have hsingle := h [.notified (.WIFI .WIFI_GOT_IP) true true,
      .notified (.WIFI .WIFI_DISCONNECTED) true true,
      .notified (.WIFI .WIFI_GOT_IP) true true] _ <| anyRun_of_foldlM rfl
  exact absurd hsingle.running (by decide)

/-! ## The Wi-Fi manager and the service -/

/-- The messages of the notifications about the connection. -/
def ServiceOp.msg : ServiceOp → Option DeviceNotifyMsg
  | .notified (.WIFI msg) _ _ => some msg
  | _ => none

/-- The station, and the service that is told about its connection. -/
structure Device where
  reporting : Wifi.Reporting
  service : Service

inductive DeviceOp
  /-- A step at the station; if it makes a client, whether there is memory for it and its task. -/
  | station (op : Wifi.Op) (granted created : Bool)
  | task (i : ℕ) (ok : Bool)
  | publish

namespace Device

open Wifi (Reporting)

def init : Device := ⟨.init, .init⟩

/-- The service takes its notifications one after the other. -/
def notifyAll (service : Service) (granted created : Bool) (msgs : List DeviceNotifyMsg) :
    Option Service :=
  msgs.foldlM (fun service msg ↦ service.step (.notified (.WIFI msg) granted created)) service

def step (build : Wifi.Build) (d : Device) : DeviceOp → Option Device
  | .station op granted created => (d.reporting.step build op).bind fun reporting ↦
    (notifyAll d.service granted created (d.reporting.notified op)).map fun service ↦
      ⟨reporting, service⟩
  | .task i ok => (d.service.step (.task i ok)).map fun service ↦ ⟨d.reporting, service⟩
  | .publish => (d.service.step .publish).map fun service ↦ ⟨d.reporting, service⟩

variable {build : Wifi.Build} {d d' : Device}

theorem run_notifyAll {service service' : Service} {granted created : Bool}
    {msgs : List DeviceNotifyMsg} (h : notifyAll service granted created msgs = some service') :
    AnyRun Service.step service (msgs.map fun msg ↦ .notified (.WIFI msg) granted created)
      service' := by
  induction msgs generalizing service with
  | nil =>
    obtain rfl := Option.some.inj h
    exact .nil _
  | cons msg msgs ih =>
    obtain ⟨next, hnext, hrest⟩ := Option.bind_eq_some_iff.mp h
    exact .cons trivial hnext (ih hrest)

theorem filterMap_msg_notified (msgs : List DeviceNotifyMsg) (granted created : Bool) :
    (msgs.map fun msg ↦ ServiceOp.notified (.WIFI msg) granted created).filterMap ServiceOp.msg
      = msgs := by
  rw [List.filterMap_map]
  exact List.filterMap_some

/-- What a step is for the service: notifications of what the services are told in it, and
nothing else that is told. -/
theorem step_service {op : DeviceOp} (h : d.step build op = some d') :
    ∃ ops, AnyRun Service.step d.service ops d'.service ∧
      d'.reporting.delivered = d.reporting.delivered ++ ops.filterMap ServiceOp.msg := by
  cases op with
  | station op granted created =>
    obtain ⟨reporting, hreporting, h⟩ := Option.bind_eq_some_iff.mp h
    obtain ⟨service, hservice, rfl⟩ := Option.map_eq_some_iff.mp h
    obtain ⟨station, -, rfl⟩ := Option.map_eq_some_iff.mp hreporting
    exact ⟨_, run_notifyAll hservice, by rw [filterMap_msg_notified]⟩
  | task i ok =>
    obtain ⟨service, hservice, rfl⟩ := Option.map_eq_some_iff.mp h
    exact ⟨[.task i ok], .cons trivial hservice (.nil _), (List.append_nil _).symm⟩
  | publish =>
    obtain ⟨service, hservice, rfl⟩ := Option.map_eq_some_iff.mp h
    exact ⟨[.publish], .cons trivial hservice (.nil _), (List.append_nil _).symm⟩

/-- **A run of the device is a run of the service, which is told what the Wi-Fi manager tells.** -/
theorem run_service {ops : List DeviceOp} (h : AnyRun (step build) d ops d') :
    ∃ ops', AnyRun Service.step d.service ops' d'.service ∧
      d'.reporting.delivered = d.reporting.delivered ++ ops'.filterMap ServiceOp.msg := by
  induction h with
  | nil d => exact ⟨[], .nil _, (List.append_nil _).symm⟩
  | cons _ hstep _ ih =>
    obtain ⟨first, hfirst, hdelivered⟩ := step_service hstep
    obtain ⟨rest, hrest, hdelivered'⟩ := ih
    refine ⟨first ++ rest, hfirst.append hrest, ?_⟩
    rw [hdelivered', hdelivered, List.filterMap_append, List.append_assoc]

end Device

namespace Service

variable {s t : Service} {op : ServiceOp}

/-- Only what says that there is an address makes a client. -/
theorem Sound.running_step_le (hs : s.Sound) (h : s.step op = some t) :
    t.running ≤ s.running + ([op].filterMap ServiceOp.msg).count .WIFI_GOT_IP := by
  cases op with
  | notified note granted created =>
    obtain rfl := step_notified h
    obtain ⟨-, ⟨hclients, -⟩ | ⟨rfl, hclients, -⟩⟩ :=
      deviceEvtNotifiedToMqtt_cases s note granted created
    · rw [running, running, hclients]
      exact Nat.le_add_right _ _
    · rw [running, running, hclients, List.countP_append]
      exact Nat.add_le_add_left List.countP_le_length _
  | task i ok =>
    rw [hs.running_task h]
    exact Nat.le_add_right _ _
  | publish =>
    obtain rfl := step_publish h
    exact Nat.le_add_right _ _

theorem first_of_le
    (h : s.running + ([op].filterMap ServiceOp.msg).count .WIFI_GOT_IP ≤ 1) : s.First op := by
  rcases op with ⟨(_ | _ | _ | _ | _) | _ | _ | _, _ | _, _ | _⟩ | _ | _
  case notified.WIFI.WIFI_GOT_IP.true.true => exact Nat.le_zero.mp (Nat.le_of_succ_le_succ h)
  all_goals trivial

/-- What is told of at most one address makes at most one client. -/
theorem Sound.run_first {ops : List ServiceOp} (h : AnyRun Service.step s ops t) (hs : s.Sound)
    (hle : s.running + (ops.filterMap ServiceOp.msg).count .WIFI_GOT_IP ≤ 1) :
    Run Service.step First s ops t := by
  induction h with
  | nil s => exact .nil s
  | @cons s next t op ops _ hstep _ ih =>
    rw [← List.singleton_append, List.filterMap_append, List.count_append] at hle
    have hrunning := hs.running_step_le hstep
    refine .cons (first_of_le (by omega)) hstep (ih (hs.step hstep) ?_)
    omega

end Service

/-- **As long as the Wi-Fi manager tells of one address only, there is one client at most.** -/
theorem Device.single_of_told {build : Wifi.Build} {ops : List DeviceOp} {d : Device}
    (h : AnyRun (Device.step build) .init ops d)
    (hle : d.reporting.delivered.count .WIFI_GOT_IP ≤ 1) : d.service.Single := by
  obtain ⟨ops', hrun, hdelivered⟩ := Device.run_service h
  rw [hdelivered, List.count_append] at hle
  have hfirst := Service.sound_init.run_first hrun ((Nat.add_le_add_left (by omega) _).trans hle)
  exact (hfirst.invariant (I := fun s ↦ s.Sound ∧ s.Single)
    (fun s op t hs hop hstep ↦ ⟨hs.1.step hstep, (hs.2.step hs.1 hstep).mpr hop⟩)
    ⟨Service.sound_init, Service.single_init⟩).2

end Ddmz.Mqtt
