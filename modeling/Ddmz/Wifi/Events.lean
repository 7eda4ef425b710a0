import Ddmz.Foundation.Buffer

/-!
# The callbacks of the Wi-Fi manager

The driver reports its events to `wifiEvtHandlerCb`, the smart configuration its progress to
`smartconfig_done`, and BLUFI what it receives to `audio_ble_event_callback`. They share two event
groups with the configuration tasks and a queue with `WifiManagerEvtTask`, and all of them set the
configuration of the station.

A configuration is a block of memory. What the callbacks call of the driver, of the LEDs and of
BLUFI is returned in order; whether `esp_wifi_connect` succeeds is part of the event where the
callback asks. The configuration of the access point and the log are left out.
-/

namespace Ddmz.Wifi

/-! ## Configurations of the station -/

/-- `wifi_sta_config_t`: the offsets of its fields, and their sizes. -/
def SSID : ℕ := 0
def SSID_SIZE : ℕ := 32
def PASSWORD : ℕ := 32
def PASSWORD_SIZE : ℕ := 64
def BSSID_SET : ℕ := 96
def BSSID : ℕ := 97
def BSSID_SIZE : ℕ := 6
def STA_CONFIG_SIZE : ℕ := 103

/-- Memory that is all zero. -/
def zeros : Buffer := ⟨fun _ ↦ 0, 0⟩

/-- The bytes before a terminator, if there is one. -/
def text (data : List UInt8) : List UInt8 := data.takeWhile (· ≠ 0)

/-- What `strncpy` writes when it gets as many bytes as it may. -/
def strncpy (data : List UInt8) : List UInt8 :=
  text data ++ List.replicate (data.length - (text data).length) 0

/-! ## The state -/

/-- The events of the driver that are told apart. -/
inductive SystemEvent
  | WIFI_READY
  | SCAN_DONE
  | STA_START
  | STA_STOP
  | STA_CONNECTED
  | STA_DISCONNECTED
  | STA_AUTHMODE_CHANGE
  | STA_GOT_IP
  | STA_WPS_ER_SUCCESS
  | STA_WPS_ER_FAILED
  | STA_WPS_ER_TIMEOUT
  | STA_WPS_ER_PIN
  | AP_START
  | AP_STOP
  | AP_STACONNECTED
  | AP_STADISCONNECTED
  | AP_PROBEREQRECVED
  | other
  deriving DecidableEq

/-- `WifiState`. -/
inductive WifiState
  | Unknow
  | Config_Timeout
  | Connecting
  | Connected
  | Disconnected
  | ConnectFailed
  | GotIp
  | SC_Disconnected
  | BLE_Disconnected
  | BLE_Stop
  deriving DecidableEq

/-- `g_sc_event_group`. -/
structure ScBits where
  done : Bool
  stopReq : Bool
  pairing : Bool
  deriving DecidableEq

/-- `g_ble_event_group`. -/
structure BleBits where
  done : Bool
  stopReq : Bool
  configing : Bool
  pairing : Bool
  deriving DecidableEq

/-- What the build decides. -/
structure Build where
  /-- `CONFIG_ENABLE_BLE_CONFIG`. -/
  ble : Bool
  /-- `CONFIG_ENABLE_SMART_CONFIG`. -/
  smart : Bool
  /-- `sta_config` of `WifiManager.c`, with `WIFI_SSID` and `WIFI_PASS`. -/
  staConfig : Buffer

/-- The variables of the callbacks. -/
structure Manager where
  /-- `lastState`; `none` is the value before the first event of interest. -/
  lastState : Option SystemEvent
  /-- `retry_wifi_times`. -/
  retryWifiTimes : ℤ
  /-- `xQueueWifi`. -/
  queue : List WifiState
  sc : ScBits
  ble : BleBits
  /-- `sta_config` of `wifibleconfig.c`. -/
  staConfig : Buffer

def Manager.init : Manager where
  lastState := none
  retryWifiTimes := 5
  queue := []
  sc := ⟨false, false, false⟩
  ble := ⟨false, false, false, false⟩
  staConfig := zeros

/-- What the callbacks call. -/
inductive Call
  | ledNetDisconnect
  | ledNetConnectOk
  /-- `esp_wifi_set_config` for the station. -/
  | setConfig (config : Buffer)
  | connect
  | disconnect
  | setMode (mode : ℕ)
  /-- `esp_blufi_send_wifi_conn_report`. -/
  | connReport
  | blufiClose
  | setDeviceName
  | configAdvData

/-- `WIFI_EVT_QUEUE_LEN`. -/
def WIFI_EVT_QUEUE_LEN : ℕ := 4

/-- `xQueueSend` without a timeout: a full queue takes nothing. -/
def Manager.send (w : Manager) (state : WifiState) : Manager :=
  { w with queue := if w.queue.length < WIFI_EVT_QUEUE_LEN then w.queue ++ [state] else w.queue }

/-! ## The driver -/

variable (build : Build) (w : Manager)

/-- The bits that keep the handler from connecting again. -/
def Manager.pairing : Bool :=
  if build.ble then w.ble.pairing || w.ble.configing else w.sc.pairing

/-- The handler reads the bits of both groups, and clears two of them. -/
def Manager.readBits : Manager :=
  { w with
    sc := { w.sc with pairing := false }
    ble := if build.ble then { w.ble with configing := false } else w.ble }

/-- The state that is sent while a configuration is going on. -/
def Build.disconnectedState : WifiState :=
  if build.smart then .SC_Disconnected else if build.ble then .BLE_Disconnected else .Disconnected

/-- `wifiEvtHandlerCb` for `SYSTEM_EVENT_STA_DISCONNECTED`. -/
def staDisconnected : List Call × Manager :=
  let first := w.lastState ≠ some .STA_DISCONNECTED
  let leds := if first then [Call.ledNetDisconnect] else []
  let r := w.readBits build
  let last : Manager → Manager := fun w ↦ { w with lastState := some .STA_DISCONNECTED }
  if w.pairing build = false then
    let r := if first then r.send .Disconnected else r
    let retry := r.retryWifiTimes - 1
    (leds ++ .setConfig build.staConfig :: (if retry = 0 then [] else [.connect]),
      last { r with retryWifiTimes := retry })
  else (leds, last (if first then r.send build.disconnectedState else r))

/-- `wifiEvtHandlerCb` for `SYSTEM_EVENT_STA_GOT_IP`. -/
def staGotIp : List Call × Manager :=
  let first := w.lastState ≠ some .STA_GOT_IP
  ((if first then [.ledNetConnectOk] else []) ++ (if build.ble then [.connReport] else []),
    { (if first then w.send .GotIp else w) with
      lastState := some .STA_GOT_IP
      retryWifiTimes := 5 })

/-- `wifiEvtHandlerCb`. -/
def wifiEvtHandlerCb : SystemEvent → List Call × Manager
  | .STA_START => ([], w.send .Connecting)
  | .STA_CONNECTED => ([], w.send .Connected)
  | .STA_DISCONNECTED => staDisconnected build w
  | .STA_GOT_IP => staGotIp build w
  | _ => ([], w)

/-! ## Smart configuration -/

/-- `smartconfig_status_t`, with the configuration that comes with a link. -/
inductive SmartconfigStatus
  | WAIT
  | FIND_CHANNEL
  | GETTING_SSID_PSWD
  | LINK (pdata : Buffer)
  | LINK_OVER

/-- `smartconfig_done`. -/
def smartconfigDone : SmartconfigStatus → List Call × Manager
  | .LINK pdata =>
    let staConf := (zeros.clear STA_CONFIG_SIZE).write 0 (pdata.read 0 STA_CONFIG_SIZE)
    ([.disconnect, .setConfig staConf, .connect], w)
  | .LINK_OVER => ([], { w with sc := { w.sc with done := true } })
  | _ => ([], w)

/-! ## BLUFI -/

/-- `esp_blufi_cb_event_t`, with what is read of its parameters. -/
inductive BlufiEvent
  | INIT_FINISH
  | DEINIT_FINISH
  | BLE_CONNECT
  | BLE_DISCONNECT
  | SET_WIFI_OPMODE (mode : ℕ)
  /-- Whether `esp_wifi_connect` succeeds is part of the event. -/
  | REQ_CONNECT_TO_AP (connects : Bool)
  | REQ_DISCONNECT_FROM_AP
  | GET_WIFI_STATUS
  | RECV_SLAVE_DISCONNECT_BLE
  | DEAUTHENTICATE_STA
  | RECV_STA_BSSID (bssid : Fin 6 → UInt8)
  | RECV_STA_SSID (ssid : List UInt8)
  | RECV_STA_PASSWD (passwd : List UInt8)
  /-- The events for the access point. -/
  | RECV_SOFTAP
  | other

/-- Copy a string of the peer into a field, and terminate it. -/
def writeField (config : Buffer) (off : ℕ) (data : List UInt8) : Buffer :=
  (config.write off (strncpy data)).write (off + data.length) [0]

/-- A new configuration is stored and set. -/
def Manager.setSta (config : Buffer) : List Call × Manager :=
  ([.setConfig config], { w with staConfig := config })

/-- `audio_ble_event_callback`. -/
def audioBleEventCallback : BlufiEvent → List Call × Manager
  | .INIT_FINISH => ([.setDeviceName, .configAdvData], w)
  | .BLE_DISCONNECT => ([], w.send .BLE_Stop)
  | .SET_WIFI_OPMODE mode => ([.setMode mode], w)
  | .REQ_CONNECT_TO_AP connects =>
    ([.disconnect, .connect],
      { w with ble := { w.ble with configing := true, stopReq := w.ble.stopReq || !connects } })
  | .REQ_DISCONNECT_FROM_AP => ([.disconnect], w)
  | .GET_WIFI_STATUS => ([.connReport], w)
  | .RECV_SLAVE_DISCONNECT_BLE => ([.blufiClose], w)
  | .RECV_STA_BSSID bssid =>
    w.setSta ((w.staConfig.write BSSID (List.ofFn bssid)).write BSSID_SET [1])
  | .RECV_STA_SSID ssid => w.setSta (writeField w.staConfig SSID ssid)
  | .RECV_STA_PASSWD passwd => w.setSta (writeField w.staConfig PASSWORD passwd)
  | _ => ([], w)

end Ddmz.Wifi
