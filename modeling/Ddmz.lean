import Ddmz.Ota.Service
import Ddmz.Cloud.MicCapture
import Ddmz.Cloud.Tts
import Ddmz.Cloud.Handover
import Ddmz.Alarm.Periodic
import Ddmz.Alarm.OneShot
import Ddmz.Alert.Silence
import Ddmz.Alert.Schedule
import Ddmz.Alert.SetAlert
import Ddmz.Alert.Lifetime
import Ddmz.Alert.Attention
import Ddmz.Alert.Search
import Ddmz.Wifi.Credentials
import Ddmz.Wifi.Provisioning
import Ddmz.Wifi.Reconnect
import Ddmz.Wifi.Status
import Ddmz.Duer.Login
import Ddmz.Duer.Voice
import Ddmz.Duer.Firmware
import Ddmz.Cloud.TtsFile
import Ddmz.Mqtt.Command
import Ddmz.Mqtt.Client
import Ddmz.Web.Playlist
import Ddmz.Web.Ownership
import Ddmz.Bluetooth.KeyControl
import Ddmz.Bluetooth.Reconnect
import Ddmz.Touch.Recording
import Ddmz.Touch.Touchpad
import Ddmz.Touch.Button
import Ddmz.Touch.AdcButton
import Ddmz.Wifi.Blufi
import Ddmz.Web.DeviceFind
import Ddmz.Bluetooth.Messages
import Ddmz.SdCard.Detection
import Ddmz.Cloud.Sessions
import Ddmz.Wifi.BlufiSecurity
import Ddmz.Alarm.Format
import Ddmz.Alarm.Adding
import Ddmz.Alarm.Callbacks
import Ddmz.Alert.Delay
import Ddmz.Alert.Tones
import Ddmz.Ota.Bounds
import Ddmz.Cloud.UrlCapacity
import Ddmz.Cloud.Response
import Ddmz.Cloud.Answer
import Ddmz.Cloud.Agreement
import Ddmz.Terminal.Shell
import Ddmz.Touch.Filter
import Ddmz.Touch.Difference
import Ddmz.Text.Utf8Encode
import Ddmz.Utils.XmlTag
import Ddmz.Utils.EscapeTag
import Ddmz.Codec.Es8388
import Ddmz.Led.Is31fl3216
import Ddmz.Touch.Slider
import Ddmz.Touch.Matrix
import Ddmz.Mqtt.Delivery
import Ddmz.Mqtt.Session
import Ddmz.Web.HttpdSend
import Ddmz.Web.HttpdServe
import Ddmz.Web.HttpdArgs
import Ddmz.Web.HttpdReceive
