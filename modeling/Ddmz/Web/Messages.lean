import Ddmz.Foundation.Heap
import Ddmz.Foundation.Json
import Ddmz.Wifi.Status

/-!
# Messages from the web

`audio_httpd_cb` of `webserver.c` makes a message of a request and puts it into a queue, from which
`EspAppControlTask` takes it. A message may own strings in memory: where it is not made after all,
or finds the queue full, they are freed at once, and otherwise by the task.

Nothing comes back from a null pointer, or from freeing what is not in use; then there is no
result.
-/

namespace Ddmz.Web

open Wifi (DeviceNotification)

/-! ## Messages -/

/-- `AudioCtlType`. -/
inductive AudioCtlType
  | Url
  | Play
  | Vol
  | List

/-- The type that a number stands for. -/
def AudioCtlType.ofInt : ℤ → Option AudioCtlType
  | 0 => some .Url
  | 1 => some .Play
  | 2 => some .Vol
  | 3 => some .List
  | _ => none

/-- `MediaPlayStatus`. -/
inductive MediaPlayStatus
  | Unknow
  | Playing
  | Start
  | Pause
  | Stop

/-- A string in memory. -/
structure StrBlock where
  addr : ℕ
  str : CStr

/-- The `buf` of a list, in a block of `size` bytes. -/
structure ListBlock where
  addr : ℕ
  size : ℕ
  buffer : Buffer

/-- `MsgUrlPkg`, `MsgCtrlPkg` and `MsgListPkg`, by their types. -/
inductive Msg
  | url (live : ℤ) (url name : StrBlock)
  | play (value : MediaPlayStatus)
  | vol (value : ℤ)
  | list (live : ℤ) (count : ℕ) (buf : ListBlock)

/-- What a message owns, in the order in which it is freed. -/
def Msg.blocks : Msg → List ℕ
  | .url _ uri name => [uri.addr, name.addr]
  | .list _ _ buf => [buf.addr]
  | _ => []

def QUEUE_LEN : ℕ := 3

/-! ## The producer -/

/-- What is read of `HttpdPostData`: the string in `buff`, and how many bytes have been received. -/
structure Post where
  buff : CStr
  buffLen : ℕ
  length_le : buff.1.length ≤ buffLen

/-- A string is measured, allocated and copied. -/
def copyString (valuestring : Option CStr) (h : Heap) : Option (Option StrBlock × Heap) :=
  valuestring.map fun str ↦ (h.malloc.1.map fun addr ↦ ⟨addr, str⟩, h.malloc.2)

/-- `AudioCtlType_Url`, up to the queue. -/
def urlRequest (json : CJson) (h : Heap) : Option (Option Msg × Heap) :=
  match json.getObjectItem "live", json.getObjectItem "url" with
  | some live, some url =>
    (copyString url.valuestring h).bind fun
      | (none, h) => some (none, h)
      | (some url, h) =>
        match json.getObjectItem "name" with
        -- the name is missing
        | none => (h.release url.addr).map fun h ↦ (none, h)
        | some name =>
          (copyString name.valuestring h).bind fun
            | (none, h) => (h.release url.addr).map fun h ↦ (none, h)
            | (some name, h) => some (some (.url live.valueint url name), h)
  | _, _ => some (none, h)

/-- `AudioCtlType_Play`. -/
def playRequest (json : CJson) : Option Msg :=
  (json.getObjectItem "play_status").map fun status ↦
    .play (if status.valueint = 1 then .Start else .Pause)

/-- `AudioCtlType_Vol`. -/
def volRequest (json : CJson) : Option Msg :=
  (json.getObjectItem "volume").map fun volume ↦ .vol volume.valueint

/-- The loop over `push_data`, from the offset `ind` of the buffer. -/
def packUrls : List CJson → ℕ → Buffer → Option Buffer
  | [], _, buffer => some buffer
  | node :: nodes, ind, buffer =>
    match node.getObjectItem "url" with
    | none => packUrls nodes ind buffer
    | some url => url.valuestring.bind fun str ↦
      packUrls nodes (ind + (str.1.length + 1)) (buffer.write ind (str.1 ++ [0]))

/-- `AudioCtlType_List`, up to the queue. -/
def listRequest (buffLen : ℕ) (json : CJson) (h : Heap) : Option (Option Msg × Heap) :=
  match json.getObjectItem "live" with
  | none => some (none, h)
  | some live =>
    match h.malloc with
    | (none, h) => some (none, h)
    | (some addr, h) =>
      match json.getObjectItem "push_data" with
      | none => (h.release addr).map fun h ↦ (none, h)
      | some push =>
        if push.type = .Array then
          (packUrls push.child 0 .zeroed).map fun buffer ↦
            -- the count is that of all elements, with a url or without
            (some (.list live.valueint push.child.length ⟨addr, buffLen, buffer⟩), h)
        else some (some (.list live.valueint 0 ⟨addr, buffLen, .zeroed⟩), h)

/-- The message that a request is for, if there is one. -/
def request (buffLen : ℕ) (json : CJson) (h : Heap) : Option (Option Msg × Heap) :=
  match (json.getObjectItem "type").bind fun type ↦ AudioCtlType.ofInt type.valueint with
  | some .Url => urlRequest json h
  | some .Play => some (playRequest json, h)
  | some .Vol => some (volRequest json, h)
  | some .List => listRequest buffLen json h
  | none => some (none, h)

/-- `xQueueSendToBack`, and what is freed if there is no room. -/
def send (msg : Option Msg) (queue : List Msg) (h : Heap) : Option (List Msg × Heap) :=
  match msg with
  | none => some (queue, h)
  | some msg =>
    if queue.length < QUEUE_LEN then some (queue ++ [msg], h)
    else (h.releaseAll msg.blocks).map fun h ↦ (queue, h)

/-- `audio_httpd_cb`. What `cJSON_Parse` makes of a text is a parameter; its own memory is not part
of the model. -/
def audioHttpdCb (parse : CStr → Option CJson) (post : Post) (queue : List Msg) (h : Heap) :
    Option (List Msg × Heap) :=
  match h.malloc with
  | (none, h) => some (queue, h)
  | (some inBuf, h) =>
    ((parse post.buff).elim (some (none, h)) fun json ↦ request post.buffLen json h).bind fun r ↦
      (send r.1 queue r.2).bind fun s ↦ (s.2.release inBuf).map fun h ↦ (s.1, h)

/-! ## The consumer -/

/-- The playlists of `PlayListId` that are written to. -/
inductive PlayListId
  | PLAYLIST_IN_FLASH_DEFAULT
  | PLAYLIST_IN_CARD_02
  | PLAYLIST_IN_CARD_03

/-- What the task calls. -/
inductive MediaCall
  | setPlayMode
  | addUri (uri : CStr)
  | mediaPlay
  | mediaResume
  | mediaPause
  | mediaStop
  | setVolume (volume : ℤ)
  | saveToPlaylist (dest : PlayListId) (uri : List UInt8)
  | closePlaylist (dest : PlayListId)

/-- `EspAppControlService`. -/
structure Service where
  wifiConnected : Bool
  blocking : Bool
  sdMounted : Bool

/-- `DeviceEvtNotifiedToApp`. -/
def deviceEvtNotifiedToApp (service : Service) : DeviceNotification → Service
  | .WIFI .WIFI_GOT_IP => { service with wifiConnected := true }
  | .WIFI .WIFI_SC_DISCONNECTED | .WIFI .WIFI_DISCONNECTED =>
    { service with wifiConnected := false }
  | .AUXIN .AUXIN_INSERTED => { service with blocking := true }
  | .AUXIN .AUXIN_REMOVED => { service with blocking := false }
  | .SDCARD .SD_MOUNTED => { service with sdMounted := true }
  | .SDCARD .SD_UNMOUNTED => { service with sdMounted := false }
  | _ => service

/-- The playlist that a list goes to. -/
def Service.dest (service : Service) (live : ℤ) : PlayListId :=
  if service.sdMounted = false then .PLAYLIST_IN_FLASH_DEFAULT
  else if live ≠ 0 then .PLAYLIST_IN_CARD_03 else .PLAYLIST_IN_CARD_02

/-- The loop over a list: where its strings start, and what they are up to the end of the block.
`save` is what `saveToPlaylist` returns. -/
def unpackUrls (save : List UInt8 → ℤ) (buf : ListBlock) : ℕ → ℕ → List (ℕ × List UInt8)
  | 0, _ => []
  | count + 1, ind =>
    let len := buf.buffer.strlen ind (buf.size - ind)
    let uri := buf.buffer.read ind len
    (ind, uri) :: if save uri < 0 then [] else unpackUrls save buf count (ind + (len + 1))

def playCalls : MediaPlayStatus → List MediaCall
  | .Start => [.mediaResume]
  | .Pause => [.mediaPause]
  | .Stop => [.mediaStop]
  | _ => []

/-- What `EspAppControlTask` does about a message that it has received. -/
def espAppControl (service : Service) (save : List UInt8 → ℤ) (msg : Msg) (h : Heap) :
    Option (List MediaCall × Heap) :=
  -- the message has been taken from the queue already
  if service.blocking = true then some ([], h) else
    match msg with
    | .url _ url _ => (h.releaseAll msg.blocks).map fun h ↦
      ([.setPlayMode, .addUri url.str, .mediaPlay], h)
    | .play value => some (playCalls value, h)
    | .vol value => some ([.setVolume value], h)
    | .list live count buf => (h.releaseAll msg.blocks).map fun h ↦
      ((unpackUrls save buf count 0).map (fun r ↦ .saveToPlaylist (service.dest live) r.2)
        ++ [.closePlaylist (service.dest live)], h)

end Ddmz.Web
