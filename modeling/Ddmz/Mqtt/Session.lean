import Ddmz.Foundation.Runs
import Ddmz.Mqtt.Client
import Ddmz.Mqtt.Connect
import Ddmz.Mqtt.Outbox
import Ddmz.Mqtt.Received

/-!
# The session of a client

`mqtt_client.c` lets a user of the library subscribe and publish while its own task reads what
the broker answers, keeps the connection alive and cleans up. What has been sent and not been
acknowledged is counted, the last of it is remembered, and what came before it is in the outbox.

Whatever the user and the broker do, and however the calls fall between the turns of the task,
the count is that of the requests without those acknowledged, and nothing is acknowledged that
has not been requested, if the packets that are to be sent have been built: `accounts`. A turn of
the task leaves only so much in the outbox, and nothing that is old: `bounded_after_turn`. A broker
that has fallen silent is noticed in about the time to keep alive: `silent_disconnects`.

The task goes through the states that `espMqttTask` has, and the user knows whether there is a
connection: `refines`.
-/

namespace Ddmz.Mqtt

open Wire

/-! ## The code -/

/-- What a client is configured with. -/
structure ClientConfig where
  connectInfo : ConnectInfo
  autoReconnect : Bool
  /-- `in_buffer_length` and `out_buffer_length`. -/
  bufferLength : ℕ

/-- `struct esp_mqtt_client`, with what its task and the calls of its user change. -/
structure Session where
  /-- `mqtt_connection`, whose message is the outbound one. -/
  connection : Connection
  pendingMsgId : UInt16
  pendingMsgType : ℕ
  pendingMsgCount : ℤ
  outbox : List OutboxItem
  state : ClientState
  run : Bool
  waitForPingResp : Bool
  keepaliveTick : ℤ
  reconnectTick : ℤ

/-- What the user of the library is told. -/
inductive MqttEvent
  | CONNECTED
  | DISCONNECTED
  | SUBSCRIBED (msgId : ℕ)
  | UNSUBSCRIBED (msgId : ℕ)
  | PUBLISHED (msgId : ℕ)
  deriving DecidableEq

/-- A kind of packet that is acknowledged, and an identifier. -/
abbrev Ticket := ℕ × ℕ

/-- What the user is told to be acknowledged. -/
def MqttEvent.acknowledged : MqttEvent → Option Ticket
  | .SUBSCRIBED msgId => some (MessageType.SUBSCRIBE.code, msgId)
  | .UNSUBSCRIBED msgId => some (MessageType.UNSUBSCRIBE.code, msgId)
  | .PUBLISHED msgId => some (MessageType.PUBLISH.code, msgId)
  | _ => none

namespace Session

/-- `mqtt_get_type` of the outbound message. -/
def outboundType (s : Session) : ℕ :=
  mqttGetType (memoryAt s.connection.buffer s.connection.data)

/-- `mqtt_write_data`, which succeeds at the time `wrote` if at all. -/
def mqttWriteData (s : Session) (wrote : Option ℤ) : Session × Bool :=
  match wrote with
  | none => (s, false)
  | some now => ({ s with keepaliveTick := now }, true)

/-- `is_valid_mqtt_msg`. -/
def isValidMqttMsg (s : Session) (msgType msgId : ℕ) : Session × Bool :=
  if s.pendingMsgCount = 0 then (s, false)
  else if (outboxDelete msgId msgType s.outbox).2 then
    ({ s with
      outbox := (outboxDelete msgId msgType s.outbox).1
      pendingMsgCount := s.pendingMsgCount - 1 }, true)
  else if s.pendingMsgType = msgType ∧ s.pendingMsgId.toNat = msgId then
    ({ s with pendingMsgCount := s.pendingMsgCount - 1 }, true)
  else (s, false)

/-- `mqtt_enqueue`, at the time `now`. -/
def mqttEnqueue (s : Session) (now : ℤ) (granted : Bool) : Session :=
  if s.pendingMsgCount > 0 then
    { s with
      outbox := outboxEnqueue s.outbox s.connection.message s.pendingMsgId.toNat s.pendingMsgType
        (Int32.ofInt now) granted }
  else s

/-- What `esp_mqtt_client_subscribe` and `esp_mqtt_client_unsubscribe` do, with what they
return. -/
def sendPending (s : Session) (request : Request) (draw : Draw) (now : ℤ) (granted : Bool)
    (wrote : Option ℤ) : Session × ℤ :=
  if s.state ≠ .CONNECTED then (s, -1)
  else
    let s := s.mqttEnqueue now granted
    let built := s.connection.build draw s.pendingMsgId request
    let s := { s with connection := built.1, pendingMsgId := built.2 }
    let s := { s with
      pendingMsgType := s.outboundType
      pendingMsgCount := s.pendingMsgCount + 1 }
    let written := s.mqttWriteData wrote
    if written.2 then (written.1, s.pendingMsgId.toNat) else (written.1, -1)

def espMqttClientSubscribe (s : Session) (topic : Option CStr) (qos : ℤ) (draw : Draw) (now : ℤ)
    (granted : Bool) (wrote : Option ℤ) : Session × ℤ :=
  s.sendPending (.subscribe topic qos) draw now granted wrote

def espMqttClientUnsubscribe (s : Session) (topic : Option CStr) (draw : Draw) (now : ℤ)
    (granted : Bool) (wrote : Option ℤ) : Session × ℤ :=
  s.sendPending (.unsubscribe topic) draw now granted wrote

/-- `esp_mqtt_client_publish`, with what it returns. -/
def espMqttClientPublish (s : Session) (topic : Option CStr) (data : List UInt8) (qos retain : ℤ)
    (draw : Draw) (now : ℤ) (granted : Bool) (wrote : Option ℤ) : Session × ℤ :=
  if s.state ≠ .CONNECTED then (s, -1)
  else
    let built := s.connection.build draw 0 (.publish topic data qos retain)
    let s := { s with connection := built.1 }
    let s :=
      if qos > 0 then
        { s with
          pendingMsgType := s.outboundType
          pendingMsgId := built.2
          pendingMsgCount := s.pendingMsgCount + 1 }.mqttEnqueue now granted
      else s
    let written := s.mqttWriteData wrote
    if written.2 then (written.1, built.2.toNat) else (written.1, -1)

/-- Build a packet and write it. -/
def send (s : Session) (request : Request) (draw : Draw) (wrote : Option ℤ) : Session × Bool :=
  { s with connection := (s.connection.build draw 0 request).1 }.mqttWriteData wrote

def espMqttClientPing (s : Session) (draw : Draw) (wrote : Option ℤ) : Session × Bool :=
  s.send .pingreq draw wrote

/-- `esp_mqtt_abort_connection`, at the time `now`. -/
def espMqttAbortConnection (s : Session) (now : ℤ) : Session :=
  { s with reconnectTick := now, state := .WAIT_TIMEOUT, waitForPingResp := false }

/-- An acknowledgement, with the event for it if it is taken. -/
def acknowledgement (s : Session) (msgType : MessageType) (msgId : ℕ) (event : ℕ → MqttEvent) :
    Session × List MqttEvent :=
  let r := s.isValidMqttMsg msgType.code msgId
  (r.1, if r.2 then [event msgId] else [])

/-- What `mqtt_process_receive` does with the packet at the start of `in_buffer`, apart from what it
delivers of a published message. -/
def processPacket (s : Session) (inBuffer : Buffer) (inBufferLength : ℕ) (draw : Draw)
    (wrote : Option ℤ) : Session × List MqttEvent :=
  let msgType := mqttGetType inBuffer
  let msgQos := mqttGetQos inBuffer
  let msgId := mqttGetId inBuffer inBufferLength
  if msgType = MessageType.SUBACK.code then s.acknowledgement .SUBSCRIBE msgId .SUBSCRIBED
  else if msgType = MessageType.UNSUBACK.code then
    s.acknowledgement .UNSUBSCRIBE msgId .UNSUBSCRIBED
  else if msgType = MessageType.PUBLISH.code then
    if msgQos = 1 then ((s.send (.puback (UInt16.ofNat msgId)) draw wrote).1, [])
    else if msgQos = 2 then ((s.send (.pubrec (UInt16.ofNat msgId)) draw wrote).1, [])
    else (s, [])
  else if msgType = MessageType.PUBACK.code then s.acknowledgement .PUBLISH msgId .PUBLISHED
  else if msgType = MessageType.PUBREC.code then
    ((s.send (.pubrel (UInt16.ofNat msgId)) draw wrote).1, [])
  else if msgType = MessageType.PUBREL.code then
    ((s.send (.pubcomp (UInt16.ofNat msgId)) draw wrote).1, [])
  else if msgType = MessageType.PUBCOMP.code then s.acknowledgement .PUBLISH msgId .PUBLISHED
  else if msgType = MessageType.PINGRESP.code then ({ s with waitForPingResp := false }, [])
  else (s, [])

/-- What `transport_read` brings in a turn of the task. -/
inductive ReadAnswer
  | failed
  | nothing
  /-- `in_buffer` after a read. -/
  | packet (inBuffer : Buffer)

/-- `mqtt_process_receive`, with whether it returns `ESP_OK`. -/
def mqttProcessReceive (config : ClientConfig) (s : Session) (read : ReadAnswer) (draw : Draw)
    (wrote : Option ℤ) : Session × List MqttEvent × Bool :=
  match read with
  | .failed => (s, [], false)
  | .nothing => (s, [], true)
  | .packet inBuffer =>
    ((s.processPacket inBuffer config.bufferLength draw wrote).1,
      (s.processPacket inBuffer config.bufferLength draw wrote).2, true)

/-- What the clock says and the transport does in a turn of the task. -/
structure TurnInput where
  read : ReadAnswer
  draw : Draw
  /-- When the answer to a packet has been written, if it has. -/
  answered : Option ℤ
  /-- When the time to keep alive is looked at. -/
  now : ℤ
  /-- When the ping has been written, if it has. -/
  pinged : Option ℤ
  /-- When the outbox is cleaned up, or the connection is given up. -/
  ended : ℤ

/-- The end of a turn in which the connection is kept. -/
def cleanOutbox (s : Session) (now : ℤ) : Session :=
  { s with
    outbox := (outboxCleanup (outboxDeleteExpired s.outbox (Int32.ofInt now) 30000) 4096).1 }

/-- A turn of `esp_mqtt_task` with a connection. -/
def connectedTurn (config : ClientConfig) (s : Session) (i : TurnInput) :
    Session × List MqttEvent :=
  let r := mqttProcessReceive config s i.read i.draw i.answered
  let s := r.1
  if r.2.2 = false then (s.espMqttAbortConnection i.ended, r.2.1 ++ [.DISCONNECTED])
  else if i.now - s.keepaliveTick > (config.connectInfo.keepalive * 1000 / 2 : ℕ) then
    if s.waitForPingResp then
      (s.espMqttAbortConnection i.ended, r.2.1 ++ [.DISCONNECTED])
    else
      let p := s.espMqttClientPing i.draw i.pinged
      if p.2 then ({ p.1 with waitForPingResp := true }.cleanOutbox i.ended, r.2.1)
      else (p.1.espMqttAbortConnection i.ended, r.2.1 ++ [.DISCONNECTED])
  else (s.cleanOutbox i.ended, r.2.1)

/-- How an attempt to connect goes. -/
structure ConnectInput where
  transport : Bool
  written : Bool
  /-- `in_buffer` after the answer has been read, or what was in it before, if the read has not
  failed. -/
  answer : Option Buffer
  draw : Draw
  ended : ℤ

/-- `esp_mqtt_connect`, with whether it returns `ESP_OK`. -/
def espMqttConnect (config : ClientConfig) (s : Session) (i : ConnectInput) : Session × Bool :=
  let s := { s with waitForPingResp := false }
  let connection := Connection.mqttMsgInit s.connection.buffer config.bufferLength
  let s := { s with connection := connection.mqttMsgConnect config.connectInfo }
  let s := { s with
    pendingMsgType := s.outboundType
    pendingMsgId := UInt16.ofNat (mqttGetId (memoryAt s.connection.buffer s.connection.data)
      s.connection.length) }
  if i.written = false then (s, false)
  else
    match i.answer with
    | none => (s, false)
    | some inBuffer =>
      (s, mqttGetType inBuffer = MessageType.CONNACK.code ∧ inBuffer.cells 3 = 0)

/-- A turn of `esp_mqtt_task` without a connection. -/
def initTurn (config : ClientConfig) (s : Session) (i : ConnectInput) :
    Session × List MqttEvent :=
  if i.transport = false then (s.espMqttAbortConnection i.ended, [.DISCONNECTED])
  else
    let r := espMqttConnect config s i
    if r.2 then ({ r.1 with state := .CONNECTED }, [.CONNECTED])
    else (r.1.espMqttAbortConnection i.ended, [.DISCONNECTED])

/-- A turn of `esp_mqtt_task` after a connection, at the time `now`. -/
def waitTurn (config : ClientConfig) (s : Session) (now : ℤ) : Session :=
  if config.autoReconnect = false then { s with run := false }
  else if now - s.reconnectTick > 10000 then { s with state := .INIT, reconnectTick := now }
  else s

/-- A call of the user, or a turn of the task in one of its states. -/
inductive Op
  | subscribe (topic : Option CStr) (qos : ℤ) (draw : Draw) (now : ℤ) (granted : Bool)
    (wrote : Option ℤ)
  | unsubscribe (topic : Option CStr) (draw : Draw) (now : ℤ) (granted : Bool) (wrote : Option ℤ)
  | publish (topic : Option CStr) (data : List UInt8) (qos retain : ℤ) (draw : Draw) (now : ℤ)
    (granted : Bool) (wrote : Option ℤ)
  | connect (i : ConnectInput)
  | turn (i : TurnInput)
  | wait (now : ℤ)

/-- A step, with what the user is told. A turn is one of the state that the client is in. -/
def step (config : ClientConfig) (s : Session) : Op → Option (Session × List MqttEvent)
  | .subscribe topic qos draw now granted wrote =>
    some ((s.espMqttClientSubscribe topic qos draw now granted wrote).1, [])
  | .unsubscribe topic draw now granted wrote =>
    some ((s.espMqttClientUnsubscribe topic draw now granted wrote).1, [])
  | .publish topic data qos retain draw now granted wrote =>
    some ((s.espMqttClientPublish topic data qos retain draw now granted wrote).1, [])
  | .connect i => if s.run ∧ s.state = .INIT then some (s.initTurn config i) else none
  | .turn i => if s.run ∧ s.state = .CONNECTED then some (s.connectedTurn config i) else none
  | .wait now =>
    if s.run ∧ s.state = .WAIT_TIMEOUT then some (s.waitTurn config now, []) else none

/-! ## What each function changes -/

section Fields

variable {s : Session} {wrote : Option ℤ} {now : ℤ} {granted : Bool} {request : Request}
  {draw : Draw} {msgType msgId : ℕ}

/-- Writing sets the time to keep alive from, and nothing else. -/
theorem mqttWriteData_fst (s : Session) (wrote : Option ℤ) : (s.mqttWriteData wrote).1
    = { s with keepaliveTick := wrote.getD s.keepaliveTick } := by
  cases wrote <;> rfl

theorem mqttWriteData_snd (s : Session) (wrote : Option ℤ) :
    (s.mqttWriteData wrote).2 = wrote.isSome := by
  cases wrote <;> rfl

/-- What has been pending is put into the outbox, if it is. -/
theorem mqttEnqueue_cases (s : Session) (now : ℤ) (granted : Bool) :
    s.mqttEnqueue now granted = s ∨ s.mqttEnqueue now granted = { s with
      outbox := s.outbox ++ [⟨s.connection.message, s.pendingMsgId.toNat, s.pendingMsgType,
        Int32.ofInt now, false⟩] } := by
  rw [mqttEnqueue]
  cases granted <;> split_ifs <;> simp [outboxEnqueue]

/-- An acknowledgement is taken if something is pending, and it is in the outbox or was sent last;
what is in the outbox is looked at first. -/
theorem isValidMqttMsg_cases (s : Session) (msgType msgId : ℕ) :
    s.isValidMqttMsg msgType msgId = (s, false) ∨
      s.pendingMsgCount ≠ 0 ∧ s.isValidMqttMsg msgType msgId =
        ({ s with
          outbox := s.outbox.eraseP fun item ↦ item.msgId = msgId ∧ item.msgType = msgType
          pendingMsgCount := s.pendingMsgCount - 1 }, true) ∧
        (∃ item ∈ s.outbox, item.msgId = msgId ∧ item.msgType = msgType) ∨
      s.pendingMsgCount ≠ 0 ∧ s.isValidMqttMsg msgType msgId =
        ({ s with pendingMsgCount := s.pendingMsgCount - 1 }, true) ∧
        s.pendingMsgType = msgType ∧ s.pendingMsgId.toNat = msgId := by
  rw [isValidMqttMsg, outboxDelete_eq]
  split_ifs with hcount hfound hlast
  · exact .inl rfl
  · refine .inr (.inl ⟨hcount, rfl, ?_⟩)
    simpa using hfound
  · exact .inr (.inr ⟨hcount, rfl, hlast⟩)
  · exact .inl rfl

end Fields

/-! ## What has been requested and what has been acknowledged -/

/-- The kinds of packets whose acknowledgement is looked for. -/
def awaited : List ℕ :=
  [MessageType.SUBSCRIBE.code, MessageType.UNSUBSCRIBE.code, MessageType.PUBLISH.code]

/-- What a call requests, if there is a connection. -/
def Op.requested (s : Session) : Op → List Ticket
  | .subscribe _ _ draw _ _ _ =>
    if s.state = .CONNECTED then [(MessageType.SUBSCRIBE.code, draw.val.toNat)] else []
  | .unsubscribe _ draw _ _ _ =>
    if s.state = .CONNECTED then [(MessageType.UNSUBSCRIBE.code, draw.val.toNat)] else []
  | .publish _ _ qos _ draw _ _ _ =>
    if s.state = .CONNECTED ∧ qos > 0 then [(MessageType.PUBLISH.code, draw.val.toNat)] else []
  | _ => []

/-- The state of a client after some requests and acknowledgements, where `built` says that all
packets have been built so far. -/
structure Accounts (config : ClientConfig) (built : Prop) (requested acknowledged : List Ticket)
    (s : Session) : Prop where
  /-- So many are still to be acknowledged. -/
  count : s.pendingMsgCount = requested.length - acknowledged.length
  nonneg : 0 ≤ s.pendingMsgCount
  /-- What is in the outbox has been requested, if it is such that it can be acknowledged. -/
  outbox : built → ∀ item ∈ s.outbox, item.msgType ∈ awaited →
    (item.msgType, item.msgId) ∈ requested
  /-- So has what was sent last. -/
  last : built → s.pendingMsgType ∈ awaited →
    (s.pendingMsgType, s.pendingMsgId.toNat) ∈ requested
  acknowledged : built → ∀ ticket ∈ acknowledged, ticket ∈ requested
  within : s.connection.Within
  bufferLength : s.connection.bufferLength = config.bufferLength

namespace Accounts

variable {config : ClientConfig} {built : Prop} {requested acknowledged : List Ticket}
  {s s' : Session}

/-- Other fields do not matter, and the outbox may lose items. -/
theorem congr (h : Accounts config built requested acknowledged s)
    (hcount : s'.pendingMsgCount = s.pendingMsgCount) (hbox : s'.outbox ⊆ s.outbox)
    (htype : s'.pendingMsgType = s.pendingMsgType) (hid : s'.pendingMsgId = s.pendingMsgId)
    (hwithin : s'.connection.Within)
    (hlength : s'.connection.bufferLength = config.bufferLength) :
    Accounts config built requested acknowledged s' where
  count := hcount.trans h.count
  nonneg := hcount ▸ h.nonneg
  outbox hbuilt item hitem := h.outbox hbuilt item (hbox hitem)
  last := by
    rw [htype, hid]
    exact h.last
  acknowledged := h.acknowledged
  within := hwithin
  bufferLength := hlength

/-- A packet that is built in the buffer of the client. -/
theorem build (h : Accounts config built requested acknowledged s) (h3 : 3 ≤ config.bufferLength)
    (draw : Draw) (messageId : UInt16) (request : Request) :
    Connection.Leaves s.connection (s.connection.build draw messageId request).1
      (request.packet draw) :=
  Connection.leaves_build h.within (h.bufferLength ▸ h3) request

theorem mqttWriteData (h : Accounts config built requested acknowledged s) (wrote : Option ℤ) :
    Accounts config built requested acknowledged (s.mqttWriteData wrote).1 := by
  rw [mqttWriteData_fst]
  exact h.congr rfl (List.Subset.refl _) rfl rfl h.within h.bufferLength

theorem send (h : Accounts config built requested acknowledged s) (h3 : 3 ≤ config.bufferLength)
    (request : Request) (draw : Draw) (wrote : Option ℤ) :
    Accounts config built requested acknowledged (s.send request draw wrote).1 := by
  have hleaves := h.build h3 draw 0 request
  have hbuilt : Accounts config built requested acknowledged
      { s with connection := (s.connection.build draw 0 request).1 } :=
    h.congr rfl (List.Subset.refl _) rfl rfl hleaves.within
      (hleaves.bufferLength.trans h.bufferLength)
  exact hbuilt.mqttWriteData wrote

theorem espMqttAbortConnection (h : Accounts config built requested acknowledged s) (now : ℤ) :
    Accounts config built requested acknowledged (s.espMqttAbortConnection now) :=
  h.congr rfl (List.Subset.refl _) rfl rfl h.within h.bufferLength

theorem cleanOutbox (h : Accounts config built requested acknowledged s) (now : ℤ) :
    Accounts config built requested acknowledged (s.cleanOutbox now) := by
  refine h.congr rfl ?_ rfl rfl h.within h.bufferLength
  refine List.Subset.trans (makesRoom_outboxCleanup _ _).sublist.subset ?_
  rw [outboxDeleteExpired, outboxDeleteAll_eq]
  exact List.filter_subset_self _

/-- One acknowledgement is taken. -/
theorem take {ticket : Ticket} (h : Accounts config built requested acknowledged s)
    (hcount : s.pendingMsgCount ≠ 0) (hticket : built → ticket ∈ requested)
    {outbox : List OutboxItem} (hbox : outbox ⊆ s.outbox) :
    Accounts config built requested (acknowledged ++ [ticket])
      { s with outbox := outbox, pendingMsgCount := s.pendingMsgCount - 1 } where
  count := by
    have hbefore := h.count
    simp only [List.length_append, List.length_singleton, Nat.cast_add, Nat.cast_one]
    omega
  nonneg := by
    have hbefore := h.nonneg
    change 0 ≤ s.pendingMsgCount - 1
    omega
  outbox hbuilt item hitem := h.outbox hbuilt item (hbox hitem)
  last := h.last
  acknowledged hbuilt ticket' hmem := by
    rcases List.mem_append.mp hmem with hold | hnew
    · exact h.acknowledged hbuilt ticket' hold
    · exact List.mem_singleton.mp hnew ▸ hticket hbuilt
  within := h.within
  bufferLength := h.bufferLength

/-- An acknowledgement that is taken is one of a request. -/
theorem acknowledgement {msgType : MessageType} {msgId : ℕ} {event : ℕ → MqttEvent}
    (h : Accounts config built requested acknowledged s) (htype : msgType.code ∈ awaited)
    (hevent : (event msgId).acknowledged = some (msgType.code, msgId)) :
    Accounts config built requested
      (acknowledged ++ (s.acknowledgement msgType msgId event).2.filterMap MqttEvent.acknowledged)
      (s.acknowledgement msgType msgId event).1 := by
  have htold : [event msgId].filterMap MqttEvent.acknowledged = [(msgType.code, msgId)] := by
    rw [List.filterMap_cons_some hevent, List.filterMap_nil]
  rw [Session.acknowledgement]
  obtain hno | ⟨hcount, hbox, item, hitem, rfl, hkind⟩ | ⟨hcount, hlast, hkind, rfl⟩ :=
    s.isValidMqttMsg_cases msgType.code msgId
  · rw [hno]
    simpa using h
  · rw [hbox, if_pos rfl, htold]
    refine h.take hcount (fun hbuilt ↦ ?_) List.eraseP_subset
    have hticket := h.outbox hbuilt item hitem (hkind ▸ htype)
    rwa [hkind] at hticket
  · rw [hlast, if_pos rfl, htold]
    refine h.take hcount (fun hbuilt ↦ ?_) (List.Subset.refl _)
    have hticket := h.last hbuilt (hkind ▸ htype)
    rwa [hkind] at hticket

/-- What was sent last is put into the outbox. -/
theorem mqttEnqueue (h : Accounts config built requested acknowledged s) (now : ℤ)
    (granted : Bool) :
    Accounts config built requested acknowledged (s.mqttEnqueue now granted) := by
  rcases s.mqttEnqueue_cases now granted with heq | heq
  · rw [heq]
    exact h
  · rw [heq]
    refine { h with outbox := fun hbuilt item hitem ↦ ?_ }
    rcases List.mem_append.mp hitem with hold | hnew
    · exact h.outbox hbuilt item hold
    · rw [List.mem_singleton.mp hnew]
      exact h.last hbuilt

/-- One more request. -/
theorem request {ticket : Ticket} {connection : Connection} {msgId : UInt16} {msgType : ℕ}
    (h : Accounts config built requested acknowledged s) (htype : built → msgType = ticket.1)
    (hid : built → msgId.toNat = ticket.2) (hwithin : connection.Within)
    (hlength : connection.bufferLength = config.bufferLength) :
    Accounts config built (requested ++ [ticket]) acknowledged { s with
      connection := connection
      pendingMsgId := msgId
      pendingMsgType := msgType
      pendingMsgCount := s.pendingMsgCount + 1 } where
  count := by
    have hbefore := h.count
    simp only [List.length_append, List.length_singleton, Nat.cast_add, Nat.cast_one]
    omega
  nonneg := by
    have hbefore := h.nonneg
    change 0 ≤ s.pendingMsgCount + 1
    omega
  outbox hbuilt item hitem hkind := List.mem_append_left _ (h.outbox hbuilt item hitem hkind)
  last hbuilt _ := by
    rw [htype hbuilt, hid hbuilt]
    exact List.mem_append_right _ (List.mem_singleton.mpr rfl)
  acknowledged hbuilt ticket' hmem := List.mem_append_left _ (h.acknowledged hbuilt ticket' hmem)
  within := hwithin
  bufferLength := hlength

end Accounts

/-- The packet of a call is built. -/
def Built (config : ClientConfig) (request : Request) (draw : Draw) : Prop :=
  ∃ p ∈ request.packet draw, 3 + p.body.length ≤ config.bufferLength

/-- Every packet that a step is to send is built. -/
def Op.Builds (config : ClientConfig) : Op → Prop
  | .subscribe topic qos draw _ _ _ => Built config (.subscribe topic qos) draw
  | .unsubscribe topic draw _ _ _ => Built config (.unsubscribe topic) draw
  | .publish topic data qos retain draw _ _ _ =>
    Built config (.publish topic data qos retain) draw
  | .connect i => Built config (.connect config.connectInfo) i.draw
  | _ => True

/-- The type of a packet that has been built. -/
theorem outboundType_of_leaves {c c' : Connection} {p : Packet} {request : Request} {draw : Draw}
    (hleaves : Connection.Leaves c c' (request.packet draw)) (hp : p ∈ request.packet draw)
    (hfits : 3 + p.body.length ≤ c.bufferLength) :
    mqttGetType (memoryAt c'.buffer c'.data) = p.type.code := by
  have hmessage := hleaves.message
  rw [Option.mem_def.mp hp, Option.filter_some, if_pos (by simpa using hfits),
    Option.elim_some] at hmessage
  have hfirst : ∃ rest, c'.message = p.first :: rest := by
    rw [hmessage, Packet.written]
    split_ifs
    · exact ⟨_, rfl⟩
    · exact ⟨_, rfl⟩
  obtain ⟨rest, hrest⟩ := hfirst
  have hlength := congrArg List.length hrest
  rw [Connection.message, Buffer.length_read, List.length_cons] at hlength
  rw [Connection.message, hlength, Buffer.read_succ] at hrest
  have hcell : (memoryAt c'.buffer c'.data).cells 0 = p.first := (List.cons.inj hrest).1
  rw [mqttGetType, hcell]
  exact headerByte_type _ _ _ _

namespace Accounts

variable {config : ClientConfig} {built : Prop} {requested acknowledged : List Ticket} {s : Session}

/-- A subscription or the end of one. -/
theorem sendPending {request : Request} {type : MessageType} {draw : Draw} {now : ℤ}
    {granted : Bool} {wrote : Option ℤ} (h : Accounts config built requested acknowledged s)
    (h3 : 3 ≤ config.bufferLength) (hbuilt : built → Built config request draw)
    (htype : ∀ p ∈ request.packet draw, p.type = type)
    (hid : built → ∀ (c : Connection) (messageId : UInt16),
      c.bufferLength = config.bufferLength → (c.build draw messageId request).2 = draw.val) :
    Accounts config built
      (requested ++ if s.state = .CONNECTED then [(type.code, draw.val.toNat)] else [])
      acknowledged (s.sendPending request draw now granted wrote).1 := by
  rw [Session.sendPending]
  by_cases hstate : s.state = .CONNECTED
  · rw [if_neg (not_not.mpr hstate), if_pos hstate]
    have hqueued := h.mqttEnqueue now granted
    have hleaves := hqueued.build h3 draw (s.mqttEnqueue now granted).pendingMsgId request
    generalize hbuild : (s.mqttEnqueue now granted).connection.build draw
      (s.mqttEnqueue now granted).pendingMsgId request = r at hleaves
    have hkind (hb : built) : mqttGetType (memoryAt r.1.buffer r.1.data) = type.code := by
      obtain ⟨p, hp, hfits⟩ := hbuilt hb
      rw [← htype p hp]
      exact outboundType_of_leaves hleaves hp (hqueued.bufferLength.symm ▸ hfits)
    have hnumber (hb : built) : r.2.toNat = draw.val.toNat :=
      congrArg UInt16.toNat (hbuild ▸ hid hb _ _ hqueued.bufferLength)
    have hticket : Accounts config built (requested ++ [(type.code, draw.val.toNat)])
        acknowledged _ :=
      hqueued.request hkind hnumber hleaves.within
        (hleaves.bufferLength.trans hqueued.bufferLength)
    subst hbuild
    rw [apply_ite Prod.fst, ite_self]
    exact hticket.mqttWriteData wrote
  · rw [if_pos hstate, if_neg hstate, List.append_nil]
    exact h

theorem espMqttClientPublish {topic : Option CStr} {data : List UInt8} {qos retain : ℤ}
    {draw : Draw} {now : ℤ} {granted : Bool} {wrote : Option ℤ}
    (h : Accounts config built requested acknowledged s) (h3 : 3 ≤ config.bufferLength)
    (hbuilt : built → Built config (.publish topic data qos retain) draw) :
    Accounts config built
      (requested ++ if s.state = .CONNECTED ∧ qos > 0 then
        [(MessageType.PUBLISH.code, draw.val.toNat)] else [])
      acknowledged (s.espMqttClientPublish topic data qos retain draw now granted wrote).1 := by
  rw [Session.espMqttClientPublish]
  by_cases hstate : s.state = .CONNECTED
  · have hleaves := h.build h3 draw 0 (.publish topic data qos retain)
    have hlength := hleaves.bufferLength.trans h.bufferLength
    rw [if_neg (not_not.mpr hstate), apply_ite Prod.fst, ite_self]
    by_cases hqos : qos > 0
    · rw [if_pos ⟨hstate, hqos⟩]
      simp only [hqos, if_true]
      generalize hbuild : s.connection.build draw 0 (.publish topic data qos retain) = r
        at hleaves hlength
      have hkind (hb : built) :
          mqttGetType (memoryAt r.1.buffer r.1.data) = MessageType.PUBLISH.code := by
        obtain ⟨p, hp, hfits⟩ := hbuilt hb
        rw [outboundType_of_leaves hleaves hp (h.bufferLength.symm ▸ hfits),
          ← Option.some.inj (Option.ite_none_left_eq_some.mp hp).2]
      have hnumber (hb : built) : r.2.toNat = draw.val.toNat := by
        obtain ⟨p, hp, hfits⟩ := hbuilt hb
        obtain ⟨htopic, hp⟩ := Option.ite_none_left_eq_some.mp hp
        obtain rfl := Option.some.inj hp
        rw [← hbuild]
        refine congrArg UInt16.toNat (Connection.mqttMsgPublish_snd htopic hqos ?_)
        have hfour : (assignedBytes 0 draw).length = 2 := rfl
        rw [if_pos hqos, List.length_append, List.length_append, length_prefixed, hfour] at hfits
        rw [h.bufferLength]
        omega
      have hticket : Accounts config built
          (requested ++ [(MessageType.PUBLISH.code, draw.val.toNat)]) acknowledged _ :=
        h.request hkind hnumber hleaves.within hlength
      subst hbuild
      exact (hticket.mqttEnqueue now granted).mqttWriteData wrote
    · simp only [hqos, and_false, if_false, List.append_nil]
      have hsent : Accounts config built requested acknowledged { s with
          connection := (s.connection.build draw 0 (.publish topic data qos retain)).1 } :=
        h.congr rfl (List.Subset.refl _) rfl rfl hleaves.within hlength
      exact hsent.mqttWriteData wrote
  · rw [if_pos hstate, if_neg fun hboth ↦ hstate hboth.1, List.append_nil]
    exact h

theorem processPacket {inBuffer : Buffer} {draw : Draw} {wrote : Option ℤ} {inBufferLength : ℕ}
    (h : Accounts config built requested acknowledged s) (h3 : 3 ≤ config.bufferLength) :
    Accounts config built requested
      (acknowledged ++ (s.processPacket inBuffer inBufferLength draw wrote).2.filterMap
        MqttEvent.acknowledged) (s.processPacket inBuffer inBufferLength draw wrote).1 := by
  have hsilent {s' : Session} (hs' : Accounts config built requested acknowledged s') :
      Accounts config built requested
        (acknowledged ++ ([] : List MqttEvent).filterMap MqttEvent.acknowledged) s' := by
    rwa [List.filterMap_nil, List.append_nil]
  rw [Session.processPacket]
  split_ifs
  · exact h.acknowledgement (by decide) rfl
  · exact h.acknowledgement (by decide) rfl
  · exact hsilent (h.send h3 _ _ _)
  · exact hsilent (h.send h3 _ _ _)
  · exact hsilent h
  · exact h.acknowledgement (by decide) rfl
  · exact hsilent (h.send h3 _ _ _)
  · exact hsilent (h.send h3 _ _ _)
  · exact h.acknowledgement (by decide) rfl
  · exact hsilent (h.congr rfl (List.Subset.refl _) rfl rfl h.within h.bufferLength)
  · exact hsilent h

theorem mqttProcessReceive {read : ReadAnswer} {draw : Draw} {wrote : Option ℤ}
    (h : Accounts config built requested acknowledged s) (h3 : 3 ≤ config.bufferLength) :
    Accounts config built requested
      (acknowledged ++ (mqttProcessReceive config s read draw wrote).2.1.filterMap
        MqttEvent.acknowledged) (mqttProcessReceive config s read draw wrote).1 := by
  cases read with
  | failed => simpa [Session.mqttProcessReceive] using h
  | nothing => simpa [Session.mqttProcessReceive] using h
  | packet inBuffer => exact h.processPacket h3

theorem connectedTurn {i : TurnInput} (h : Accounts config built requested acknowledged s)
    (h3 : 3 ≤ config.bufferLength) :
    Accounts config built requested
      (acknowledged ++ (connectedTurn config s i).2.filterMap MqttEvent.acknowledged)
      (connectedTurn config s i).1 := by
  have hreceived : Accounts config built requested _
    (Session.mqttProcessReceive config s i.read i.draw i.answered).1 := h.mqttProcessReceive h3
  have hdropped (events : List MqttEvent) :
      (events ++ [MqttEvent.DISCONNECTED]).filterMap MqttEvent.acknowledged
        = events.filterMap MqttEvent.acknowledged := by
    rw [List.filterMap_append]
    exact List.append_nil _
  rw [Session.connectedTurn]
  simp only
  split_ifs
  · rw [hdropped]
    exact hreceived.espMqttAbortConnection _
  · rw [hdropped]
    exact hreceived.espMqttAbortConnection _
  · have hpinged := hreceived.send h3 .pingreq i.draw i.pinged
    have hwaiting : Accounts config built requested _
        { (Session.espMqttClientPing (Session.mqttProcessReceive config s i.read i.draw
          i.answered).1 i.draw i.pinged).1 with waitForPingResp := true } :=
      hpinged.congr rfl (List.Subset.refl _) rfl rfl hpinged.within hpinged.bufferLength
    exact hwaiting.cleanOutbox _
  · rw [hdropped]
    exact (hreceived.send h3 .pingreq i.draw i.pinged).espMqttAbortConnection _
  · exact hreceived.cleanOutbox _

/-- The client with a connect packet in its buffer. -/
def connecting (config : ClientConfig) (s : Session) : Session :=
  let connection := (Connection.mqttMsgInit s.connection.buffer config.bufferLength).mqttMsgConnect
    config.connectInfo
  { s with
    waitForPingResp := false
    connection := connection
    pendingMsgType := mqttGetType (memoryAt connection.buffer connection.data)
    pendingMsgId := UInt16.ofNat (mqttGetId (memoryAt connection.buffer connection.data)
      connection.length) }

theorem espMqttConnect_fst (i : ConnectInput) :
    (espMqttConnect config s i).1 = connecting config s := by
  rw [espMqttConnect]
  dsimp only
  split_ifs
  · rfl
  · cases i.answer <;> rfl

theorem connecting_accounts {draw : Draw} (h : Accounts config built requested acknowledged s)
    (hbuilt : built → Built config (.connect config.connectInfo) draw) :
    Accounts config built requested acknowledged (connecting config s) := by
  have hwithin : (Connection.mqttMsgInit s.connection.buffer config.bufferLength).Within := by
    have hhigh := h.within
    rwa [Connection.Within, h.bufferLength] at hhigh
  have hleaves : Connection.Leaves (Connection.mqttMsgInit s.connection.buffer config.bufferLength)
      ((Connection.mqttMsgInit s.connection.buffer config.bufferLength).mqttMsgConnect
        config.connectInfo) ((Request.connect config.connectInfo).packet draw) :=
    Connection.leaves_connect hwithin
  refine { h with
    last := fun hb hawaited ↦ ?_
    within := hleaves.within
    bufferLength := hleaves.bufferLength }
  -- the acknowledgement of this packet is not looked for
  have hconnect : MessageType.CONNECT.code ∉ awaited := by decide
  obtain ⟨p, hp, hfits⟩ := hbuilt hb
  have hkind := outboundType_of_leaves hleaves hp hfits
  rw [← Option.some.inj (Option.ite_none_left_eq_some.mp hp).2] at hkind
  exact absurd (hkind ▸ hawaited) hconnect

theorem initTurn {i : ConnectInput} (h : Accounts config built requested acknowledged s)
    (hbuilt : built → Built config (.connect config.connectInfo) i.draw) :
    Accounts config built requested
      (acknowledged ++ (initTurn config s i).2.filterMap MqttEvent.acknowledged)
      (initTurn config s i).1 := by
  have hconnected := h.connecting_accounts hbuilt
  have hnone {event : MqttEvent} (hevent : event.acknowledged = none) :
      acknowledged ++ [event].filterMap MqttEvent.acknowledged = acknowledged := by
    rw [List.filterMap_cons_none hevent, List.filterMap_nil, List.append_nil]
  rw [Session.initTurn]
  simp only [espMqttConnect_fst]
  split_ifs
  · rw [hnone rfl]
    exact h.espMqttAbortConnection _
  · rw [hnone rfl]
    exact hconnected.congr rfl (List.Subset.refl _) rfl rfl hconnected.within
      hconnected.bufferLength
  · rw [hnone rfl]
    exact hconnected.espMqttAbortConnection _

theorem waitTurn {now : ℤ} (h : Accounts config built requested acknowledged s) :
    Accounts config built requested acknowledged (waitTurn config s now) := by
  rw [Session.waitTurn]
  split_ifs
  · exact h.congr rfl (List.Subset.refl _) rfl rfl h.within h.bufferLength
  · exact h.congr rfl (List.Subset.refl _) rfl rfl h.within h.bufferLength
  · exact h

/-- **What a step does to the accounts.** -/
theorem step {op : Op} {s' : Session} {events : List MqttEvent}
    (h : Accounts config built requested acknowledged s) (h3 : 3 ≤ config.bufferLength)
    (hbuilds : built → op.Builds config) (hstep : step config s op = some (s', events)) :
    Accounts config built (requested ++ op.requested s)
      (acknowledged ++ events.filterMap MqttEvent.acknowledged) s' := by
  cases op with
  | subscribe topic qos draw now granted wrote =>
    obtain ⟨rfl, rfl⟩ := Prod.mk.inj (Option.some.inj hstep)
    rw [List.filterMap_nil, List.append_nil]
    refine h.sendPending h3 hbuilds (fun p hp ↦ ?_) fun hb c messageId hlength ↦ ?_
    · rw [← Option.some.inj (Option.ite_none_left_eq_some.mp hp).2]
    · obtain ⟨p, hp, hfits⟩ := hbuilds hb
      obtain ⟨htopic, hp⟩ := Option.ite_none_left_eq_some.mp hp
      obtain rfl := Option.some.inj hp
      refine Connection.mqttMsgSubscribe_snd htopic ?_
      simp only [List.length_append, length_prefixed, List.length_singleton] at hfits
      omega
  | unsubscribe topic draw now granted wrote =>
    obtain ⟨rfl, rfl⟩ := Prod.mk.inj (Option.some.inj hstep)
    rw [List.filterMap_nil, List.append_nil]
    refine h.sendPending h3 hbuilds (fun p hp ↦ ?_) fun hb c messageId hlength ↦ ?_
    · rw [← Option.some.inj (Option.ite_none_left_eq_some.mp hp).2]
    · obtain ⟨p, hp, hfits⟩ := hbuilds hb
      obtain ⟨htopic, hp⟩ := Option.ite_none_left_eq_some.mp hp
      obtain rfl := Option.some.inj hp
      refine Connection.mqttMsgUnsubscribe_snd htopic ?_
      simp only [List.length_append, length_prefixed] at hfits
      omega
  | publish topic data qos retain draw now granted wrote =>
    obtain ⟨rfl, rfl⟩ := Prod.mk.inj (Option.some.inj hstep)
    rw [List.filterMap_nil, List.append_nil]
    exact h.espMqttClientPublish h3 hbuilds
  | connect i =>
    obtain ⟨-, hstep⟩ := Option.ite_none_right_eq_some.mp hstep
    obtain ⟨rfl, rfl⟩ := Prod.mk.inj (Option.some.inj hstep)
    have hnone : Op.requested s (.connect i) = [] := rfl
    rw [hnone, List.append_nil]
    exact h.initTurn hbuilds
  | turn i =>
    obtain ⟨-, hstep⟩ := Option.ite_none_right_eq_some.mp hstep
    obtain ⟨rfl, rfl⟩ := Prod.mk.inj (Option.some.inj hstep)
    have hnone : Op.requested s (.turn i) = [] := rfl
    rw [hnone, List.append_nil]
    exact h.connectedTurn h3
  | wait now =>
    obtain ⟨-, hstep⟩ := Option.ite_none_right_eq_some.mp hstep
    obtain ⟨rfl, rfl⟩ := Prod.mk.inj (Option.some.inj hstep)
    have hnone : Op.requested s (.wait now) = [] := rfl
    rw [hnone, List.append_nil, List.filterMap_nil, List.append_nil]
    exact h.waitTurn

end Accounts

/-- A client, with all that has been requested of it and acknowledged to its user. -/
structure Book where
  session : Session
  requested : List Ticket
  acknowledged : List Ticket

namespace Book

/-- A client that has been started. -/
def init (config : ClientConfig) (outBuffer : Buffer) (now : ℤ) : Book where
  session :=
    { connection := Connection.mqttMsgInit outBuffer config.bufferLength
      pendingMsgId := 0
      pendingMsgType := 0
      pendingMsgCount := 0
      outbox := []
      state := .INIT
      run := true
      waitForPingResp := false
      keepaliveTick := now
      reconnectTick := now }
  requested := []
  acknowledged := []

def step (config : ClientConfig) (b : Book) (op : Op) : Option Book :=
  (b.session.step config op).map fun r ↦
    ⟨r.1, b.requested ++ op.requested b.session,
      b.acknowledged ++ r.2.filterMap MqttEvent.acknowledged⟩

end Book

theorem accounts_init {config : ClientConfig} {outBuffer : Buffer} {now : ℤ} {built : Prop}
    (hbuffer : outBuffer.high ≤ config.bufferLength) :
    Accounts config built [] [] (Book.init config outBuffer now).session where
  count := rfl
  nonneg := le_refl _
  outbox := nofun
  last _ h := absurd h (show 0 ∉ awaited by decide)
  acknowledged := nofun
  within := hbuffer
  bufferLength := rfl

/-- **What is counted and what is acknowledged**, in every run: as many requests are pending as have
not been acknowledged; and if all packets have been built, nothing is acknowledged that has not been
requested with this kind and identifier. -/
theorem accounts {config : ClientConfig} {outBuffer : Buffer} {now : ℤ} {ops : List Op} {b : Book}
    (hbuffer : outBuffer.high ≤ config.bufferLength) (h3 : 3 ≤ config.bufferLength)
    (hrun : AnyRun (Book.step config) (Book.init config outBuffer now) ops b) :
    b.session.pendingMsgCount = b.requested.length - b.acknowledged.length ∧
      b.acknowledged.length ≤ b.requested.length ∧
      ((∀ op ∈ ops, op.Builds config) → ∀ ticket ∈ b.acknowledged, ticket ∈ b.requested) := by
  have hfinal : Accounts config (∀ op ∈ ops, op.Builds config) b.requested b.acknowledged
      b.session := by
    refine Run.invariant
      (I := fun b ↦ Accounts config (∀ op ∈ ops, op.Builds config) b.requested b.acknowledged
        b.session) (fun b op b' h hmem hstep ↦ ?_)
      (hrun.and_of_labels (P := (· ∈ ops)) fun _ ↦ id) (accounts_init hbuffer)
    obtain ⟨⟨s, events⟩, hs, rfl⟩ := Option.map_eq_some_iff.mp hstep
    exact h.step h3 (fun hall ↦ hall op hmem.2) hs
  refine ⟨hfinal.count, ?_, hfinal.acknowledged⟩
  have hcount := hfinal.count
  have hnonneg := hfinal.nonneg
  omega

/-- Two packets are published after a subscription, and the first of them is acknowledged. -/
theorem accounts_puback :
    let config : ClientConfig :=
      ⟨⟨some (cstr "id"), none, none, none, [], 2, 0, false, true⟩, true, 64⟩
    let ops : List Op :=
      [.connect ⟨true, true, some ⟨fun k ↦ if k = 0 then 0x20 else 0, 0⟩, ⟨1, by decide⟩, 5⟩,
        .subscribe (some (cstr "t")) 0 ⟨7, by decide⟩ 6 true (some 6),
        .publish (some (cstr "t")) [1, 2] 1 0 ⟨9, by decide⟩ 7 true (some 7),
        .publish (some (cstr "t")) [3] 1 0 ⟨11, by decide⟩ 8 true (some 8),
        .turn ⟨.packet ⟨fun k ↦ [0x40, 2, 0, 9].getD k 0, 0⟩, ⟨1, by decide⟩, none, 9, none, 10⟩]
    ∃ b, AnyRun (Book.step config) (Book.init config ⟨fun _ ↦ 0, 0⟩ 0) ops b ∧
      b.session.pendingMsgCount = b.requested.length - b.acknowledged.length ∧
      b.session.pendingMsgCount = 2 ∧ b.session.outbox.map (·.msgId) = [11] ∧
      (MessageType.PUBLISH.code, 9) ∈ b.acknowledged ∧
      (MessageType.PUBLISH.code, 9) ∈ b.requested := by
  intro config ops
  obtain ⟨b, hrun, hcount, hbox, hacknowledged⟩ : ∃ b, AnyRun (Book.step config)
      (Book.init config ⟨fun _ ↦ 0, 0⟩ 0) ops b ∧ b.session.pendingMsgCount = 2 ∧
      b.session.outbox.map (·.msgId) = [11] ∧
      (MessageType.PUBLISH.code, 9) ∈ b.acknowledged :=
    ⟨_, .cons trivial rfl (.cons trivial rfl (.cons trivial rfl (.cons trivial rfl
      (.cons trivial rfl (.nil _))))), by decide, by decide +kernel, by decide⟩
  obtain ⟨hpending, -, hrequested⟩ := accounts (by decide) (by decide) hrun
  refine ⟨b, hrun, hpending, hcount, hbox, hacknowledged, hrequested ?_ _ hacknowledged⟩
  simp only [ops, List.forall_mem_cons, List.not_mem_nil, false_implies, implies_true, and_true]
  exact ⟨⟨_, rfl, by decide⟩, ⟨_, rfl, by decide⟩, ⟨_, rfl, by decide⟩, ⟨_, rfl, by decide⟩,
    trivial⟩

/-! ## How large the outbox becomes -/

/-- The outbox has only items that were there before, or that are not pending. -/
def Grows (s s' : Session) : Prop := ∀ item ∈ s'.outbox, item ∈ s.outbox ∨ item.pending = false

section Outbox

variable {config : ClientConfig} {s s' s'' : Session}

theorem Grows.trans (h : Grows s s') (h' : Grows s' s'') : Grows s s'' := fun item hitem ↦
  (h' item hitem).elim (h item) .inr

theorem grows_of_subset (h : s'.outbox ⊆ s.outbox) : Grows s s' := fun _ hitem ↦ .inl (h hitem)

theorem grows_mqttWriteData (wrote : Option ℤ) : Grows s (s.mqttWriteData wrote).1 := by
  rw [mqttWriteData_fst]
  exact grows_of_subset (List.Subset.refl _)

theorem grows_send (request : Request) (draw : Draw) (wrote : Option ℤ) :
    Grows s (s.send request draw wrote).1 :=
  (grows_of_subset (List.Subset.refl _)).trans (grows_mqttWriteData wrote)

theorem grows_mqttEnqueue (now : ℤ) (granted : Bool) : Grows s (s.mqttEnqueue now granted) := by
  rcases s.mqttEnqueue_cases now granted with heq | heq
  · rw [heq]
    exact grows_of_subset (List.Subset.refl _)
  · rw [heq]
    intro item hitem
    rcases List.mem_append.mp hitem with hold | hnew
    · exact .inl hold
    · rw [List.mem_singleton.mp hnew]
      exact .inr rfl

theorem grows_sendPending (request : Request) (draw : Draw) (now : ℤ) (granted : Bool)
    (wrote : Option ℤ) : Grows s (s.sendPending request draw now granted wrote).1 := by
  rw [sendPending]
  split_ifs
  · exact grows_of_subset (List.Subset.refl _)
  · rw [apply_ite Prod.fst, ite_self]
    exact ((grows_mqttEnqueue now granted).trans (grows_of_subset (List.Subset.refl _))).trans
      (grows_mqttWriteData wrote)

theorem grows_publish (topic : Option CStr) (data : List UInt8) (qos retain : ℤ) (draw : Draw)
    (now : ℤ) (granted : Bool) (wrote : Option ℤ) :
    Grows s (s.espMqttClientPublish topic data qos retain draw now granted wrote).1 := by
  rw [espMqttClientPublish]
  split_ifs
  · exact grows_of_subset (List.Subset.refl _)
  · rw [apply_ite Prod.fst, ite_self]
    refine Grows.trans (Grows.trans ?_ (grows_mqttEnqueue now granted)) (grows_mqttWriteData wrote)
    exact grows_of_subset (List.Subset.refl _)
  · rw [apply_ite Prod.fst, ite_self]
    exact (grows_of_subset (List.Subset.refl _)).trans (grows_mqttWriteData wrote)

theorem grows_acknowledgement (msgType : MessageType) (msgId : ℕ) (event : ℕ → MqttEvent) :
    Grows s (s.acknowledgement msgType msgId event).1 := by
  rw [acknowledgement]
  obtain hno | ⟨-, hbox, -⟩ | ⟨-, hlast, -⟩ := s.isValidMqttMsg_cases msgType.code msgId
  · rw [hno]
    exact grows_of_subset (List.Subset.refl _)
  · rw [hbox]
    exact grows_of_subset List.eraseP_subset
  · rw [hlast]
    exact grows_of_subset (List.Subset.refl _)

theorem grows_mqttProcessReceive (read : ReadAnswer) (draw : Draw) (wrote : Option ℤ) :
    Grows s (mqttProcessReceive config s read draw wrote).1 := by
  cases read with
  | failed => exact grows_of_subset (List.Subset.refl _)
  | nothing => exact grows_of_subset (List.Subset.refl _)
  | packet inBuffer =>
    change Grows s (s.processPacket inBuffer config.bufferLength draw wrote).1
    rw [processPacket]
    split_ifs <;> first
      | exact grows_acknowledgement _ _ _
      | exact grows_send _ _ _
      | exact grows_of_subset (List.Subset.refl _)

theorem grows_cleanOutbox (now : ℤ) : Grows s (s.cleanOutbox now) := by
  refine grows_of_subset (List.Subset.trans (makesRoom_outboxCleanup _ _).sublist.subset ?_)
  rw [outboxDeleteExpired, outboxDeleteAll_eq]
  exact List.filter_subset_self _

/-- **What a turn with a connection comes to**: either the connection is given up, or the outbox has
been cleaned up at its end. -/
theorem connectedTurn_cases (s : Session) (i : TurnInput) : ∃ t, Grows s t ∧
    ((connectedTurn config s i).1 = t.espMqttAbortConnection i.ended ∨
      (connectedTurn config s i).1 = t.cleanOutbox i.ended) := by
  have hreceived : Grows s (mqttProcessReceive config s i.read i.draw i.answered).1 :=
    grows_mqttProcessReceive _ _ _
  rw [connectedTurn]
  dsimp only
  split_ifs
  · exact ⟨_, hreceived, .inl rfl⟩
  · exact ⟨_, hreceived, .inl rfl⟩
  · have hpinged := hreceived.trans (grows_send .pingreq i.draw i.pinged)
    exact ⟨{ (Session.send _ _ _ _).1 with waitForPingResp := true }, hpinged, .inr rfl⟩
  · exact ⟨_, hreceived.trans (grows_send .pingreq i.draw i.pinged), .inl rfl⟩
  · exact ⟨_, hreceived, .inr rfl⟩

theorem grows_step {op : Op} {events : List MqttEvent} (h : step config s op = some (s', events)) :
    Grows s s' := by
  cases op with
  | subscribe topic qos draw now granted wrote =>
    obtain ⟨rfl, -⟩ := Prod.mk.inj (Option.some.inj h)
    exact grows_sendPending _ _ _ _ _
  | unsubscribe topic draw now granted wrote =>
    obtain ⟨rfl, -⟩ := Prod.mk.inj (Option.some.inj h)
    exact grows_sendPending _ _ _ _ _
  | publish topic data qos retain draw now granted wrote =>
    obtain ⟨rfl, -⟩ := Prod.mk.inj (Option.some.inj h)
    exact grows_publish _ _ _ _ _ _ _ _
  | connect i =>
    obtain ⟨-, h⟩ := Option.ite_none_right_eq_some.mp h
    have hs' : s' = (initTurn config s i).1 := (congrArg Prod.fst (Option.some.inj h)).symm
    rw [hs', initTurn]
    simp only [Accounts.espMqttConnect_fst]
    split_ifs <;> exact grows_of_subset (List.Subset.refl _)
  | turn i =>
    obtain ⟨-, h⟩ := Option.ite_none_right_eq_some.mp h
    have hs' : s' = (connectedTurn config s i).1 := (congrArg Prod.fst (Option.some.inj h)).symm
    obtain ⟨t, ht, heq | heq⟩ : ∃ t, Grows s t ∧
      ((connectedTurn config s i).1 = t.espMqttAbortConnection i.ended ∨
        (connectedTurn config s i).1 = t.cleanOutbox i.ended) := connectedTurn_cases s i
    · rw [hs', heq]
      exact ht
    · rw [hs', heq]
      exact ht.trans (grows_cleanOutbox _)
  | wait now =>
    obtain ⟨-, h⟩ := Option.ite_none_right_eq_some.mp h
    have hs' : s' = waitTurn config s now := (congrArg Prod.fst (Option.some.inj h)).symm
    rw [hs', waitTurn]
    split_ifs <;> exact grows_of_subset (List.Subset.refl _)

/-- The difference of two ticks is that of the times, modulo `2 ^ 32`. -/
theorem tick_lt {now time : ℤ} :
    Int32.ofInt now - Int32.ofInt time > 30000 ↔ 30000 < (now - time).bmod (2 ^ 32) := by
  have hlimit : (30000 : Int32).toInt = 30000 := by decide
  rw [← Int32.ofInt_sub, gt_iff_lt, Int32.lt_iff_toInt_lt, Int32.toInt_ofInt, hlimit]
  rfl

theorem mem_outbox_cleanOutbox {now : ℤ} {item : OutboxItem}
    (h : item ∈ (s.cleanOutbox now).outbox) :
    item ∈ s.outbox ∧ ¬Int32.ofInt now - item.tick > 30000 := by
  have hmem := (makesRoom_outboxCleanup _ _).sublist.subset h
  rw [outboxDeleteExpired, outboxDeleteAll_eq, List.mem_filter] at hmem
  simpa using hmem

/-- **How large the outbox is after a turn that keeps the connection**, after any run: at most 4096
bytes, and with nothing in it that is older than 30 seconds, as far as a 32-bit count of
milliseconds can tell. -/
theorem bounded_after_turn {outBuffer : Buffer} {now : ℤ} {ops : List Op} {b b' : Book}
    {i : TurnInput} (hrun : AnyRun (Book.step config) (Book.init config outBuffer now) ops b)
    (hturn : b.step config (.turn i) = some b') (hkept : b'.session.state = .CONNECTED) :
    outboxGetSize b'.session.outbox ≤ 4096 ∧ ∀ item ∈ b'.session.outbox, ∀ time,
      item.tick = Int32.ofInt time → (i.ended - time).bmod (2 ^ 32) ≤ 30000 ∧
        (time ≤ i.ended → i.ended - time < 2 ^ 31 → i.ended - time ≤ 30000) := by
  have hfree : ∀ item ∈ b.session.outbox, item.pending = false := by
    refine Run.invariant (I := fun b ↦ ∀ item ∈ b.session.outbox, item.pending = false)
      (fun b op b' hb _ hstep item hitem ↦ ?_) hrun nofun
    obtain ⟨⟨s, events⟩, hs, rfl⟩ := Option.map_eq_some_iff.mp hstep
    exact (grows_step hs item hitem).elim (hb item) id
  obtain ⟨⟨s, events⟩, hs, rfl⟩ := Option.map_eq_some_iff.mp hturn
  obtain ⟨-, hs⟩ := Option.ite_none_right_eq_some.mp hs
  have hs' : s = (connectedTurn config b.session i).1 :=
    (congrArg Prod.fst (Option.some.inj hs)).symm
  obtain ⟨t, ht, heq | heq⟩ : ∃ t, Grows b.session t ∧
    ((connectedTurn config b.session i).1 = t.espMqttAbortConnection i.ended ∨
      (connectedTurn config b.session i).1 = t.cleanOutbox i.ended) :=
    connectedTurn_cases b.session i
  · rw [hs', heq] at hkept
    exact absurd hkept (by decide : ClientState.WAIT_TIMEOUT ≠ .CONNECTED)
  · have hclean : s.outbox = (t.cleanOutbox i.ended).outbox := by rw [hs', heq]
    have htfree : ∀ item ∈ t.outbox, item.pending = false := fun item hitem ↦
      (ht item hitem).elim (hfree item) id
    constructor
    · change outboxGetSize s.outbox ≤ 4096
      rw [hclean, outboxGetSize_eq]
      refine (makesRoom_outboxCleanup _ _).fits_of_all_free fun item hitem ↦ ?_
      rw [outboxDeleteExpired, outboxDeleteAll_eq] at hitem
      rw [htfree item (List.mem_of_mem_filter hitem)]
      rfl
    · intro item hitem time htick
      obtain ⟨-, hage⟩ := mem_outbox_cleanOutbox (hclean ▸ hitem : item ∈ (t.cleanOutbox _).outbox)
      rw [htick, tick_lt, not_lt] at hage
      refine ⟨hage, fun hle hlt ↦ ?_⟩
      rwa [Int.bmod_eq_of_le (by omega) (by omega)] at hage

/-- Of two packets that wait, one has waited for 35 seconds when a ping is sent and the clean-up
comes. -/
theorem bounded_after_turn_ping :
    let config : ClientConfig :=
      ⟨⟨some (cstr "id"), none, none, none, [], 20, 0, false, true⟩, true, 64⟩
    let ops : List Op :=
      [.connect ⟨true, true, some ⟨fun k ↦ if k = 0 then 0x20 else 0, 0⟩, ⟨1, by decide⟩, 5⟩,
        .publish (some (cstr "t")) [1, 2] 1 0 ⟨9, by decide⟩ 7 true (some 7),
        .publish (some (cstr "t")) [3] 1 0 ⟨11, by decide⟩ 20000 true (some 20000)]
    let i : TurnInput := ⟨.nothing, ⟨1, by decide⟩, none, 35000, some 35001, 35002⟩
    ∃ b b', AnyRun (Book.step config) (Book.init config ⟨fun _ ↦ 0, 0⟩ 0) ops b ∧
      b.step config (.turn i) = some b' ∧ b.session.outbox.map (·.msgId) = [9, 11] ∧
      b'.session.outbox.map (·.msgId) = [11] ∧ b'.session.waitForPingResp = true ∧
      outboxGetSize b'.session.outbox ≤ 4096 ∧ ∀ item ∈ b'.session.outbox, ∀ time,
        item.tick = Int32.ofInt time → (i.ended - time).bmod (2 ^ 32) ≤ 30000 := by
  intro config ops i
  obtain ⟨b, b', hrun, hturn, hbox, hbox', hping, hkept⟩ : ∃ b b',
      AnyRun (Book.step config) (Book.init config ⟨fun _ ↦ 0, 0⟩ 0) ops b ∧
      b.step config (.turn i) = some b' ∧ b.session.outbox.map (·.msgId) = [9, 11] ∧
      b'.session.outbox.map (·.msgId) = [11] ∧ b'.session.waitForPingResp = true ∧
      b'.session.state = .CONNECTED :=
    ⟨_, _, .cons trivial rfl (.cons trivial rfl (.cons trivial rfl (.nil _))), rfl, by decide,
      by decide +kernel, by decide, by decide⟩
  obtain ⟨hsize, hage⟩ := bounded_after_turn hrun hturn hkept
  exact ⟨b, b', hrun, hturn, hbox, hbox', hping, hsize, fun item hitem time htime ↦
    (hage item hitem time htime).1⟩

end Outbox

/-! ## A broker that has fallen silent -/

section Silence

variable {config : ClientConfig}

/-- A turn, with the clock at its end. -/
def timedStep (config : ClientConfig) (s : Session × ℤ) (i : TurnInput) : Option (Session × ℤ) :=
  (s.1.step config (.turn i)).map fun r ↦ (r.1, i.ended)

theorem timedStep_eq {s : Session} {t : ℤ} {i : TurnInput} (hrun : s.run = true)
    (hstate : s.state = .CONNECTED) :
    timedStep config (s, t) i = some ((connectedTurn config s i).1, i.ended) := by
  rw [timedStep, step, if_pos ⟨hrun, hstate⟩]
  rfl

/-- The transport brings nothing in the turn, and the turn takes `gap` at most. -/
structure Idle (gap : ℤ) (s : Session × ℤ) (i : TurnInput) : Prop where
  read : i.read = .nothing
  now : s.2 ≤ i.now
  pinged : ∀ time ∈ i.pinged, time ≤ s.2 + gap
  ended : i.ended ≤ s.2 + gap

/-- How long nothing is written before a ping is. -/
def pingAfter (config : ClientConfig) : ℤ := (config.connectInfo.keepalive * 1000 / 2 : ℕ)

/-- Where a client stands that hears nothing: it has written nothing since `tick`, or its ping, and
it is no later than `limit` allows. -/
structure Unheard (config : ClientConfig) (gap tick limit : ℤ) (s : Session × ℤ) : Prop where
  quiet : s.1.waitForPingResp = false → s.1.keepaliveTick = tick ∧ s.2 ≤ limit
  waiting : s.1.waitForPingResp = true →
    s.1.keepaliveTick ≤ limit + gap ∧ s.2 ≤ limit + gap + pingAfter config + gap

/-- A turn in which nothing is read. -/
theorem connectedTurn_nothing {s : Session} {i : TurnInput} (hread : i.read = .nothing) :
    (connectedTurn config s i).1 =
      if i.now - s.keepaliveTick > pingAfter config then
        if s.waitForPingResp = true ∨ i.pinged = none then
          if s.waitForPingResp = true then s.espMqttAbortConnection i.ended
          else (s.espMqttClientPing i.draw i.pinged).1.espMqttAbortConnection i.ended
        else { (s.espMqttClientPing i.draw i.pinged).1 with
          waitForPingResp := true }.cleanOutbox i.ended
      else s.cleanOutbox i.ended := by
  have hpinged : (s.espMqttClientPing i.draw i.pinged).2 = i.pinged.isSome :=
    mqttWriteData_snd _ _
  rw [connectedTurn, hread]
  simp only [mqttProcessReceive, hpinged, pingAfter]
  cases i.pinged <;> cases s.waitForPingResp <;> simp <;> split_ifs <;> rfl

theorem unheard_step {gap tick limit : ℤ} (hgap : 0 ≤ gap)
    (hlimit : tick + pingAfter config + gap ≤ limit) {s s' : Session × ℤ} {i : TurnInput}
    (h : s.1.state = .CONNECTED → Unheard config gap tick limit s) (hidle : Idle gap s i)
    (hstep : timedStep config s i = some s') (hkept : s'.1.state = .CONNECTED) :
    Unheard config gap tick limit s' := by
  obtain ⟨r, hr, rfl⟩ := Option.map_eq_some_iff.mp hstep
  obtain ⟨⟨-, hstate⟩, hr⟩ := Option.ite_none_right_eq_some.mp hr
  have hturn : r.1 = (connectedTurn config s.1 i).1 :=
    (congrArg Prod.fst (Option.some.inj hr)).symm
  rw [connectedTurn_nothing hidle.read] at hturn
  obtain ⟨hquiet, hwaiting⟩ := h hstate
  have hlost {t : Session} (ht : r.1 = t.espMqttAbortConnection i.ended) : False := by
    change r.1.state = .CONNECTED at hkept
    rw [ht] at hkept
    exact absurd hkept (by decide : ClientState.WAIT_TIMEOUT ≠ .CONNECTED)
  have hended := hidle.ended
  have hnow := hidle.now
  split_ifs at hturn with hlate hgone hwait
  · exact (hlost hturn).elim
  · exact (hlost hturn).elim
  · obtain ⟨hwait, hpinged⟩ := not_or.mp hgone
    obtain ⟨time, htime⟩ := Option.ne_none_iff_exists'.mp hpinged
    have hquiet' := hquiet (Bool.eq_false_iff.mpr hwait)
    have hsoon := hidle.pinged time htime
    refine ⟨fun hfalse ↦ ?_, fun _ ↦ ?_⟩
    · change r.1.waitForPingResp = false at hfalse
      rw [hturn] at hfalse
      exact absurd hfalse Bool.true_eq_false_eq_False
    · have htick : r.1.keepaliveTick = time := by
        rw [hturn, htime]
        rfl
      change r.1.keepaliveTick ≤ _ ∧ i.ended ≤ _
      rw [htick]
      have hpositive : 0 ≤ pingAfter config := Int.natCast_nonneg _
      omega
  · have htick : r.1.keepaliveTick = s.1.keepaliveTick := by
      rw [hturn]
      rfl
    have hwait : r.1.waitForPingResp = s.1.waitForPingResp := by
      rw [hturn]
      rfl
    -- The time to keep alive has not passed when the turn looks at it, so neither has it by much
    -- when the turn ends.
    refine ⟨fun hfalse ↦ ?_, fun htrue ↦ ?_⟩
    · obtain ⟨hsince, -⟩ := hquiet (hwait.symm.trans hfalse)
      change r.1.keepaliveTick = _ ∧ i.ended ≤ _
      exact ⟨htick.trans hsince, by omega⟩
    · obtain ⟨hsince, -⟩ := hwaiting (hwait.symm.trans htrue)
      change r.1.keepaliveTick ≤ _ ∧ i.ended ≤ _
      exact ⟨htick.le.trans hsince, by omega⟩

/-- **A broker that has fallen silent is noticed**: in every run of turns that bring nothing and
take `gap` at most, the connection is given up within two times half the time to keep alive, and
three turns. -/
theorem silent_disconnects {gap : ℤ} {s s' : Session} {t t' : ℤ} {turns : List TurnInput}
    (hgap : 0 ≤ gap) (htick : s.keepaliveTick ≤ t)
    (hrun : Run (timedStep config) (Idle gap) (s, t) turns (s', t'))
    (hkept : s'.state = .CONNECTED) : t' ≤ t + 2 * pingAfter config + 3 * gap := by
  have hpositive : 0 ≤ pingAfter config := Int.natCast_nonneg _
  have hfinal : s'.state = .CONNECTED →
      Unheard config gap s.keepaliveTick (t + pingAfter config + gap) (s', t') := by
    refine Run.invariant (I := fun s' ↦ s'.1.state = .CONNECTED →
      Unheard config gap s.keepaliveTick (t + pingAfter config + gap) s')
      (fun _ _ _ h hidle hstep ↦ unheard_step hgap (by omega) h hidle hstep) hrun fun _ ↦ ?_
    exact ⟨fun _ ↦ ⟨rfl, by change t ≤ _; omega⟩,
      fun _ ↦ ⟨by change s.keepaliveTick ≤ _; omega, by change t ≤ _; omega⟩⟩
  obtain ⟨hquiet, hwaiting⟩ := hfinal hkept
  cases hwait : s'.waitForPingResp with
  | false =>
    have hend : t' ≤ _ := (hquiet hwait).2
    omega
  | true =>
    have hend : t' ≤ _ := (hwaiting hwait).2
    omega

/-- A ping is sent in the second turn, and the third is the last that keeps the connection. -/
theorem silent_disconnects_ping :
    let config : ClientConfig :=
      ⟨⟨some (cstr "id"), none, none, none, [], 2, 0, false, true⟩, true, 64⟩
    let s : Session := { (Book.init config ⟨fun _ ↦ 0, 0⟩ 0).session with state := .CONNECTED }
    let i : TurnInput := ⟨.nothing, ⟨1, by decide⟩, none, 800, none, 900⟩
    let j : TurnInput := ⟨.nothing, ⟨1, by decide⟩, none, 1500, some 1600, 1700⟩
    let k : TurnInput := ⟨.nothing, ⟨1, by decide⟩, none, 2300, none, 2600⟩
    ∃ s', Run (timedStep config) (Idle 900) (s, 0) [i, j, k] (s', 2600) ∧
      s'.waitForPingResp = true ∧ (2600 : ℤ) ≤ 0 + 2 * pingAfter config + 3 * 900 := by
  intro config s i j k
  let s₁ := (connectedTurn config s i).1
  let s₂ := (connectedTurn config s₁ j).1
  have hrun : Run (timedStep config) (Idle 900) (s, 0) [i, j, k]
      ((connectedTurn config s₂ k).1, 2600) := by
    refine .cons ?_ (timedStep_eq rfl rfl) (.cons ?_ (timedStep_eq (s := s₁) ?_ ?_)
      (.cons ?_ (timedStep_eq (s := s₂) ?_ ?_) (.nil _)))
    · exact ⟨rfl, by decide +kernel, nofun, by decide +kernel⟩
    · exact ⟨rfl, by decide +kernel, by decide +kernel, by decide +kernel⟩
    · decide +kernel
    · decide +kernel
    · exact ⟨rfl, by decide +kernel, nofun, by decide +kernel⟩
    · decide +kernel
    · decide +kernel
  exact ⟨_, hrun, by decide +kernel,
    silent_disconnects (by decide) (by decide) hrun (by decide +kernel)⟩

end Silence

/-! ## What is seen of a session -/

section Refinement

variable {config : ClientConfig} {s s' : Session}

/-- The client that the session is one of. -/
def client (config : ClientConfig) (s : Session) : Client where
  state := s.state
  autoReconnect := config.autoReconnect
  run := s.run

/-- What the user has been told last of the connection is that there is one. -/
def Told (connected : Bool) : MqttEvent → Bool
  | .CONNECTED => true
  | .DISCONNECTED => false
  | _ => connected

@[simp] theorem client_mqttWriteData (s : Session) (wrote : Option ℤ) :
    (s.mqttWriteData wrote).1.client config = s.client config := by
  rw [mqttWriteData_fst]
  rfl

@[simp] theorem client_mqttEnqueue (s : Session) (now : ℤ) (granted : Bool) :
    (s.mqttEnqueue now granted).client config = s.client config := by
  rcases s.mqttEnqueue_cases now granted with heq | heq
  · rw [heq]
  · rw [heq]
    rfl

@[simp] theorem client_send (s : Session) (request : Request) (draw : Draw) (wrote : Option ℤ) :
    (s.send request draw wrote).1.client config = s.client config :=
  client_mqttWriteData _ wrote

theorem client_sendPending (s : Session) (request : Request) (draw : Draw) (now : ℤ)
    (granted : Bool) (wrote : Option ℤ) :
    (s.sendPending request draw now granted wrote).1.client config = s.client config := by
  rw [sendPending]
  split_ifs
  · rfl
  · rw [apply_ite Prod.fst, ite_self]
    exact (client_mqttWriteData _ wrote).trans (client_mqttEnqueue s now granted)

theorem client_publish (s : Session) (topic : Option CStr) (data : List UInt8) (qos retain : ℤ)
    (draw : Draw) (now : ℤ) (granted : Bool) (wrote : Option ℤ) :
    (s.espMqttClientPublish topic data qos retain draw now granted wrote).1.client config
      = s.client config := by
  rw [espMqttClientPublish]
  split_ifs
  · rfl
  · rw [apply_ite Prod.fst, ite_self]
    exact (client_mqttWriteData _ wrote).trans (client_mqttEnqueue _ now granted)
  · rw [apply_ite Prod.fst, ite_self]
    exact client_mqttWriteData _ wrote

/-- An acknowledgement says nothing of the connection. -/
theorem acknowledgement_told (s : Session) (msgType : MessageType) (msgId : ℕ)
    {event : ℕ → MqttEvent} (hevent : ∀ connected, Told connected (event msgId) = connected)
    (connected : Bool) :
    (s.acknowledgement msgType msgId event).1.client config = s.client config ∧
      (s.acknowledgement msgType msgId event).2.foldl Told connected = connected := by
  rw [acknowledgement]
  obtain hno | ⟨-, hbox, -⟩ | ⟨-, hlast, -⟩ := s.isValidMqttMsg_cases msgType.code msgId
  · rw [hno]
    exact ⟨rfl, rfl⟩
  · rw [hbox]
    exact ⟨rfl, hevent connected⟩
  · rw [hlast]
    exact ⟨rfl, hevent connected⟩

theorem mqttProcessReceive_told (config : ClientConfig) (s : Session) (read : ReadAnswer)
    (draw : Draw) (wrote : Option ℤ) (connected : Bool) :
    (mqttProcessReceive config s read draw wrote).1.client config = s.client config ∧
      (mqttProcessReceive config s read draw wrote).2.1.foldl Told connected = connected := by
  cases read with
  | failed | nothing => exact ⟨rfl, rfl⟩
  | packet inBuffer =>
    change (s.processPacket inBuffer config.bufferLength draw wrote).1.client config = _ ∧
      (s.processPacket inBuffer config.bufferLength draw wrote).2.foldl Told connected = _
    rw [processPacket]
    split_ifs <;> first
      | exact acknowledgement_told s _ _ (fun _ ↦ rfl) connected
      | exact ⟨client_send s _ draw wrote, rfl⟩
      | exact ⟨rfl, rfl⟩

/-- A turn with a connection is one of the client's, and tells the user if the connection is
given up. -/
theorem connectedTurn_told (config : ClientConfig) (hstate : s.state = .CONNECTED)
    (i : TurnInput) :
    ∃ ok, (connectedTurn config s i).1.client config = espMqttTask (s.client config) ok ∧
      (connectedTurn config s i).2.foldl Told true = ok := by
  obtain ⟨hclient, htold⟩ := mqttProcessReceive_told config s i.read i.draw i.answered true
  have hturn : ∀ ok, espMqttTask (s.client config) ok =
      { s.client config with state := if ok then .CONNECTED else .WAIT_TIMEOUT } := by
    intro ok
    rw [espMqttTask, show (s.client config).state = .CONNECTED from hstate]
  simp only [hturn]
  have hrun := congrArg Client.run hclient
  have hkept := (congrArg Client.state hclient).trans hstate
  have hgone : ∀ t : Session, t.client config = s.client config →
      (t.espMqttAbortConnection i.ended).client config =
        { s.client config with state := .WAIT_TIMEOUT } := by
    intro t ht
    rw [← ht]
    rfl
  rw [connectedTurn]
  dsimp only
  split_ifs
  · exact ⟨false, hgone _ hclient, by rw [List.foldl_append]; rfl⟩
  · exact ⟨false, hgone _ hclient, by rw [List.foldl_append]; rfl⟩
  · refine ⟨true, ?_, htold⟩
    change ((Session.send _ .pingreq i.draw i.pinged).1).client config = _
    rw [client_send, hclient, if_pos rfl, ← hstate]
    rfl
  · exact ⟨false, hgone _ ((client_send _ _ _ _).trans hclient), by rw [List.foldl_append]; rfl⟩
  · refine ⟨true, ?_, htold⟩
    change (mqttProcessReceive config s i.read i.draw i.answered).1.client config = _
    rw [hclient, if_pos rfl, ← hstate]
    rfl

/-- So does a turn without one, which tells the user either way. -/
theorem initTurn_told (config : ClientConfig) (hstate : s.state = .INIT) (i : ConnectInput) : ∃ ok,
    (initTurn config s i).1.client config = espMqttTask (s.client config) ok ∧
      (initTurn config s i).2.foldl Told false = ok := by
  have hturn : ∀ ok, espMqttTask (s.client config) ok =
      { s.client config with state := if ok then .CONNECTED else .WAIT_TIMEOUT } := by
    intro ok
    rw [espMqttTask, show (s.client config).state = .INIT from hstate]
  simp only [hturn]
  rw [initTurn]
  simp only [Accounts.espMqttConnect_fst]
  split_ifs
  · exact ⟨false, rfl, rfl⟩
  · exact ⟨true, rfl, rfl⟩
  · exact ⟨false, rfl, rfl⟩

theorem waitTurn_told (config : ClientConfig) (hstate : s.state = .WAIT_TIMEOUT) (now : ℤ) : ∃ ok,
    (waitTurn config s now).client config = espMqttTask (s.client config) ok ∧
      (waitTurn config s now).state ≠ .CONNECTED := by
  rw [waitTurn]
  simp only [espMqttTask, show (s.client config).state = .WAIT_TIMEOUT from hstate,
    show (s.client config).autoReconnect = config.autoReconnect from rfl]
  split_ifs
  · exact ⟨true, by rw [client, hstate], by simp [hstate]⟩
  · exact ⟨true, rfl, by simp⟩
  · refine ⟨false, ?_, by simp [hstate]⟩
    rw [client, hstate]
    rfl

/-- Whether it is the task that takes the step. -/
def Op.OfTask : Op → Bool
  | .subscribe .. | .unsubscribe .. | .publish .. => false
  | .connect _ | .turn _ | .wait _ => true

/-- A step that is none of the task's is none of the client's; one that is, is one. -/
theorem step_told {op : Op} {events : List MqttEvent} (h : step config s op = some (s', events)) :
    (∃ oks : List Bool, oks.length = [op].countP Op.OfTask ∧
      s'.client config = oks.foldl espMqttTask (s.client config)) ∧
    events.foldl Told (decide (s.state = .CONNECTED)) = decide (s'.state = .CONNECTED) := by
  have huser : op.OfTask = false → s'.client config = s.client config → events = [] →
      (∃ oks : List Bool, oks.length = [op].countP Op.OfTask ∧
        s'.client config = oks.foldl espMqttTask (s.client config)) ∧
      events.foldl Told (decide (s.state = .CONNECTED)) = decide (s'.state = .CONNECTED) := by
    intro hnot hclient hevents
    refine ⟨⟨[], by simp [hnot], hclient⟩, ?_⟩
    rw [hevents, show s'.state = s.state from congrArg Client.state hclient]
    rfl
  cases op with
  | subscribe topic qos draw now granted wrote =>
    obtain ⟨rfl, hevents⟩ := Prod.mk.inj (Option.some.inj h)
    exact huser rfl (client_sendPending s _ draw now granted wrote) hevents.symm
  | unsubscribe topic draw now granted wrote =>
    obtain ⟨rfl, hevents⟩ := Prod.mk.inj (Option.some.inj h)
    exact huser rfl (client_sendPending s _ draw now granted wrote) hevents.symm
  | publish topic data qos retain draw now granted wrote =>
    obtain ⟨rfl, hevents⟩ := Prod.mk.inj (Option.some.inj h)
    exact huser rfl (client_publish s topic data qos retain draw now granted wrote) hevents.symm
  | connect i =>
    obtain ⟨⟨-, hstate⟩, h⟩ := Option.ite_none_right_eq_some.mp h
    obtain ⟨hs', hevents⟩ := Prod.ext_iff.mp (Option.some.inj h)
    dsimp only at hs' hevents
    obtain ⟨ok, hok, htold⟩ := initTurn_told config hstate i
    rw [hs'] at hok
    refine ⟨⟨[ok], rfl, hok⟩, ?_⟩
    rw [← hevents, decide_eq_false (by rw [hstate]; decide), htold]
    have hstate' : s'.state = _ := congrArg Client.state hok
    rw [espMqttTask, show (s.client config).state = .INIT from hstate] at hstate'
    cases ok <;> simp [hstate']
  | turn i =>
    obtain ⟨⟨-, hstate⟩, h⟩ := Option.ite_none_right_eq_some.mp h
    obtain ⟨hs', hevents⟩ := Prod.ext_iff.mp (Option.some.inj h)
    dsimp only at hs' hevents
    obtain ⟨ok, hok, htold⟩ := connectedTurn_told config hstate i
    rw [hs'] at hok
    refine ⟨⟨[ok], rfl, hok⟩, ?_⟩
    rw [← hevents, decide_eq_true hstate, htold]
    have hstate' : s'.state = _ := congrArg Client.state hok
    rw [espMqttTask, show (s.client config).state = .CONNECTED from hstate] at hstate'
    cases ok <;> simp [hstate']
  | wait now =>
    obtain ⟨⟨-, hstate⟩, h⟩ := Option.ite_none_right_eq_some.mp h
    obtain ⟨hs', hevents⟩ := Prod.ext_iff.mp (Option.some.inj h)
    dsimp only at hs' hevents
    obtain ⟨ok, hok, hnot⟩ := waitTurn_told config hstate now
    rw [hs'] at hok hnot
    refine ⟨⟨[ok], rfl, hok⟩, ?_⟩
    rw [← hevents, decide_eq_false (by rw [hstate]; decide), decide_eq_false hnot]
    rfl

/-- A step, with all that the user has been told. -/
def loggedStep (config : ClientConfig) (s : Session × List MqttEvent) (op : Op) :
    Option (Session × List MqttEvent) :=
  (s.1.step config op).map fun r ↦ (r.1, s.2 ++ r.2)

theorem loggedRun_told {r r' : Session × List MqttEvent} {ops : List Op}
    (hrun : AnyRun (loggedStep config) r ops r') :
    (∃ oks : List Bool, oks.length = ops.countP Op.OfTask ∧
      r'.1.client config = oks.foldl espMqttTask (r.1.client config)) ∧
    ∃ events, r'.2 = r.2 ++ events ∧
      events.foldl Told (decide (r.1.state = .CONNECTED)) = decide (r'.1.state = .CONNECTED) := by
  induction hrun with
  | nil r => exact ⟨⟨[], rfl, rfl⟩, [], (List.append_nil _).symm, rfl⟩
  | cons _ hstep _ ih =>
    obtain ⟨⟨t, events⟩, ht, rfl⟩ := Option.map_eq_some_iff.mp hstep
    obtain ⟨⟨oks, hlength, hclient⟩, htold⟩ := step_told ht
    obtain ⟨⟨oks', hlength', hclient'⟩, events', hlog', htold'⟩ := ih
    refine ⟨⟨oks ++ oks', ?_, ?_⟩, events ++ events', ?_, ?_⟩
    · rw [List.length_append, hlength, hlength', ← List.countP_append]
      rfl
    · rw [List.foldl_append, ← hclient]
      exact hclient'
    · rw [hlog', List.append_assoc]
    · rw [List.foldl_append, htold]
      exact htold'

/-- **A session is a client** in every run: the turns of its task are those of the client's, one by
one, and what the user has been told last of the connection is whether there is one. -/
theorem refines {log : List MqttEvent} {ops : List Op}
    (hrun : AnyRun (loggedStep config) (s, []) ops (s', log)) :
    (∃ oks : List Bool, oks.length = ops.countP Op.OfTask ∧
      s'.client config = oks.foldl espMqttTask (s.client config)) ∧
    log.foldl Told (decide (s.state = .CONNECTED)) = decide (s'.state = .CONNECTED) := by
  obtain ⟨hclient, events, hlog, htold⟩ := loggedRun_told hrun
  refine ⟨hclient, ?_⟩
  rw [show log = events from hlog]
  exact htold

theorem refines_connect :
    let config : ClientConfig :=
      ⟨⟨some (cstr "id"), none, none, none, [], 2, 0, false, true⟩, true, 64⟩
    let s : Session := (Book.init config ⟨fun _ ↦ 0, 0⟩ 0).session
    let i : ConnectInput :=
      ⟨true, true, some ⟨fun k ↦ if k = 0 then 0x20 else 0, 0⟩, ⟨1, by decide⟩, 5⟩
    ∃ r, AnyRun (loggedStep config) (s, []) [.connect i] r ∧
      r.2.foldl Told false = decide (r.1.state = .CONNECTED) := by
  intro config s i
  obtain ⟨r, hrun⟩ : ∃ r, AnyRun (loggedStep config) (s, []) [.connect i] r :=
    ⟨_, .cons trivial rfl (.nil _)⟩
  exact ⟨r, hrun, (refines hrun).2⟩

end Refinement

end Session

end Ddmz.Mqtt
