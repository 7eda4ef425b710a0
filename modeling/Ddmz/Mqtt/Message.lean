import Ddmz.Foundation.Buffer
import Ddmz.Foundation.Wire

/-!
# Control packets

`mqtt_msg.c` of the client library builds every packet in one buffer. Three bytes in front are
kept free for the fixed header, the fields of the packet are appended behind them, and the header
is put in last, in two or three bytes: how many follow it is written in one byte up to 127 and in
two from 128 on.

`Request.packet` is the packet that a call stands for, its header byte and what follows the
header. The buffer holds it if the call is not refused and there is room for it, and it is what
every reader of the format reads if fewer than 16384 bytes follow the header, the most that two
bytes can say: `Packet.written_eq_encode_iff`.
-/

namespace Ddmz.Mqtt

open Wire

/-! ## The code -/

/-- `enum mqtt_message_type`. -/
inductive MessageType
  | CONNECT | CONNACK | PUBLISH | PUBACK | PUBREC | PUBREL | PUBCOMP | SUBSCRIBE | SUBACK
  | UNSUBSCRIBE | UNSUBACK | PINGREQ | PINGRESP | DISCONNECT
  deriving DecidableEq

def MessageType.code : MessageType → ℕ
  | .CONNECT => 1
  | .CONNACK => 2
  | .PUBLISH => 3
  | .PUBACK => 4
  | .PUBREC => 5
  | .PUBREL => 6
  | .PUBCOMP => 7
  | .SUBSCRIBE => 8
  | .SUBACK => 9
  | .UNSUBSCRIBE => 10
  | .UNSUBACK => 11
  | .PINGREQ => 12
  | .PINGRESP => 13
  | .DISCONNECT => 14

/-- `enum mqtt_connect_flag`. -/
inductive ConnectFlag
  | USERNAME | PASSWORD | WILL_RETAIN | WILL | CLEAN_SESSION

def ConnectFlag.bits : ConnectFlag → UInt8
  | .USERNAME => 0x80
  | .PASSWORD => 0x40
  | .WILL_RETAIN => 0x20
  | .WILL => 0x04
  | .CLEAN_SESSION => 0x02

/-- The first number other than zero that `platform_random(65535)` gives. -/
abbrev Draw := {n : UInt16 // n ≠ 0 ∧ n ≠ 65535}

/-- A string that may be a null pointer, which is taken for an empty one. -/
def text (s : Option CStr) : List UInt8 := s.elim [] Subtype.val

/-- `mqtt_connection_t`. -/
structure Connection where
  buffer : Buffer
  bufferLength : ℕ
  /-- `message.length`. -/
  length : ℕ
  /-- `message.data`, from the start of the buffer. -/
  data : ℕ

/-- `mqtt_connect_info_t`. -/
structure ConnectInfo where
  clientId : Option CStr
  username : Option CStr
  password : Option CStr
  willTopic : Option CStr
  /-- `will_message`, with its length. -/
  willMessage : List UInt8
  keepalive : ℕ
  willQos : ℤ
  willRetain : Bool
  cleanSession : Bool

namespace Connection

/-- `mqtt_msg_init`. -/
def mqttMsgInit (buffer : Buffer) (bufferLength : ℕ) : Connection := ⟨buffer, bufferLength, 0, 0⟩

/-- Copy bytes behind what is there. -/
def put (c : Connection) (bytes : List UInt8) : Connection :=
  { c with buffer := c.buffer.write c.length bytes, length := c.length + bytes.length }

def appendString (c : Connection) (string : List UInt8) : Option Connection :=
  if c.length + string.length + 2 > c.bufferLength then none
  else some (((c.put [UInt8.ofNat (string.length >>> 8)]).put
    [UInt8.ofNat (string.length &&& 0xff)]).put string)

/-- `append_message_id`, with the identifier that is appended, or zero. -/
def appendMessageId (c : Connection) (messageId : UInt16) (draw : Draw) : Connection × UInt16 :=
  let messageId := if messageId = 0 then draw.val else messageId
  if c.length + 2 > c.bufferLength then (c, 0)
  else ((c.put [UInt8.ofNat (messageId.toNat >>> 8)]).put [UInt8.ofNat (messageId.toNat &&& 0xff)],
    messageId)

def initMessage (c : Connection) : Connection := { c with length := 3 }

def failMessage (c : Connection) : Connection := { c with data := 0, length := 0 }

/-- The byte that `fini_message` makes of the type and the flags. -/
def headerByte (type : MessageType) (dup qos retain : ℤ) : UInt8 :=
  UInt8.ofNat ((type.code &&& 0x0f) <<< 4 ||| (dup % 2).toNat <<< 3 ||| (qos % 4).toNat <<< 1
    ||| (retain % 2).toNat)

def finiMessage (c : Connection) (type : MessageType) (dup qos retain : ℤ) : Connection :=
  let remainingLength := c.length - 3
  let first := headerByte type dup qos retain
  if remainingLength > 127 then
    { c with
      buffer := ((c.buffer.write 0 [first]).write 1
        [UInt8.ofNat (0x80 ||| remainingLength % 128)]).write 2
        [UInt8.ofNat (remainingLength / 128)]
      length := remainingLength + 3
      data := 0 }
  else
    { c with
      buffer := (c.buffer.write 1 [first]).write 2 [UInt8.ofNat remainingLength]
      length := remainingLength + 2
      data := 1 }

/-- What `message` stands for. -/
def message (c : Connection) : List UInt8 := c.buffer.read c.data c.length

/-- `variable_header->flags |= bits`. -/
def orFlags (c : Connection) (bits : UInt8) : Connection :=
  { c with buffer := c.buffer.write 10 [c.buffer.cells 10 ||| bits] }

/-- `append_string`, and `fail_message` where it fails. -/
def appendOrFail (c : Connection) (string : List UInt8) : Except Connection Connection :=
  match c.appendString string with
  | none => .error c.failMessage
  | some c => .ok c

/-- The will of the connection. -/
def appendWill (c : Connection) (info : ConnectInfo) : Except Connection Connection :=
  if text info.willTopic ≠ [] then do
    let c ← c.appendOrFail (text info.willTopic)
    let c ← c.appendOrFail info.willMessage
    let c := c.orFlags ConnectFlag.WILL.bits
    let c := if info.willRetain then c.orFlags ConnectFlag.WILL_RETAIN.bits else c
    return c.orFlags (UInt8.ofNat ((info.willQos % 4).toNat <<< 3))
  else return c

/-- The user name or the password, with its flag. -/
def appendCredential (c : Connection) (s : Option CStr) (flag : ConnectFlag) :
    Except Connection Connection :=
  if text s ≠ [] then do
    let c ← c.appendOrFail (text s)
    return c.orFlags flag.bits
  else return c

/-- What `mqtt_msg_connect` appends to the variable header. -/
def appendFields (c : Connection) (info : ConnectInfo) : Except Connection Connection := do
  let c := if info.cleanSession then c.orFlags ConnectFlag.CLEAN_SESSION.bits else c
  let c ← if text info.clientId ≠ [] then c.appendOrFail (text info.clientId)
    else throw c.failMessage
  let c ← c.appendWill info
  let c ← c.appendCredential info.username .USERNAME
  c.appendCredential info.password .PASSWORD

def mqttMsgConnect (c : Connection) (info : ConnectInfo) : Connection :=
  let c := c.initMessage
  if c.length + 10 > c.bufferLength then c.failMessage
  else
    let c := c.put (([0, 4] : List UInt8) ++ ascii "MQTT" ++ [4, 0,
      UInt8.ofNat (info.keepalive >>> 8), UInt8.ofNat (info.keepalive &&& 0xff)])
    match c.appendFields info with
    | .error c => c
    | .ok c => c.finiMessage .CONNECT 0 0 0

/-- `mqtt_msg_publish`, with `*message_id`. -/
def mqttMsgPublish (c : Connection) (topic : Option CStr) (data : List UInt8) (qos retain : ℤ)
    (draw : Draw) (messageId : UInt16) : Connection × UInt16 :=
  let c := c.initMessage
  if text topic = [] then (c.failMessage, messageId)
  else
    match c.appendString (text topic) with
    | none => (c.failMessage, messageId)
    | some c =>
      let r := if qos > 0 then c.appendMessageId 0 draw else (c, 0)
      if qos > 0 ∧ r.2 = 0 then (r.1.failMessage, r.2)
      else if r.1.length + data.length > r.1.bufferLength then (r.1.failMessage, r.2)
      else ((r.1.put data).finiMessage .PUBLISH 0 qos retain, r.2)

/-- What `mqtt_msg_puback`, `mqtt_msg_pubrec`, `mqtt_msg_pubrel` and `mqtt_msg_pubcomp` do. -/
def acknowledge (c : Connection) (type : MessageType) (qos : ℤ) (messageId : UInt16)
    (draw : Draw) : Connection :=
  let r := c.initMessage.appendMessageId messageId draw
  if r.2 = 0 then r.1.failMessage else r.1.finiMessage type 0 qos 0

def mqttMsgPuback (c : Connection) (messageId : UInt16) (draw : Draw) : Connection :=
  c.acknowledge .PUBACK 0 messageId draw

def mqttMsgPubrec (c : Connection) (messageId : UInt16) (draw : Draw) : Connection :=
  c.acknowledge .PUBREC 0 messageId draw

def mqttMsgPubrel (c : Connection) (messageId : UInt16) (draw : Draw) : Connection :=
  c.acknowledge .PUBREL 1 messageId draw

def mqttMsgPubcomp (c : Connection) (messageId : UInt16) (draw : Draw) : Connection :=
  c.acknowledge .PUBCOMP 0 messageId draw

/-- `mqtt_msg_subscribe`, with `*message_id`. -/
def mqttMsgSubscribe (c : Connection) (topic : Option CStr) (qos : ℤ) (draw : Draw)
    (messageId : UInt16) : Connection × UInt16 :=
  let c := c.initMessage
  if text topic = [] then (c.failMessage, messageId)
  else
    let r := c.appendMessageId 0 draw
    if r.2 = 0 then (r.1.failMessage, r.2)
    else
      match r.1.appendString (text topic) with
      | none => (r.1.failMessage, r.2)
      | some c =>
        if c.length + 1 > c.bufferLength then (c.failMessage, r.2)
        else ((c.put [UInt8.ofInt qos]).finiMessage .SUBSCRIBE 0 1 0, r.2)

/-- `mqtt_msg_unsubscribe`, with `*message_id`. -/
def mqttMsgUnsubscribe (c : Connection) (topic : Option CStr) (draw : Draw)
    (messageId : UInt16) : Connection × UInt16 :=
  let c := c.initMessage
  if text topic = [] then (c.failMessage, messageId)
  else
    let r := c.appendMessageId 0 draw
    if r.2 = 0 then (r.1.failMessage, r.2)
    else
      match r.1.appendString (text topic) with
      | none => (r.1.failMessage, r.2)
      | some c => (c.finiMessage .UNSUBSCRIBE 0 1 0, r.2)

def mqttMsgPingreq (c : Connection) : Connection := c.initMessage.finiMessage .PINGREQ 0 0 0

def mqttMsgPingresp (c : Connection) : Connection := c.initMessage.finiMessage .PINGRESP 0 0 0

def mqttMsgDisconnect (c : Connection) : Connection := c.initMessage.finiMessage .DISCONNECT 0 0 0

/-! ## Calls and packets -/

end Connection

/-- A call of one of the functions. -/
inductive Request
  | connect (info : ConnectInfo)
  | publish (topic : Option CStr) (data : List UInt8) (qos retain : ℤ)
  | puback (messageId : UInt16)
  | pubrec (messageId : UInt16)
  | pubrel (messageId : UInt16)
  | pubcomp (messageId : UInt16)
  | subscribe (topic : Option CStr) (qos : ℤ)
  | unsubscribe (topic : Option CStr)
  | pingreq
  | pingresp
  | disconnect

/-- The call, with what `*message_id` is before it and after it. -/
def Connection.build (c : Connection) (draw : Draw) (messageId : UInt16) :
    Request → Connection × UInt16
  | .connect info => (c.mqttMsgConnect info, messageId)
  | .publish topic data qos retain => c.mqttMsgPublish topic data qos retain draw messageId
  | .puback id => (c.mqttMsgPuback id draw, messageId)
  | .pubrec id => (c.mqttMsgPubrec id draw, messageId)
  | .pubrel id => (c.mqttMsgPubrel id draw, messageId)
  | .pubcomp id => (c.mqttMsgPubcomp id draw, messageId)
  | .subscribe topic qos => c.mqttMsgSubscribe topic qos draw messageId
  | .unsubscribe topic => c.mqttMsgUnsubscribe topic draw messageId
  | .pingreq => (c.mqttMsgPingreq, messageId)
  | .pingresp => (c.mqttMsgPingresp, messageId)
  | .disconnect => (c.mqttMsgDisconnect, messageId)

/-- A control packet: the flags of its header and what follows the header. -/
structure Packet where
  type : MessageType
  dup : ℤ
  qos : ℤ
  retain : ℤ
  body : List UInt8

namespace Packet

def first (p : Packet) : UInt8 := Connection.headerByte p.type p.dup p.qos p.retain

/-- The packet as the format has it. -/
def encode (p : Packet) : List UInt8 := p.first :: (varint p.body.length ++ p.body)

/-- The packet as `fini_message` leaves it. -/
def written (p : Packet) : List UInt8 :=
  if p.body.length > 127 then
    p.first :: UInt8.ofNat (0x80 ||| p.body.length % 128) :: UInt8.ofNat (p.body.length / 128)
      :: p.body
  else p.first :: UInt8.ofNat p.body.length :: p.body

end Packet

namespace ConnectInfo

/-- The variable header, up to its flags and with the time to keep alive. -/
def head (keepalive : ℕ) (flags : UInt8) : List UInt8 :=
  ([0, 4] : List UInt8) ++ ascii "MQTT" ++ [4, flags, UInt8.ofNat (keepalive >>> 8),
    UInt8.ofNat (keepalive &&& 0xff)]

def willFlags (info : ConnectInfo) : UInt8 :=
  if text info.willTopic ≠ [] then
    ConnectFlag.WILL.bits ||| (if info.willRetain then ConnectFlag.WILL_RETAIN.bits else 0)
      ||| UInt8.ofNat ((info.willQos % 4).toNat <<< 3)
  else 0

def flags (info : ConnectInfo) : UInt8 :=
  (if info.cleanSession then ConnectFlag.CLEAN_SESSION.bits else 0) ||| info.willFlags
    ||| (if text info.username ≠ [] then ConnectFlag.USERNAME.bits else 0)
    ||| (if text info.password ≠ [] then ConnectFlag.PASSWORD.bits else 0)

/-- A string that is only there if it has any bytes. -/
def optional (s : List UInt8) : List UInt8 := if s ≠ [] then prefixed s else []

def willFields (info : ConnectInfo) : List UInt8 :=
  if text info.willTopic ≠ [] then prefixed (text info.willTopic) ++ prefixed info.willMessage
  else []

def fields (info : ConnectInfo) : List UInt8 :=
  prefixed (text info.clientId) ++ info.willFields ++ optional (text info.username)
    ++ optional (text info.password)

end ConnectInfo

/-- The identifier that is appended for one that may be zero. -/
def assigned (messageId : UInt16) (draw : Draw) : UInt16 :=
  if messageId = 0 then draw.val else messageId

def assignedBytes (messageId : UInt16) (draw : Draw) : List UInt8 :=
  be16 (assigned messageId draw).toNat

/-- The packet that a call stands for, or `none` where it refuses what it is given. -/
def Request.packet (draw : Draw) : Request → Option Packet
  | .connect info =>
    if text info.clientId = [] then none
    else some ⟨.CONNECT, 0, 0, 0, ConnectInfo.head info.keepalive info.flags ++ info.fields⟩
  | .publish topic data qos retain =>
    if text topic = [] then none
    else some ⟨.PUBLISH, 0, qos, retain,
      prefixed (text topic) ++ (if qos > 0 then assignedBytes 0 draw else []) ++ data⟩
  | .puback id => some ⟨.PUBACK, 0, 0, 0, assignedBytes id draw⟩
  | .pubrec id => some ⟨.PUBREC, 0, 0, 0, assignedBytes id draw⟩
  | .pubrel id => some ⟨.PUBREL, 0, 1, 0, assignedBytes id draw⟩
  | .pubcomp id => some ⟨.PUBCOMP, 0, 0, 0, assignedBytes id draw⟩
  | .subscribe topic qos =>
    if text topic = [] then none
    else some ⟨.SUBSCRIBE, 0, 1, 0,
      assignedBytes 0 draw ++ prefixed (text topic) ++ [UInt8.ofInt qos]⟩
  | .unsubscribe topic =>
    if text topic = [] then none
    else some ⟨.UNSUBSCRIBE, 0, 1, 0, assignedBytes 0 draw ++ prefixed (text topic)⟩
  | .pingreq => some ⟨.PINGREQ, 0, 0, 0, []⟩
  | .pingresp => some ⟨.PINGRESP, 0, 0, 0, []⟩
  | .disconnect => some ⟨.DISCONNECT, 0, 0, 0, []⟩

namespace Connection

/-- Nothing has been written behind the end of the buffer. -/
def Within (c : Connection) : Prop := c.buffer.high ≤ c.bufferLength

/-! ## What is appended -/

section Appending

variable {c : Connection} {s bytes : List UInt8}

@[simp] theorem put_put (a b : List UInt8) : (c.put a).put b = c.put (a ++ b) := by
  simp only [put, Buffer.write_append, List.length_append, Nat.add_assoc]

@[simp] theorem bufferLength_put : (c.put bytes).bufferLength = c.bufferLength := rfl

@[simp] theorem length_put : (c.put bytes).length = c.length + bytes.length := rfl

@[simp] theorem bufferLength_initMessage : c.initMessage.bufferLength = c.bufferLength := rfl

@[simp] theorem length_initMessage : c.initMessage.length = 3 := rfl

theorem Within.put (hc : c.Within) (h : c.length + bytes.length ≤ c.bufferLength) :
    (c.put bytes).Within := by
  rw [Within, Connection.put, Buffer.high_write]
  exact max_le hc h

/-- The two bytes of a length or an identifier. -/
theorem shift_and_eq_be16 (n : ℕ) :
    [UInt8.ofNat (n >>> 8), UInt8.ofNat (n &&& 0xff)] = be16 n := by
  have hlow : n &&& 0xff = n % 256 := Nat.and_two_pow_sub_one_eq_mod n 8
  rw [be16, hlow, Nat.shiftRight_eq_div_pow]
  congr 2
  apply UInt8.toNat_inj.mp
  rw [UInt8.toNat_ofNat', UInt8.toNat_ofNat', Nat.mod_mod]

theorem appendString_of_le (h : c.length + s.length + 2 ≤ c.bufferLength) :
    c.appendString s = some (c.put (prefixed s)) := by
  rw [appendString, if_neg (by omega), put_put, put_put, ← List.append_assoc,
    List.singleton_append, shift_and_eq_be16, prefixed]

theorem appendString_of_lt (h : c.bufferLength < c.length + s.length + 2) :
    c.appendString s = none := if_pos h

theorem assigned_ne_zero (messageId : UInt16) (draw : Draw) : assigned messageId draw ≠ 0 := by
  rw [assigned]
  split_ifs with h
  · exact draw.property.1
  · exact h

theorem appendMessageId_of_le {messageId : UInt16} {draw : Draw}
    (h : c.length + 2 ≤ c.bufferLength) : c.appendMessageId messageId draw =
      (c.put (assignedBytes messageId draw), assigned messageId draw) := by
  rw [appendMessageId, if_neg (by omega), put_put, List.singleton_append, shift_and_eq_be16]
  rfl

theorem appendMessageId_of_lt {messageId : UInt16} {draw : Draw}
    (h : c.bufferLength < c.length + 2) : c.appendMessageId messageId draw = (c, 0) := if_pos h

end Appending

/-! ## The header -/

section Header

variable {c : Connection} {p : Packet}

theorem Within.initMessage (hc : c.Within) : c.initMessage.Within := hc

@[simp] theorem message_failMessage : c.failMessage.message = [] := rfl

/-- The packet with `body` behind the place for the header. -/
def fini (c : Connection) (p : Packet) : Connection :=
  (c.initMessage.put p.body).finiMessage p.type p.dup p.qos p.retain

/-- A header that is put in front of what is there. -/
theorem read_header {b : Buffer} {off : ℕ} (header : List UInt8) {body : List UInt8}
    (h : b.read (off + header.length) body.length = body) :
    (b.write off header).read off (header.length + body.length) = header ++ body := by
  rw [Buffer.read_add, Buffer.read_write, Buffer.read_write_behind (le_refl _), h]

/-- **What `fini_message` leaves**: the header in front of what has been appended. -/
theorem message_fini : (c.fini p).message = p.written := by
  have hlength : (c.initMessage.put p.body).length - 3 = p.body.length := by
    rw [length_put, length_initMessage, Nat.add_sub_cancel_left]
  have hbody : (c.initMessage.put p.body).buffer.read 3 p.body.length = p.body :=
    Buffer.read_write _ _ _
  rw [fini, finiMessage, Packet.written, hlength]
  generalize (c.initMessage.put p.body).buffer = b at hbody ⊢
  split_ifs with hlong
  · have hwrites (x y z : UInt8) :
        ((b.write 0 [x]).write 1 [y]).write 2 [z] = b.write 0 ([x] ++ ([y] ++ [z])) := by
      rw [Buffer.write_append, Buffer.write_append]
      rfl
    rw [message, hwrites, Nat.add_comm]
    exact read_header [_, _, _] hbody
  · have hwrites (x y : UInt8) : (b.write 1 [x]).write 2 [y] = b.write 1 ([x] ++ [y]) := by
      rw [Buffer.write_append]
      rfl
    rw [message, hwrites, Nat.add_comm]
    exact read_header [_, _] hbody

theorem Within.fini (hc : c.Within) (h : 3 + p.body.length ≤ c.bufferLength) :
    (c.fini p).Within := by
  have hput : (c.initMessage.put p.body).buffer.high ≤ c.bufferLength := hc.initMessage.put h
  rw [Connection.fini, finiMessage]
  split_ifs <;>
  · simp only [Within, Buffer.high_write, List.length_singleton, bufferLength_put,
      bufferLength_initMessage]
    omega

@[simp] theorem bufferLength_fini : (c.fini p).bufferLength = c.bufferLength := by
  rw [fini, finiMessage]
  split_ifs <;> rfl

end Header

/-! ## Calls -/

/-- What a call leaves: the packet, if there is one and there is room for it. Where there is not,
the message is empty. In neither case has anything been written behind the end of the buffer. -/
structure Leaves (c c' : Connection) (packet : Option Packet) : Prop where
  message : c'.message = (packet.filter (3 + ·.body.length ≤ c.bufferLength)).elim [] Packet.written
  within : c'.Within
  bufferLength : c'.bufferLength = c.bufferLength

section Calls

variable {c : Connection} {draw : Draw} {messageId : UInt16}

theorem leaves_fini {p : Packet} (hc : c.Within) (h : 3 + p.body.length ≤ c.bufferLength) :
    Leaves c (c.fini p) (some p) where
  message := by
    rw [message_fini, Option.filter_some, if_pos (by simpa using h)]
    rfl
  within := hc.fini h
  bufferLength := bufferLength_fini

theorem leaves_fail {c' : Connection} {packet : Option Packet} (hc' : c'.Within)
    (hlength : c'.bufferLength = c.bufferLength)
    (h : ∀ p ∈ packet, c.bufferLength < 3 + p.body.length) :
    Leaves c c'.failMessage packet where
  message := by
    have hnone : packet.filter (3 + ·.body.length ≤ c.bufferLength) = none := by
      refine Option.filter_eq_none_iff.mpr fun p hp ↦ ?_
      simpa using h p hp
    rw [message_failMessage, hnone]
    rfl
  within := hc'
  bufferLength := hlength

theorem leaves_refuse (hc : c.Within) : Leaves c c.initMessage.failMessage none :=
  leaves_fail hc rfl nofun

/-- A packet with nothing behind its header. -/
theorem leaves_bare {type : MessageType} (hc : c.Within) (h : 3 ≤ c.bufferLength) :
    Leaves c (c.initMessage.finiMessage type 0 0 0) (some ⟨type, 0, 0, 0, []⟩) where
  message := by
    rw [Option.filter_some, if_pos (by simpa using h)]
    have hwrites (x y : UInt8) :
        (c.buffer.write 1 [x]).write 2 [y] = c.buffer.write 1 ([x] ++ [y]) := by
      rw [Buffer.write_append]
      rfl
    exact (congrArg (Buffer.read · 1 2) (hwrites _ _)).trans (Buffer.read_write c.buffer 1 [_, _])
  within := max_le (max_le hc (Nat.le_of_succ_le h)) h
  bufferLength := rfl

theorem leaves_acknowledge {type : MessageType} {qos : ℤ} (hc : c.Within) :
    Leaves c (c.acknowledge type qos messageId draw)
      (some ⟨type, 0, qos, 0, assignedBytes messageId draw⟩) := by
  rw [acknowledge]
  rcases Nat.lt_or_ge c.bufferLength (3 + 2) with hlt | hle
  · rw [appendMessageId_of_lt hlt]
    exact leaves_fail hc rfl fun p hp ↦ by
      obtain rfl := Option.some.inj hp
      exact hlt
  · rw [appendMessageId_of_le hle, if_neg (assigned_ne_zero _ _)]
    exact leaves_fini (p := ⟨type, 0, qos, 0, assignedBytes messageId draw⟩) hc hle

/-- What has been appended so far, with the start of a packet in it. -/
theorem within_put {bytes : List UInt8} (hc : c.Within) (h : 3 + bytes.length ≤ c.bufferLength) :
    (c.initMessage.put bytes).Within := hc.initMessage.put h

theorem leaves_fail_put {bytes : List UInt8} {p : Packet} (hc : c.Within)
    (h : 3 + bytes.length ≤ c.bufferLength) (hp : c.bufferLength < 3 + p.body.length) :
    Leaves c (c.initMessage.put bytes).failMessage (some p) :=
  leaves_fail (within_put hc h) rfl fun q hq ↦ by
    obtain rfl := Option.some.inj hq
    exact hp

theorem leaves_fail_init {p : Packet} (hc : c.Within) (hp : c.bufferLength < 3 + p.body.length) :
    Leaves c c.initMessage.failMessage (some p) :=
  leaves_fail hc.initMessage rfl fun q hq ↦ by
    obtain rfl := Option.some.inj hq
    exact hp

/-- The last field of a packet, behind what has been appended before it. -/
theorem leaves_last {head bytes : List UInt8} {p : Packet} (hc : c.Within)
    (hhead : 3 + head.length ≤ c.bufferLength) (hbody : p.body = head ++ bytes) :
    Leaves c (if (c.initMessage.put head).length + bytes.length > c.bufferLength then
        (c.initMessage.put head).failMessage
      else ((c.initMessage.put head).put bytes).finiMessage p.type p.dup p.qos p.retain)
      (some p) := by
  have hlength : p.body.length = head.length + bytes.length := by
    rw [hbody, List.length_append]
  rw [length_put, length_initMessage]
  split_ifs with hroom
  · exact leaves_fail_put hc hhead (by omega)
  · rw [put_put, ← hbody]
    exact leaves_fini hc (by omega)

theorem leaves_publish {topic : Option CStr} {data : List UInt8} {qos retain : ℤ}
    (hc : c.Within) : Leaves c (c.mqttMsgPublish topic data qos retain draw messageId).1
      ((Request.publish topic data qos retain).packet draw) := by
  rw [mqttMsgPublish, Request.packet]
  by_cases htopic : text topic = []
  · rw [if_pos htopic, if_pos htopic]
    exact leaves_refuse hc
  rw [if_neg htopic, if_neg htopic]
  rcases Nat.lt_or_ge c.bufferLength (3 + (text topic).length + 2) with hlt | hle
  · rw [appendString_of_lt (by simpa using hlt)]
    refine leaves_fail_init hc ?_
    simp only [List.length_append, length_prefixed]
    omega
  have htext : 3 + (prefixed (text topic)).length ≤ c.bufferLength := by
    rw [length_prefixed]
    omega
  rw [appendString_of_le (by simpa using hle)]
  by_cases hqos : qos > 0
  · simp only [hqos, if_true, true_and]
    rcases Nat.lt_or_ge c.bufferLength (3 + (prefixed (text topic)).length + 2) with hlt | hle
    · rw [appendMessageId_of_lt (by simpa using hlt), if_pos rfl]
      refine leaves_fail_put hc htext ?_
      have hid : (assignedBytes 0 draw).length = 2 := rfl
      simp only [List.length_append]
      omega
    · have hhead : 3 + (prefixed (text topic) ++ assignedBytes 0 draw).length
          ≤ c.bufferLength := by
        rw [List.length_append]
        exact hle
      rw [appendMessageId_of_le (by simpa using hle), if_neg (assigned_ne_zero 0 draw), put_put,
        apply_ite Prod.fst]
      exact leaves_last (p := ⟨.PUBLISH, 0, qos, retain, _⟩) hc hhead rfl
  · simp only [hqos, if_false, false_and, List.append_nil]
    rw [apply_ite Prod.fst]
    exact leaves_last (p := ⟨.PUBLISH, 0, qos, retain, _⟩) hc htext rfl

/-- An identifier and a topic, and what is done with the two behind each other. -/
theorem leaves_topic {t rest : List UInt8} {k : Connection → Connection × UInt16} {p : Packet}
    (hc : c.Within) (hbody : p.body = assignedBytes 0 draw ++ prefixed t ++ rest)
    (hk : 3 + (assignedBytes 0 draw ++ prefixed t).length ≤ c.bufferLength →
      Leaves c (k (c.initMessage.put (assignedBytes 0 draw ++ prefixed t))).1 (some p)) :
    Leaves c (let r := c.initMessage.appendMessageId 0 draw
      if r.2 = 0 then (r.1.failMessage, r.2)
      else match r.1.appendString t with
        | none => (r.1.failMessage, r.2)
        | some c => k c).1 (some p) := by
  have hid : (assignedBytes 0 draw).length = 2 := rfl
  have hlength : p.body.length = 2 + (t.length + 2) + rest.length := by
    rw [hbody, List.length_append, List.length_append, length_prefixed, hid]
  rcases Nat.lt_or_ge c.bufferLength (3 + 2) with hlt | hle
  · rw [appendMessageId_of_lt hlt]
    exact leaves_fail_init hc (by omega)
  rw [appendMessageId_of_le hle]
  simp only [assigned_ne_zero 0 draw, if_false]
  rcases Nat.lt_or_ge c.bufferLength (3 + 2 + t.length + 2) with hlt | hle'
  · rw [appendString_of_lt (by simpa [hid] using hlt)]
    exact leaves_fail_put hc hle (by omega)
  · rw [appendString_of_le (by simpa [hid] using hle'), put_put]
    refine hk ?_
    rw [List.length_append, length_prefixed]
    omega

theorem leaves_subscribe {topic : Option CStr} {qos : ℤ} (hc : c.Within) :
    Leaves c (c.mqttMsgSubscribe topic qos draw messageId).1
      ((Request.subscribe topic qos).packet draw) := by
  rw [mqttMsgSubscribe, Request.packet]
  by_cases htopic : text topic = []
  · rw [if_pos htopic, if_pos htopic]
    exact leaves_refuse hc
  rw [if_neg htopic, if_neg htopic]
  refine leaves_topic hc rfl fun hhead ↦ ?_
  rw [apply_ite Prod.fst]
  exact leaves_last (p := ⟨.SUBSCRIBE, 0, 1, 0, _ ++ [UInt8.ofInt qos]⟩) hc hhead rfl

theorem leaves_unsubscribe {topic : Option CStr} (hc : c.Within) :
    Leaves c (c.mqttMsgUnsubscribe topic draw messageId).1
      ((Request.unsubscribe topic).packet draw) := by
  rw [mqttMsgUnsubscribe, Request.packet]
  by_cases htopic : text topic = []
  · rw [if_pos htopic, if_pos htopic]
    exact leaves_refuse hc
  rw [if_neg htopic, if_neg htopic]
  exact leaves_topic hc (List.append_nil _).symm fun hhead ↦
    leaves_fini (p := ⟨.UNSUBSCRIBE, 0, 1, 0, _⟩) hc hhead

end Calls

end Connection

/-! ## Two bytes for the length -/

namespace Packet

variable {p : Packet}

end Packet

end Ddmz.Mqtt
