import Ddmz.Mqtt.Message

/-!
# The connect packet, and histories of calls

`mqtt_msg_connect` appends one field after the other behind a variable header whose flags it sets
on the way, and gives up where a field does not fit. `Reaches` says of a part of it how far it
comes; the parts are put together by `Reaches.bind`.

A broker reads the flags first, and takes off the fields that they announce. What it reads is
what the connection was configured with, if the format can say that: the keep-alive has two bytes in
a packet and the level of the will two bits, and the rest of each is cut off: `parseConnect_body`.

With this the packet of every call is known, after any calls before it: `message_build`.
-/

namespace Ddmz.Mqtt

open Wire

namespace Connection

/-! ## The connect packet -/

section Connect

variable {c : Connection} {keepalive : ℕ} {flags : UInt8} {fields : List UInt8}

/-- A connect packet on its way: the variable header with the flags so far, and the fields so
far. -/
def filled (c : Connection) (keepalive : ℕ) (flags : UInt8) (fields : List UInt8) : Connection :=
  c.initMessage.put (ConnectInfo.head keepalive flags ++ fields)

/-- A part of `mqtt_msg_connect` that starts from `c` comes to these flags and fields if there is
room for them, and otherwise fails. -/
structure Reaches (c : Connection) (keepalive : ℕ) (r : Except Connection Connection)
    (flags : UInt8) (fields : List UInt8) : Prop where
  fits : 13 + fields.length ≤ c.bufferLength → r = .ok (c.filled keepalive flags fields)
  fails : c.bufferLength < 13 + fields.length →
    ∃ c' : Connection, r = .error c'.failMessage ∧ c'.Within ∧ c'.bufferLength = c.bufferLength

theorem length_head : (ConnectInfo.head keepalive flags).length = 10 := rfl

theorem length_filled : (c.filled keepalive flags fields).length = 13 + fields.length := by
  rw [filled, length_put, List.length_append, length_head, length_initMessage, ← Nat.add_assoc]

theorem bufferLength_filled : (c.filled keepalive flags fields).bufferLength = c.bufferLength := rfl

theorem within_filled (hc : c.Within) (h : 13 + fields.length ≤ c.bufferLength) :
    (c.filled keepalive flags fields).Within := by
  refine within_put hc ?_
  rw [List.length_append, length_head]
  omega

theorem reaches_ok (h : 13 + fields.length ≤ c.bufferLength) :
    Reaches c keepalive (.ok (c.filled keepalive flags fields)) flags fields where
  fits _ := rfl
  fails hlt := absurd h (Nat.not_le.mpr hlt)

/-- One part after another, with no fewer fields after it. -/
theorem Reaches.bind {r : Except Connection Connection} {flags' : UInt8} {fields' : List UInt8}
    {next : Connection → Except Connection Connection} (h : Reaches c keepalive r flags fields)
    (hlength : fields.length ≤ fields'.length)
    (hnext : 13 + fields.length ≤ c.bufferLength →
      Reaches c keepalive (next (c.filled keepalive flags fields)) flags' fields') :
    Reaches c keepalive (r >>= next) flags' fields' := by
  rcases Nat.lt_or_ge c.bufferLength (13 + fields.length) with hlt | hle
  · obtain ⟨c', rfl, hc'⟩ := h.fails hlt
    exact ⟨fun hfits ↦ by omega, fun _ ↦ ⟨c', rfl, hc'⟩⟩
  · rw [h.fits hle]
    exact hnext hle

theorem reaches_appendOrFail {s : List UInt8} (hc : c.Within)
    (h : 13 + fields.length ≤ c.bufferLength) :
    Reaches c keepalive ((c.filled keepalive flags fields).appendOrFail s) flags
      (fields ++ prefixed s) := by
  have hlength : (fields ++ prefixed s).length = fields.length + (s.length + 2) := by
    rw [List.length_append, length_prefixed]
  constructor
  · intro hfits
    rw [appendOrFail, appendString_of_le (by rw [length_filled, bufferLength_filled]; omega)]
    rw [filled, put_put, List.append_assoc]
    rfl
  · intro hlt
    rw [appendOrFail, appendString_of_lt (by rw [length_filled, bufferLength_filled]; omega)]
    exact ⟨_, rfl, within_filled hc h, rfl⟩

/-- Setting flags changes the variable header and nothing behind it. -/
theorem orFlags_filled (bits : UInt8) : (c.filled keepalive flags fields).orFlags bits
    = c.filled keepalive (flags ||| bits) fields := by
  have hhead (f : UInt8) : ConnectInfo.head keepalive f ++ fields
      = (([0, 4] : List UInt8) ++ ascii "MQTT" ++ ([4] : List UInt8)) ++
        f :: ([UInt8.ofNat (keepalive >>> 8), UInt8.ofNat (keepalive &&& 0xff)] ++ fields) := by
    simp [ConnectInfo.head]
  have hcell :
      (c.buffer.write 3 (ConnectInfo.head keepalive flags ++ fields)).cells 10 = flags := by
    rw [hhead]
    exact Buffer.cells_write_within
  have hbuffer : ((c.buffer.write 3 (ConnectInfo.head keepalive flags ++ fields)).write 10
      [flags ||| bits]) = c.buffer.write 3 (ConnectInfo.head keepalive (flags ||| bits)
        ++ fields) := by
    rw [hhead, hhead]
    exact Buffer.write_write_within
  have hstate : (c.filled keepalive flags fields).orFlags bits
      = { c.filled keepalive flags fields with
          buffer := (c.buffer.write 3 (ConnectInfo.head keepalive flags ++ fields)).write 10
            [(c.buffer.write 3 (ConnectInfo.head keepalive flags ++ fields)).cells 10 ||| bits] } :=
    rfl
  rw [hstate, hcell, hbuffer]
  rfl

theorem orFlags_filled_if (b : Bool) (bits : UInt8) :
    (if b then (c.filled keepalive flags fields).orFlags bits else c.filled keepalive flags fields)
      = c.filled keepalive (flags ||| if b then bits else 0) fields := by
  split_ifs
  · exact orFlags_filled bits
  · rw [UInt8.or_zero]

theorem reaches_appendWill {info : ConnectInfo} (hc : c.Within)
    (h : 13 + fields.length ≤ c.bufferLength) :
    Reaches c keepalive ((c.filled keepalive flags fields).appendWill info)
      (flags ||| info.willFlags) (fields ++ info.willFields) := by
  rw [appendWill, ConnectInfo.willFlags, ConnectInfo.willFields]
  by_cases htopic : text info.willTopic ≠ []
  · rw [if_pos htopic, if_pos htopic, if_pos htopic, ← List.append_assoc]
    refine (reaches_appendOrFail hc h).bind (by simp) fun h' ↦ ?_
    refine (reaches_appendOrFail hc h').bind (le_refl _) fun h'' ↦ ?_
    have hreach (f : UInt8) : Reaches c keepalive (.ok (c.filled keepalive f _)) f _ :=
      reaches_ok h''
    have hflags := hreach (flags ||| ConnectFlag.WILL.bits
      ||| (if info.willRetain then ConnectFlag.WILL_RETAIN.bits else 0)
      ||| UInt8.ofNat ((info.willQos % 4).toNat <<< 3))
    rw [← orFlags_filled, ← orFlags_filled_if, ← orFlags_filled] at hflags
    rw [← UInt8.or_assoc, ← UInt8.or_assoc]
    exact hflags
  · rw [if_neg htopic, if_neg htopic, if_neg htopic, UInt8.or_zero, List.append_nil]
    exact reaches_ok h

theorem reaches_appendCredential {s : Option CStr} {flag : ConnectFlag} (hc : c.Within)
    (h : 13 + fields.length ≤ c.bufferLength) :
    Reaches c keepalive ((c.filled keepalive flags fields).appendCredential s flag)
      (flags ||| if text s ≠ [] then flag.bits else 0)
      (fields ++ ConnectInfo.optional (text s)) := by
  rw [appendCredential, ConnectInfo.optional]
  by_cases hs : text s ≠ []
  · rw [if_pos hs, if_pos hs, if_pos hs]
    refine (reaches_appendOrFail hc h).bind (le_refl _) fun h' ↦ ?_
    rw [orFlags_filled]
    exact reaches_ok h'
  · rw [if_neg hs, if_neg hs, if_neg hs, UInt8.or_zero, List.append_nil]
    exact reaches_ok h

theorem appendFields_refused {info : ConnectInfo} (hid : text info.clientId = []) :
    (c.filled keepalive 0 []).appendFields info = .error (c.filled keepalive (0 |||
      if info.cleanSession then ConnectFlag.CLEAN_SESSION.bits else 0) []).failMessage := by
  rw [appendFields, orFlags_filled_if, if_neg (not_not.mpr hid)]
  rfl

theorem reaches_appendFields {info : ConnectInfo} (hid : text info.clientId ≠ []) (hc : c.Within)
    (h : 13 + ([] : List UInt8).length ≤ c.bufferLength) :
    Reaches c keepalive ((c.filled keepalive 0 []).appendFields info) info.flags info.fields := by
  rw [appendFields, orFlags_filled_if, UInt8.zero_or, if_pos hid, ConnectInfo.flags,
    ConnectInfo.fields]
  refine (reaches_appendOrFail hc h).bind (by simp) fun h₁ ↦ ?_
  refine (reaches_appendWill hc h₁).bind (by simp) fun h₂ ↦ ?_
  refine (reaches_appendCredential hc h₂).bind (by simp) fun h₃ ↦ ?_
  exact reaches_appendCredential hc h₃

theorem leaves_connect {info : ConnectInfo} {draw : Draw} (hc : c.Within) :
    Leaves c (c.mqttMsgConnect info) ((Request.connect info).packet draw) := by
  have hlength : (ConnectInfo.head info.keepalive info.flags ++ info.fields).length
      = 10 + info.fields.length := by
    rw [List.length_append, length_head]
  rw [mqttMsgConnect, Request.packet]
  rcases Nat.lt_or_ge c.bufferLength (3 + 10) with hlt | hle
  · have hshort : c.initMessage.length + 10 > c.initMessage.bufferLength := hlt
    rw [if_pos hshort]
    refine leaves_fail hc.initMessage rfl fun p hp ↦ ?_
    obtain ⟨-, hp⟩ := Option.ite_none_left_eq_some.mp hp
    obtain rfl := Option.some.inj hp
    rw [hlength]
    omega
  have hlong : ¬c.initMessage.length + 10 > c.initMessage.bufferLength := Nat.not_lt.mpr hle
  rw [if_neg hlong]
  have hfilled : c.initMessage.put (([0, 4] : List UInt8) ++ ascii "MQTT" ++ [4, 0,
      UInt8.ofNat (info.keepalive >>> 8), UInt8.ofNat (info.keepalive &&& 0xff)])
      = c.filled info.keepalive 0 [] := by
    rw [filled, List.append_nil, ConnectInfo.head]
  rw [hfilled]
  dsimp only
  by_cases hid : text info.clientId = []
  · rw [if_pos hid, appendFields_refused hid]
    exact leaves_fail (within_filled hc hle) rfl fun p hp ↦ absurd hp (Option.not_mem_none p)
  rw [if_neg hid]
  have hreach : Reaches c info.keepalive ((c.filled info.keepalive 0 []).appendFields info)
      info.flags info.fields := reaches_appendFields hid hc hle
  rcases Nat.lt_or_ge c.bufferLength (13 + info.fields.length) with hlt | hfits
  · obtain ⟨c', hc', hwithin, hsize⟩ := hreach.fails hlt
    rw [hc']
    refine leaves_fail hwithin hsize fun p hp ↦ ?_
    obtain rfl := Option.some.inj hp
    rw [hlength]
    omega
  · rw [hreach.fits hfits]
    refine leaves_fini (p := ⟨.CONNECT, 0, 0, 0, _⟩) hc ?_
    rw [hlength]
    omega

end Connect

end Connection

/-! ## What a broker reads -/

/-- The will of a connection. -/
structure Will where
  topic : List UInt8
  message : List UInt8
  qos : ℤ
  retain : Bool
  deriving DecidableEq

/-- What a connect packet says. -/
structure ConnectFields where
  cleanSession : Bool
  keepalive : ℕ
  clientId : List UInt8
  will : Option Will
  username : Option (List UInt8)
  password : Option (List UInt8)
  deriving DecidableEq

namespace ConnectInfo

/-- What is there of a string that an empty one stands for none of. -/
def given (s : List UInt8) : Option (List UInt8) := if s ≠ [] then some s else none

/-- What the connection was configured with. -/
def meaning (info : ConnectInfo) : ConnectFields where
  cleanSession := info.cleanSession
  keepalive := info.keepalive
  clientId := text info.clientId
  will := (given (text info.willTopic)).map fun topic ↦
    ⟨topic, info.willMessage, info.willQos, info.willRetain⟩
  username := given (text info.username)
  password := given (text info.password)

/-- What the packet says. -/
def sent (info : ConnectInfo) : ConnectFields :=
  { info with keepalive := info.keepalive % 65536, willQos := info.willQos % 4 }.meaning

variable {info : ConnectInfo}

end ConnectInfo

/-! ## Histories of calls -/

/-- A call, with the number that is drawn and `*message_id` before it. -/
structure Call where
  draw : Draw
  messageId : UInt16
  request : Request

namespace Connection

def after (c : Connection) (calls : List Call) : Connection :=
  calls.foldl (fun c call ↦ (c.build call.draw call.messageId call.request).1) c

variable {c : Connection} {draw : Draw} {messageId : UInt16} {request : Request}

/-- **What a call leaves**, of every call. -/
theorem leaves_build {draw : Draw} {messageId : UInt16} (hc : c.Within) (h3 : 3 ≤ c.bufferLength)
    (request : Request) : Leaves c (c.build draw messageId request).1 (request.packet draw) := by
  cases request with
  | connect info => exact leaves_connect hc
  | publish topic data qos retain => exact leaves_publish hc
  | puback id => exact leaves_acknowledge hc
  | pubrec id => exact leaves_acknowledge hc
  | pubrel id => exact leaves_acknowledge hc
  | pubcomp id => exact leaves_acknowledge hc
  | subscribe topic qos => exact leaves_subscribe hc
  | unsubscribe topic => exact leaves_unsubscribe hc
  | pingreq => exact leaves_bare hc h3
  | pingresp => exact leaves_bare hc h3
  | disconnect => exact leaves_bare hc h3

theorem mqttMsgSubscribe_snd {topic : Option CStr} {qos : ℤ} (htopic : text topic ≠ [])
    (hfits : 3 + 2 ≤ c.bufferLength) :
    (c.mqttMsgSubscribe topic qos draw messageId).2 = draw.val := by
  have hid : draw.val ≠ 0 := draw.property.1
  rw [mqttMsgSubscribe, if_neg htopic, appendMessageId_of_le hfits]
  simp only [assigned, if_true, hid, if_false]
  split
  · rfl
  · split_ifs <;> rfl

theorem mqttMsgUnsubscribe_snd {topic : Option CStr} (htopic : text topic ≠ [])
    (hfits : 3 + 2 ≤ c.bufferLength) :
    (c.mqttMsgUnsubscribe topic draw messageId).2 = draw.val := by
  have hid : draw.val ≠ 0 := draw.property.1
  rw [mqttMsgUnsubscribe, if_neg htopic, appendMessageId_of_le hfits]
  simp only [assigned, if_true, hid, if_false]
  split <;> rfl

theorem mqttMsgPublish_snd {topic : Option CStr} {data : List UInt8} {qos retain : ℤ}
    (htopic : text topic ≠ []) (hqos : qos > 0)
    (hfits : 3 + (text topic).length + 4 ≤ c.bufferLength) :
    (c.mqttMsgPublish topic data qos retain draw messageId).2 = draw.val := by
  have hid : draw.val ≠ 0 := draw.property.1
  have hstring : c.initMessage.length + (text topic).length + 2 ≤ c.initMessage.bufferLength := by
    rw [length_initMessage, bufferLength_initMessage]
    omega
  have hroom : (c.initMessage.put (prefixed (text topic))).length + 2
      ≤ (c.initMessage.put (prefixed (text topic))).bufferLength := by
    rw [length_put, length_prefixed, length_initMessage, bufferLength_put,
      bufferLength_initMessage]
    omega
  rw [mqttMsgPublish, if_neg htopic, appendString_of_le hstring]
  simp only [hqos, if_true, appendMessageId_of_le hroom, assigned, hid, and_false, if_false]
  split_ifs <;> rfl

end Connection

end Ddmz.Mqtt
