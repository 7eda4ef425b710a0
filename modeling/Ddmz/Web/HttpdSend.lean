import Ddmz.Foundation.Buffer
import Ddmz.Foundation.Chunked
import Ddmz.Foundation.Runs

/-!
# What the web server sends

The server of `httpd.c` gives the functions that answer a request a buffer of 8192 bytes for one
call at a time, and sends it when they return. If the client can take a body in chunks, what a call
sends of the body is one chunk, whose length is filled in at the end. What the socket does not take
is put behind a backlog, which goes first when the socket can be written again.

A chunk is as a reader expects it if and only if there is room for its end: `finished_iff`. What is
sent of the buffer is `flush_spec`, and how far the buffer is written `Inbounds.flush`.
-/

namespace Ddmz.Web

open Chunked

/-! ## The code -/

def HTTPD_MAX_SENDBUFF_LEN : ℕ := 8192

def HTTPD_MAX_BACKLOG_SIZE : ℕ := 4096

/-- The flags of a connection. -/
structure HttpdFlags where
  http11 : Bool
  chunked : Bool
  sendingBody : Bool
  disconAfterSent : Bool
  noConnectionStr : Bool
  deriving DecidableEq

def HttpdFlags.none : HttpdFlags := ⟨false, false, false, false, false⟩

/-- What `HttpdConnData` and `HttpdPriv` have for sending, with what the socket has taken. -/
structure HttpdOut where
  /-- `cgi` is not null. -/
  cgi : Bool
  flags : HttpdFlags
  sendBuff : Buffer
  sendBuffLen : ℕ
  /-- Where the chunk begins that is being written. -/
  chunkHdr : Option ℕ
  sendBacklog : List (List UInt8)
  sendBacklogSize : ℕ
  wire : List UInt8
  /-- `httpdPlatDisconnect` has been called. -/
  closed : Bool

/-- What the socket and the allocation of a backlog item answer. -/
structure FlushAnswer where
  took : Bool
  granted : Bool

namespace HttpdOut

/-- A connection in `httpdConnectCb`. -/
def init : HttpdOut where
  cgi := false
  flags := HttpdFlags.none
  sendBuff := ⟨fun _ ↦ 0, 0⟩
  sendBuffLen := 0
  chunkHdr := none
  sendBacklog := []
  sendBacklogSize := 0
  wire := []
  closed := false

/-- Copy bytes behind what is there. -/
def put (c : HttpdOut) (data : List UInt8) : HttpdOut :=
  { c with
    sendBuff := c.sendBuff.write c.sendBuffLen data
    sendBuffLen := c.sendBuffLen + data.length }

/-- The same for `strcpy`, which writes a terminator that is not counted. -/
def putString (c : HttpdOut) (data : List UInt8) : HttpdOut :=
  { c with
    sendBuff := c.sendBuff.write c.sendBuffLen (data ++ [0])
    sendBuffLen := c.sendBuffLen + data.length }

/-- The start of a chunk. -/
def openChunk (c : HttpdOut) : HttpdOut :=
  { c.putString (ascii "0000" ++ CRLF) with chunkHdr := some c.sendBuffLen }

/-- The end of `httpdSend`. -/
def append (c : HttpdOut) (data : List UInt8) : HttpdOut × Bool :=
  if c.sendBuffLen + data.length > HTTPD_MAX_SENDBUFF_LEN then (c, false) else (c.put data, true)

/-- `httpdSend`, with what it returns. -/
def httpdSend (c : HttpdOut) (data : List UInt8) : HttpdOut × Bool :=
  if data = [] then (c, false)
  else if c.flags.chunked ∧ c.flags.sendingBody ∧ c.chunkHdr = none then
    if c.sendBuffLen + data.length + 6 > HTTPD_MAX_SENDBUFF_LEN then (c, false)
    else c.openChunk.append data
  else c.append data

/-- `httpdHexNibble`, four times. -/
def chunkLength (len : ℤ) : List UInt8 :=
  [hexDigit (len / 4096 % 16).toNat, hexDigit (len / 256 % 16).toNat,
    hexDigit (len / 16 % 16).toNat, hexDigit (len % 16).toNat]

/-- The chunk is finished, if there is one. -/
def finishChunk (c : HttpdOut) : HttpdOut :=
  match c.chunkHdr with
  | none => c
  | some hdr =>
    let c := (c.httpdSend CRLF).1
    { c with
      sendBuff := c.sendBuff.write hdr (chunkLength ((c.sendBuffLen : ℤ) - hdr - 8))
      chunkHdr := none }

/-- The chunk of length zero, when all has been sent. -/
def finishBody (c : HttpdOut) : HttpdOut :=
  if c.flags.chunked ∧ c.flags.sendingBody ∧ c.cgi = false then c.putString last else c

/-- What is in the buffer. -/
def buffered (c : HttpdOut) : List UInt8 := c.sendBuff.read 0 c.sendBuffLen

/-- The buffer is sent, or put into the backlog. -/
def deliver (c : HttpdOut) (answer : FlushAnswer) : HttpdOut :=
  if c.sendBuffLen = 0 then c
  else if answer.took then { c with wire := c.wire ++ c.buffered, sendBuffLen := 0 }
  else if c.sendBacklogSize + c.sendBuffLen > HTTPD_MAX_BACKLOG_SIZE then
    { c with sendBuffLen := 0 }
  else if answer.granted = false then c
  else
    { c with
      sendBacklog := c.sendBacklog ++ [c.buffered]
      sendBacklogSize := c.sendBacklogSize + c.sendBuffLen
      sendBuffLen := 0 }

def httpdFlushSendBuffer (c : HttpdOut) (answer : FlushAnswer) : HttpdOut :=
  c.finishChunk.finishBody.deliver answer

def httpdCgiIsDone (c : HttpdOut) (answer : FlushAnswer) : HttpdOut :=
  let c := { c with cgi := false }
  if c.flags.chunked then
    { c.httpdFlushSendBuffer answer with flags := HttpdFlags.none }
  else { c with flags.disconAfterSent := true }

end HttpdOut

/-- `HTTPD_TRANSFER_*`. -/
inductive TransferMode
  | CLOSE | CHUNKED | NONE

/-- What a function that answers a request calls. -/
inductive SendCall
  | send (data : List UInt8)
  | setTransferMode (mode : TransferMode)
  | startResponse (code : ℕ)
  | header (field val : List UInt8)
  | endHeaders

/-- `HTTPD_CGI_*`. -/
inductive CgiResult
  | MORE | DONE | NOTFOUND | AUTHENTICATED
  deriving DecidableEq

/-- The text of `httpdStartResponse`. -/
def responseLine (flags : HttpdFlags) (code : ℕ) : List UInt8 :=
  ascii "HTTP/1." ++ ascii (if flags.http11 then "1" else "0") ++ ascii " " ++ ascii (toString code)
    ++ ascii " OK" ++ CRLF ++ ascii "Server: ESP32 HTTPD/0.4" ++ CRLF ++
    (if flags.noConnectionStr then []
      else if flags.chunked then ascii "Transfer-Encoding: chunked" ++ CRLF
      else ascii "Connection: close" ++ CRLF)

/-- What a call passes to `httpdSend`, one after the other. -/
def SendCall.pieces (flags : HttpdFlags) : SendCall → List (List UInt8)
  | .send data => [data]
  | .setTransferMode _ => []
  | .startResponse code => [responseLine flags code]
  | .header field val => [field, ascii ": ", val, CRLF]
  | .endHeaders => [CRLF]

namespace HttpdOut

def httdSetTransferMode (flags : HttpdFlags) : TransferMode → HttpdFlags
  | .CLOSE => { flags with chunked := false, noConnectionStr := false }
  | .CHUNKED => { flags with chunked := true, noConnectionStr := false }
  | .NONE => { flags with chunked := false, noConnectionStr := true }

/-- Send some pieces, with all that has been accepted. -/
def sendAll (c : HttpdOut) : List (List UInt8) → HttpdOut × List UInt8
  | [] => (c, [])
  | data :: pieces =>
    let r := c.httpdSend data
    let rest := r.1.sendAll pieces
    (rest.1, (if r.2 then data else []) ++ rest.2)

/-- What the flags are after a call. -/
def flagsAfter (flags : HttpdFlags) : SendCall → HttpdFlags
  | .setTransferMode mode => httdSetTransferMode flags mode
  | .endHeaders => { flags with sendingBody := true }
  | _ => flags

/-- One call, with what has been accepted of it. -/
def perform (c : HttpdOut) (call : SendCall) : HttpdOut × List UInt8 :=
  let r := c.sendAll (call.pieces c.flags)
  ({ r.1 with flags := flagsAfter r.1.flags call }, r.2)

/-- The buffer is allocated. -/
def begun (c : HttpdOut) (fresh : ℕ → UInt8) : HttpdOut :=
  { c with sendBuff := ⟨fresh, 0⟩, sendBuffLen := 0 }

end HttpdOut

/-! ## What is in the buffer -/

namespace HttpdOut

section Buffered

variable {c : HttpdOut} {data front : List UInt8} {opn : Option (List UInt8)}

/-- The chunk that is being written, before its length is known. -/
def opened (opn : Option (List UInt8)) : List UInt8 := opn.elim [] (ascii "0000" ++ CRLF ++ ·)

/-- The chunk that is being written, when it is finished. -/
def finished (opn : Option (List UInt8)) : List UInt8 := opn.elim [] (chunk 4)

/-- The buffer has `front`, and the chunk that is being written behind it. -/
structure Holds (c : HttpdOut) (front : List UInt8) (opn : Option (List UInt8)) : Prop where
  buffered : c.buffered = front ++ opened opn
  chunkHdr : c.chunkHdr = opn.map fun _ ↦ front.length
  nonempty : opn ≠ some []
  full : c.sendBuffLen ≤ HTTPD_MAX_SENDBUFF_LEN

@[simp] theorem length_buffered : c.buffered.length = c.sendBuffLen := Buffer.length_read _

theorem Holds.sendBuffLen (h : Holds c front opn) :
    c.sendBuffLen = front.length + (opened opn).length := by
  rw [← length_buffered, h.buffered, List.length_append]

@[simp] theorem buffered_put : (c.put data).buffered = c.buffered ++ data :=
  Buffer.read_zero_write_append

@[simp] theorem buffered_putString : (c.putString data).buffered = c.buffered ++ data := by
  rw [buffered, putString, Buffer.write_append, Buffer.read_write_before (Nat.zero_add _).le]
  exact Buffer.read_zero_write_append

@[simp] theorem buffered_openChunk :
    c.openChunk.buffered = c.buffered ++ (ascii "0000" ++ CRLF) := buffered_putString

/-- The flags that have the body sent in chunks. -/
def coded (c : HttpdOut) : Bool := c.flags.chunked && c.flags.sendingBody

theorem append_cases (c : HttpdOut) (data : List UInt8) : c.append data = (c, false) ∨
    c.sendBuffLen + data.length ≤ HTTPD_MAX_SENDBUFF_LEN ∧ c.append data = (c.put data, true) := by
  rw [append]
  split_ifs with hfull
  · exact .inl rfl
  · exact .inr ⟨Nat.not_lt.mp hfull, rfl⟩

/-- A piece that is not part of a chunk. -/
theorem holds_raw (h : Holds c front none) (hcoded : c.coded = false) (data : List UInt8) :
    c.httpdSend data = (c, false) ∨
      (c.httpdSend data).2 = true ∧ Holds (c.httpdSend data).1 (front ++ data) none := by
  rw [httpdSend]
  by_cases hempty : data = []
  · rw [if_pos hempty]
    exact .inl rfl
  have hflags : ¬(c.flags.chunked = true ∧ c.flags.sendingBody = true ∧ c.chunkHdr = none) := by
    rintro ⟨hchunked, hbody, -⟩
    simp [coded, hchunked, hbody] at hcoded
  rw [if_neg hempty, if_neg hflags]
  obtain hfull | ⟨hroom, hput⟩ := c.append_cases data
  · exact .inl hfull
  · rw [hput]
    refine .inr ⟨rfl, ?_, h.chunkHdr, nofun, hroom⟩
    rw [buffered_put, h.buffered]
    simp [opened]

/-- A piece that is: it goes to the chunk that is being written, or begins one. -/
theorem holds_coded (h : Holds c front opn) (hcoded : c.coded = true) (data : List UInt8) :
    c.httpdSend data = (c, false) ∨ (c.httpdSend data).2 = true ∧
      Holds (c.httpdSend data).1 front (some (opn.getD [] ++ data)) := by
  rw [httpdSend]
  by_cases hempty : data = []
  · rw [if_pos hempty]
    exact .inl rfl
  rw [if_neg hempty]
  obtain ⟨hchunked, hbody⟩ := Bool.and_eq_true_iff.mp hcoded
  cases opn with
  | none =>
    rw [if_pos ⟨hchunked, hbody, h.chunkHdr⟩]
    by_cases hfull : c.sendBuffLen + data.length + 6 > HTTPD_MAX_SENDBUFF_LEN
    · rw [if_pos hfull]
      exact .inl rfl
    rw [if_neg hfull]
    -- the room that has been looked for is that of the header and the piece
    obtain hshort | ⟨hroom, hput⟩ := c.openChunk.append_cases data
    · rw [append, if_neg (by change ¬c.sendBuffLen + 6 + data.length > _; omega)] at hshort
      exact absurd (congrArg Prod.snd hshort).symm Bool.false_ne_true
    rw [hput]
    refine .inr ⟨rfl, ?_, ?_, by simpa using hempty, hroom⟩
    · rw [buffered_put, buffered_openChunk, h.buffered]
      simp [opened]
    · have hstart := h.sendBuffLen
      simpa [openChunk, putString, put, opened] using hstart
  | some d =>
    have hold : ¬(c.flags.chunked = true ∧ c.flags.sendingBody = true ∧ c.chunkHdr = none) := by
      rintro ⟨-, -, hnone⟩
      rw [h.chunkHdr] at hnone
      exact Option.some_ne_none _ hnone
    rw [if_neg hold]
    obtain hfull | ⟨hroom, hput⟩ := c.append_cases data
    · exact .inl hfull
    rw [hput]
    refine .inr ⟨rfl, ?_, h.chunkHdr, by simp [hempty], hroom⟩
    rw [buffered_put, h.buffered]
    simp [opened]

theorem chunkLength_natCast (n : ℕ) : chunkLength n = hexNumber 4 n := by
  have h3 : ((n : ℤ) / 4096 % 16).toNat = n / 16 / 16 / 16 % 16 := by omega
  have h2 : ((n : ℤ) / 256 % 16).toNat = n / 16 / 16 % 16 := by omega
  have h1 : ((n : ℤ) / 16 % 16).toNat = n / 16 % 16 := by omega
  have h0 : ((n : ℤ) % 16).toNat = n % 16 := by omega
  rw [chunkLength, h3, h2, h1, h0]
  rfl

/-- There is room for the end of a chunk. -/
def Room (c : HttpdOut) : Prop :=
  c.chunkHdr ≠ none → c.sendBuffLen + 2 ≤ HTTPD_MAX_SENDBUFF_LEN

instance : DecidablePred Room := fun c ↦ inferInstanceAs (Decidable (c.chunkHdr ≠ none → _))

/-- The buffer of a chunk that is being written, in its parts. -/
theorem Holds.parts {d : List UInt8} (h : Holds c front (some d)) :
    c.chunkHdr = some front.length ∧ c.sendBuffLen = front.length + (6 + d.length) ∧
      c.buffered = front ++ ascii "0000" ++ (CRLF ++ d) := by
  refine ⟨h.chunkHdr, ?_, ?_⟩
  · rw [h.sendBuffLen, opened, Option.elim_some, List.length_append]
    rfl
  · rw [h.buffered, opened, Option.elim_some]
    simp only [List.append_assoc]

/-- What `httpdFlushSendBuffer` passes to `httpdSend` for the end of a chunk. -/
theorem httpdSend_CRLF {d : List UInt8} (h : Holds c front (some d)) :
    c.httpdSend CRLF = c.append CRLF := by
  have hold : ¬(c.flags.chunked = true ∧ c.flags.sendingBody = true ∧ c.chunkHdr = none) := by
    rintro ⟨-, -, hnone⟩
    exact Option.some_ne_none _ (h.parts.1.symm.trans hnone)
  rw [httpdSend, if_neg (by decide), if_neg hold]

/-- The chunk is as a reader expects it. -/
theorem buffered_finishChunk (h : Holds c front opn) (hroom : c.Room) :
    c.finishChunk.buffered = front ++ finished opn := by
  cases opn with
  | none =>
    rw [finishChunk, show c.chunkHdr = none from h.chunkHdr]
    exact h.buffered
  | some d =>
    obtain ⟨hhdr, hlength, hparts⟩ := h.parts
    have hend : (c.httpdSend CRLF).1 = c.put CRLF := by
      have hfits : ¬c.sendBuffLen + CRLF.length > HTTPD_MAX_SENDBUFF_LEN :=
        Nat.not_lt.mpr (hroom (hhdr ▸ Option.some_ne_none _))
      rw [httpdSend_CRLF h, append, if_neg hfits]
    have hsize : (((c.put CRLF).sendBuffLen : ℤ) - front.length - 8) = d.length := by
      change ((c.sendBuffLen + 2 : ℕ) : ℤ) - _ - 8 = _
      omega
    have hbytes : (c.put CRLF).sendBuff.read 0 (c.put CRLF).sendBuffLen
        = front ++ ascii "0000" ++ (CRLF ++ d ++ CRLF) := by
      refine buffered_put.trans ?_
      rw [hparts]
      simp only [List.append_assoc]
    rw [finishChunk, hhdr]
    simp only [hend, hsize, chunkLength_natCast]
    refine (Buffer.read_write_replace hbytes length_hexNumber).trans ?_
    simp only [finished, Option.elim_some, chunk, List.append_assoc]
    rfl

/-- The chunk without room for its end. -/
theorem buffered_finishChunk_full {d : List UInt8} (h : Holds c front (some d))
    (hfull : ¬c.sendBuffLen + 2 ≤ HTTPD_MAX_SENDBUFF_LEN) :
    c.finishChunk.buffered = front ++ (chunkLength ((d.length : ℤ) - 2) ++ CRLF ++ d) := by
  obtain ⟨hhdr, hlength, hparts⟩ := h.parts
  have hend : (c.httpdSend CRLF).1 = c := by
    have hlong : c.sendBuffLen + CRLF.length > HTTPD_MAX_SENDBUFF_LEN := Nat.not_le.mp hfull
    rw [httpdSend_CRLF h, append, if_pos hlong]
  have hsize : ((c.sendBuffLen : ℤ) - front.length - 8) = d.length - 2 := by omega
  rw [finishChunk, hhdr]
  simp only [hend, hsize]
  have hheader : (chunkLength ((d.length : ℤ) - 2)).length = (ascii "0000").length := rfl
  refine (Buffer.read_write_replace hparts hheader).trans ?_
  simp only [List.append_assoc]

/-- **When a chunk is as a reader expects it**: if and only if two more bytes are free. Without them
its end is left out, and its length is too small by two, modulo `2 ^ 16`. -/
theorem finished_iff {d : List UInt8} (h : Holds c front (some d)) :
    (c.finishChunk.buffered = front ++ chunk 4 d ↔
        c.sendBuffLen + 2 ≤ HTTPD_MAX_SENDBUFF_LEN) ∧
      (¬c.sendBuffLen + 2 ≤ HTTPD_MAX_SENDBUFF_LEN →
        c.finishChunk.buffered = front ++ (chunkLength ((d.length : ℤ) - 2) ++ CRLF ++ d)) := by
  refine ⟨⟨fun hfinished ↦ ?_, fun hroom ↦ buffered_finishChunk h fun _ ↦ hroom⟩,
    buffered_finishChunk_full h⟩
  by_contra hfull
  have hlength := congrArg List.length (hfinished.symm.trans (buffered_finishChunk_full h hfull))
  simp only [List.length_append, chunk, length_hexNumber] at hlength
  have hfour : (chunkLength ((d.length : ℤ) - 2)).length = 4 := rfl
  have htwo : CRLF.length = 2 := rfl
  omega

/-- A chunk of one byte, in a new buffer and at its very end. -/
theorem finished_oneByte :
    let c : HttpdOut := HttpdOut.init.openChunk.put [65]
    let c' : HttpdOut := { HttpdOut.init with sendBuffLen := 8184 }.openChunk.put [65]
    c.finishChunk.buffered = [] ++ chunk 4 [65] ∧
      c'.finishChunk.buffered = List.replicate 8184 0 ++ (ascii "FFFF" ++ CRLF ++ [65]) := by
  intro c c'
  have hzeros : { HttpdOut.init with sendBuffLen := 8184 }.buffered = List.replicate 8184 0 := by
    refine List.eq_replicate_iff.mpr ⟨length_buffered, fun b hb ↦ ?_⟩
    obtain ⟨k, -, rfl⟩ := List.mem_map.mp hb
    rfl
  have hholds : Holds c' (List.replicate 8184 0) (some [65]) := by
    refine ⟨?_, ?_, nofun, by decide⟩
    · rw [buffered_put, buffered_openChunk, hzeros, List.append_assoc]
      rfl
    · rw [Option.map_some, List.length_replicate]
      rfl
  exact ⟨(finished_iff ⟨by decide, rfl, by decide, by decide⟩).1.mpr (by decide),
    (finished_iff hholds).2 (by decide)⟩

/-! What is not in the buffer is as before. -/

/-- Only the buffer is different. -/
structure Inside (c c' : HttpdOut) : Prop where
  cgi : c'.cgi = c.cgi
  flags : c'.flags = c.flags
  sendBacklog : c'.sendBacklog = c.sendBacklog
  sendBacklogSize : c'.sendBacklogSize = c.sendBacklogSize
  wire : c'.wire = c.wire
  closed : c'.closed = c.closed

theorem Inside.refl (c : HttpdOut) : Inside c c := ⟨rfl, rfl, rfl, rfl, rfl, rfl⟩

theorem Inside.trans {c' c'' : HttpdOut} (h : Inside c c') (h' : Inside c' c'') :
    Inside c c'' where
  cgi := h'.cgi.trans h.cgi
  flags := h'.flags.trans h.flags
  sendBacklog := h'.sendBacklog.trans h.sendBacklog
  sendBacklogSize := h'.sendBacklogSize.trans h.sendBacklogSize
  wire := h'.wire.trans h.wire
  closed := h'.closed.trans h.closed

theorem inside_append (c : HttpdOut) (data : List UInt8) : Inside c (c.append data).1 := by
  rw [append]
  split_ifs
  · exact Inside.refl c
  · exact ⟨rfl, rfl, rfl, rfl, rfl, rfl⟩

theorem inside_httpdSend (c : HttpdOut) (data : List UInt8) : Inside c (c.httpdSend data).1 := by
  rw [httpdSend]
  split_ifs
  · exact Inside.refl c
  · exact Inside.refl c
  · have hopen : Inside c c.openChunk := ⟨rfl, rfl, rfl, rfl, rfl, rfl⟩
    exact hopen.trans (inside_append c.openChunk data)
  · exact inside_append c data

theorem inside_sendAll (c : HttpdOut) (pieces : List (List UInt8)) :
    Inside c (c.sendAll pieces).1 := by
  induction pieces generalizing c with
  | nil => exact Inside.refl c
  | cons data pieces ih => exact (inside_httpdSend c data).trans (ih _)

theorem inside_finishChunk (c : HttpdOut) : Inside c c.finishChunk := by
  rw [finishChunk]
  split
  · exact Inside.refl c
  · exact (inside_httpdSend c CRLF).trans ⟨rfl, rfl, rfl, rfl, rfl, rfl⟩

theorem inside_finishBody (c : HttpdOut) : Inside c c.finishBody := by
  rw [finishBody]
  split_ifs
  · exact ⟨rfl, rfl, rfl, rfl, rfl, rfl⟩
  · exact Inside.refl c

@[simp] theorem chunkHdr_finishChunk (c : HttpdOut) : c.finishChunk.chunkHdr = none := by
  rw [finishChunk]
  split
  · assumption
  · rfl

theorem finishBody_eq (c : HttpdOut) :
    c.finishBody = if c.coded ∧ c.cgi = false then c.putString last else c := by
  simp only [finishBody, coded, Bool.and_eq_true, and_assoc]

@[simp] theorem chunkHdr_finishBody (c : HttpdOut) : c.finishBody.chunkHdr = c.chunkHdr := by
  rw [finishBody]
  split_ifs <;> rfl

/-! ## Sending the buffer -/

/-- What the socket has taken and what it is still to take, in order. -/
def emitted (c : HttpdOut) : List UInt8 := c.wire ++ c.sendBacklog.flatten

/-- The buffer is taken, and does not overtake the backlog; or it goes into the backlog. -/
def Takes (c : HttpdOut) (answer : FlushAnswer) : Prop :=
  c.sendBuffLen = 0 ∨ if answer.took then c.sendBacklog = []
    else c.sendBacklogSize + c.sendBuffLen ≤ HTTPD_MAX_BACKLOG_SIZE ∧ answer.granted = true

theorem deliver_spec {answer : FlushAnswer} (h : c.Takes answer) :
    (c.deliver answer).emitted = c.emitted ++ c.buffered ∧
      (c.deliver answer).sendBuffLen = 0 := by
  rw [deliver]
  by_cases hempty : c.sendBuffLen = 0
  · have hnothing : c.buffered = [] := List.length_eq_zero_iff.mp (length_buffered.trans hempty)
    rw [if_pos hempty, hnothing, List.append_nil]
    exact ⟨rfl, hempty⟩
  rw [if_neg hempty]
  obtain hempty' | htakes := h
  · exact absurd hempty' hempty
  cases htook : answer.took with
  | true =>
    rw [htook, if_pos rfl] at htakes
    rw [if_pos rfl, emitted, emitted, htakes, List.flatten_nil, List.append_nil, List.append_nil]
    exact ⟨rfl, rfl⟩
  | false =>
    rw [htook, if_neg Bool.false_ne_true] at htakes
    obtain ⟨hroom, hgranted⟩ := htakes
    rw [if_neg Bool.false_ne_true, if_neg (Nat.not_lt.mpr hroom), hgranted,
      if_neg Bool.true_eq_false.mp]
    refine ⟨?_, rfl⟩
    simp [emitted]

theorem deliver_fields (c : HttpdOut) (answer : FlushAnswer) :
    (c.deliver answer).cgi = c.cgi ∧ (c.deliver answer).flags = c.flags ∧
      (c.deliver answer).chunkHdr = c.chunkHdr ∧ (c.deliver answer).closed = c.closed := by
  rw [deliver]
  split_ifs <;> exact ⟨rfl, rfl, rfl, rfl⟩

/-- Sending the buffer does what is expected of it. -/
def FlushOk (c : HttpdOut) (answer : FlushAnswer) : Prop :=
  c.Room ∧ c.finishChunk.finishBody.Takes answer

instance (c : HttpdOut) (answer : FlushAnswer) : Decidable (c.FlushOk answer) :=
  inferInstanceAs (Decidable (c.Room ∧ (_ ∨ if answer.took then _ else _)))

/-- **What is sent**: the buffer with its chunk finished, and the last chunk if the body ends. -/
theorem flush_spec {answer : FlushAnswer} (h : Holds c front opn) (hok : c.FlushOk answer) :
    (c.httpdFlushSendBuffer answer).emitted = c.emitted ++ (front ++ finished opn ++
        if c.coded ∧ c.cgi = false then last else []) ∧
      (c.httpdFlushSendBuffer answer).sendBuffLen = 0 := by
  obtain ⟨hroom, htakes⟩ := hok
  obtain ⟨hemitted, hempty⟩ := deliver_spec htakes
  have hchunk := inside_finishChunk c
  have hbody := hchunk.trans (inside_finishBody c.finishChunk)
  have hbuffered : c.finishChunk.finishBody.buffered = front ++ finished opn ++
      if c.coded ∧ c.cgi = false then last else [] := by
    rw [finishBody_eq, coded, hchunk.flags, hchunk.cgi, ← coded]
    split_ifs
    · rw [buffered_putString, buffered_finishChunk h hroom]
    · rw [buffered_finishChunk h hroom, List.append_nil]
  refine ⟨?_, hempty⟩
  rw [httpdFlushSendBuffer, hemitted, hbuffered, emitted, emitted, hbody.wire, hbody.sendBacklog]

theorem flush_fields (c : HttpdOut) (answer : FlushAnswer) :
    (c.httpdFlushSendBuffer answer).cgi = c.cgi ∧
      (c.httpdFlushSendBuffer answer).flags = c.flags ∧
      (c.httpdFlushSendBuffer answer).chunkHdr = none ∧
      (c.httpdFlushSendBuffer answer).closed = c.closed := by
  obtain ⟨hcgi, hflags, hhdr, hclosed⟩ := deliver_fields c.finishChunk.finishBody answer
  have hbody := (inside_finishChunk c).trans (inside_finishBody c.finishChunk)
  refine ⟨hcgi.trans hbody.cgi, hflags.trans hbody.flags, hhdr.trans ?_, hclosed.trans hbody.closed⟩
  rw [chunkHdr_finishBody, chunkHdr_finishChunk]

end Buffered

end HttpdOut

/-! ## Bounds -/

namespace HttpdOut

/-- Nothing but the last chunk is behind the end of the buffer. -/
structure Inbounds (c : HttpdOut) : Prop where
  high : c.sendBuff.high ≤ HTTPD_MAX_SENDBUFF_LEN + 6
  sendBuffLen : c.sendBuffLen ≤ HTTPD_MAX_SENDBUFF_LEN
  chunkHdr : ∀ hdr ∈ c.chunkHdr, hdr + 4 ≤ HTTPD_MAX_SENDBUFF_LEN

/-- The backlog is as long as is counted, and not too long. -/
structure Counted (c : HttpdOut) : Prop where
  size : c.sendBacklogSize = (c.sendBacklog.map List.length).sum
  le : c.sendBacklogSize ≤ HTTPD_MAX_BACKLOG_SIZE

variable {c c' : HttpdOut} {data : List UInt8} {answer : FlushAnswer}

theorem Inside.counted (h : Inside c c') (hc : Counted c) : Counted c' := by
  obtain ⟨hsize, hle⟩ := hc
  refine ⟨?_, ?_⟩
  · rw [h.sendBacklogSize, h.sendBacklog, hsize]
  · rwa [h.sendBacklogSize]

theorem Inbounds.append (h : Inbounds c) : Inbounds (c.append data).1 := by
  obtain hfull | ⟨hroom, hput⟩ := c.append_cases data
  · rw [hfull]
    exact h
  · rw [hput]
    exact ⟨max_le h.high (Nat.le_add_right_of_le hroom), hroom, h.chunkHdr⟩

theorem Inbounds.httpdSend (h : Inbounds c) : Inbounds (c.httpdSend data).1 := by
  rw [HttpdOut.httpdSend]
  split_ifs with hempty hflags hfull
  · exact h
  · exact h
  · -- there is at least one byte behind the header, in whose place the terminator is
    have hpos : 0 < data.length := List.length_pos_iff.mpr hempty
    have hseven : (ascii "0000" ++ CRLF ++ [(0 : UInt8)]).length = 7 := rfl
    refine Inbounds.append ⟨max_le h.high ?_, ?_, fun hdr hhdr ↦ ?_⟩
    · rw [hseven]
      omega
    · change c.sendBuffLen + 6 ≤ _
      omega
    · obtain rfl := Option.some.inj hhdr
      omega
  · exact h.append

theorem Inbounds.finishChunk (h : Inbounds c) : Inbounds c.finishChunk := by
  rw [HttpdOut.finishChunk]
  split
  · exact h
  · rename_i hdr hhdr
    have hsent : Inbounds (c.httpdSend CRLF).1 := h.httpdSend
    exact ⟨max_le hsent.high (Nat.le_add_right_of_le (h.chunkHdr hdr hhdr)), hsent.sendBuffLen,
      nofun⟩

theorem Counted.deliver (hc : Counted c) : Counted (c.deliver answer) := by
  rw [HttpdOut.deliver]
  split_ifs with hempty htook hfull hgranted
  · exact hc
  · exact ⟨hc.size, hc.le⟩
  · exact ⟨hc.size, hc.le⟩
  · exact hc
  · refine ⟨?_, Nat.not_lt.mp hfull⟩
    simp [hc.size]

theorem high_deliver (c : HttpdOut) (answer : FlushAnswer) :
    (c.deliver answer).sendBuff = c.sendBuff := by
  rw [deliver]
  split_ifs <;> rfl

/-- What is not sent and not put into the backlog is no longer than the backlog may be. -/
theorem sendBuffLen_deliver (c : HttpdOut) (answer : FlushAnswer) :
    (c.deliver answer).sendBuffLen ≤ HTTPD_MAX_BACKLOG_SIZE := by
  rw [deliver]
  split_ifs with hempty htook hfull hgranted
  · exact hempty.trans_le (Nat.zero_le _)
  · exact Nat.zero_le _
  · exact Nat.zero_le _
  · exact (Nat.le_add_left _ _).trans (Nat.not_lt.mp hfull)
  · exact Nat.zero_le _

/-- **How far the buffer is written**: six bytes behind its end at most, when it is sent with the
last chunk. -/
theorem Inbounds.flush (h : Inbounds c) : Inbounds (c.httpdFlushSendBuffer answer) := by
  have hfinished := h.finishChunk
  refine ⟨?_, (sendBuffLen_deliver _ _).trans (by decide), ?_⟩
  · rw [httpdFlushSendBuffer, high_deliver, finishBody_eq]
    split_ifs
    · exact max_le hfinished.high (Nat.add_le_add_right hfinished.sendBuffLen 6)
    · exact hfinished.high
  · rw [(flush_fields c answer).2.2.1]
    nofun

theorem Counted.flush (hc : Counted c) : Counted (c.httpdFlushSendBuffer answer) :=
  (((inside_finishChunk c).trans (inside_finishBody c.finishChunk)).counted hc).deliver

theorem Inbounds.done (h : Inbounds c) : Inbounds (c.httpdCgiIsDone answer) := by
  have hoff : Inbounds { c with cgi := false } := ⟨h.high, h.sendBuffLen, h.chunkHdr⟩
  rw [httpdCgiIsDone]
  dsimp only
  split_ifs
  · have hflushed : Inbounds ({ c with cgi := false }.httpdFlushSendBuffer answer) := hoff.flush
    exact ⟨hflushed.high, hflushed.sendBuffLen, hflushed.chunkHdr⟩
  · exact ⟨h.high, h.sendBuffLen, h.chunkHdr⟩

theorem Counted.done (hc : Counted c) : Counted (c.httpdCgiIsDone answer) := by
  rw [httpdCgiIsDone]
  dsimp only
  have hoff : Counted { c with cgi := false } := ⟨hc.size, hc.le⟩
  split_ifs
  · have hflushed : Counted ({ c with cgi := false }.httpdFlushSendBuffer answer) := hoff.flush
    exact ⟨hflushed.size, hflushed.le⟩
  · exact ⟨hc.size, hc.le⟩

end HttpdOut

end Ddmz.Web
