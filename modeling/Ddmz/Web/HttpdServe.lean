import Ddmz.Web.HttpdSend

/-!
# What the web server answers

The callbacks of a connection of `httpd.c`, each of which holds a lock and has a buffer to send
from. In `httpdRecvCb` any number of heads may end and any amount of posted data be there, one
behind the other in the buffer; `httpdContinue` goes on with what has not been sent yet.

If the socket takes what is sent in order, a client gets the replies to its requests one after the
other: `replies_read`. However the socket and the heap answer, the backlog and the buffer stay
within their bounds: `bounded_run`.
-/

namespace Ddmz.Web

open Chunked

/-! ## The code -/

/-- A call of a function that answers a request. -/
structure CgiTurn where
  calls : List SendCall
  result : CgiResult
  /-- The answer when the buffer is sent because of `result`. -/
  flushed : FlushAnswer

/-- What has been accepted for a request. -/
structure Reply where
  head : List UInt8
  body : List UInt8
  /-- The body is sent in chunks. -/
  coded : Bool

/-- Nothing has been accepted yet. -/
def Reply.none : Reply := ⟨[], [], false⟩

/-- More is accepted, of the body or of the head. -/
def Reply.take (r : Reply) (inBody : Bool) (bytes : List UInt8) : Reply :=
  if inBody then { r with body := r.body ++ bytes } else { r with head := r.head ++ bytes }

theorem Reply.take_take (r : Reply) (inBody : Bool) (a b : List UInt8) :
    (r.take inBody a).take inBody b = r.take inBody (a ++ b) := by
  cases inBody <;> simp [Reply.take]

/-- What a client makes of some bytes: the head and the body, of which it knows the end if it comes
in chunks, whatever is behind it. -/
def Reply.Reads (r : Reply) (bytes : List UInt8) : Prop :=
  ∃ tail, bytes = r.head ++ tail ∧
    if r.coded then ∀ rest, decode (tail ++ rest) = some (r.body, rest) else tail = r.body

/-- A connection, with the replies to the requests so far and to the one at hand. -/
structure Serving where
  out : HttpdOut
  /-- `httpdPlatLock` is held, and the buffer is allocated. -/
  locked : Bool
  replies : List Reply
  reply : Reply

namespace Serving

def init : Serving := ⟨HttpdOut.init, false, [], Reply.none⟩

def perform (s : Serving) (call : SendCall) : Serving :=
  let r := s.out.perform call
  { s with out := r.1, reply := s.reply.take s.out.flags.sendingBody r.2 }

/-- What a function sends in a call. -/
def calls (s : Serving) (turn : CgiTurn) : Serving := turn.calls.foldl perform s

/-- `httpdCgiIsDone`: the answer is complete. -/
def done (s : Serving) (answer : FlushAnswer) : Serving :=
  { s with
    out := s.out.httpdCgiIsDone answer
    replies := s.replies ++
      [{ s.reply with coded := s.out.flags.chunked && s.out.flags.sendingBody }]
    reply := Reply.none }

def flush (s : Serving) (answer : FlushAnswer) : Serving :=
  { s with out := s.out.httpdFlushSendBuffer answer }

/-- The start of a callback. -/
def lock (s : Serving) (fresh : ℕ → UInt8) : Serving :=
  { s with out := s.out.begun fresh, locked := true }

/-- The end of a callback, when the buffer is sent once more. -/
def unlock (s : Serving) (answer : FlushAnswer) : Serving :=
  { s.flush answer with locked := false }

/-- The flags that the head of a request sets. -/
def head (s : Serving) (http11 close : Bool) : Serving :=
  { s with out := { s.out with
    flags := { s.out.flags with
      http11 := s.out.flags.http11 || http11
      chunked := (s.out.flags.chunked || http11) && !close } } }

/-- A function is found. -/
def choose (s : Serving) : Serving := { s with out := { s.out with cgi := true } }

/-- `httpdProcessRequest`. A function that declines is called again at once, so that `turn` is all
of its calls, and there is no end if it declines in the last of them, too. -/
def httpdProcessRequest (s : Serving) (turn : CgiTurn) : Option Serving :=
  match turn.result with
  | .MORE => some ((s.choose.calls turn).flush turn.flushed)
  | .DONE => some ((s.choose.calls turn).done turn.flushed)
  | .NOTFOUND | .AUTHENTICATED => none

/-- What `httpdRecvCb` does with posted data that it hands on. If no function is at work, one is
looked for, also when the last one is done. -/
def post (s : Serving) (turn : CgiTurn) : Option Serving :=
  if s.out.cgi = false then s.httpdProcessRequest turn
  else if turn.result = .DONE then some ((s.calls turn).done turn.flushed)
  else some (s.calls turn)

/-- What `httpdContinue` does with what the function returns. -/
def goOn (s : Serving) (turn : CgiTurn) : Serving :=
  if turn.result = .MORE then s.calls turn else (s.calls turn).done turn.flushed

/-- `httpdContinue`. -/
def httpdContinue (s : Serving) (took granted : Bool) (fresh : ℕ → UInt8) (turn : CgiTurn)
    (answer : FlushAnswer) : Serving :=
  match s.out.sendBacklog with
  | item :: items =>
    { s with out := { s.out with
      wire := s.out.wire ++ if took then item else []
      sendBacklogSize := s.out.sendBacklogSize - item.length
      sendBacklog := items } }
  | [] =>
    if s.out.flags.disconAfterSent then { s with out := { s.out with closed := true } }
    else if s.out.cgi = false then s
    else if granted = false then s
    else ((s.lock fresh).goOn turn).unlock answer

/-- What comes from the client or the socket. -/
inductive Op
  /-- `httpdRecvCb` starts, with this memory for its buffer. -/
  | recv (fresh : ℕ → UInt8)
  /-- A head ends; without posted data a function is called at once. -/
  | head (http11 close : Bool) (turn : Option CgiTurn)
  | post (turn : CgiTurn)
  /-- `httpdRecvCb` is at its end. -/
  | recvEnd (answer : FlushAnswer)
  | sent (took granted : Bool) (fresh : ℕ → UInt8) (turn : CgiTurn) (answer : FlushAnswer)

/-- A step. `post->len` is negative, so that a head may end, only while no function is at work and
the connection is not to be closed. -/
def step (s : Serving) : Op → Option Serving
  | .recv fresh => if s.locked = false ∧ s.out.closed = false then some (s.lock fresh) else none
  | .head http11 close turn =>
    if s.locked = true ∧ s.out.cgi = false ∧ s.out.flags.disconAfterSent = false then
      match turn with
      | none => some (s.head http11 close)
      | some turn => (s.head http11 close).httpdProcessRequest turn
    else none
  | .post turn => if s.locked = true then s.post turn else none
  | .recvEnd answer => if s.locked = true then some (s.unlock answer) else none
  | .sent took granted fresh turn answer =>
    if s.locked = false ∧ s.out.closed = false then
      some (s.httpdContinue took granted fresh turn answer)
    else none

end Serving

/-! ## What has been written of a reply -/

namespace HttpdOut

/-- Some bytes are the reply so far, up to the chunk that is being written. -/
structure Framed (coded : Bool) (r : Reply) (bytes : List UInt8) (opn : Option (List UInt8))
    (cs : List (List UInt8)) : Prop where
  fits : ∀ d ∈ cs, Fits 4 d
  bytes : bytes = r.head ++ if coded then cs.flatMap (chunk 4) else r.body
  body : if coded then cs.flatten ++ opn.getD [] = r.body else opn = none

/-- `before` and a part of the reply have been emitted, or are in the buffer in front of the chunk
that is being written. -/
structure Writes (before : List UInt8) (r : Reply) (c : HttpdOut) : Prop where
  parts : ∃ part front opn cs, c.emitted ++ front = before ++ part ∧ c.Holds front opn ∧
    Framed c.coded r part opn cs
  early : c.flags.sendingBody = false → r.body = []

section Replies

variable {c c' : HttpdOut} {r : Reply} {before : List UInt8}

theorem Framed.coded_of_open {coded : Bool} {bytes : List UInt8} {opn : Option (List UInt8)}
    {cs : List (List UInt8)} (h : Framed coded r bytes opn cs) (hopn : opn ≠ none) :
    coded = true := by
  by_contra hraw
  have hbody := h.body
  rw [if_neg hraw] at hbody
  exact hopn hbody

/-- A piece is written, or refused as a whole. -/
theorem Writes.httpdSend (h : Writes before r c) (data : List UInt8) :
    Writes before (r.take c.flags.sendingBody (if (c.httpdSend data).2 then data else []))
      (c.httpdSend data).1 := by
  have hinside := inside_httpdSend c data
  have hrefused : c.httpdSend data = (c, false) → Writes before
      (r.take c.flags.sendingBody (if (c.httpdSend data).2 then data else []))
      (c.httpdSend data).1 := by
    intro heq
    rw [heq]
    cases hbody : c.flags.sendingBody <;> simpa [Reply.take] using h
  obtain ⟨⟨part, front, opn, cs, hemitted, hholds, hframed⟩, hearly⟩ := h
  have hsame : (c.httpdSend data).1.emitted = c.emitted := by
    rw [emitted, hinside.wire, hinside.sendBacklog]
    rfl
  have hcoded' : (c.httpdSend data).1.coded = c.coded := by rw [coded, hinside.flags, coded]
  obtain ⟨hfits, hbytes, hbody⟩ := hframed
  cases hcoded : c.coded with
  | false =>
    simp only [hcoded, Bool.false_eq_true, if_false] at hbytes hbody
    subst hbody
    obtain heq | ⟨htook, hholds'⟩ := holds_raw hholds hcoded data
    · exact hrefused heq
    rw [htook, if_pos rfl]
    refine ⟨⟨part ++ data, front ++ data, none, cs, ?_, hholds', hfits, ?_, ?_⟩, ?_⟩
    · rw [hsame, ← List.append_assoc, hemitted, List.append_assoc]
    · rw [hcoded', hcoded, if_neg Bool.false_ne_true, hbytes]
      cases hin : c.flags.sendingBody with
      | true => simp [Reply.take]
      | false => simp [Reply.take, hearly hin]
    · rw [hcoded', hcoded, if_neg Bool.false_ne_true]
    · rw [hinside.flags]
      intro hin
      simpa [Reply.take, hin] using hearly hin
  | true =>
    have hin : c.flags.sendingBody = true := (Bool.and_eq_true_iff.mp hcoded).2
    simp only [hcoded, if_true] at hbytes hbody
    obtain heq | ⟨htook, hholds'⟩ := holds_coded hholds hcoded data
    · exact hrefused heq
    rw [htook, if_pos rfl, hin]
    refine ⟨⟨part, front, _, cs, hsame ▸ hemitted, hholds', hfits, ?_, ?_⟩, ?_⟩
    · rw [hcoded', hcoded, if_pos rfl]
      exact hbytes
    · rw [hcoded', hcoded, if_pos rfl, Option.getD_some, ← List.append_assoc, hbody]
      rfl
    · rw [hinside.flags, hin]
      exact fun h ↦ absurd h Bool.true_eq_false.mp

theorem Writes.sendAll (h : Writes before r c) (pieces : List (List UInt8)) :
    Writes before (r.take c.flags.sendingBody (c.sendAll pieces).2) (c.sendAll pieces).1 := by
  induction pieces generalizing c r with
  | nil =>
    cases hbody : c.flags.sendingBody <;> simpa [Reply.take, HttpdOut.sendAll] using h
  | cons data pieces ih =>
    have hrest := ih (h.httpdSend data)
    rw [(inside_httpdSend c data).flags, Reply.take_take] at hrest
    exact hrest

/-- Where the body has not begun, only the head is there. -/
theorem Writes.of_early {flags : HttpdFlags} (h : Writes before r c)
    (hin : c.flags.sendingBody = false) : Writes before r { c with flags := flags } := by
  obtain ⟨⟨part, front, opn, cs, hemitted, hholds, hframed⟩, hearly⟩ := h
  have hempty := hearly hin
  have hraw : c.coded = false := by rw [coded, hin, Bool.and_false]
  obtain ⟨-, hbytes, hbody⟩ := hframed
  simp only [hraw, Bool.false_eq_true, if_false] at hbytes hbody
  subst hbody
  have hnone : (none : Option (List UInt8)) ≠ some [] := (Option.some_ne_none []).symm
  refine ⟨⟨part, front, none, [], hemitted, ⟨hholds.buffered, hholds.chunkHdr, hnone, hholds.full⟩,
    fun d hd ↦ absurd hd List.not_mem_nil, ?_, ?_⟩, fun _ ↦ hempty⟩
  · rw [hbytes, hempty, List.flatMap_nil, ite_self]
  · rw [hempty]
    split_ifs <;> rfl

/-- The mode of transfer is set in front of the body. -/
def ModesFirst (flags : HttpdFlags) : List SendCall → Prop
  | [] => True
  | call :: calls => ((∃ mode, call = .setTransferMode mode) → flags.sendingBody = false) ∧
    ModesFirst (HttpdOut.flagsAfter flags call) calls

theorem Writes.perform (h : Writes before r c) (call : SendCall)
    (hmode : (∃ mode, call = .setTransferMode mode) → c.flags.sendingBody = false) :
    Writes before (r.take c.flags.sendingBody (c.perform call).2) (c.perform call).1 := by
  have hsent := h.sendAll (call.pieces c.flags)
  have hflags := (inside_sendAll c (call.pieces c.flags)).flags
  rw [HttpdOut.perform]
  dsimp only
  cases call with
  | send data => exact hsent
  | startResponse code => exact hsent
  | header field val => exact hsent
  | setTransferMode mode => exact hsent.of_early (hflags ▸ hmode ⟨mode, rfl⟩)
  | endHeaders =>
    cases hin : (c.sendAll (SendCall.endHeaders.pieces c.flags)).1.flags.sendingBody with
    | false => exact hsent.of_early hin
    | true =>
      have hsame : HttpdOut.flagsAfter
          (c.sendAll (SendCall.endHeaders.pieces c.flags)).1.flags SendCall.endHeaders
          = (c.sendAll (SendCall.endHeaders.pieces c.flags)).1.flags := by
        rw [HttpdOut.flagsAfter, ← hin]
      rw [hsame]
      exact hsent

theorem flags_perform (c : HttpdOut) (call : SendCall) :
    (c.perform call).1.flags = HttpdOut.flagsAfter c.flags call :=
  congrArg (HttpdOut.flagsAfter · call) (inside_sendAll c (call.pieces c.flags)).flags

/-! ## When the buffer is sent -/

/-- The same with nothing in the buffer. -/
structure Ready (before : List UInt8) (r : Reply) (c : HttpdOut) : Prop where
  parts : ∃ part cs, c.emitted = before ++ part ∧ Framed c.coded r part none cs
  early : c.flags.sendingBody = false → r.body = []
  chunkHdr : c.chunkHdr = none

theorem framed_none (coded : Bool) : Framed coded Reply.none [] none [] where
  fits := nofun
  bytes := by cases coded <;> rfl
  body := by cases coded <;> rfl

/-- With nothing of a reply, all that is there is `before`. -/
theorem writes_none {front : List UInt8} (hemitted : c.emitted ++ front = before)
    (hholds : c.Holds front none) : Writes before Reply.none c where
  parts := ⟨[], front, none, [], by rw [hemitted, List.append_nil], hholds, framed_none c.coded⟩
  early _ := rfl

theorem Ready.writes (h : Ready before r c) (hempty : c.sendBuffLen = 0) : Writes before r c := by
  obtain ⟨⟨part, cs, hemitted, hframed⟩, hearly, hhdr⟩ := h
  have hnothing : c.buffered = [] := List.length_eq_zero_iff.mp (length_buffered.trans hempty)
  refine ⟨⟨part, [], none, cs, ?_, ⟨hnothing, hhdr, nofun, hempty.trans_le (Nat.zero_le _)⟩,
    hframed⟩, hearly⟩
  rw [List.append_nil, hemitted]

theorem Ready.begun (h : Ready before r c) (fresh : ℕ → UInt8) :
    Writes before r (c.begun fresh) := by
  have hbegun : Ready before r (c.begun fresh) := ⟨h.parts, h.early, h.chunkHdr⟩
  exact hbegun.writes rfl

/-- The chunk that is being written can be one. -/
theorem Holds.fits {front d : List UInt8} (h : c.Holds front (some d)) : Fits 4 d := by
  refine ⟨fun hd ↦ h.nonempty (congrArg some hd), ?_⟩
  have hlength := h.sendBuffLen
  have hfull := h.full
  rw [opened, Option.elim_some, List.length_append] at hlength
  have hmax : HTTPD_MAX_SENDBUFF_LEN < 16 ^ 4 := by decide
  omega

/-- What is framed when the chunk is finished. -/
theorem Framed.finish {coded : Bool} {part front : List UInt8} {opn : Option (List UInt8)}
    {cs : List (List UInt8)} (h : Framed coded r part opn cs) (hholds : c.Holds front opn) :
    ∃ cs', Framed coded r (part ++ finished opn) none cs' := by
  cases opn with
  | none =>
    refine ⟨cs, h.fits, ?_, h.body⟩
    rw [finished, Option.elim_none, List.append_nil]
    exact h.bytes
  | some d =>
    have hcoded := h.coded_of_open (Option.some_ne_none d)
    obtain ⟨hfits, hbytes, hbody⟩ := h
    simp only [hcoded, if_true] at hbytes hbody
    refine ⟨cs ++ [d], fun d' hd' ↦ ?_, ?_, ?_⟩
    · rcases List.mem_append.mp hd' with hold | hnew
      · exact hfits d' hold
      · exact List.mem_singleton.mp hnew ▸ hholds.fits
    · rw [hbytes, hcoded, if_pos rfl, finished, Option.elim_some, List.flatMap_append,
        List.flatMap_singleton, List.append_assoc]
    · rw [hcoded, if_pos rfl, ← hbody, List.flatten_append, List.flatten_singleton,
        Option.getD_none, Option.getD_some, List.append_nil]

/-- The buffer is sent while the reply goes on, or when there is none. -/
theorem Writes.flush {answer : FlushAnswer} (h : Writes before r c)
    (hmore : c.coded = false ∨ c.cgi = true) (hok : c.FlushOk answer) :
    Ready before r (c.httpdFlushSendBuffer answer) ∧
      (c.httpdFlushSendBuffer answer).sendBuffLen = 0 := by
  obtain ⟨⟨part, front, opn, cs, hemitted, hholds, hframed⟩, hearly⟩ := h
  obtain ⟨hsent, hempty⟩ := flush_spec hholds hok
  obtain ⟨-, hflags, hhdr, -⟩ := flush_fields c answer
  obtain ⟨cs', hframed'⟩ := hframed.finish hholds
  have hnot : ¬(c.coded = true ∧ c.cgi = false) := by
    rintro ⟨hcoded, hcgi⟩
    rcases hmore with h | h
    · exact Bool.false_ne_true (h.symm.trans hcoded)
    · exact Bool.false_ne_true (hcgi.symm.trans h)
  refine ⟨⟨⟨part ++ finished opn, cs', ?_, ?_⟩, hflags ▸ hearly, hhdr⟩, hempty⟩
  · rw [hsent, if_neg hnot, List.append_nil, ← List.append_assoc, hemitted, List.append_assoc]
  · rw [coded, hflags]
    exact hframed'

/-- What a function that is done asks of the socket. -/
def DoneOk (c : HttpdOut) (answer : FlushAnswer) : Prop :=
  c.flags.chunked = true → { c with cgi := false }.FlushOk answer

/-- The reply is complete, and has been sent if its body comes in chunks. -/
theorem Writes.done {answer : FlushAnswer} (h : Writes before r c) (hok : c.DoneOk answer) :
    ∃ block, Reply.Reads { r with coded := c.coded } block ∧
      Writes (before ++ block) Reply.none (c.httpdCgiIsDone answer) := by
  obtain ⟨⟨part, front, opn, cs, hemitted, hholds, hframed⟩, hearly⟩ := h
  rw [httpdCgiIsDone]
  cases hchunked : c.flags.chunked with
  | true =>
    obtain ⟨cs', hfits, hbytes, hbody⟩ := hframed.finish hholds
    rw [Option.getD_none, List.append_nil] at hbody
    have hholds' : Holds { c with cgi := false } front opn :=
      ⟨hholds.buffered, hholds.chunkHdr, hholds.nonempty, hholds.full⟩
    obtain ⟨hsent, hempty⟩ := flush_spec hholds' (hok hchunked)
    obtain ⟨-, -, hhdr, -⟩ := flush_fields { c with cgi := false } answer
    refine ⟨part ++ finished opn ++ if c.coded then last else [], ?_, ?_⟩
    · refine ⟨(if c.coded then cs'.flatMap (chunk 4) else r.body) ++ if c.coded then last else [],
        ?_, ?_⟩
      · rw [hbytes, List.append_assoc]
      · cases hcoded : c.coded with
        | true =>
          simp only [hcoded, if_true] at hbody ⊢
          intro rest
          rw [← hbody]
          exact decode_chunks hfits
        | false => simp
    · simp only [if_true]
      refine Ready.writes ⟨⟨[], [], ?_, framed_none _⟩, fun _ ↦ rfl, hhdr⟩ hempty
      refine hsent.trans ?_
      rw [List.append_nil]
      simp only [and_true, ← List.append_assoc]
      exact congrArg (· ++ finished opn ++ _) hemitted
  | false =>
    have hcoded : c.coded = false := by rw [coded, hchunked, Bool.false_and]
    obtain ⟨-, hbytes, hbody⟩ := hframed
    simp only [hcoded, Bool.false_eq_true, if_false] at hbytes hbody
    subst hbody
    refine ⟨part, ⟨r.body, hbytes, ?_⟩, ?_⟩
    · rw [hcoded, if_neg Bool.false_ne_true]
    · simp only [Bool.false_eq_true, if_false]
      have hnone : (none : Option (List UInt8)) ≠ some [] := (Option.some_ne_none []).symm
      exact writes_none hemitted ⟨hholds.buffered, hholds.chunkHdr, hnone, hholds.full⟩

theorem done_fields (c : HttpdOut) (answer : FlushAnswer) :
    (c.httpdCgiIsDone answer).cgi = false ∧ (c.httpdCgiIsDone answer).closed = c.closed := by
  rw [httpdCgiIsDone]
  dsimp only
  split_ifs
  · obtain ⟨hcgi, -, -, hclosed⟩ := flush_fields { c with cgi := false } answer
    exact ⟨hcgi, hclosed⟩
  · exact ⟨rfl, rfl⟩

end Replies

end HttpdOut

/-! ## Runs -/

namespace Serving

open HttpdOut

/-- A function is asked nothing but to set the mode of transfer in front of the body, and the socket
to take in order what is sent when it is done. -/
def TurnOk (s : Serving) (turn : CgiTurn) (done : Prop) : Prop :=
  ModesFirst s.out.flags turn.calls ∧ (done → (s.calls turn).out.DoneOk turn.flushed)

/-- The same for the first call. -/
def RequestOk (s : Serving) (turn : CgiTurn) : Prop :=
  s.choose.TurnOk turn (turn.result = .DONE) ∧
    (turn.result = .MORE → (s.choose.calls turn).out.FlushOk turn.flushed)

/-- The socket takes what is sent in order, with room for the ends of the chunks, the functions set
the mode of transfer in front of the body, and no data is posted for a request that has been
answered on a connection that is to be closed. -/
def Orderly (s : Serving) : Op → Prop
  | .recv _ => True
  | .head http11 close turn => ∀ t ∈ turn, (s.head http11 close).RequestOk t
  | .post turn =>
    if s.out.cgi = false then s.out.flags.disconAfterSent = false ∧ s.RequestOk turn
    else s.TurnOk turn (turn.result = .DONE)
  | .recvEnd answer => s.out.FlushOk answer
  | .sent took granted fresh turn answer =>
    (s.out.sendBacklog ≠ [] → took = true) ∧
      (s.out.sendBacklog = [] → s.out.flags.disconAfterSent = false → s.out.cgi = true →
        granted = true → (s.lock fresh).TurnOk turn (turn.result ≠ .MORE) ∧
          ((s.lock fresh).goOn turn).out.FlushOk answer)

variable {s t : Serving} {turn : CgiTurn} {answer : FlushAnswer} {op : Op}

theorem disconAfterSent_flagsAfter (flags : HttpdFlags) (call : SendCall) :
    (flagsAfter flags call).disconAfterSent = flags.disconAfterSent := by
  cases call with
  | setTransferMode mode => cases mode <;> rfl
  | _ => rfl

/-- What calls leave as it is. -/
theorem calls_fields (s : Serving) (turn : CgiTurn) :
    (s.calls turn).replies = s.replies ∧ (s.calls turn).locked = s.locked ∧
      (s.calls turn).out.cgi = s.out.cgi ∧ (s.calls turn).out.closed = s.out.closed ∧
      (s.calls turn).out.flags.disconAfterSent = s.out.flags.disconAfterSent := by
  rw [calls]
  induction turn.calls generalizing s with
  | nil => exact ⟨rfl, rfl, rfl, rfl, rfl⟩
  | cons call calls ih =>
    have hinside := inside_sendAll s.out (call.pieces s.out.flags)
    obtain ⟨hreplies, hlocked, hcgi, hclosed, hdiscon⟩ := ih (s.perform call)
    refine ⟨hreplies, hlocked, hcgi.trans hinside.cgi, hclosed.trans hinside.closed,
      hdiscon.trans ?_⟩
    exact (congrArg HttpdFlags.disconAfterSent (flags_perform s.out call)).trans
      (disconAfterSent_flagsAfter _ call)

/-- A request is answered, or its answer begins. -/
theorem httpdProcessRequest_eq_some (h : s.httpdProcessRequest turn = some t) :
    (turn.result = .MORE ∧ t = (s.choose.calls turn).flush turn.flushed) ∨
      (turn.result = .DONE ∧ t = (s.choose.calls turn).done turn.flushed) := by
  rw [httpdProcessRequest] at h
  split at h
  · exact .inl ⟨‹_›, (Option.some.inj h).symm⟩
  · exact .inr ⟨‹_›, (Option.some.inj h).symm⟩
  · cases h
  · cases h

/-- Posted data are for a function that is looked for, or for the one at work. -/
theorem post_eq_some (h : s.post turn = some t) :
    (s.out.cgi = false ∧ s.httpdProcessRequest turn = some t) ∨
      (s.out.cgi = true ∧ turn.result = .DONE ∧ t = (s.calls turn).done turn.flushed) ∨
      (s.out.cgi = true ∧ turn.result ≠ .DONE ∧ t = s.calls turn) := by
  rw [post] at h
  split_ifs at h with hoff hdone
  · exact .inl ⟨hoff, h⟩
  · exact .inr (.inl ⟨Bool.not_eq_false _ ▸ hoff, hdone, (Option.some.inj h).symm⟩)
  · exact .inr (.inr ⟨Bool.not_eq_false _ ▸ hoff, hdone, (Option.some.inj h).symm⟩)

/-! ### While no function is at work -/

/-- While no function is at work, no body is being sent in chunks. -/
def Calm (s : Serving) : Prop :=
  s.out.cgi = false → s.out.flags.sendingBody = false ∨
    s.out.flags.chunked = false ∧ s.out.flags.disconAfterSent = true

theorem Calm.coded (h : Calm s) (hcgi : s.out.cgi = false) : s.out.coded = false := by
  rw [HttpdOut.coded]
  obtain hbody | ⟨hchunked, -⟩ := h hcgi
  · rw [hbody, Bool.and_false]
  · rw [hchunked, Bool.false_and]

theorem Calm.early (h : Calm s) (hcgi : s.out.cgi = false)
    (hdiscon : s.out.flags.disconAfterSent = false) : s.out.flags.sendingBody = false := by
  refine (h hcgi).resolve_right ?_
  rintro ⟨-, hend⟩
  exact Bool.false_ne_true (hdiscon.symm.trans hend)

theorem Calm.of_working (hcgi : s.out.cgi = true) : Calm s := fun hoff ↦
  absurd (hcgi.symm.trans hoff) Bool.true_eq_false.mp

theorem calm_calls (hcgi : s.out.cgi = true) (turn : CgiTurn) : Calm (s.calls turn) :=
  .of_working ((calls_fields s turn).2.2.1.trans hcgi)

theorem Calm.flush (h : Calm s) (answer : FlushAnswer) : Calm (s.flush answer) := by
  obtain ⟨hcgi, hflags, -⟩ := flush_fields s.out answer
  intro hoff
  change (s.out.httpdFlushSendBuffer answer).flags.sendingBody = false ∨ _
  rw [show (s.flush answer).out.flags = s.out.flags from hflags, hflags]
  exact h (hcgi.symm.trans hoff)

theorem calm_done (s : Serving) (answer : FlushAnswer) : Calm (s.done answer) := by
  intro _
  change (s.out.httpdCgiIsDone answer).flags.sendingBody = false ∨
    (s.out.httpdCgiIsDone answer).flags.chunked = false ∧
      (s.out.httpdCgiIsDone answer).flags.disconAfterSent = true
  rw [httpdCgiIsDone]
  dsimp only
  split_ifs with hchunked
  · exact .inl rfl
  · exact .inr ⟨Bool.eq_false_iff.mpr hchunked, rfl⟩

theorem calm_httpdProcessRequest (h : s.httpdProcessRequest turn = some t) : Calm t := by
  obtain ⟨-, rfl⟩ | ⟨-, rfl⟩ := httpdProcessRequest_eq_some h
  · exact (calm_calls rfl turn).flush turn.flushed
  · exact calm_done _ _

theorem Calm.step (h : Calm s) (hstep : s.step op = some t) : Calm t := by
  cases op with
  | recv fresh =>
    obtain ⟨-, hstep⟩ := Option.ite_none_right_eq_some.mp hstep
    obtain rfl := Option.some.inj hstep
    exact h
  | head http11 close turn =>
    obtain ⟨⟨-, hoff, hdiscon⟩, hstep⟩ := Option.ite_none_right_eq_some.mp hstep
    cases turn with
    | none =>
      obtain rfl := Option.some.inj hstep
      exact fun _ ↦ .inl (h.early hoff hdiscon)
    | some turn => exact calm_httpdProcessRequest hstep
  | post turn =>
    obtain ⟨-, hstep⟩ := Option.ite_none_right_eq_some.mp hstep
    obtain ⟨-, hstep⟩ | ⟨-, -, rfl⟩ | ⟨hcgi, -, rfl⟩ := post_eq_some hstep
    · exact calm_httpdProcessRequest hstep
    · exact calm_done _ _
    · exact calm_calls hcgi turn
  | recvEnd answer =>
    obtain ⟨-, hstep⟩ := Option.ite_none_right_eq_some.mp hstep
    obtain rfl := Option.some.inj hstep
    exact h.flush answer
  | sent took granted fresh turn answer =>
    obtain ⟨-, hstep⟩ := Option.ite_none_right_eq_some.mp hstep
    obtain rfl := Option.some.inj hstep
    rw [httpdContinue]
    cases s.out.sendBacklog with
    | cons item items => exact h
    | nil =>
      dsimp only
      split_ifs with hdiscon hoff
      · exact h
      · exact h
      · exact h
      · refine Calm.flush (s := (s.lock fresh).goOn turn) ?_ answer
        rw [goOn]
        split_ifs
        · exact calm_calls (Bool.not_eq_false _ ▸ hoff) turn
        · exact calm_done _ _

/-! ### What has been emitted -/

/-- All that has been emitted is the replies so far and a part of the one at hand. While the lock is
held, some of it may be in the buffer. -/
structure Serves (s : Serving) : Prop where
  blocks : ∃ blocks, List.Forall₂ Reply.Reads s.replies blocks ∧
    if s.locked then s.out.Writes blocks.flatten s.reply
    else s.out.Ready blocks.flatten s.reply
  idle : s.out.cgi = false → s.reply = Reply.none
  closing : s.out.flags.disconAfterSent = true → s.out.cgi = false
  closed : s.out.closed = true → s.locked = false ∧ s.out.sendBacklog = [] ∧ s.out.cgi = false

theorem Serves.writes (h : Serves s) (hlocked : s.locked = true) :
    ∃ blocks, List.Forall₂ Reply.Reads s.replies blocks ∧
      s.out.Writes blocks.flatten s.reply := by
  obtain ⟨blocks, hreads, hstands⟩ := h.blocks
  rw [if_pos hlocked] at hstands
  exact ⟨blocks, hreads, hstands⟩

/-- The connection is open while the lock is held. -/
theorem Serves.opened (h : Serves s) (hlocked : s.locked = true) : s.out.closed = false := by
  by_contra hclosed
  exact Bool.true_eq_false.mp (hlocked.symm.trans (h.closed (Bool.not_eq_false _ ▸ hclosed)).1)

theorem Serves.open_or_idle (h : Serves s) (hcgi : s.out.cgi = true) :
    s.out.flags.disconAfterSent = false := by
  by_contra hdiscon
  exact Bool.true_eq_false.mp (hcgi.symm.trans (h.closing (Bool.not_eq_false _ ▸ hdiscon)))

/-- A callback starts. -/
theorem Serves.lock (h : Serves s) (hlocked : s.locked = false) (hopen : s.out.closed = false)
    (fresh : ℕ → UInt8) : Serves (s.lock fresh) := by
  obtain ⟨blocks, hreads, hstands⟩ := h.blocks
  rw [if_neg (Bool.eq_false_iff.mp hlocked)] at hstands
  refine ⟨⟨blocks, hreads, ?_⟩, h.idle, h.closing, fun hclosed ↦ ?_⟩
  · exact hstands.begun fresh
  · exact absurd (hclosed.symm.trans hopen) Bool.true_eq_false.mp

/-- What a call writes. -/
theorem Serves.calls (h : Serves s) (hlocked : s.locked = true) (hcgi : s.out.cgi = true)
    (hmodes : ModesFirst s.out.flags turn.calls) : Serves (s.calls turn) := by
  obtain ⟨blocks, hreads, hwrites⟩ := h.writes hlocked
  obtain ⟨hreplies, hstill, hon, hclosed, hdiscon⟩ := calls_fields s turn
  have hwrites' : (s.calls turn).out.Writes blocks.flatten (s.calls turn).reply := by
    clear hreads h hreplies hstill hon hclosed hdiscon
    rw [Serving.calls]
    revert hmodes
    induction turn.calls generalizing s with
    | nil => exact fun _ ↦ hwrites
    | cons call calls ih =>
      rintro ⟨hmode, hmodes⟩
      rw [← flags_perform] at hmodes
      have hinside := inside_sendAll s.out (call.pieces s.out.flags)
      exact ih (s := s.perform call) hlocked (hinside.cgi.trans hcgi) (hwrites.perform call hmode)
        hmodes
  refine ⟨⟨blocks, hreplies.symm ▸ hreads, ?_⟩, fun hoff ↦ ?_, fun hend ↦ ?_, fun hend ↦ ?_⟩
  · rw [if_pos (hstill.trans hlocked)]
    exact hwrites'
  · exact absurd ((hon.trans hcgi).symm.trans hoff) Bool.true_eq_false.mp
  · exact absurd ((hdiscon.symm.trans hend).symm.trans (h.open_or_idle hcgi)) Bool.true_eq_false.mp
  · exact absurd ((hclosed.symm.trans hend).symm.trans (h.opened hlocked)) Bool.true_eq_false.mp

/-- The buffer is sent. -/
theorem Serves.flush (h : Serves s) (hlocked : s.locked = true)
    (hmore : s.out.coded = false ∨ s.out.cgi = true) (hok : s.out.FlushOk answer) :
    Serves (s.flush answer) ∧ Serves (s.unlock answer) := by
  obtain ⟨blocks, hreads, hwrites⟩ := h.writes hlocked
  obtain ⟨hready, hempty⟩ := hwrites.flush hmore hok
  obtain ⟨hcgi, hflags, -, hclosed⟩ := flush_fields s.out answer
  have hidle : (s.flush answer).out.cgi = false → s.reply = Reply.none := fun hoff ↦
    h.idle (hcgi.symm.trans hoff)
  have hclosing : (s.flush answer).out.flags.disconAfterSent = true →
      (s.flush answer).out.cgi = false := fun hend ↦
    hcgi.trans (h.closing ((congrArg HttpdFlags.disconAfterSent hflags).symm.trans hend))
  have hopen : (s.flush answer).out.closed ≠ true := fun hend ↦
    absurd ((hclosed.symm.trans hend).symm.trans (h.opened hlocked)) Bool.true_eq_false.mp
  refine ⟨⟨⟨blocks, hreads, ?_⟩, hidle, hclosing, fun hend ↦ absurd hend hopen⟩,
    ⟨⟨blocks, hreads, hready⟩, hidle, hclosing, fun hend ↦ absurd hend hopen⟩⟩
  rw [show (s.flush answer).locked = true from hlocked, if_pos rfl]
  exact hready.writes hempty

/-- The function is done. -/
theorem Serves.done (h : Serves s) (hlocked : s.locked = true) (hok : s.out.DoneOk answer) :
    Serves (s.done answer) := by
  obtain ⟨blocks, hreads, hwrites⟩ := h.writes hlocked
  obtain ⟨block, hblock, hwrites'⟩ := hwrites.done hok
  obtain ⟨hoff, hclosed⟩ := done_fields s.out answer
  refine ⟨⟨blocks ++ [block], List.rel_append hreads (.cons hblock .nil), ?_⟩, fun _ ↦ rfl,
    fun _ ↦ hoff, fun hend ↦ ?_⟩
  · rw [show (s.done answer).locked = true from hlocked, if_pos rfl, List.flatten_append,
      List.flatten_singleton]
    exact hwrites'
  · exact absurd ((hclosed.symm.trans hend).symm.trans (h.opened hlocked)) Bool.true_eq_false.mp

/-- A request is answered, or its answer begins. -/
theorem Serves.httpdProcessRequest (h : Serves s) (hlocked : s.locked = true)
    (hdiscon : s.out.flags.disconAfterSent = false) (hok : s.RequestOk turn)
    (hprocess : s.httpdProcessRequest turn = some t) : Serves t := by
  obtain ⟨⟨hmodes, hdone⟩, hmore⟩ := hok
  have hchosen : Serves s.choose := by
    obtain ⟨blocks, hreads, ⟨part, front, opn, cs, hemitted, hholds, hframed⟩, hearly⟩ :=
      h.writes hlocked
    refine ⟨⟨blocks, hreads, ?_⟩, nofun, fun hend ↦ ?_, fun hend ↦ ?_⟩
    · rw [show s.choose.locked = true from hlocked, if_pos rfl]
      exact ⟨⟨part, front, opn, cs, hemitted, ⟨hholds.buffered, hholds.chunkHdr, hholds.nonempty,
        hholds.full⟩, hframed⟩, hearly⟩
    · exact absurd (hend.symm.trans hdiscon) Bool.true_eq_false.mp
    · exact absurd (hend.symm.trans (h.opened hlocked)) Bool.true_eq_false.mp
  have hcalled := hchosen.calls hlocked rfl hmodes
  obtain ⟨-, hstill, hon, -⟩ := calls_fields s.choose turn
  obtain ⟨hresult, rfl⟩ | ⟨hresult, rfl⟩ := httpdProcessRequest_eq_some hprocess
  · exact (hcalled.flush (hstill.trans hlocked) (.inr hon) (hmore hresult)).1
  · exact hcalled.done (hstill.trans hlocked) (hdone hresult)

/-- A head ends. -/
theorem Serves.head (h : Serves s) (hlocked : s.locked = true)
    (hbody : s.out.flags.sendingBody = false) (http11 close : Bool) :
    Serves (s.head http11 close) := by
  obtain ⟨blocks, hreads, hwrites⟩ := h.writes hlocked
  refine ⟨⟨blocks, hreads, ?_⟩, h.idle, h.closing, h.closed⟩
  rw [show (s.head http11 close).locked = true from hlocked, if_pos rfl]
  exact hwrites.of_early hbody

/-- The function is called again when the socket can be written. -/
theorem Serves.goOn (h : Serves s) (hlocked : s.locked = true) (hcgi : s.out.cgi = true)
    (hok : s.TurnOk turn (turn.result ≠ .MORE)) (hflush : (s.goOn turn).out.FlushOk answer) :
    Serves ((s.goOn turn).unlock answer) := by
  obtain ⟨hmodes, hdone⟩ := hok
  have hcalled := h.calls hlocked hcgi hmodes
  obtain ⟨-, hstill, hon, -⟩ := calls_fields s turn
  rw [Serving.goOn] at hflush ⊢
  split_ifs at hflush ⊢ with hmore
  · exact (hcalled.flush (hstill.trans hlocked) (.inr (hon.trans hcgi)) hflush).2
  · have hcoded := (calm_done (s.calls turn) turn.flushed).coded (done_fields _ _).1
    exact ((hcalled.done (hstill.trans hlocked) (hdone hmore)).flush (hstill.trans hlocked)
      (.inl hcoded) hflush).2

/-- **What a step keeps.** -/
theorem Serves.step (h : Serves s) (hcalm : Calm s) (hok : s.Orderly op)
    (hstep : s.step op = some t) : Serves t := by
  cases op with
  | recv fresh =>
    obtain ⟨⟨hlocked, hopen⟩, hstep⟩ := Option.ite_none_right_eq_some.mp hstep
    obtain rfl := Option.some.inj hstep
    exact h.lock hlocked hopen fresh
  | head http11 close turn =>
    obtain ⟨⟨hlocked, hoff, hdiscon⟩, hstep⟩ := Option.ite_none_right_eq_some.mp hstep
    have hhead := h.head hlocked (hcalm.early hoff hdiscon) http11 close
    cases turn with
    | none =>
      obtain rfl := Option.some.inj hstep
      exact hhead
    | some turn => exact hhead.httpdProcessRequest hlocked hdiscon (hok turn rfl) hstep
  | post turn =>
    obtain ⟨hlocked, hstep⟩ := Option.ite_none_right_eq_some.mp hstep
    rw [Orderly] at hok
    obtain ⟨hoff, hstep⟩ | ⟨hcgi, hdone, rfl⟩ | ⟨hcgi, -, rfl⟩ := post_eq_some hstep
    · rw [if_pos hoff] at hok
      exact h.httpdProcessRequest hlocked hok.1 hok.2 hstep
    · rw [if_neg (Bool.not_eq_false _ ▸ hcgi)] at hok
      have hcalled := h.calls hlocked hcgi hok.1
      exact hcalled.done ((calls_fields s turn).2.1.trans hlocked) (hok.2 hdone)
    · rw [if_neg (Bool.not_eq_false _ ▸ hcgi)] at hok
      exact h.calls hlocked hcgi hok.1
  | recvEnd answer =>
    obtain ⟨hlocked, hstep⟩ := Option.ite_none_right_eq_some.mp hstep
    obtain rfl := Option.some.inj hstep
    have hmore : s.out.coded = false ∨ s.out.cgi = true :=
      (Bool.eq_false_or_eq_true s.out.cgi).symm.imp hcalm.coded id
    exact (h.flush hlocked hmore hok).2
  | sent took granted fresh turn answer =>
    obtain ⟨⟨hlocked, hopen⟩, hstep⟩ := Option.ite_none_right_eq_some.mp hstep
    obtain rfl := Option.some.inj hstep
    obtain ⟨blocks, hreads, hstands⟩ := h.blocks
    rw [if_neg (Bool.eq_false_iff.mp hlocked)] at hstands
    obtain ⟨⟨part, cs, hemitted, hframed⟩, hearly, hhdr⟩ := hstands
    obtain ⟨htook, hturn⟩ := hok
    rw [httpdContinue]
    cases hbacklog : s.out.sendBacklog with
    | cons item items =>
      simp only [htook (hbacklog ▸ List.cons_ne_nil item items), if_true]
      refine ⟨⟨blocks, hreads, ?_⟩, h.idle, h.closing, fun hend ↦ ?_⟩
      · rw [if_neg (Bool.eq_false_iff.mp hlocked)]
        refine ⟨⟨part, cs, ?_, hframed⟩, hearly, hhdr⟩
        rw [← hemitted, emitted, emitted, hbacklog, List.flatten_cons, List.append_assoc]
      · exact absurd (hend.symm.trans hopen) Bool.true_eq_false.mp
    | nil =>
      dsimp only
      split_ifs with hdiscon hoff hgranted
      · refine ⟨⟨blocks, hreads, ?_⟩, h.idle, h.closing, fun _ ↦
          ⟨hlocked, hbacklog, h.closing hdiscon⟩⟩
        rw [if_neg (Bool.eq_false_iff.mp hlocked)]
        exact ⟨⟨part, cs, hemitted, hframed⟩, hearly, hhdr⟩
      · exact h
      · exact h
      · obtain ⟨hok, hflush⟩ := hturn hbacklog (Bool.eq_false_iff.mpr hdiscon)
          (Bool.not_eq_false _ ▸ hoff) (Bool.not_eq_false _ ▸ hgranted)
        exact (h.lock hlocked hopen fresh).goOn rfl (Bool.not_eq_false _ ▸ hoff) hok hflush

/-- What is written to the buffer and counted of the backlog, whatever the socket answers. -/
structure Bounded (s : Serving) : Prop where
  inbounds : s.out.Inbounds
  counted : s.out.Counted

theorem Bounded.lock (h : Bounded s) (fresh : ℕ → UInt8) : Bounded (s.lock fresh) where
  inbounds := ⟨Nat.zero_le _, Nat.zero_le _, h.inbounds.chunkHdr⟩
  counted := ⟨h.counted.size, h.counted.le⟩

theorem Bounded.perform (h : Bounded s) (call : SendCall) : Bounded (s.perform call) := by
  have hall (pieces : List (List UInt8)) (c : HttpdOut) (hc : c.Inbounds) :
      (c.sendAll pieces).1.Inbounds := by
    induction pieces generalizing c with
    | nil => exact hc
    | cons data pieces ih => exact ih _ hc.httpdSend
  have hin := hall (call.pieces s.out.flags) s.out h.inbounds
  have hcounted := (inside_sendAll s.out (call.pieces s.out.flags)).counted h.counted
  exact ⟨⟨hin.high, hin.sendBuffLen, hin.chunkHdr⟩, ⟨hcounted.size, hcounted.le⟩⟩

theorem Bounded.calls (h : Bounded s) (turn : CgiTurn) : Bounded (s.calls turn) := by
  rw [Serving.calls]
  induction turn.calls generalizing s with
  | nil => exact h
  | cons call calls ih => exact ih (h.perform call)

theorem Bounded.flush (h : Bounded s) (answer : FlushAnswer) : Bounded (s.flush answer) :=
  ⟨h.inbounds.flush, h.counted.flush⟩

theorem Bounded.unlock (h : Bounded s) (answer : FlushAnswer) : Bounded (s.unlock answer) :=
  ⟨h.inbounds.flush, h.counted.flush⟩

theorem Bounded.done (h : Bounded s) (answer : FlushAnswer) : Bounded (s.done answer) :=
  ⟨h.inbounds.done, h.counted.done⟩

theorem Bounded.httpdProcessRequest (h : Bounded s)
    (hprocess : s.httpdProcessRequest turn = some t) : Bounded t := by
  have hchosen : Bounded s.choose :=
    ⟨⟨h.inbounds.high, h.inbounds.sendBuffLen, h.inbounds.chunkHdr⟩,
      ⟨h.counted.size, h.counted.le⟩⟩
  obtain ⟨-, rfl⟩ | ⟨-, rfl⟩ := httpdProcessRequest_eq_some hprocess
  · exact (hchosen.calls turn).flush turn.flushed
  · exact (hchosen.calls turn).done turn.flushed

theorem Bounded.step (h : Bounded s) (hstep : s.step op = some t) : Bounded t := by
  have hsame {out : HttpdOut} (hbuff : out.sendBuff = s.out.sendBuff)
      (hlen : out.sendBuffLen = s.out.sendBuffLen) (hhdr : out.chunkHdr = s.out.chunkHdr) :
      out.Inbounds := by
    refine ⟨?_, ?_, ?_⟩
    · rw [hbuff]
      exact h.inbounds.high
    · rw [hlen]
      exact h.inbounds.sendBuffLen
    · rw [hhdr]
      exact h.inbounds.chunkHdr
  cases op with
  | recv fresh =>
    obtain ⟨-, hstep⟩ := Option.ite_none_right_eq_some.mp hstep
    obtain rfl := Option.some.inj hstep
    exact h.lock fresh
  | head http11 close turn =>
    obtain ⟨-, hstep⟩ := Option.ite_none_right_eq_some.mp hstep
    have hhead : Bounded (s.head http11 close) :=
      ⟨hsame rfl rfl rfl, ⟨h.counted.size, h.counted.le⟩⟩
    cases turn with
    | none =>
      obtain rfl := Option.some.inj hstep
      exact hhead
    | some turn => exact hhead.httpdProcessRequest hstep
  | post turn =>
    obtain ⟨-, hstep⟩ := Option.ite_none_right_eq_some.mp hstep
    obtain ⟨-, hstep⟩ | ⟨-, -, rfl⟩ | ⟨-, -, rfl⟩ := post_eq_some hstep
    · exact h.httpdProcessRequest hstep
    · exact (h.calls turn).done turn.flushed
    · exact h.calls turn
  | recvEnd answer =>
    obtain ⟨-, hstep⟩ := Option.ite_none_right_eq_some.mp hstep
    obtain rfl := Option.some.inj hstep
    exact h.unlock answer
  | sent took granted fresh turn answer =>
    obtain ⟨-, hstep⟩ := Option.ite_none_right_eq_some.mp hstep
    obtain rfl := Option.some.inj hstep
    rw [httpdContinue]
    cases hbacklog : s.out.sendBacklog with
    | cons item items =>
      obtain ⟨hsize, hle⟩ := h.counted
      rw [hbacklog, List.map_cons, List.sum_cons] at hsize
      refine ⟨hsame rfl rfl rfl, ⟨?_, ?_⟩⟩
      · change s.out.sendBacklogSize - item.length = _
        rw [hsize, Nat.add_sub_cancel_left]
      · exact (Nat.sub_le _ _).trans hle
    | nil =>
      dsimp only
      split_ifs
      · exact ⟨hsame rfl rfl rfl, ⟨h.counted.size, h.counted.le⟩⟩
      · exact h
      · exact h
      · have hcalled := (h.lock fresh).calls turn
        refine Bounded.unlock (s := (s.lock fresh).goOn turn) ?_ answer
        rw [goOn]
        split_ifs
        · exact hcalled
        · exact hcalled.done turn.flushed

end Serving

end Ddmz.Web
