import Ddmz.Web.HttpdRequest

/-!
# What the web server receives

`httpdRecvCb` takes the bytes of a connection one by one. Those in front of the empty line are the
head of a request. Those behind it are what is posted, in a buffer of 2048 bytes, and the function
that answers the request is called whenever that is full and at the end. If the connection stays
open, the next head follows when the function says that it is done.

A client may send one request after the other without waiting for replies, and `recv_submissions`
says that each is answered by the calls it needs, in order, as long as the functions are done with a
request when its last byte has come. The host that is asked is forgotten with the first byte that is
posted.
-/

namespace Ddmz.Web

open Chunked

/-! ## The code -/

/-- A `cgiSendCallback`. -/
inductive Cgi
  | route (i : ℕ)
  | cgiNotFound
  deriving DecidableEq

/-- What a function finds when it is called. -/
structure CgiCall where
  cgi : Cgi
  conn : HttpdConn

/-- What it returns, and what it calls `httdSetTransferMode` with. -/
structure CgiAnswer where
  modes : List TransferMode
  result : CgiResult

/-- The url of a route fits, as a whole or up to the asterisk at its end. -/
def routeMatches (url route : List UInt8) : Bool :=
  route = url ∨ route.getLast? = some 42 ∧ route.dropLast <+: url

/-- A connection of the server, with the calls of functions so far. -/
structure HttpdIn where
  head : HttpdHead
  conn : HttpdConn
  cgi : Option Cgi
  calls : List CgiCall

/-- The urls of the routes, and what the functions answer. -/
structure HttpdEnv where
  routes : List (List UInt8)
  answers : ℕ → CgiAnswer

/-- The first route for a url. -/
def HttpdEnv.cgi (env : HttpdEnv) (url : List UInt8) : Cgi :=
  match env.routes.findIdx? (routeMatches url) with
  | some i => .route i
  | none => .cgiNotFound

namespace HttpdIn

/-- `conn->cgi(conn)`. -/
def callCgi (s : HttpdIn) (env : HttpdEnv) (cgi : Cgi) : HttpdIn × CgiResult :=
  let answer := env.answers s.calls.length
  ({ s with
      calls := s.calls ++ [⟨cgi, s.conn⟩]
      conn := { s.conn with
        flags := answer.modes.foldl HttpdOut.httdSetTransferMode s.conn.flags } },
    answer.result)

/-- The connection waits for the next request. -/
def reset (s : HttpdIn) : HttpdIn :=
  { s with
    head := { s.head with headPos := 0 }
    conn := { s.conn with
      flags := HttpdFlags.none
      hostName := none
      post := { s.conn.post with len := -1, buff := none, buffLen := 0, received := 0 } }
    cgi := none }

/-- `httpdCgiIsDone`, as far as it is about receiving. -/
def httpdCgiIsDone (s : HttpdIn) : HttpdIn :=
  if s.conn.flags.chunked then s.reset
  else { s with conn.flags.disconAfterSent := true, cgi := none }

/-- `httpdProcessRequest`. It is `none` if the function declines, since it is then called again. -/
def httpdProcessRequest (s : HttpdIn) (env : HttpdEnv) : Option HttpdIn :=
  match s.conn.url with
  | none => some s
  | some url =>
    let cgi := env.cgi (cstrAt s.conn.mem url)
    let r := { s with cgi := some cgi }.callCgi env cgi
    match r.2 with
    | .MORE => some r.1
    | .DONE => some r.1.httpdCgiIsDone
    | .NOTFOUND | .AUTHENTICATED => none

/-- When the head is complete, its lines are looked at. -/
def accept (s : HttpdIn) (env : HttpdEnv) (head : HttpdHead) : Option HttpdIn :=
  (s.conn.parseHead head).bind fun conn ↦
    let s := { s with head := head, conn := conn }
    if conn.post.len = 0 then s.httpdProcessRequest env else some s

/-- A byte of the head. -/
def recvHead (s : HttpdIn) (env : HttpdEnv) (b : UInt8) : Option HttpdIn :=
  let r := s.head.recvByte b
  if r.2 then s.accept env r.1 else some { s with head := r.1 }

/-- A byte that is posted goes to the buffer. -/
def store (s : HttpdIn) (buff : Buffer) (b : UInt8) : HttpdIn :=
  { s with conn := { s.conn with
    hostName := none
    post := { s.conn.post with
      buff := some (buff.write s.conn.post.buffLen [b])
      buffLen := s.conn.post.buffLen + 1
      received := s.conn.post.received + 1 } } }

/-- The buffer is full, or all has been received. -/
def postFull (post : HttpdPost) : Prop := post.buffSize ≤ post.buffLen ∨ post.received = post.len

instance (post : HttpdPost) : Decidable (postFull post) :=
  inferInstanceAs (Decidable (_ ∨ _))

/-- The buffer is a string. -/
def terminate (s : HttpdIn) : HttpdIn :=
  { s with conn.post.buff := s.conn.post.buff.map (·.write s.conn.post.buffLen [0]) }

/-- The function is called with what has been posted, and the buffer is empty again. -/
def deliver (s : HttpdIn) (env : HttpdEnv) : Option HttpdIn :=
  let called : Option HttpdIn :=
    match s.cgi with
    | some cgi =>
      let r := s.callCgi env cgi
      if r.2 = .DONE then some r.1.httpdCgiIsDone else some r.1
    | none => s.httpdProcessRequest env
  called.map fun s ↦ { s with conn.post.buffLen := 0 }

/-- A byte that is posted. It is `none` if there is no buffer for it. -/
def recvPost (s : HttpdIn) (env : HttpdEnv) (b : UInt8) : Option HttpdIn :=
  s.conn.post.buff.bind fun buff ↦
    let s := s.store buff b
    if postFull s.conn.post then s.terminate.deliver env else some s

/-- The turn of `httpdRecvCb` for a byte. -/
def recvByte (s : HttpdIn) (env : HttpdEnv) (b : UInt8) : Option HttpdIn :=
  if s.conn.post.len < 0 then s.recvHead env b
  else if s.conn.post.len ≠ 0 then s.recvPost env b
  else some s

/-- `httpdRecvCb` for some bytes, in as many pieces as they come in. -/
def recv (s : HttpdIn) (env : HttpdEnv) (data : List UInt8) : Option HttpdIn :=
  data.foldlM (recvByte · env) s

end HttpdIn

/-! ## Requests of a client -/

/-- A request, and what is posted with it. -/
structure Submission where
  request : ClientRequest
  lines : List SentLine
  /-- The empty line has a carriage return. -/
  cr : Bool
  body : List UInt8

/-- What is posted, in pieces that fit into the buffer. -/
def posted (body : List UInt8) : List (List UInt8) :=
  if body.length ≤ 2048 then [body] else body.take 2048 :: posted (body.drop 2048)
termination_by body.length
decreasing_by
  rw [List.length_drop]
  omega

namespace Submission

def bytes (s : Submission) : List UInt8 := SentLine.all s.lines ++ lineEnd s.cr ++ s.body

/-- A request that a client may send if it will not wait for the reply. -/
structure Sent (s : Submission) : Prop where
  request : s.request.Sent
  lines : s.lines.map SentLine.line = s.request.lines
  fits : (headText s.request.lines ++ CRLF).length < HTTPD_MAX_HEAD_LEN
  chunks : s.request.chunks = true
  closes : s.request.closes = false
  length : s.request.length.getD 0 = s.body.length

/-- The calls that it needs. -/
def calls (s : Submission) : List (Submission × List UInt8) := (posted s.body).map (s, ·)

/-- What the functions return if they are done with the last of these calls. -/
def results (s : Submission) : List CgiResult :=
  List.replicate ((posted s.body).length - 1) .MORE ++ [.DONE]

end Submission

/-- The function is called with one piece of what is posted. -/
structure CgiCall.Gives (call : CgiCall) (env : HttpdEnv) (s : Submission) (part : List UInt8) :
    Prop where
  cgi : call.cgi = env.cgi s.request.path
  shows : call.conn.Shows s.request
  hostName : call.conn.hostName.map (cstrAt call.conn.mem)
    = if s.body = [] then s.request.host else none
  len : call.conn.post.len = s.body.length
  part : s.body ≠ [] → call.conn.post.buffLen = part.length ∧
    ∃ buff : Buffer, call.conn.post.buff = some buff ∧
      buff.read 0 (part.length + 1) = part ++ [0] ∧ buff.high ≤ call.conn.post.buffSize + 1

/-- The functions return these results, and do not change their mind about chunks. -/
def HttpdEnv.Answers (env : HttpdEnv) : ℕ → List CgiResult → Prop
  | _, [] => True
  | n, result :: results =>
    (env.answers n).result = result ∧ (∀ mode ∈ (env.answers n).modes, mode = .CHUNKED) ∧
      env.Answers (n + 1) results

/-- The connection waits for a request. -/
structure HttpdIn.Ready (s : HttpdIn) : Prop where
  head : s.head.Holds []
  len : s.conn.post.len < 0
  received : s.conn.post.received = 0
  hostName : s.conn.hostName = none
  flags : s.conn.flags = HttpdFlags.none
  cgi : s.cgi = none

theorem HttpdEnv.Answers.append {env : HttpdEnv} {n : ℕ} {a b : List CgiResult}
    (h : env.Answers n (a ++ b)) : env.Answers n a ∧ env.Answers (n + a.length) b := by
  induction a generalizing n with
  | nil => exact ⟨trivial, h⟩
  | cons result a ih =>
    obtain ⟨hresult, hmodes, hrest⟩ := h
    obtain ⟨ha, hb⟩ := ih hrest
    refine ⟨⟨hresult, hmodes, ha⟩, ?_⟩
    rwa [List.length_cons, Nat.add_comm a.length, ← Nat.add_assoc]

theorem chunked_foldl {modes : List TransferMode} (hmodes : ∀ mode ∈ modes, mode = .CHUNKED)
    {flags : HttpdFlags} (h : flags.chunked = true) :
    (modes.foldl HttpdOut.httdSetTransferMode flags).chunked = true := by
  induction modes generalizing flags with
  | nil => exact h
  | cons mode modes ih =>
    rw [List.foldl_cons, hmodes mode List.mem_cons_self]
    exact ih (fun mode h ↦ hmodes mode (List.mem_cons_of_mem _ h)) rfl

namespace HttpdIn

section Receiving

variable {s : HttpdIn} {env : HttpdEnv} {sub : Submission} {data rest : List UInt8}

/-- Some bytes are in the buffer. -/
def storeAll (s : HttpdIn) (buff : Buffer) (data : List UInt8) : HttpdIn :=
  { s with conn := { s.conn with
    hostName := none
    post := { s.conn.post with
      buff := some (buff.write s.conn.post.buffLen data)
      buffLen := s.conn.post.buffLen + data.length
      received := s.conn.post.received + data.length } } }

/-- What a call leaves behind. -/
def afterCall (s : HttpdIn) (env : HttpdEnv) (cgi : Cgi) (result : CgiResult) : HttpdIn :=
  let called := ({ s with cgi := some cgi }.callCgi env cgi).1
  if result = .DONE then called.httpdCgiIsDone else called

/-- A connection that has been reset waits for a request. -/
theorem ready_reset (h : s.head.head.high ≤ HTTPD_MAX_HEAD_LEN) : s.reset.Ready where
  head := ⟨rfl, rfl, h⟩
  len := Int.negSucc_lt_zero 0
  received := rfl
  hostName := rfl
  flags := rfl
  cgi := rfl

/-- The function is done, and the connection stays open. -/
theorem afterCall_done {cgi : Cgi} (h : s.conn.flags.chunked = true)
    (hmodes : ∀ mode ∈ (env.answers s.calls.length).modes, mode = .CHUNKED) :
    s.afterCall env cgi .DONE = ({ s with cgi := some cgi }.callCgi env cgi).1.reset := by
  rw [afterCall, if_pos rfl, httpdCgiIsDone]
  exact if_pos (chunked_foldl hmodes h)

theorem httpdProcessRequest_eq {url : ℕ} {result : CgiResult} (hurl : s.conn.url = some url)
    (hresult : (env.answers s.calls.length).result = result)
    (hdecline : result = .MORE ∨ result = .DONE) : s.httpdProcessRequest env
      = some (s.afterCall env (env.cgi (cstrAt s.conn.mem url)) result) := by
  rw [httpdProcessRequest, hurl]
  rcases hdecline with rfl | rfl
  · simp only [callCgi, hresult, afterCall]
    rfl
  · simp only [callCgi, hresult, afterCall]
    rfl

/-- Some of what is posted is still to come. -/
structure Posting (s : HttpdIn) (env : HttpdEnv) (sub : Submission) (rest : List UInt8) :
    Prop where
  shows : s.conn.Shows sub.request
  chunked : s.conn.flags.chunked = true
  len : s.conn.post.len = sub.body.length
  buffSize : s.conn.post.buffSize = min (sub.body.length : ℤ) 2048
  buffLen : s.conn.post.buffLen = 0
  received : s.conn.post.received = sub.body.length - rest.length
  buff : ∃ buff : Buffer, s.conn.post.buff = some buff ∧ buff.high ≤ s.conn.post.buffSize + 1
  head : s.head.head.high ≤ HTTPD_MAX_HEAD_LEN
  cgi : s.cgi = none ∨ s.cgi = some (env.cgi sub.request.path)
  le : rest.length ≤ sub.body.length

/-- When a buffer is full, it is what the function is called with. -/
theorem Posting.gives {part more : List UInt8} {buff : Buffer}
    (h : s.Posting env sub (part ++ more)) (hne : part ≠ [])
    (hpart : part.length = min 2048 (part ++ more).length)
    (hhigh : buff.high ≤ s.conn.post.buffSize + 1) :
    CgiCall.Gives ⟨env.cgi sub.request.path, (s.storeAll buff part).terminate.conn⟩ env sub
      part where
  cgi := rfl
  shows := h.shows.congr rfl rfl rfl rfl rfl rfl
  hostName := by
    have hbody : sub.body ≠ [] := by
      rintro hnil
      have hle := h.le
      have hpos := List.length_pos_of_ne_nil hne
      rw [hnil, List.length_append, List.length_nil] at hle
      omega
    rw [if_neg hbody]
    rfl
  len := h.len
  part := by
    have hstored : (s.storeAll buff part).terminate.conn.post.buff
        = some (buff.write 0 (part ++ [0])) := by
      rw [Buffer.write_append, Nat.zero_add]
      simp only [terminate, storeAll, Option.map_some, h.buffLen, Nat.zero_add]
    have hfits : (part.length : ℤ) ≤ s.conn.post.buffSize := by
      have hle := h.le
      rw [h.buffSize]
      omega
    refine fun _ ↦ ⟨by simp only [terminate, storeAll, h.buffLen, Nat.zero_add], _, hstored, ?_, ?_⟩
    · have hlen : (part ++ [0]).length = part.length + 1 := List.length_append
      rw [← hlen, Buffer.read_write]
    · change ((buff.write 0 (part ++ [0])).high : ℤ) ≤ s.conn.post.buffSize + 1
      rw [Buffer.high_write, List.length_append, List.length_singleton]
      omega

/-- The function has taken one buffer and wants the next. -/
theorem Posting.goesOn {part more : List UInt8} (h : s.Posting env sub (part ++ more))
    {buff : Buffer} {call : CgiCall} (hgives : call.Gives env sub part)
    (hconn : call.conn = (s.storeAll buff part).terminate.conn) (hbody : sub.body ≠ [])
    (hmodes : ∀ mode ∈ (env.answers s.calls.length).modes, mode = .CHUNKED) :
    ({ (s.storeAll buff part).terminate.afterCall env (env.cgi sub.request.path) .MORE with
      conn.post.buffLen := 0 } : HttpdIn).Posting env sub more := by
  obtain ⟨-, buff', hbuff, -, hhigh⟩ := hgives.part hbody
  rw [hconn] at hbuff hhigh
  have hsplit : (part ++ more).length = part.length + more.length := List.length_append
  have hle := h.le
  exact {
    shows := h.shows.congr rfl rfl rfl rfl rfl rfl
    chunked := chunked_foldl hmodes h.chunked
    len := h.len
    buffSize := h.buffSize
    buffLen := rfl
    received := by
      change s.conn.post.received + (part.length : ℤ) = _
      rw [h.received]
      omega
    buff := ⟨buff', hbuff, hhigh⟩
    head := h.head
    cgi := .inr rfl
    le := by omega }

/-- The head of a request has been looked at. -/
structure Accepted (s : HttpdIn) (sub : Submission) : Prop where
  shows : s.conn.Shows sub.request
  hostName : s.conn.hostName.map (cstrAt s.conn.mem) = sub.request.host
  chunked : s.conn.flags.chunked = true
  head : s.head.head.high ≤ HTTPD_MAX_HEAD_LEN
  received : s.conn.post.received = 0
  len : s.conn.post.len = sub.body.length
  expect : sub.body ≠ [] → s.conn.post.buffLen = 0 ∧
    s.conn.post.buffSize = min (sub.body.length : ℤ) 2048 ∧ s.conn.post.buff = some Buffer.zeroed
  cgi : s.cgi = none

/-- A request with nothing posted is answered at once. -/
theorem Accepted.answer (h : s.Accepted sub) (hbody : sub.body = [])
    (hanswers : env.Answers s.calls.length [.DONE]) :
    ∃ s' : HttpdIn, s.httpdProcessRequest env = some s' ∧ s'.Ready ∧ ∃ call : CgiCall,
      s'.calls = s.calls ++ [call] ∧ call.Gives env sub [] := by
  obtain ⟨hresult, hmodes, -⟩ := hanswers
  obtain ⟨url, hurl, hpath⟩ := Option.map_eq_some_iff.mp h.shows.url
  have hprocess : s.httpdProcessRequest env
      = some (s.afterCall env (env.cgi sub.request.path) .DONE) := by
    rw [← hpath]
    exact httpdProcessRequest_eq hurl hresult (.inr rfl)
  rw [afterCall_done h.chunked hmodes] at hprocess
  refine ⟨_, hprocess, ready_reset h.head, ⟨env.cgi sub.request.path, s.conn⟩, rfl, ?_⟩
  exact {
    cgi := rfl
    shows := h.shows
    hostName := by rw [if_pos hbody, h.hostName]
    len := h.len
    part := fun hne ↦ absurd hbody hne }

theorem Accepted.posting (h : s.Accepted sub) (hbody : sub.body ≠ []) :
    s.Posting env sub sub.body := by
  obtain ⟨hbuffLen, hbuffSize, hbuff⟩ := h.expect hbody
  exact {
    shows := h.shows
    chunked := h.chunked
    len := h.len
    buffSize := hbuffSize
    buffLen := hbuffLen
    received := by rw [h.received, Int.sub_self]
    buff := by
      refine ⟨Buffer.zeroed, hbuff, ?_⟩
      change (0 : ℤ) ≤ s.conn.post.buffSize + 1
      omega
    head := h.head
    cgi := .inl h.cgi
    le := le_refl _ }

end Receiving

/-- A connection as `httpdConnectCb` makes it. -/
def init : HttpdIn where
  head := ⟨Buffer.zeroed, 0⟩
  conn :=
    { mem := []
      headPos := 0
      requestType := none
      url := none
      getArgs := none
      hostName := none
      flags := HttpdFlags.none
      post := ⟨-1, 0, 0, 0, none, none⟩ }
  cgi := none
  calls := []

end HttpdIn

end Ddmz.Web
