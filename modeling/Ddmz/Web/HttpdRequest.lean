import Ddmz.Alarm.Format
import Ddmz.Foundation.CString
import Ddmz.Foundation.Json
import Ddmz.Foundation.Lines
import Ddmz.Foundation.Search
import Ddmz.Web.HttpdHead
import Ddmz.Web.HttpdSend

/-!
# The lines of a request

When the head of a request is complete, `httpdRecvCb` ends each of its lines with a zero and has
`httpdParseHeader` look at it. That ends the url and what is in front of its arguments with zeros as
well, and the strings of the request are pointers into the head. `httpdGetHeader` goes over all
these strings again, and counts on the first line being two of them.

`parseHead_request` says that for a request as clients send it all of it is found where it belongs,
and each field of the head by its name.
-/

namespace Ddmz.Web

open Chunked

/-- `':'`. -/
abbrev COLON : UInt8 := 58

/-- `'?'`. -/
abbrev QUESTION : UInt8 := 63

/-! ## The code -/

/-- `HTTPD_METHOD_*`. -/
inductive HttpdMethod
  | GET | POST | SUB | UNSUB | ANNOUNCE | SETUP | RECORD | PAUSE | FLUSH | TEARDOWN | OPTIONS
  | GET_PARAMETER | SET_PARAMETER | NOTIFY
  deriving DecidableEq

def HttpdMethod.code : HttpdMethod → ℕ
  | .GET => 1
  | .POST => 2
  | .SUB => 3
  | .UNSUB => 4
  | .ANNOUNCE => 5
  | .SETUP => 6
  | .RECORD => 7
  | .PAUSE => 8
  | .FLUSH => 9
  | .TEARDOWN => 10
  | .OPTIONS => 11
  | .GET_PARAMETER => 12
  | .SET_PARAMETER => 13
  | .NOTIFY => 14

/-- What the beginning of a first line is compared with, and how many bytes of it. -/
structure MethodText where
  text : String
  n : ℕ
  method : HttpdMethod

/-- The bytes that are compared. -/
def MethodText.compared (t : MethodText) : List UInt8 := (ascii t.text).take t.n

/-- The first lines in the order in which they are asked for. -/
def methodTexts : List MethodText :=
  [⟨"SUBSCRIBE ", 10, .SUB⟩, ⟨"UNSUBSCRIBE ", 12, .UNSUB⟩, ⟨"NOTIFY ", 7, .NOTIFY⟩,
    ⟨"GET ", 4, .GET⟩, ⟨"POST ", 5, .POST⟩, ⟨"ANNOUNCE ", 9, .ANNOUNCE⟩, ⟨"RECORD ", 7, .RECORD⟩,
    ⟨"SETUP ", 6, .SETUP⟩, ⟨"PAUSE ", 6, .PAUSE⟩, ⟨"FLUSH ", 6, .FLUSH⟩,
    ⟨"TEARDOWN ", 9, .TEARDOWN⟩, ⟨"OPTIONS ", 8, .OPTIONS⟩,
    ⟨"GET_PARAMETER ", 13, .GET_PARAMETER⟩, ⟨"SET_PARAMETER ", 13, .SET_PARAMETER⟩]

def HTTPD_MAX_POST_LEN : ℤ := 2048

/-- `HttpdPostData`. -/
structure HttpdPost where
  len : ℤ
  buffSize : ℤ
  buffLen : ℕ
  received : ℤ
  buff : Option Buffer
  /-- Where it is in the head. -/
  multipartBoundary : Option ℕ

/-- So many bytes are to be posted. -/
def HttpdPost.expect (post : HttpdPost) (len : ℤ) : HttpdPost :=
  { post with
    len := len
    buffSize := if len > HTTPD_MAX_POST_LEN then HTTPD_MAX_POST_LEN else len
    buff := some Buffer.zeroed
    buffLen := 0 }

/-- What `HttpdConnData` has of a request. The strings are in the head. -/
structure HttpdConn where
  /-- `priv->head`, with its terminator. -/
  mem : List UInt8
  headPos : ℕ
  requestType : Option HttpdMethod
  url : Option ℕ
  getArgs : Option ℕ
  hostName : Option ℕ
  flags : HttpdFlags
  post : HttpdPost

/-- `atoi`. -/
def atoi (s : List UInt8) : ℤ := ((Alarm.scanInt s).map Prod.fst).getD 0

/-- `strcasecmp`, if it answers zero. -/
def sameCase (s t : List UInt8) : Prop := s.map lower = t.map lower

instance (s t : List UInt8) : Decidable (sameCase s t) :=
  inferInstanceAs (Decidable (s.map lower = t.map lower))

/-- `strstr`. -/
def strstr (s word : List UInt8) : Option ℕ := firstOcc (· == ·) word s

/-- The `while` loops that skip blanks. -/
def skipBlanks (s : List UInt8) : List UInt8 := s.dropWhile (· = SPACE)

/-- What `httpdGetHeader` makes of one string of the head. -/
def stringValue (header s : List UInt8) : Option (List UInt8) :=
  let s := s.dropWhile (· ≤ 32)
  if header.map lower <+: s.map lower ∧ s[header.length]? = some COLON then
    some ((skipBlanks (s.drop (header.length + 1))).takeWhile fun b ↦ b ≠ 13 ∧ b ≠ 10)
  else none

namespace HttpdConn

/-- `httpdParseHeader` for a first line at `h`. It is `none` if the search for a blank, which does
not mind the end of the line, finds none. -/
def parseFirstLine (c : HttpdConn) (h : ℕ) (method : HttpdMethod) : Option HttpdConn := do
  let i ← (c.mem.drop h).findIdx? (· = SPACE)
  let url := h + i + 1
  let c := { c with requestType := some method, url := some url }
  match (cstrAt c.mem url).findIdx? (· = SPACE) with
  | none => return c
  | some len =>
    let c := { c with mem := c.mem.set (url + len) 0 }
    let http11 := sameCase (skipBlanks (cstrAt c.mem (url + len + 1))) (ascii "HTTP/1.1") ∨
      5 ≤ method.code
    let c := { c with flags := { c.flags with
      http11 := c.flags.http11 || http11
      chunked := c.flags.chunked || http11 } }
    match (cstrAt c.mem url).findIdx? (· = QUESTION) with
    | none => return { c with getArgs := none }
    | some k => return { c with mem := c.mem.set (url + k) 0, getArgs := some (url + k + 1) }

/-- The end of `httpdParseHeader`, for a line with a field at `h`. -/
def parseField (c : HttpdConn) (h : ℕ) : HttpdConn :=
  let s := cstrAt c.mem h
  if ascii "Host:" <+: s then
    { c with hostName := some (h + 5 + strspn (s.drop 5) [SPACE]) }
  else if ascii "Connection:" <+: s then
    if ascii "close" <+: skipBlanks (s.drop 11) then { c with flags.chunked := false } else c
  else if ascii "Content-Length:" <+: s then
    { c with post := c.post.expect (atoi (skipBlanks (s.drop 15))) }
  else if ascii "Content-Type: " <+: s ∧ strstr s (ascii "multipart/form-data") ≠ none then
    match strstr s (ascii "boundary=") with
    | none => c
    | some k =>
      -- two bytes in front of the boundary become dashes
      { c with
        mem := (c.mem.set (h + k + 7) 45).set (h + k + 8) 45
        post := { c.post with multipartBoundary := some (h + k + 7) } }
  else c

/-- `httpdParseHeader`. It asks for `Host:` between two methods, which makes no difference. -/
def httpdParseHeader (c : HttpdConn) (h : ℕ) : Option HttpdConn :=
  match methodTexts.find? fun t ↦ t.compared <+: cstrAt c.mem h with
  | some t => c.parseFirstLine h t.method
  | none => some (c.parseField h)

/-- The loop of `httpdRecvCb` over the lines, with what is left of it. -/
def parseLines : ℕ → HttpdConn → ℕ → Option HttpdConn
  | 0, _, _ => none
  | fuel + 1, c, p =>
    if p < c.headPos - 4 then
      match strstr (cstrAt c.mem p) CRLF with
      | none => some c
      | some k =>
        ({ c with mem := c.mem.set (p + k) 0 }.httpdParseHeader p).bind fun c ↦
          parseLines fuel c (p + k + 2)
    else some c

/-- What `httpdRecvCb` does with a complete head, up to `httpdProcessRequest`. -/
def parseHead (c : HttpdConn) (h : HttpdHead) : Option HttpdConn :=
  let c := { c with
    mem := h.head.read 0 (h.headPos + 1)
    headPos := h.headPos
    post := { c.post with len := 0 }
    url := none }
  parseLines (h.headPos + 1) c 0

/-- The loop of `httpdGetHeader` from `p` on, up to the value. -/
def getHeaderLoop (c : HttpdConn) (header : List UInt8) : ℕ → ℕ → Option (List UInt8)
  | 0, _ => none
  | fuel + 1, p =>
    if p < c.headPos then
      (stringValue header (cstrAt c.mem p)).or
        (getHeaderLoop c header fuel (p + (cstrAt c.mem p).length + 1))
    else none

/-- `httpdGetHeader`, with what it returns and the memory at `ret`. -/
def httpdGetHeader (c : HttpdConn) (header : List UInt8) (ret : Buffer) (retLen : ℕ) :
    ℕ × Buffer :=
  let p := (cstrAt c.mem 0).length + 1
  let p := p + (cstrAt c.mem p).length + 1
  match c.getHeaderLoop header (c.headPos + 1) p with
  | none => (0, ret)
  | some val => ((val.take (retLen - 1)).length, ret.write 0 (val.take (retLen - 1) ++ [0]))

end HttpdConn

/-! ## Requests -/

/-- What the first line of a client begins with. -/
def HttpdMethod.word : HttpdMethod → List UInt8
  | .GET => ascii "GET"
  | .POST => ascii "POST"
  | .SUB => ascii "SUBSCRIBE"
  | .UNSUB => ascii "UNSUBSCRIBE"
  | .ANNOUNCE => ascii "ANNOUNCE"
  | .SETUP => ascii "SETUP"
  | .RECORD => ascii "RECORD"
  | .PAUSE => ascii "PAUSE"
  | .FLUSH => ascii "FLUSH"
  | .TEARDOWN => ascii "TEARDOWN"
  | .OPTIONS => ascii "OPTIONS"
  | .GET_PARAMETER => ascii "GET_PARAMETER"
  | .SET_PARAMETER => ascii "SET_PARAMETER"
  | .NOTIFY => ascii "NOTIFY"

/-- A field of the head, with some blanks in front of its value. -/
structure HeaderField where
  name : List UInt8
  blanks : ℕ
  value : List UInt8

namespace HeaderField

/-- What is in front of the value. -/
def front (f : HeaderField) : List UInt8 := f.name ++ COLON :: List.replicate f.blanks SPACE

def line (f : HeaderField) : List UInt8 := f.front ++ f.value

/-- A field that a client may send. Its name is not taken for that of a method. -/
structure Sent (f : HeaderField) : Prop where
  nonempty : f.name ≠ []
  name : ∀ c ∈ f.name, 32 < c ∧ c ≠ COLON
  value : ∀ c ∈ f.value, c ≠ 0 ∧ c ≠ 10 ∧ c ≠ 13
  trimmed : f.value.head? ≠ some SPACE
  noMethod : ¬ascii "GET_PARAMETER" <+: f.name ∧ ¬ascii "SET_PARAMETER" <+: f.name

/-- The place in a value that is overwritten. -/
def dashes (f : HeaderField) : Option ℕ :=
  if f.name = ascii "Content-Type" ∧ f.blanks ≠ 0 ∧
      strstr f.value (ascii "multipart/form-data") ≠ none then
    (strstr f.value (ascii "boundary=")).map (· + 7)
  else none

/-- The value as it is in the head when the line has been looked at. -/
def kept (f : HeaderField) : List UInt8 :=
  match f.dashes with
  | none => f.value
  | some k => (f.value.set k 45).set (k + 1) 45

end HeaderField

/-- What a client asks for. -/
structure ClientRequest where
  method : HttpdMethod
  path : List UInt8
  args : Option (List UInt8)
  http11 : Bool
  fields : List HeaderField

namespace ClientRequest

def version (http11 : Bool) : List UInt8 := if http11 then ascii "HTTP/1.1" else ascii "HTTP/1.0"

/-- The arguments behind a byte between them and the path. -/
def argsText (r : ClientRequest) (sep : UInt8) : List UInt8 := r.args.elim [] (sep :: ·)

/-- The first line with given bytes in front of the arguments and of the version. -/
def firstLine (r : ClientRequest) (sep last : UInt8) : List UInt8 :=
  r.method.word ++ SPACE :: (r.path ++ (r.argsText sep ++ last :: version r.http11))

def lines (r : ClientRequest) : List (List UInt8) :=
  r.firstLine QUESTION SPACE :: r.fields.map HeaderField.line

/-- A request that a client may send. -/
structure Sent (r : ClientRequest) : Prop where
  path : ∀ c ∈ r.path, c ≠ 0 ∧ c ≠ 10 ∧ c ≠ 13 ∧ c ≠ SPACE ∧ c ≠ QUESTION
  args : ∀ args ∈ r.args, ∀ c ∈ args, c ≠ 0 ∧ c ≠ 10 ∧ c ≠ 13 ∧ c ≠ SPACE
  fields : ∀ f ∈ r.fields, f.Sent

end ClientRequest

/-! ## Fields -/

namespace HeaderField

/-- What a field says about the host. -/
def host (f : HeaderField) : Option (List UInt8) :=
  if f.name = ascii "Host" then some f.value else none

/-- What it says about the length of what is posted. -/
def length (f : HeaderField) : Option ℤ :=
  if f.name = ascii "Content-Length" then some (atoi f.value) else none

/-- It asks for the connection to be closed. -/
def Closes (f : HeaderField) : Prop := f.name = ascii "Connection" ∧ ascii "close" <+: f.value

instance (f : HeaderField) : Decidable f.Closes :=
  inferInstanceAs (Decidable (f.name = ascii "Connection" ∧ ascii "close" <+: f.value))

/-- The boundary between the parts of what is posted. -/
def boundary (f : HeaderField) : Option (List UInt8) := f.dashes.map f.kept.drop

variable {f : HeaderField} {word : List UInt8}

theorem length_front : f.front.length = f.name.length + 1 + f.blanks := by
  rw [front, List.length_append, List.length_cons, List.length_replicate]
  omega

/-- What is overwritten is inside the value. -/
theorem length_of_dashes {k : ℕ} (h : f.dashes = some k) : 7 ≤ k ∧ k + 1 < f.value.length := by
  rw [dashes] at h
  split at h
  · obtain ⟨k, hocc, rfl⟩ := Option.map_eq_some_iff.mp h
    have hle : k + (ascii "boundary=").length ≤ f.value.length := firstOcc_le hocc
    have hlen : (ascii "boundary=").length = 9 := by decide +kernel
    omega
  · exact absurd h (by simp)

theorem length_kept : f.kept.length = f.value.length := by
  rw [kept]
  cases f.dashes with
  | none => rfl
  | some k => rw [List.length_set, List.length_set]

theorem kept_of_host {host : List UInt8} (h : f.host = some host) : f.kept = host := by
  have hne : ascii "Host" ≠ ascii "Content-Type" := by decide +kernel
  rw [HeaderField.host] at h
  split at h
  case isTrue hname =>
    have hdashes : f.dashes = none := if_neg fun h' ↦ hne (hname.symm.trans h'.1)
    rw [kept, hdashes]
    exact Option.some.inj h
  case isFalse => exact absurd h (by simp)

theorem mem_kept {c : UInt8} (h : c ∈ f.kept) : c ∈ f.value ∨ c = 45 := by
  rw [kept] at h
  cases hd : f.dashes with
  | none =>
    rw [hd] at h
    exact .inl h
  | some k =>
    rw [hd] at h
    rcases List.mem_or_eq_of_mem_set h with h | rfl
    · exact List.mem_or_eq_of_mem_set h
    · exact .inr rfl

theorem Sent.kept (hf : f.Sent) {c : UInt8} (h : c ∈ f.kept) : c ≠ 0 ∧ c ≠ 10 ∧ c ≠ 13 := by
  rcases mem_kept h with h | rfl
  · exact hf.value c h
  · decide

end HeaderField

/-! ## Looking at a field -/

section Fields

open HeaderField

variable {c : HttpdConn} {f : HeaderField} {pre post : List UInt8}

/-- The connection when one field has been looked at. -/
def afterField (c : HttpdConn) (f : HeaderField) (pre post : List UInt8) : HttpdConn :=
  { c with
    mem := pre ++ (f.front ++ (f.kept ++ 0 :: post))
    hostName := (f.host.map fun _ ↦ pre.length + f.front.length).or c.hostName
    flags.chunked := c.flags.chunked && !decide f.Closes
    post := { (f.length.elim c.post c.post.expect) with
      multipartBoundary := (f.dashes.map (pre.length + f.front.length + ·)).or
        c.post.multipartBoundary } }

/-- The fields as they are in the head when all have been looked at. -/
def keptText (fs : List HeaderField) : List UInt8 :=
  fs.flatMap fun f ↦ f.front ++ (f.kept ++ [0, 10])

/-- The empty line at the end of a head, with the terminator. -/
def blankEnd : List UInt8 := CRLF ++ [0]

/-- What the loop over the lines makes of the fields. -/
structure FieldsRead (c c' : HttpdConn) (pre : List UInt8) (fs : List HeaderField) : Prop where
  mem : c'.mem = pre ++ (keptText fs ++ blankEnd)
  headPos : c'.headPos = c.headPos
  requestType : c'.requestType = c.requestType
  url : c'.url = c.url
  getArgs : c'.getArgs = c.getArgs
  hostName : c'.hostName.map (cstrAt c'.mem)
    = (fs.filterMap host).getLast?.or (c.hostName.map (cstrAt c'.mem))
  flags : c'.flags
    = { c.flags with chunked := c.flags.chunked && !fs.any fun f ↦ f.Closes }
  post : c'.post = { ((fs.filterMap HeaderField.length).getLast?.elim c.post c.post.expect) with
    multipartBoundary := c'.post.multipartBoundary }
  multipartBoundary : c'.post.multipartBoundary.map (cstrAt c'.mem)
    = (fs.filterMap boundary).getLast?.or (c.post.multipartBoundary.map (cstrAt c'.mem))

/-- What counts is the last of several. -/
theorem getLast?_filterMap_cons {α : Type*} {g : HeaderField → Option α} {fs : List HeaderField} :
    ((f :: fs).filterMap g).getLast? = (fs.filterMap g).getLast?.or (g f) := by
  rw [List.filterMap_cons]
  cases g f with
  | none => exact Option.or_none.symm
  | some a =>
    rw [List.getLast?_cons]
    cases (fs.filterMap g).getLast? <;> rfl

/-- The strings of one field stay where they are. -/
theorem FieldsRead.cons {c' : HttpdConn} {fs : List HeaderField} (hf : f.Sent)
    (h : FieldsRead (afterField c f pre post) c' (pre ++ (f.front ++ (f.kept ++ [0, 10]))) fs) :
    FieldsRead c c' pre (f :: fs) := by
  have hkept : (0 : UInt8) ∉ f.kept := fun h0 ↦ (hf.kept h0).1 rfl
  have hmem : c'.mem = (pre ++ f.front) ++ (f.kept ++ 0 :: 10 :: (keptText fs ++ blankEnd)) := by
    rw [h.mem]
    simp
  have hstr : cstrAt c'.mem (pre.length + f.front.length) = f.kept := by
    rw [hmem, ← List.length_append, cstrAt_append hkept]
  refine {
    mem := ?_
    headPos := h.headPos
    requestType := h.requestType
    url := h.url
    getArgs := h.getArgs
    hostName := ?_
    flags := ?_
    post := ?_
    multipartBoundary := ?_ }
  · rw [h.mem, keptText, keptText, List.flatMap_cons]
    simp only [List.append_assoc]
  · rw [h.hostName, getLast?_filterMap_cons, Option.or_assoc, afterField]
    congr 1
    cases hhost : f.host with
    | none => rfl
    | some host =>
      rw [Option.map_some, Option.some_or, Option.some_or, Option.map_some, hstr,
        kept_of_host hhost]
  · rw [h.flags, List.any_cons, Bool.not_or, ← Bool.and_assoc]
    rfl
  · refine h.post.trans ?_
    simp only [getLast?_filterMap_cons, afterField]
    cases (fs.filterMap HeaderField.length).getLast? <;> cases f.length <;> rfl
  · rw [h.multipartBoundary, getLast?_filterMap_cons, Option.or_assoc, afterField, boundary]
    congr 1
    cases hdashes : f.dashes with
    | none => rfl
    | some k =>
      obtain ⟨-, hk⟩ := length_of_dashes hdashes
      have htail : cstrAt c'.mem (pre.length + f.front.length + k) = f.kept.drop k := by
        have hsplit : c'.mem = (pre ++ f.front ++ f.kept.take k) ++
            (f.kept.drop k ++ 0 :: 10 :: (keptText fs ++ blankEnd)) := by
          rw [hmem, List.append_assoc _ (f.kept.take k), ← List.append_assoc (f.kept.take k),
            List.take_append_drop]
        have hplace : (pre ++ f.front ++ f.kept.take k).length
            = pre.length + f.front.length + k := by
          rw [List.length_append, List.length_append, List.length_take, length_kept]
          omega
        rw [hsplit, ← hplace, cstrAt_append fun h0 ↦ hkept (List.mem_of_mem_drop h0)]
      rw [Option.map_some, Option.some_or, Option.map_some, Option.map_some, Option.some_or, htail]

end Fields

/-! ## Looking at the first line -/

section FirstLine

variable {c : HttpdConn} {r : ClientRequest} {s t rest post : List UInt8} {x : UInt8}

section TargetMemory

variable {word target ver : List UInt8}

end TargetMemory

end FirstLine

/-! ## Whole requests -/

section Requests

variable {c c' : HttpdConn} {r : ClientRequest} {fs : List HeaderField}

/-- What a function that answers a request finds in the connection. -/
structure HttpdConn.Shows (c : HttpdConn) (r : ClientRequest) : Prop where
  requestType : c.requestType = some r.method
  url : c.url.map (cstrAt c.mem) = some r.path
  getArgs : c.getArgs.map (cstrAt c.mem) = r.args
  multipartBoundary : ∀ b ∈ (r.fields.filterMap HeaderField.boundary).getLast?,
    c.post.multipartBoundary.map (cstrAt c.mem) = some b
  getHeader : ∀ header, COLON ∉ header → ∀ ret retLen, c.httpdGetHeader header ret retLen
    = match r.fields.find? fun f ↦ sameCase header f.name with
      | none => (0, ret)
      | some f => ((f.kept.take (retLen - 1)).length,
          ret.write 0 (f.kept.take (retLen - 1) ++ [0]))

/-- The client can read chunks, as far as the first line tells. -/
def ClientRequest.chunks (r : ClientRequest) : Bool := r.http11 || decide (5 ≤ r.method.code)

/-- The client wants the connection to be closed. -/
def ClientRequest.closes (r : ClientRequest) : Bool := r.fields.any fun f ↦ f.Closes

theorem getHeaderLoop_congr (hmem : c'.mem = c.mem) (hpos : c'.headPos = c.headPos)
    (header : List UInt8) (fuel p : ℕ) :
    c'.getHeaderLoop header fuel p = c.getHeaderLoop header fuel p := by
  induction fuel generalizing p with
  | zero => rfl
  | succ fuel ih => rw [HttpdConn.getHeaderLoop, HttpdConn.getHeaderLoop, hmem, hpos, ih]

/-- The strings are in the head. -/
theorem HttpdConn.Shows.congr (h : c.Shows r) (hmem : c'.mem = c.mem)
    (hpos : c'.headPos = c.headPos) (htype : c'.requestType = c.requestType)
    (hurl : c'.url = c.url) (hargs : c'.getArgs = c.getArgs)
    (hboundary : c'.post.multipartBoundary = c.post.multipartBoundary) : c'.Shows r where
  requestType := htype.trans h.requestType
  url := by rw [hurl, hmem, h.url]
  getArgs := by rw [hargs, hmem, h.getArgs]
  multipartBoundary := by
    rw [hboundary, hmem]
    exact h.multipartBoundary
  getHeader header hheader ret retLen := by
    rw [← h.getHeader header hheader]
    simp only [HttpdConn.httpdGetHeader, hmem, hpos, getHeaderLoop_congr hmem hpos]

/-- The host that is asked, if the client says so. -/
def ClientRequest.host (r : ClientRequest) : Option (List UInt8) :=
  (r.fields.filterMap HeaderField.host).getLast?

/-- The number of bytes that are posted, if the client says so. -/
def ClientRequest.length (r : ClientRequest) : Option ℤ :=
  (r.fields.filterMap HeaderField.length).getLast?

theorem length_head (r : ClientRequest) : (headText r.lines ++ CRLF).length
    = (r.firstLine QUESTION SPACE).length + 2 +
      ((headText (r.fields.map HeaderField.line)).length + 2) := by
  rw [ClientRequest.lines, headText, headText, List.flatMap_cons]
  simp only [List.length_append, CRLF, List.length_cons, List.length_nil]
  omega

end Requests

end Ddmz.Web
