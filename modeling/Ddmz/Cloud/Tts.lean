import Ddmz.Cloud.UrlEncode

/-!
# The speech request

`ddcloud_http_xunfei_tts` of `dd_http.c` posts the answer text as a form: `text=` and the encoding
of the answer, in a buffer of 1000 bytes. What `URLEncode` returns is ignored, so an answer whose
encoding does not fit is spoken without its end. The terminator of an encoding that fills the
room exactly lands behind the buffer.

How long an encoding is depends on the mix of copied and escaped bytes alone, and
`replyIntegrity_iff` gives the bound: an answer is spoken as it should be exactly if its length and
twice the number of its escaped bytes add up to 994 at most.
-/

namespace Ddmz.Cloud

/-- The size of `tts_text_nlp_txt`. -/
def NLP_TXT_SIZE : ℕ := 2 * 1024

/-- The size of `urlbuff`. -/
def URLBUFF_SIZE : ℕ := 1000

/-- The characters of `"text="`. -/
def textField : List UInt8 := [116, 101, 120, 116, 61]

/-- An answer that `tts_text_finish` hands over in `tts_text_nlp_txt`: it has been found nonempty,
is a C string, and leaves room for its terminator. -/
structure AnswerText where
  bytes : List UInt8
  nonempty : bytes ≠ []
  noNul : (0 : UInt8) ∉ bytes
  length_lt : bytes.length < NLP_TXT_SIZE

/-- `urlbuff` when `URLEncode` is called: allocated, cleared and holding the name of the field. -/
def urlbuffInit (memory : ℕ → UInt8) : Buffer :=
  ((Buffer.mk memory 0).clear URLBUFF_SIZE).write 0 (textField ++ [0])

/-- What `ddcloud_http_xunfei_tts` does: the memory from the start of `urlbuff` on, and the bodies
that are posted. -/
structure SpeechRequest where
  urlbuff : Buffer
  posts : List (List UInt8)

/-- `ddcloud_http_xunfei_tts`. The terminator is within the limit of `strlen` on every path. -/
def ddcloudHttpXunfeiTts (memory : ℕ → UInt8) (text : AnswerText) : SpeechRequest :=
  let urlbuff :=
    (urlEncode text.bytes textField.length (URLBUFF_SIZE - 5) (urlbuffInit memory)).2
  { urlbuff, posts := [urlbuff.read 0 (urlbuff.strlen 0 (URLBUFF_SIZE + 1) + 1)] }

/-! ## The contract -/

/-- The body carries the whole text, for a reader that takes off the name of the field and the
terminator and decodes the form. -/
def CarriesWhole (text body : List UInt8) : Prop :=
  ∃ e, body = textField ++ e ++ [0] ∧ (0 : UInt8) ∉ e ∧ formDecode e = text

/-- The encoding fits into `urlbuff`, with the name of the field and a terminator. -/
def Fits (text : List UInt8) : Prop :=
  textField.length + (urlEncoding text).length + 1 ≤ URLBUFF_SIZE

/-- What a request should satisfy. -/
structure ReplyIntegrity (memory : ℕ → UInt8) (text : AnswerText) : Prop where
  /-- Nothing is written behind the buffer. -/
  inBounds : (ddcloudHttpXunfeiTts memory text).urlbuff.high ≤ URLBUFF_SIZE
  /-- A text that fits is posted, whole, with a terminator inside the buffer. -/
  whole : Fits text.bytes → ∃ body ∈ (ddcloudHttpXunfeiTts memory text).posts,
    CarriesWhole text.bytes body ∧ body.length ≤ URLBUFF_SIZE
  /-- Nothing else is posted for it, and no part of a text that does not fit. -/
  unshortened : ∀ body ∈ (ddcloudHttpXunfeiTts memory text).posts, CarriesWhole text.bytes body

theorem fits_iff_length (text : List UInt8) : Fits text ↔ (urlEncoding text).length ≤ 994 := by
  rw [Fits, Nat.add_comm textField.length, Nat.add_assoc]
  exact Nat.add_le_add_iff_right (n := 6) (k := 994)

theorem fits_iff (text : List UInt8) :
    Fits text ↔ text.length + 2 * text.countP urlEscaped ≤ 994 := by
  rw [fits_iff_length, urlEncoding, length_formEncode]

/-! ## The body -/

theorem high_urlbuffInit (memory : ℕ → UInt8) : (urlbuffInit memory).high = URLBUFF_SIZE := by
  rw [urlbuffInit, Buffer.high_write, Buffer.high_clear]
  rfl

theorem read_urlbuffInit (memory : ℕ → UInt8) :
    (urlbuffInit memory).read 0 textField.length = textField :=
  (Buffer.read_prefix (Buffer.read_write _ _ _) (by decide)).trans rfl

theorem cells_urlbuffInit (memory : ℕ → UInt8) {k : ℕ} (h5 : textField.length ≤ k)
    (hk : k < URLBUFF_SIZE) : (urlbuffInit memory).cells k = 0 := by
  rcases Nat.eq_or_lt_of_le h5 with rfl | hlt
  · exact Buffer.cells_write_last
  · rw [urlbuffInit, Buffer.cells_write_behind (by exact Nat.zero_add _ ▸ hlt)]
    exact Buffer.cells_clear hk

/-- What has been encoded is what is posted, if a terminator follows it. -/
theorem read_strlen_of_encoded {memory : ℕ → UInt8} {part : List UInt8} {out : Buffer}
    (h : Encoded textField.length 0 (urlbuffInit memory) (urlEncoding part) out)
    (hend : out.cells (textField.length + (0 + (urlEncoding part).length)) = 0)
    (hlen : 0 + (urlEncoding part).length ≤ URLBUFF_SIZE - 5) :
    out.read 0 (out.strlen 0 (URLBUFF_SIZE + 1) + 1) = textField ++ urlEncoding part ++ [0] := by
  rw [Nat.zero_add] at hend hlen
  have hfield : out.read 0 textField.length = textField := by
    rw [← read_urlbuffInit memory]
    exact Buffer.read_congr fun k hk ↦ h.before _ (by rwa [Nat.zero_add])
  have henc : out.read (0 + textField.length) (urlEncoding part).length = urlEncoding part := by
    rw [Nat.zero_add]
    exact h.read_eq
  have hl : out.read 0 (textField ++ urlEncoding part).length = textField ++ urlEncoding part := by
    rw [List.length_append, Buffer.read_add, hfield, henc]
  have hend' : out.cells (0 + (textField ++ urlEncoding part).length) = 0 := by
    rwa [Nat.zero_add, List.length_append]
  have h0 : (0 : UInt8) ∉ textField ++ urlEncoding part :=
    List.not_mem_append (by decide) (zero_notMem_formEncode part)
  have hlt : (textField ++ urlEncoding part).length < URLBUFF_SIZE + 1 := by
    rw [List.length_append]
    exact Nat.lt_succ_of_le (Nat.add_le_add_left hlen 5)
  rw [Buffer.strlen_eq hl h0 hend' hlt, Buffer.read_add, hl, Buffer.read_succ, hend',
    Buffer.read_zero]

theorem carriesWhole_iff (text part : List UInt8) :
    CarriesWhole text (textField ++ urlEncoding part ++ [0]) ↔ part = text := by
  refine ⟨?_, fun h ↦ ⟨urlEncoding part, rfl, zero_notMem_formEncode part, ?_⟩⟩
  · rintro ⟨e, he, -, hdecode⟩
    rw [List.append_left_inj, List.append_right_inj] at he
    rw [← hdecode, ← he, formDecode_formEncode]
  · rw [formDecode_formEncode, h]

/-- How the encoder ends on an answer, in terms of the request: the text has been encoded; or it
has been cut, and the terminator is behind the buffer; or it has been cut inside. -/
theorem ddcloudHttpXunfeiTts_cases (memory : ℕ → UInt8) (text : AnswerText) :
    (Fits text.bytes ∧ (ddcloudHttpXunfeiTts memory text).urlbuff.high ≤ URLBUFF_SIZE ∧
        (ddcloudHttpXunfeiTts memory text).posts
          = [textField ++ urlEncoding text.bytes ++ [0]]) ∨
      (¬Fits text.bytes ∧ URLBUFF_SIZE < (ddcloudHttpXunfeiTts memory text).urlbuff.high) ∨
      (¬Fits text.bytes ∧ ∃ part, part ≠ text.bytes ∧
        (ddcloudHttpXunfeiTts memory text).posts = [textField ++ urlEncoding part ++ [0]]) := by
  have hend := urlEncodeLoop_end textField.length text.bytes
    (Nat.zero_le (URLBUFF_SIZE - 5)) (urlbuffInit memory)
  have hrun : urlEncode text.bytes textField.length (URLBUFF_SIZE - 5) (urlbuffInit memory)
      = urlEncodeLoop textField.length (URLBUFF_SIZE - 5) text.bytes 0 (urlbuffInit memory) :=
    if_neg (not_or.mpr ⟨text.nonempty, by decide⟩)
  rw [ddcloudHttpXunfeiTts, hrun]
  generalize urlEncodeLoop textField.length (URLBUFF_SIZE - 5) text.bytes 0 (urlbuffInit memory)
    = r at hend
  cases hend with
  | done encoded terminated room high =>
    have hbody := read_strlen_of_encoded encoded terminated room
    by_cases hfits : Fits text.bytes
    · refine Or.inl ⟨hfits, ?_, congrArg (fun body ↦ [body]) hbody⟩
      refine encoded.high.trans (max_le (high_urlbuffInit memory).le ?_)
      rwa [Nat.zero_add]
    · refine Or.inr (Or.inl ⟨hfits, Nat.lt_of_lt_of_le (Nat.lt_of_not_le hfits) ?_⟩)
      rwa [Nat.zero_add] at high
  | @full _ part rest ch split encoded full high =>
    refine Or.inr (Or.inl ⟨fun hfits ↦ ?_, high⟩)
    have hlen := length_urlEncoding_split split
    have hpart : (urlEncoding part).length = 995 := by rwa [Nat.zero_add] at full
    rw [fits_iff_length, hlen, hpart] at hfits
    exact absurd hfits (by omega)
  | @refused out part rest ch split encoded escaped noRoom room =>
    have hlen := length_urlEncoding_split split
    rw [if_pos escaped] at hlen
    rw [Nat.zero_add] at noRoom room
    refine Or.inr (Or.inr ⟨fun hfits ↦ ?_, part, ?_, ?_⟩)
    · rw [fits_iff_length, hlen] at hfits
      exact absurd (Nat.le_of_add_right_le hfits)
        (Nat.not_le.mpr (Nat.lt_of_lt_of_le (by decide) noRoom))
    · rw [split]
      exact fun h ↦ List.cons_ne_nil ch rest (List.self_eq_append_right.mp h)
    · -- nothing has been written behind the escape, so the buffer is zero there as it was cleared
      have hzero : out.cells (textField.length + (0 + (urlEncoding part).length)) = 0 := by
        rcases encoded.behind _ le_rfl with heq | hz
        · refine heq.trans (cells_urlbuffInit memory (Nat.le_add_right _ _) ?_)
          rw [Nat.zero_add]
          exact Nat.add_lt_add_left room textField.length
        · exact hz
      exact congrArg (fun body ↦ [body])
        (read_strlen_of_encoded encoded hzero (by rw [Nat.zero_add]; exact room.le))

/-! ## Exactly the texts that fit -/

theorem not_replyIntegrity {memory : ℕ → UInt8} {text : AnswerText} (hunfit : ¬Fits text.bytes) :
    ¬ReplyIntegrity memory text := by
  intro h
  rcases ddcloudHttpXunfeiTts_cases memory text
    with ⟨hfits, -⟩ | ⟨-, hhigh⟩ | ⟨-, part, hne, hposts⟩
  · exact hunfit hfits
  · exact absurd h.inBounds (Nat.not_le.mpr hhigh)
  · have hwhole := h.unshortened (textField ++ urlEncoding part ++ [0])
      (by rw [hposts]; exact List.mem_singleton_self _)
    exact hne ((carriesWhole_iff text.bytes part).mp hwhole)

/-- **The speech request is as it should be exactly for the texts whose length and twice the number
of their escaped bytes add up to at most 994.** -/
theorem replyIntegrity_iff (memory : ℕ → UInt8) (text : AnswerText) :
    ReplyIntegrity memory text ↔ text.bytes.length + 2 * text.bytes.countP urlEscaped ≤ 994 := by
  rw [← fits_iff]
  refine ⟨fun h ↦ by_contra fun hunfit ↦ not_replyIntegrity hunfit h, fun hfits ↦ ?_⟩
  rcases ddcloudHttpXunfeiTts_cases memory text with ⟨-, hhigh, hposts⟩ | ⟨hunfit, -⟩ | ⟨hunfit, -⟩
  · have hcarries := (carriesWhole_iff text.bytes text.bytes).mpr rfl
    refine ⟨hhigh, fun _ ↦ ⟨_, by rw [hposts]; exact List.mem_singleton_self _, hcarries, ?_⟩, ?_⟩
    · rwa [List.length_append, List.length_append]
    · intro body hbody
      rw [hposts, List.mem_singleton] at hbody
      rwa [hbody]
  · exact absurd hfits hunfit
  · exact absurd hfits hunfit

/-- The bytes of one Chinese character, repeated: a text that is cut inside its 111th one. -/
def longAnswer : AnswerText where
  bytes := (List.replicate 111 [0xE5, 0xA5, 0xBD]).flatten
  nonempty := List.cons_ne_nil _ _
  noNul := by
    intro h
    obtain ⟨l, hl, hmem⟩ := List.mem_flatten.mp h
    rw [List.eq_of_mem_replicate hl] at hmem
    exact absurd hmem (by decide)
  length_lt := by
    rw [List.length_flatten, List.map_replicate, List.sum_replicate]
    decide

theorem not_replyIntegrity_longAnswer : ¬ReplyIntegrity (fun _ ↦ 0) longAnswer := by
  have hlength : longAnswer.bytes.length = 333 := by
    rw [longAnswer, List.length_flatten, List.map_replicate, List.sum_replicate]
    rfl
  have hcount : longAnswer.bytes.countP urlEscaped = 333 := by
    rw [longAnswer, List.countP_flatten, List.map_replicate, List.sum_replicate]
    rfl
  refine not_replyIntegrity fun hfits ↦ ?_
  rw [fits_iff, hlength, hcount] at hfits
  exact absurd hfits (by decide)

end Ddmz.Cloud
