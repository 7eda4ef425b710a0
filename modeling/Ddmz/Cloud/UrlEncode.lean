import Ddmz.Foundation.Buffer
import Ddmz.Foundation.FormUrl

/-!
# `URLEncode`

The encoder of `dd_http.c`, which writes the form encoding of a string into a result buffer of
limited size. Its letter and digit ranges leave out `'Z'`, `'z'` and `'9'`, which are escaped:
longer, but decoded to the same.

A run of its loop has one of three ends, and `UrlEncodeEnd` names them: the string is encoded, or
the result is full and the rest of the string is dropped, or there is no room for an escape and
`0` is returned. In the first two a terminator is written, behind the result if it is full. What
has been encoded until then is there in all three.
-/

namespace Ddmz.Cloud

/-- The first condition of the loop: letters and digits, by their ranges in the source. -/
def isLetterOrDigit (ch : UInt8) : Bool :=
  (decide (65 ≤ ch) && decide (ch < 90)) || (decide (97 ≤ ch) && decide (ch < 122)) ||
    (decide (48 ≤ ch) && decide (ch < 57))

/-- The third condition: `'.'`, `'-'`, `'_'` and `'*'`. -/
def isMark (ch : UInt8) : Bool := ch == 46 || ch == 45 || ch == 95 || ch == 42

/-- The loop of `URLEncode` at index `j`, writing from offset `off` of the result, with its
terminator. The result is what `URLEncode` returns and the memory it leaves. -/
def urlEncodeLoop (off resultSize : ℕ) : List UInt8 → ℕ → Buffer → ℕ × Buffer
  | [], j, result => (j, result.write (off + j) [0])
  | ch :: str, j, result =>
    if j < resultSize then
      if isLetterOrDigit ch then
        urlEncodeLoop off resultSize str (j + 1) (result.write (off + j) [ch])
      else if ch = SPACE then
        urlEncodeLoop off resultSize str (j + 1) (result.write (off + j) [PLUS])
      else if isMark ch then
        urlEncodeLoop off resultSize str (j + 1) (result.write (off + j) [ch])
      else if j + 3 < resultSize then
        -- `sprintf` ends its triple with a terminator
        urlEncodeLoop off resultSize str (j + 3) (result.write (off + j) (percentTriple ch ++ [0]))
      else (0, result)
    else (j, result.write (off + j) [0])

/-- `URLEncode` of the `strSize` bytes `str`, to offset `off` of `result`. -/
def urlEncode (str : List UInt8) (off resultSize : ℕ) (result : Buffer) : ℕ × Buffer :=
  if str = [] ∨ resultSize = 0 then (0, result) else urlEncodeLoop off resultSize str 0 result

/-- The bytes that `URLEncode` copies. -/
def urlLiterals : LiteralSet where
  mem ch := isLetterOrDigit ch || isMark ch
  percent := by decide
  plus := by decide
  zero := by decide

/-- The encoding of a string with unlimited room. -/
abbrev urlEncoding (str : List UInt8) : List UInt8 := formEncode urlLiterals str

/-- The bytes that `URLEncode` escapes. -/
abbrev urlEscaped (ch : UInt8) : Bool := escaped urlLiterals ch

theorem length_urlEncoding_split {text part rest : List UInt8} {ch : UInt8}
    (h : text = part ++ ch :: rest) : (urlEncoding text).length
      = (urlEncoding part).length + (if urlEscaped ch then 3 else 1)
        + (urlEncoding rest).length := by
  rw [h, urlEncoding, formEncode_append, formEncode_cons, List.length_append, List.length_append,
    length_formEncodeByte, Nat.add_assoc]

section Branches

variable {off resultSize j : ℕ} {ch : UInt8} (str : List UInt8) (result : Buffer)

theorem urlEncodeLoop_full (hj : ¬j < resultSize) :
    urlEncodeLoop off resultSize (ch :: str) j result = (j, result.write (off + j) [0]) := by
  rw [urlEncodeLoop, if_neg hj]

theorem urlEncodeLoop_plain (hj : j < resultSize) (hch : urlEscaped ch = false) :
    urlEncodeLoop off resultSize (ch :: str) j result
      = urlEncodeLoop off resultSize str (j + 1)
          (result.write (off + j) (formEncodeByte urlLiterals ch)) := by
  rw [urlEncodeLoop, if_pos hj, formEncodeByte]
  simp only [urlEscaped, escaped, urlLiterals, Bool.and_eq_false_iff, Bool.not_eq_false',
    Bool.or_eq_true, bne_eq_false_iff_eq] at hch ⊢
  by_cases hletter : isLetterOrDigit ch = true
  · rw [if_pos hletter, if_pos (Or.inl hletter)]
  · by_cases hspace : ch = SPACE
    · have hmark : ¬isMark ch = true := by rw [hspace]; decide
      rw [if_neg hletter, if_pos hspace, if_neg (not_or.mpr ⟨hletter, hmark⟩), if_pos hspace]
    · have hmark : isMark ch = true := (hch.resolve_right hspace).resolve_left hletter
      rw [if_neg hletter, if_neg hspace, if_pos hmark, if_pos (Or.inr hmark)]

theorem urlEncodeLoop_escaped (hj : j < resultSize) (hch : urlEscaped ch = true) :
    urlEncodeLoop off resultSize (ch :: str) j result
      = if j + 3 < resultSize then
          urlEncodeLoop off resultSize str (j + 3)
            (result.write (off + j) (formEncodeByte urlLiterals ch ++ [0]))
        else (0, result) := by
  rw [urlEncodeLoop, if_pos hj, formEncodeByte_escaped hch]
  simp only [urlEscaped, escaped, urlLiterals, Bool.and_eq_true, Bool.not_eq_true',
    Bool.or_eq_false_iff, bne_iff_ne] at hch
  rw [hch.1.1, hch.1.2, if_neg hch.2, if_neg Bool.false_ne_true, if_neg Bool.false_ne_true]

end Branches

/-! ## What the loop leaves in memory -/

/-- `out` is `result` with `e` put at index `j` of the part that starts at `off`; what lies behind
is as before or zero. -/
structure Encoded (off j : ℕ) (result : Buffer) (e : List UInt8) (out : Buffer) : Prop where
  contents : out.read off (j + e.length) = result.read off j ++ e
  before : ∀ k < off, out.cells k = result.cells k
  behind : ∀ k, off + (j + e.length) ≤ k → out.cells k = result.cells k ∨ out.cells k = 0
  high : out.high ≤ max result.high (off + (j + e.length) + 1)

variable {off resultSize j : ℕ} {result r' out : Buffer} {c e : List UInt8}

theorem Encoded.refl : Encoded off j result [] result where
  contents := (List.append_nil _).symm
  before _ _ := rfl
  behind _ _ := Or.inl rfl
  high := le_max_left _ _

/-- What has been encoded from the start on is what is read there. -/
theorem Encoded.read_eq (h : Encoded off 0 result e out) : out.read off e.length = e := by
  have hread := h.contents
  rwa [Nat.zero_add, Buffer.read_zero, List.nil_append] at hread

theorem Encoded.trans (h : Encoded off j result c r') (h' : Encoded off (j + c.length) r' e out) :
    Encoded off j result (c ++ e) out where
  contents := by
    rw [List.length_append, ← Nat.add_assoc, h'.contents, h.contents, List.append_assoc]
  before k hk := (h'.before k hk).trans (h.before k hk)
  behind k hk := by
    have hk' : off + (j + c.length + e.length) ≤ k := by
      rwa [List.length_append, ← Nat.add_assoc j] at hk
    rcases h'.behind k hk' with heq | hz
    · rw [heq]
      exact h.behind k ((Nat.add_le_add_left (Nat.le_add_right _ _) off).trans hk')
    · exact Or.inr hz
  high := by
    have h1 := h.high
    have h2 := h'.high
    rw [List.length_append]
    omega

/-- Writing at the current index. -/
theorem Encoded.write : Encoded off j result c (result.write (off + j) c) where
  contents := Buffer.read_write_append
  before k hk := Buffer.cells_write_before (Nat.lt_of_lt_of_le hk (Nat.le_add_right _ _))
  behind k hk := Or.inl (Buffer.cells_write_behind (by rwa [Nat.add_assoc]))
  high := by rw [Buffer.high_write]; omega

/-- A terminator changes nothing of what has been encoded. -/
theorem Encoded.terminate (h : Encoded off j result e out) :
    Encoded off j result e (out.write (off + (j + e.length)) [0]) where
  contents := (Buffer.read_write_before le_rfl).trans h.contents
  before k hk :=
    (Buffer.cells_write_before (Nat.lt_of_lt_of_le hk (Nat.le_add_right _ _))).trans (h.before k hk)
  behind k hk := by
    rcases Nat.eq_or_lt_of_le hk with rfl | hlt
    · exact Or.inr Buffer.cells_write_singleton
    · rw [Buffer.cells_write_behind hlt]
      exact h.behind k hk
  high := by
    have := h.high
    rw [Buffer.high_write, List.length_singleton]
    omega

/-- Writing at the current index with a terminator, as `sprintf` does. -/
theorem Encoded.writeString : Encoded off j result c (result.write (off + j) (c ++ [0])) := by
  rw [Buffer.write_append, Nat.add_assoc]
  exact Encoded.write.terminate

/-! ## The ends of the loop -/

/-- How the loop over `str` ends when it is entered at index `j`. -/
inductive UrlEncodeEnd (off resultSize j : ℕ) (result : Buffer) (str : List UInt8) :
    ℕ × Buffer → Prop
  /-- All of the string has been encoded. -/
  | done {out : Buffer} (encoded : Encoded off j result (urlEncoding str) out)
      (terminated : out.cells (off + (j + (urlEncoding str).length)) = 0)
      (room : j + (urlEncoding str).length ≤ resultSize)
      (high : off + (j + (urlEncoding str).length) + 1 ≤ out.high) :
      UrlEncodeEnd off resultSize j result str (j + (urlEncoding str).length, out)
  /-- The result is full before the byte `ch`. -/
  | full {out : Buffer} {part rest : List UInt8} {ch : UInt8} (split : str = part ++ ch :: rest)
      (encoded : Encoded off j result (urlEncoding part) out)
      (full : j + (urlEncoding part).length = resultSize)
      (high : off + resultSize + 1 ≤ out.high) :
      UrlEncodeEnd off resultSize j result str (resultSize, out)
  /-- There is no room for the escape of the byte `ch`. -/
  | refused {out : Buffer} {part rest : List UInt8} {ch : UInt8} (split : str = part ++ ch :: rest)
      (encoded : Encoded off j result (urlEncoding part) out)
      (escaped : urlEscaped ch = true)
      (noRoom : resultSize ≤ j + (urlEncoding part).length + 3)
      (room : j + (urlEncoding part).length < resultSize) :
      UrlEncodeEnd off resultSize j result str (0, out)

/-- One byte in front. -/
theorem UrlEncodeEnd.cons {str : List UInt8} {ch : UInt8} {r : ℕ × Buffer}
    (h : Encoded off j result (formEncodeByte urlLiterals ch) r')
    (hend : UrlEncodeEnd off resultSize (j + (formEncodeByte urlLiterals ch).length) r' str r) :
    UrlEncodeEnd off resultSize j result (ch :: str) r := by
  have hlen (part : List UInt8) : j + (formEncodeByte urlLiterals ch).length
      + (urlEncoding part).length = j + (urlEncoding (ch :: part)).length :=
    (Nat.add_assoc j _ _).trans (congrArg (j + ·) List.length_append.symm)
  cases hend with
  | done encoded terminated room high =>
    rw [hlen] at terminated room high ⊢
    exact .done (h.trans encoded) terminated room high
  | @full _ part rest b split encoded full high =>
    rw [hlen] at full
    have hsplit : ch :: str = (ch :: part) ++ b :: rest := congrArg (ch :: ·) split
    exact .full hsplit (h.trans encoded) full high
  | @refused _ part rest b split encoded escaped noRoom room =>
    rw [hlen] at noRoom room
    have hsplit : ch :: str = (ch :: part) ++ b :: rest := congrArg (ch :: ·) split
    exact .refused hsplit (h.trans encoded) escaped noRoom room

variable (off) in
/-- **The loop of `URLEncode`** ends in one of the three ways. -/
theorem urlEncodeLoop_end (str : List UInt8) (hj : j ≤ resultSize) (result : Buffer) :
    UrlEncodeEnd off resultSize j result str (urlEncodeLoop off resultSize str j result) := by
  induction str generalizing j result with
  | nil =>
    refine .done Encoded.refl.terminate ?_ hj (le_max_right _ _)
    exact Buffer.cells_write_singleton
  | cons ch str ih =>
    by_cases hlt : j < resultSize
    · cases hch : urlEscaped ch with
      | false =>
        have hlen : (formEncodeByte urlLiterals ch).length = 1 :=
          (length_formEncodeByte ch).trans (if_neg (Bool.eq_false_iff.mp hch))
        rw [urlEncodeLoop_plain str result hlt hch]
        exact .cons Encoded.write (by rw [hlen]; exact ih hlt _)
      | true =>
        have hlen : (formEncodeByte urlLiterals ch).length = 3 :=
          (length_formEncodeByte ch).trans (if_pos hch)
        rw [urlEncodeLoop_escaped str result hlt hch]
        split
        · rename_i hroom
          exact .cons Encoded.writeString (by rw [hlen]; exact ih hroom.le _)
        · rename_i hroom
          have hsplit : ch :: str = [] ++ ch :: str := rfl
          exact .refused hsplit Encoded.refl hch (Nat.le_of_not_lt hroom) hlt
    · obtain rfl : j = resultSize := Nat.le_antisymm hj (Nat.le_of_not_lt hlt)
      rw [urlEncodeLoop_full str result hlt]
      have hsplit : ch :: str = [] ++ ch :: str := rfl
      exact .full hsplit Encoded.refl.terminate rfl (le_max_right _ _)

end Ddmz.Cloud
