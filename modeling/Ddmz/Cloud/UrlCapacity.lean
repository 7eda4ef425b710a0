import Ddmz.Cloud.UrlEncode

/-!
# `URLEncode` and the room it is given

With three bytes of room for each byte of the string and one for the terminator, the loop of
`URLEncode` can only end by having encoded everything, and what it leaves is the form encoding of
the string (`urlEncode_lossless`).

With less room each of its three ends has its own flaw. A literal byte may be put at the last index,
which leaves the terminator to be written behind the capacity, after the whole string or after a
part of it. Where an escape is refused nothing is written any more, not even a terminator: the one
that stands there is what the escape before it left, if there was one, or what the memory happened
to hold. `Respected` says exactly when none of this happens.
-/

namespace Ddmz.Cloud

/-! ## Enough room -/

/-- The bytes that a form encoding has outside its escapes. -/
def IsFormByte (c : UInt8) : Prop :=
  (65 ≤ c ∧ c ≤ 90) ∨ (97 ≤ c ∧ c ≤ 122) ∨ (48 ≤ c ∧ c ≤ 57) ∨
    c = 43 ∨ c = 46 ∨ c = 45 ∨ c = 95 ∨ c = 42

theorem isFormByte_of_literal {c : UInt8} (h : urlLiterals.mem c = true) : IsFormByte c := by
  simp only [urlLiterals, isLetterOrDigit, isMark, Bool.or_eq_true, Bool.and_eq_true,
    decide_eq_true_eq, beq_iff_eq] at h
  simp only [IsFormByte]
  rcases h with ((⟨h1, h2⟩ | ⟨h1, h2⟩) | ⟨h1, h2⟩) | (((h | h) | h) | h)
  · exact Or.inl ⟨h1, UInt8.le_of_lt h2⟩
  · exact Or.inr (Or.inl ⟨h1, UInt8.le_of_lt h2⟩)
  · exact Or.inr (Or.inr (Or.inl ⟨h1, UInt8.le_of_lt h2⟩))
  all_goals simp [h]

theorem length_urlEncoding_le (str : List UInt8) : (urlEncoding str).length ≤ 3 * str.length := by
  have : str.countP (escaped urlLiterals) ≤ str.length := List.countP_le_length
  rw [urlEncoding, length_formEncode]
  omega

/-- With room for every byte escaped the loop encodes the whole string. -/
theorem urlEncode_eq_of_room {str : List UInt8} {resultSize : ℕ} (off : ℕ) (result : Buffer)
    (hne : str ≠ []) (hroom : 3 * str.length + 1 ≤ resultSize) :
    ∃ out, urlEncode str off resultSize result = ((urlEncoding str).length, out) ∧
      Encoded off 0 result (urlEncoding str) out ∧
      out.cells (off + (urlEncoding str).length) = 0 := by
  have hgo : ¬(str = [] ∨ resultSize = 0) := not_or.mpr ⟨hne, by omega⟩
  have hsmall : ∀ {part rest : List UInt8} {ch : UInt8}, str = part ++ ch :: rest →
      (urlEncoding part).length + 3 < resultSize := by
    intro part rest ch hsplit
    have hlen := length_urlEncoding_le part
    rw [hsplit, List.length_append, List.length_cons] at hroom
    omega
  have hend := urlEncodeLoop_end off str (Nat.zero_le resultSize) result
  rw [urlEncode, if_neg hgo]
  cases h : urlEncodeLoop off resultSize str 0 result with
  | mk n out =>
  rw [h] at hend
  cases hend with
  | done encoded terminated room high =>
    simp only [Nat.zero_add] at terminated ⊢
    exact ⟨out, rfl, encoded, terminated⟩
  | full split _ hfull _ =>
    have := hsmall split
    omega
  | refused split _ _ noRoom _ =>
    have := hsmall split
    omega

/-- **`URLEncode` is lossless** when it has room: it returns the length of a string that stands
terminated in the result, has only the bytes of a form encoding, and decodes to the input. No other
input leaves the same string. -/
theorem urlEncode_lossless (str : List UInt8) (off resultSize : ℕ) (result : Buffer)
    (hne : str ≠ []) (hroom : 3 * str.length + 1 ≤ resultSize) :
    let r := urlEncode str off resultSize result
    let text := r.2.read off r.1
    r.2.cells (off + r.1) = 0 ∧ (0 : UInt8) ∉ text ∧ FormText IsFormByte text ∧
      formDecode text = str ∧
      ∀ (str' : List UInt8) (off' resultSize' : ℕ) (result' : Buffer), str' ≠ [] →
        3 * str'.length + 1 ≤ resultSize' →
        let r' := urlEncode str' off' resultSize' result'
        r'.2.read off' r'.1 = text → str' = str := by
  have htext : ∀ {str resultSize} (off : ℕ) (result : Buffer), str ≠ [] →
      3 * str.length + 1 ≤ resultSize →
      let r := urlEncode str off resultSize result
      r.2.cells (off + r.1) = 0 ∧ r.2.read off r.1 = urlEncoding str := by
    intro str resultSize off result hne hroom
    obtain ⟨out, heq, henc, hterm⟩ := urlEncode_eq_of_room off result hne hroom
    rw [heq]
    exact ⟨hterm, henc.read_eq⟩
  obtain ⟨hterm, hread⟩ := htext off result hne hroom
  refine ⟨hterm, ?_, ?_, ?_, ?_⟩
  · rw [hread]
    exact zero_notMem_formEncode str
  · rw [hread]
    exact formText_formEncode (fun _ ↦ isFormByte_of_literal) (by simp [IsFormByte]) str
  · rw [hread, formDecode_formEncode]
  · intro str' off' resultSize' result' hne' hroom' r' heq
    obtain ⟨-, hread'⟩ := htext off' result' hne' hroom'
    rw [hread, hread'] at heq
    rw [← formDecode_formEncode (L := urlLiterals) str', ← formDecode_formEncode str]
    exact congrArg formDecode heq

theorem urlEncode_lossless_sample :
    let r := urlEncode [90, 32, 37] 5 10 ⟨fun _ ↦ 255, 0⟩
    formDecode (r.2.read 5 r.1) = [90, 32, 37] :=
  (urlEncode_lossless [90, 32, 37] 5 10 ⟨fun _ ↦ 255, 0⟩ (by decide) (by decide)).2.2.2.1

/-! ## Any room -/

/-- The memory after `part` has been encoded from index `j` on. -/
def urlWritten : List UInt8 → ℕ → Buffer → Buffer
  | [], _, result => result
  | ch :: part, j, result =>
    urlWritten part (j + (formEncodeByte urlLiterals ch).length)
      (result.write j (formEncodeByte urlLiterals ch ++ if urlEscaped ch then [0] else []))

/-- The loop walks over a part that fits. -/
theorem urlEncodeLoop_append {resultSize : ℕ} {part : List UInt8} (str : List UInt8) :
    ∀ {j : ℕ} {result : Buffer}, j + (urlEncoding part).length < resultSize →
      urlEncodeLoop 0 resultSize (part ++ str) j result
        = urlEncodeLoop 0 resultSize str (j + (urlEncoding part).length)
            (urlWritten part j result) := by
  induction part with
  | nil => intro j result _; rfl
  | cons ch part ih =>
    intro j result hlt
    have hlen : j + (urlEncoding (ch :: part)).length
        = j + (formEncodeByte urlLiterals ch).length + (urlEncoding part).length := by
      rw [urlEncoding, formEncode_cons, List.length_append, Nat.add_assoc]
    rw [hlen] at hlt ⊢
    cases hch : urlEscaped ch with
    | false =>
      have hone : (formEncodeByte urlLiterals ch).length = 1 :=
        (length_formEncodeByte ch).trans (if_neg (Bool.eq_false_iff.mp hch))
      rw [List.cons_append, urlEncodeLoop_plain _ _ (by omega) hch, Nat.zero_add, urlWritten, hch,
        if_neg Bool.false_ne_true, List.append_nil, ← ih hlt, hone]
    | true =>
      have hthree : (formEncodeByte urlLiterals ch).length = 3 :=
        (length_formEncodeByte ch).trans (if_pos hch)
      rw [List.cons_append, urlEncodeLoop_escaped _ _ (by omega) hch, if_pos (by omega),
        Nat.zero_add, urlWritten, hch, if_pos rfl, ← ih hlt, hthree]

theorem urlWritten_encoded {part : List UInt8} :
    ∀ {j : ℕ} {result : Buffer},
      Encoded 0 j result (urlEncoding part) (urlWritten part j result) := by
  induction part with
  | nil => exact .refl
  | cons ch part ih =>
    intro j result
    have hch : Encoded 0 j result (formEncodeByte urlLiterals ch)
        (result.write j (formEncodeByte urlLiterals ch ++ if urlEscaped ch then [0] else [])) := by
      split
      · have hwrite : Encoded 0 j result (formEncodeByte urlLiterals ch)
            (result.write (0 + j) (formEncodeByte urlLiterals ch ++ [0])) := .writeString
        rwa [Nat.zero_add] at hwrite
      · have hwrite : Encoded 0 j result (formEncodeByte urlLiterals ch)
            (result.write (0 + j) (formEncodeByte urlLiterals ch)) := .write
        rw [Nat.zero_add] at hwrite
        rwa [List.append_nil]
    exact hch.trans ih

/-- Behind one byte that has been encoded stands a terminator if it has been escaped. -/
theorem cells_write_formEncodeByte {ch : UInt8} {j k : ℕ} {result : Buffer}
    (hk : j + (formEncodeByte urlLiterals ch).length ≤ k) :
    (result.write j (formEncodeByte urlLiterals ch ++ if urlEscaped ch then [0] else [])).cells k
      = if k = j + (formEncodeByte urlLiterals ch).length ∧ urlEscaped ch then 0
        else result.cells k := by
  cases hch : urlEscaped ch with
  | false =>
    rw [if_neg Bool.false_ne_true, List.append_nil, Buffer.cells_write_behind hk,
      if_neg (fun h ↦ Bool.false_ne_true h.2)]
  | true =>
    rw [if_pos rfl]
    rcases Nat.eq_or_lt_of_le hk with rfl | hlt
    · rw [Buffer.cells_write_last, if_pos ⟨rfl, rfl⟩]
    · rw [Buffer.cells_write_behind (by rw [List.length_append]; exact hlt),
        if_neg (fun h ↦ hlt.ne' h.1)]

/-- Behind what has been encoded stands the terminator of an escape that came last, and else the
memory as it was. -/
theorem cells_urlWritten {part : List UInt8} :
    ∀ {j k : ℕ} {result : Buffer}, j + (urlEncoding part).length ≤ k →
      (urlWritten part j result).cells k
        = if k = j + (urlEncoding part).length ∧ part.getLast?.any urlEscaped then 0
          else result.cells k := by
  induction part with
  | nil => intro j k result _; simp [urlWritten]
  | cons ch part ih =>
    intro j k result hk
    have hlen : j + (urlEncoding (ch :: part)).length
        = j + (formEncodeByte urlLiterals ch).length + (urlEncoding part).length := by
      rw [urlEncoding, formEncode_cons, List.length_append, Nat.add_assoc]
    rw [hlen] at hk ⊢
    rw [urlWritten, ih hk, cells_write_formEncodeByte (by omega)]
    rcases part with _ | ⟨c, part⟩
    · -- the last byte: its terminator is the one that stays
      have hend : urlEncoding ([] : List UInt8) = [] := rfl
      rw [hend, List.length_nil, Nat.add_zero, List.getLast?_nil, List.getLast?_singleton,
        Option.any_none, Option.any_some, if_neg (fun h ↦ Bool.false_ne_true h.2)]
    · have hpos : 0 < (urlEncoding (c :: part)).length := by
        have hsplit : c :: part = [] ++ c :: part := rfl
        rw [length_urlEncoding_split hsplit]
        split <;> omega
      have hne : k ≠ j + (formEncodeByte urlLiterals ch).length := by omega
      rw [List.getLast?_cons_cons, if_neg (fun h : _ ∧ urlEscaped ch = true ↦ hne h.1)]

/-- What a call should satisfy that has `resultSize` bytes of room: no write behind them, a
terminator in them, and a result other than `0` only for the whole string. -/
structure RespectsCapacity (str : List UInt8) (resultSize : ℕ) (r : ℕ × Buffer) : Prop where
  inBounds : r.2.high ≤ resultSize
  terminated : ∃ k < resultSize, r.2.cells k = 0
  whole : r.1 ≠ 0 → r.2.read 0 r.1 = urlEncoding str

/-- The escape of `ch` behind `part` is the first that does not fit, and nothing in front of it
fills the result. -/
structure RefusedAt (str : List UInt8) (resultSize : ℕ) (part rest : List UInt8) (ch : UInt8) :
    Prop where
  split : str = part ++ ch :: rest
  escaped : urlEscaped ch = true
  room : (urlEncoding part).length < resultSize
  noRoom : resultSize ≤ (urlEncoding part).length + 3

/-- When a call keeps to its capacity: the encoding and its terminator fit, or an escape is refused
while a terminator stands behind what has been encoded, left by an escape or by the memory. -/
def Respected (str : List UInt8) (resultSize : ℕ) (memory : ℕ → UInt8) : Prop :=
  (urlEncoding str).length < resultSize ∨
    ∃ part rest ch, RefusedAt str resultSize part rest ch ∧
      (part.getLast?.any urlEscaped = true ∨
        ∃ k, (urlEncoding part).length ≤ k ∧ k < resultSize ∧ memory k = 0)

section Capacity

variable {str part rest : List UInt8} {ch : UInt8} {resultSize : ℕ} {memory : ℕ → UInt8}

theorem RefusedAt.eq (h : RefusedAt str resultSize part rest ch) :
    urlEncodeLoop 0 resultSize str 0 ⟨memory, 0⟩ = (0, urlWritten part 0 ⟨memory, 0⟩) := by
  have hroom := h.room
  have hno := h.noRoom
  rw [h.split, urlEncodeLoop_append _ (by omega), urlEncodeLoop_escaped _ _ (by omega) h.escaped,
    if_neg (by omega)]

/-- A refused call keeps to its capacity if there is a terminator for it. -/
theorem RefusedAt.respects_iff (h : RefusedAt str resultSize part rest ch) :
    RespectsCapacity str resultSize (urlEncodeLoop 0 resultSize str 0 ⟨memory, 0⟩) ↔
      (part.getLast?.any urlEscaped = true ∨
        ∃ k, (urlEncoding part).length ≤ k ∧ k < resultSize ∧ memory k = 0) := by
  have hroom := h.room
  have henc : Encoded 0 0 ⟨memory, 0⟩ (urlEncoding part) (urlWritten part 0 ⟨memory, 0⟩) :=
    urlWritten_encoded
  rw [h.eq]
  constructor
  · rintro ⟨-, ⟨k, hk, hzero⟩, -⟩
    have hle : (urlEncoding part).length ≤ k := by
      by_contra hlt
      have hmem : (urlWritten part 0 ⟨memory, 0⟩).cells k ∈ urlEncoding part := by
        rw [← henc.read_eq]
        exact List.mem_map.mpr ⟨k, List.mem_range.mpr (by omega), by rw [Nat.zero_add]⟩
      exact zero_notMem_formEncode part (hzero ▸ hmem)
    rw [cells_urlWritten (by omega)] at hzero
    split at hzero
    · rename_i hlast
      exact Or.inl hlast.2
    · exact Or.inr ⟨k, hle, hk, hzero⟩
  · intro hterm
    have hhigh := henc.high
    refine ⟨?_, ?_, fun hne ↦ absurd rfl hne⟩
    · exact hhigh.trans (by simp only [Nat.zero_le, max_eq_right]; omega)
    · rcases hterm with hlast | ⟨k, hle, hk, hzero⟩
      · refine ⟨(urlEncoding part).length, hroom, ?_⟩
        rw [cells_urlWritten (by omega), if_pos ⟨by omega, hlast⟩]
      · refine ⟨k, hk, ?_⟩
        rw [cells_urlWritten (by omega)]
        split
        · rfl
        · exact hzero

/-- A call that fills its capacity has refused nothing. -/
theorem not_respected_of_ne_zero
    (hret : (urlEncodeLoop 0 resultSize str 0 ⟨memory, 0⟩).1 ≠ 0)
    (hlen : resultSize ≤ (urlEncoding str).length) : ¬Respected str resultSize memory := by
  rintro (hlt | ⟨part, rest, ch, hrefused, -⟩)
  · omega
  · rw [hrefused.eq] at hret
    exact hret rfl

/-- A call that writes behind its capacity, having encoded something. -/
theorem respects_iff_of_full {n : ℕ} {out : Buffer}
    (h : urlEncodeLoop 0 resultSize str 0 ⟨memory, 0⟩ = (n, out)) (hn : n ≠ 0)
    (hlen : resultSize ≤ (urlEncoding str).length) (hhigh : resultSize < out.high) :
    RespectsCapacity str resultSize (n, out) ↔ Respected str resultSize memory := by
  refine iff_of_false (fun hr ↦ Nat.not_le.mpr hhigh hr.inBounds) (not_respected_of_ne_zero ?_ hlen)
  rw [h]
  exact hn

end Capacity

/-- **`URLEncode` keeps to its capacity if and only if the call is `Respected`.** -/
theorem urlEncode_respectsCapacity_iff (str : List UInt8) (resultSize : ℕ) (memory : ℕ → UInt8)
    (hne : str ≠ []) (hsize : 0 < resultSize) :
    RespectsCapacity str resultSize (urlEncode str 0 resultSize ⟨memory, 0⟩) ↔
      Respected str resultSize memory := by
  have hgo : ¬(str = [] ∨ resultSize = 0) := not_or.mpr ⟨hne, by omega⟩
  rw [urlEncode, if_neg hgo]
  have hend := urlEncodeLoop_end 0 str (Nat.zero_le resultSize) ⟨memory, 0⟩
  cases h : urlEncodeLoop 0 resultSize str 0 ⟨memory, 0⟩ with
  | mk n out =>
  rw [h] at hend
  cases hend with
  | done encoded terminated room high =>
    simp only [Nat.zero_add] at terminated room high ⊢
    rcases Nat.lt_or_eq_of_le room with hlt | heq
    · refine iff_of_true ⟨?_, ⟨_, hlt, terminated⟩, fun _ ↦ encoded.read_eq⟩ (Or.inl hlt)
      exact encoded.high.trans (by simp only [Nat.zero_le, max_eq_right]; omega)
    · rw [Nat.zero_add] at h
      exact respects_iff_of_full h (by omega) heq.ge (by omega)
  | full split encoded hfull high =>
    have hlen := length_urlEncoding_split split
    exact respects_iff_of_full h hsize.ne' (by omega) (by omega)
  | @refused _ part rest ch split encoded escaped noRoom room =>
    have hrefused : RefusedAt str resultSize part rest ch :=
      ⟨split, escaped, by omega, by omega⟩
    have hlen := length_urlEncoding_split split
    rw [if_pos escaped] at hlen
    rw [← h, hrefused.respects_iff]
    constructor
    · exact fun hterm ↦ Or.inr ⟨part, rest, ch, hrefused, hterm⟩
    · rintro (hlt | ⟨part', rest', ch', hrefused', hterm⟩)
      · omega
      · exact hrefused.respects_iff.mp (hrefused'.respects_iff.mpr hterm)

theorem urlEncode_respectsCapacity_sample :
    RespectsCapacity [37] 4 (urlEncode [37] 0 4 ⟨fun _ ↦ 255, 0⟩) :=
  (urlEncode_respectsCapacity_iff [37] 4 (fun _ ↦ 255) (by decide) (by decide)).mpr
    (.inl (by decide))

/-- The string `A` and room for one byte: the terminator is written behind it. -/
theorem urlEncode_not_respectsCapacity :
    ¬ ∀ (str : List UInt8) (resultSize : ℕ) (memory : ℕ → UInt8), str ≠ [] → 0 < resultSize →
      RespectsCapacity str resultSize (urlEncode str 0 resultSize ⟨memory, 0⟩) := by
  intro h
  have := (h [65] 1 (fun _ ↦ 0) (by decide) (by decide)).inBounds
  exact absurd this (by decide)

end Ddmz.Cloud
