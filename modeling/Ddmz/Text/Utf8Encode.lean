import Ddmz.Text.Utf8Decode

/-!
# Encoding UTF-8

`putu8c` of `utf8.c` writes the sequence of a code point into what is left of a buffer, the last
byte of it first, and `u8encode` puts a list of them. Negative code points are skipped and counted;
the first that does not fit ends the encoding.

What has been put is the encoding of a list, and `u8decode` returns that list: what it has lost are
the negative code points, and everything from the one that did not fit.
-/

namespace Ddmz.Text

/-- The destination of `u8encode`: the buffer, the offset of `s`, and `left`. -/
structure Output where
  des : Buffer
  pos : ℕ
  left : ℕ

/-- The loop of `putu8c` from the continuation byte `i` down to the first, with what is left of
`uc`. -/
def putTail (des : Buffer) (pos : ℕ) : ℕ → ℕ → Buffer × ℕ
  | 0, uc => (des, uc)
  | i + 1, uc =>
    putTail (des.write (pos + (i + 1)) [UInt8.ofNat (uc &&& 0x3f ||| 0x80)]) pos i (uc >>> 6)

/-- `byte_num` of `putu8c`. -/
def byteNum (uc : ℕ) : ℕ :=
  if uc < 0x1 <<< 11 then 2
  else if uc < 0x1 <<< 16 then 3
  else if uc < 0x1 <<< 21 then 4
  else if uc < 0x1 <<< 26 then 5
  else 6

/-- `putu8c`. A code point that is not negative is shifted like a number. -/
def putu8c (uc : Int32) (o : Output) : ℤ × Output :=
  if uc < 0 then (-1, o)
  else
    let uc := uc.toInt.toNat
    if uc < 0x1 <<< 7 then
      if o.left < 1 + 1 then (-2, o)
      else
        let des := o.des.write o.pos [UInt8.ofNat uc]
        (1, { des := des.write (o.pos + 1) [0], pos := o.pos + 1, left := o.left - 1 })
    else
      let n := byteNum uc
      if o.left < n + 1 then (-2, o)
      else
        let (des, uc) := putTail o.des o.pos (n - 1) uc
        let des := des.write o.pos [UInt8.ofNat (uc ||| 0xff <<< (8 - n))]
        (n, { des := des.write (o.pos + n) [0], pos := o.pos + n, left := o.left - n })

/-- What `u8encode` leaves in `des`, what it returns, and `*illegal` if it writes it. -/
structure Encoded where
  des : Buffer
  len : ℕ
  illegal : Option ℕ

/-- The loop of `u8encode`. The list ends with the array. -/
def u8encodeLoop : List Int32 → Output → ℕ → ℕ → Option Encoded
  | [], _, _, _ => none
  | u :: us, o, len, illegal =>
    if u = 0 then some ⟨o.des, len, some illegal⟩
    else
      let (ret, o) := putu8c u o
      if 0 < ret then u8encodeLoop us o (len + ret.toNat) illegal
      else if ret = -1 then u8encodeLoop us o len (illegal + 1)
      else some ⟨o.des, len, some illegal⟩

def u8encode (us : List Int32) (des : Buffer) (n : ℕ) : Option Encoded :=
  if n = 0 then some ⟨des, 0, none⟩ else u8encodeLoop us ⟨des.write 0 [0], 0, n⟩ 0 0

/-! ## The encoding of a code point -/

/-- The continuation byte with the payload `d`. -/
def contByte (d : ℕ) : UInt8 := UInt8.ofNat (d ||| 0x80)

/-- The first byte of a sequence of `n` with the payload `h`. -/
def leadByte (n h : ℕ) : UInt8 := UInt8.ofNat (h ||| 0xff <<< (8 - n))

def encoding (uc : ℕ) : List UInt8 :=
  if uc < 0x80 then [UInt8.ofNat uc]
  else leadByte (byteNum uc) (uc / 64 ^ (byteNum uc - 1)) ::
    (lowDigits 64 (byteNum uc - 1) uc).map contByte

theorem umap_contByte : ∀ d < 64, umap (contByte d) = 0 := by decide

theorem contBits_contByte : ∀ d < 64, contBits (contByte d) = d := by decide

theorem umap_leadByte : ∀ n ∈ [2, 3, 4, 5, 6], ∀ h < 2 ^ (7 - n), umap (leadByte n h) = n := by
  decide

theorem leadBits_leadByte : ∀ n ∈ [2, 3, 4, 5, 6], ∀ h < 2 ^ (7 - n),
    leadBits (leadByte n h) = h := by
  decide

theorem umap_ascii : ∀ uc < 0x80, umap (UInt8.ofNat uc) = 1 := by decide

theorem leadBits_ascii : ∀ uc < 0x80, leadBits (UInt8.ofNat uc) = uc := by decide

theorem byteNum_mem (uc : ℕ) : byteNum uc ∈ [2, 3, 4, 5, 6] := by
  rw [byteNum]
  split_ifs <;> decide

/-- The payload of the first byte has as many bits as the byte leaves. -/
theorem div_byteNum_lt {uc : ℕ} (h : uc < 2 ^ 31) :
    uc / 64 ^ (byteNum uc - 1) < 2 ^ (7 - byteNum uc) := by
  rw [Nat.div_lt_iff_lt_mul (by positivity), byteNum]
  split_ifs <;> simp_all

theorem byteNum_pos (uc : ℕ) : 1 ≤ byteNum uc := by
  rw [byteNum]
  split_ifs <;> decide

/-- The sequence of a code point beyond ASCII. -/
def wide (uc : ℕ) (h : uc < 2 ^ 31) : Sequence where
  lead := leadByte (byteNum uc) (uc / 64 ^ (byteNum uc - 1))
  tail := (lowDigits 64 (byteNum uc - 1) uc).map contByte
  umap_lead := by
    rw [umap_leadByte _ (byteNum_mem uc) _ (div_byteNum_lt h), List.length_map, length_lowDigits,
      Nat.sub_add_cancel (byteNum_pos uc)]
  umap_tail := by
    intro b hb
    obtain ⟨d, hd, rfl⟩ := List.mem_map.mp hb
    exact umap_contByte d (lt_of_mem_lowDigits (by decide) hd)

theorem value_wide (uc : ℕ) (h : uc < 2 ^ 31) : (wide uc h).value = uc := by
  have hdigits : ∀ d ∈ lowDigits 64 (byteNum uc - 1) uc, contBits (contByte d) = d := fun d hd ↦
    contBits_contByte d (lt_of_mem_lowDigits (by decide) hd)
  have hbits : (wide uc h).tail.map contBits = lowDigits 64 (byteNum uc - 1) uc := by
    rw [wide, List.map_map]
    exact (List.map_congr_left hdigits).trans (List.map_id _)
  rw [Sequence.value, hbits, wide, leadBits_leadByte _ (byteNum_mem uc) _ (div_byteNum_lt h),
    foldl_lowDigits, Nat.mul_comm, Nat.div_add_mod]

/-- The sequence of an ASCII character. -/
def narrow (uc : ℕ) (h : uc < 0x80) : Sequence := .single (UInt8.ofNat uc) (umap_ascii uc h)

/-- **The encoding of a code point is a sequence with its value.** -/
theorem exists_sequence {uc : ℕ} (h : uc < 2 ^ 31) :
    ∃ z : Sequence, z.bytes = encoding uc ∧ z.value = uc := by
  by_cases hlt : uc < 0x80
  · exact ⟨narrow uc hlt, by rw [encoding, if_pos hlt]; rfl, leadBits_ascii uc hlt⟩
  · exact ⟨wide uc h, by rw [encoding, if_neg hlt]; rfl, value_wide uc h⟩

/-! ## One code point -/

/-- The bytes `w` put at `s`, with a terminator behind them. -/
def Output.put (o : Output) (w : List UInt8) : Output where
  des := o.des.write o.pos (w ++ [0])
  pos := o.pos + w.length
  left := o.left - w.length

/-- The continuation bytes are written from the last to the first. -/
theorem putTail_eq (des : Buffer) (pos i uc : ℕ) :
    putTail des pos (i + 1) uc
      = (des.write (pos + 1) ((lowDigits 64 (i + 1) uc).map contByte), uc / 64 ^ (i + 1)) := by
  induction i generalizing des uc with
  | zero =>
    rw [putTail, putTail, Nat.shiftRight_eq_div_pow]
    have hlow : uc &&& 0x3f = uc % 64 := Nat.and_two_pow_sub_one_eq_mod uc 6
    rw [hlow]
    rfl
  | succ i ih =>
    have hlow : uc &&& 0x3f = uc % 64 := Nat.and_two_pow_sub_one_eq_mod uc 6
    have hpos : pos + (i + 1 + 1) = pos + 1 + ((lowDigits 64 (i + 1) (uc / 64)).map contByte).length
        := by
      rw [List.length_map, length_lowDigits]
      omega
    rw [putTail, ih, Nat.shiftRight_eq_div_pow, hlow, Nat.div_div_eq_div_mul, ← contByte,
      lowDigits.eq_def 64 (i + 1 + 1), List.map_append, Buffer.write_append_back, ← hpos,
      pow_succ' 64 (i + 1)]
    rfl

theorem length_encoding_wide {uc : ℕ} (h : ¬uc < 0x80) : (encoding uc).length = byteNum uc := by
  rw [encoding, if_neg h, List.length_cons, List.length_map, length_lowDigits,
    Nat.sub_add_cancel (byteNum_pos uc)]

theorem put_wide {uc : ℕ} (h : ¬uc < 0x80) (o : Output) :
    o.put (encoding uc) =
      let (des, low) := putTail o.des o.pos (byteNum uc - 1) uc
      let des := des.write o.pos [UInt8.ofNat (low ||| 0xff <<< (8 - byteNum uc))]
      ⟨des.write (o.pos + byteNum uc) [0], o.pos + byteNum uc, o.left - byteNum uc⟩ := by
  obtain ⟨i, hi⟩ : ∃ i, byteNum uc = i + 1 + 1 := by
    have hmem := byteNum_mem uc
    simp only [List.mem_cons, List.not_mem_nil, or_false] at hmem
    exact ⟨byteNum uc - 2, by omega⟩
  have hlen := length_encoding_wide h
  rw [Output.put, Buffer.write_append, hlen, encoding, if_neg h, hi, Nat.add_sub_cancel, putTail_eq,
    ← List.singleton_append, Buffer.write_append_back]
  rfl

/-- **`putu8c` puts the encoding if there is room for it and the terminator.** -/
theorem putu8c_eq {uc : Int32} (h : ¬uc < 0) (o : Output) :
    putu8c uc o = if o.left < (encoding uc.toInt.toNat).length + 1 then ((-2 : ℤ), o)
      else (((encoding uc.toInt.toNat).length : ℤ), o.put (encoding uc.toInt.toNat)) := by
  rw [putu8c, if_neg h]
  generalize uc.toInt.toNat = u
  by_cases hlt : u < 0x80
  · have hone : encoding u = [UInt8.ofNat u] := if_pos hlt
    rw [hone, Output.put, Buffer.write_append]
    exact if_pos hlt
  · rw [put_wide hlt, length_encoding_wide hlt]
    exact if_neg hlt

/-! ## A list of code points -/

/-- The code points that are not negative. -/
def legal (us : List Int32) : List Int32 := us.filter fun u ↦ !decide (u < 0)

def encodingOf (u : Int32) : List UInt8 := encoding u.toInt.toNat

/-- The encoding of a list. -/
def utf8 (us : List Int32) : List UInt8 := us.flatMap encodingOf

variable {us vs : List Int32} {u : Int32} {des : Buffer} {n high : ℕ}

@[simp] theorem utf8_append : utf8 (us ++ vs) = utf8 us ++ utf8 vs := List.flatMap_append

@[simp] theorem utf8_singleton : utf8 [u] = encodingOf u := List.flatMap_singleton ..

theorem legal_append : legal (us ++ vs) = legal us ++ legal vs := List.filter_append _ _

theorem not_neg_of_mem_legal (h : u ∈ legal us) : ¬u < 0 := by
  simpa using (List.mem_filter.mp h).2

/-- The encoding of `vs` stands in the first `n` bytes of `des`, with its terminator, and nothing
behind them has been written. -/
structure Holds (n high : ℕ) (des : Buffer) (vs : List Int32) : Prop where
  text : des.read 0 (utf8 vs).length = utf8 vs
  terminated : des.cells (utf8 vs).length = 0
  room : (utf8 vs).length < n
  bounded : des.high ≤ max high n

/-- `s` and `left` where `vs` has been put. -/
def Output.behind (des : Buffer) (n : ℕ) (vs : List Int32) : Output :=
  ⟨des, (utf8 vs).length, n - (utf8 vs).length⟩

theorem Output.put_behind :
    (Output.behind des n vs).put (encodingOf u)
      = .behind (des.write (utf8 vs).length (encodingOf u ++ [0])) n (vs ++ [u]) := by
  rw [put, behind, behind, utf8_append, utf8_singleton, List.length_append, Nat.sub_sub]

theorem encoding_ne_nil (uc : ℕ) : encoding uc ≠ [] := by
  rw [encoding]
  split_ifs <;> exact List.cons_ne_nil _ _

theorem Holds.put (h : Holds n high des vs)
    (hroom : (utf8 vs).length + (encodingOf u).length < n) :
    Holds n high (des.write (utf8 vs).length (encodingOf u ++ [0])) (vs ++ [u]) where
  text := by
    rw [utf8_append, utf8_singleton, List.length_append, Buffer.write_append,
      Buffer.read_write_before (by omega), Buffer.read_zero_write_append, h.text]
  terminated := by
    rw [utf8_append, utf8_singleton, List.length_append]
    exact Buffer.cells_write_last
  room := by rwa [utf8_append, utf8_singleton, List.length_append]
  bounded := by
    have hb := h.bounded
    rw [Buffer.high_write, List.length_append, List.length_singleton]
    omega

/-- The code points `taken` have been gone through, and the next one does not fit. -/
structure Stopped (n : ℕ) (us taken rest : List Int32) : Prop where
  split : us = taken ++ rest
  full : ∀ u ∈ rest.head?, ¬u < 0 ∧ n ≤ (utf8 (legal taken)).length + (encodingOf u).length

theorem u8encodeLoop_spec (h0 : (0 : Int32) ∉ us) (done : List Int32)
    (h : Holds n high des (legal done)) :
    ∃ e taken rest, u8encodeLoop (us ++ [0]) (.behind des n (legal done))
        (utf8 (legal done)).length (done.countP (· < 0)) = some e ∧
      Stopped n (done ++ us) taken rest ∧ Holds n high e.des (legal taken) ∧
      e.len = (utf8 (legal taken)).length ∧ e.illegal = some (taken.countP (· < 0)) := by
  induction us generalizing done des with
  | nil =>
    exact ⟨_, done, [], rfl, ⟨rfl, by simp⟩, h, rfl, rfl⟩
  | cons u us ih =>
    have hu : u ≠ 0 := fun hu ↦ h0 (hu ▸ List.mem_cons_self)
    have hus : (0 : Int32) ∉ us := List.not_mem_of_not_mem_cons h0
    have hdone : done ++ u :: us = done ++ [u] ++ us := by simp
    rw [List.cons_append, u8encodeLoop, if_neg hu]
    by_cases hneg : u < 0
    · -- skipped and counted
      have hlegal : legal (done ++ [u]) = legal done := by simp [legal, hneg]
      have hcount : (done ++ [u]).countP (· < 0) = done.countP (· < 0) + 1 := by
        simp [List.countP_append, hneg]
      obtain ⟨e, taken, rest, hrun, hrest⟩ := ih hus (done ++ [u]) (hlegal ▸ h)
      refine ⟨e, taken, rest, ?_, hdone ▸ hrest⟩
      rw [← hrun, hlegal, hcount, putu8c, if_pos hneg]
      rfl
    · have hlegal : legal (done ++ [u]) = legal done ++ [u] := by simp [legal, hneg]
      have hcount : (done ++ [u]).countP (· < 0) = done.countP (· < 0) := by
        simp [List.countP_append, hneg]
      have hroom := h.room
      have hleft : (Output.behind des n (legal done)).left = n - (utf8 (legal done)).length := rfl
      rw [putu8c_eq hneg, ← encodingOf, hleft]
      by_cases hfull : n ≤ (utf8 (legal done)).length + (encodingOf u).length
      · rw [if_pos (by omega)]
        refine ⟨_, done, u :: us, rfl, ⟨rfl, ?_⟩, h, rfl, rfl⟩
        rintro _ ⟨⟩
        exact ⟨hneg, hfull⟩
      · have hput := h.put (Nat.lt_of_not_le hfull)
        obtain ⟨e, taken, rest, hrun, hrest⟩ := ih hus (done ++ [u]) (hlegal ▸ hput)
        refine ⟨e, taken, rest, ?_, hdone ▸ hrest⟩
        have hpos : (0 : ℤ) < (encodingOf u).length :=
          Int.natCast_pos.mpr (List.length_pos_iff.mpr (encoding_ne_nil _))
        rw [if_neg (by omega), Output.put_behind, ← hrun, hlegal, hcount, utf8_append,
          utf8_singleton, List.length_append]
        exact if_pos hpos

/-! ## The round trip -/

/-- `vs` is the longest beginning of `us` whose encoding has at most `room` bytes. -/
structure LongestFitting (room : ℕ) (us vs : List Int32) : Prop where
  isPrefix : vs <+: us
  fits : (utf8 vs).length ≤ room
  longest : ∀ ws, ws <+: us → (utf8 ws).length ≤ room → ws.length ≤ vs.length

theorem utf8_length_le (h : vs <+: us) : (utf8 vs).length ≤ (utf8 us).length := by
  obtain ⟨ws, rfl⟩ := h
  rw [utf8_append, List.length_append]
  exact Nat.le_add_right _ _

theorem Stopped.longestFitting {taken rest : List Int32} (h : Stopped n us taken rest)
    (hroom : (utf8 (legal taken)).length < n) :
    LongestFitting (n - 1) (legal us) (legal taken) := by
  have hsplit : legal us = legal taken ++ legal rest := by rw [h.split, legal_append]
  refine ⟨⟨legal rest, hsplit.symm⟩, by omega, fun ws hws hfits ↦ ?_⟩
  cases hrest : rest with
  | nil =>
    have hle := hws.length_le
    rwa [hsplit, hrest, show legal [] = [] from rfl, List.append_nil] at hle
  | cons u rest' =>
    obtain ⟨hneg, hfull⟩ := h.full u (by rw [hrest]; rfl)
    by_contra hlonger
    -- a longer beginning would contain the code point that does not fit
    have hnext : legal taken ++ [u] <+: legal us :=
      ⟨legal rest', by rw [hsplit, hrest, List.append_assoc]; simp [legal, hneg]⟩
    have hlen : (legal taken ++ [u]).length ≤ ws.length := by
      rw [List.length_append, List.length_singleton]
      omega
    have hle := utf8_length_le (List.prefix_of_prefix_length_le hnext hws hlen)
    rw [utf8_append, utf8_singleton, List.length_append] at hle
    omega

/-- What a code point that is not negative is decoded to. -/
theorem getu8c_encodingOf (hneg : ¬u < 0) (s : List UInt8) :
    getu8c (encodingOf u ++ s) = some ⟨u, 0, (encodingOf u).length, s⟩ := by
  have hnonneg : 0 ≤ u.toInt := by
    have hle := Int32.le_iff_toInt_le.mp (Int32.not_lt.mp hneg)
    simpa using hle
  have hlt : u.toInt.toNat < 2 ^ 31 := by
    have hlt := u.toInt_lt
    omega
  obtain ⟨z, hbytes, hvalue⟩ := exists_sequence hlt
  have huc : Int32.ofNat u.toInt.toNat = u := by
    rw [← Int32.ofInt_eq_ofNat, Int.toNat_of_nonneg hnonneg, Int32.ofInt_toInt]
  rw [encodingOf, ← hbytes, z.getu8c_bytes, hvalue, huc]

theorem u8decodeLoop_utf8 {m fuel : ℕ} (hlegal : ∀ u ∈ vs, ¬u < 0) (h0 : (0 : Int32) ∉ vs)
    (done : List Int32) (illegal bytes : ℕ) (hroom : done.length + vs.length < m)
    (hfuel : vs.length < fuel) :
    u8decodeLoop m fuel (utf8 vs ++ [0]) done illegal bytes
      = some ⟨done ++ vs, some illegal, bytes + (utf8 vs).length⟩ := by
  induction vs generalizing done bytes fuel with
  | nil =>
    obtain ⟨k, rfl⟩ := Nat.exists_eq_succ_of_ne_zero (Nat.ne_zero_of_lt hfuel)
    have hnul : getu8c [0] = some ⟨0, 0, 1, []⟩ := rfl
    rw [List.append_nil]
    simp [u8decodeLoop, utf8, hnul]
  | cons u vs ih =>
    obtain ⟨k, rfl⟩ := Nat.exists_eq_succ_of_ne_zero (Nat.ne_zero_of_lt hfuel)
    have hu : u ≠ 0 := fun hu ↦ h0 (hu ▸ List.mem_cons_self)
    have hrest := ih (fun u hu ↦ hlegal u (List.mem_cons_of_mem _ hu))
      (List.not_mem_of_not_mem_cons h0) (done ++ [u]) (bytes + (encodingOf u).length)
      (by simp at hroom ⊢; omega) (Nat.lt_of_succ_lt_succ hfuel)
    have hutf8 : utf8 (u :: vs) = encodingOf u ++ utf8 vs := rfl
    have hroom' : done.length < m - 1 := by
      rw [List.length_cons] at hroom
      omega
    rw [hutf8, List.append_assoc]
    simp only [u8decodeLoop, getu8c_encodingOf (hlegal u List.mem_cons_self)]
    rw [if_pos ⟨hu, hroom'⟩, Nat.add_zero, hrest, List.append_assoc, List.length_append,
      Nat.add_assoc]
    rfl

theorem length_le_utf8 (vs : List Int32) : vs.length ≤ (utf8 vs).length := by
  induction vs with
  | nil => exact le_refl _
  | cons u vs ih =>
    have hpos := List.length_pos_iff.mpr (encoding_ne_nil u.toInt.toNat)
    have hutf8 : utf8 (u :: vs) = encoding u.toInt.toNat ++ utf8 vs := rfl
    rw [hutf8, List.length_append, List.length_cons]
    omega

/-- What is encoded and decoded again: `u8encode` goes through `taken`, and either that is all or
the next code point does not fit; it counts the negative code points in `taken`. The others are the
longest beginning that fits, and what is read back. -/
def RoundTrip (us : List Int32) (des : Buffer) (n : ℕ) : Prop :=
  ∃ e taken rest, u8encode (us ++ [0]) des n = some e ∧
    e.len < n ∧ e.des.high ≤ max des.high n ∧ e.des.cells e.len = 0 ∧
    Stopped n us taken rest ∧ e.illegal = some (taken.countP (· < 0)) ∧
    LongestFitting (n - 1) (legal us) (legal taken) ∧
    ∀ m > (legal taken).length, u8decode (e.des.read 0 (e.len + 1)) m
      = some ⟨legal taken, some 0, e.len⟩

/-- **Encoding, then decoding**, for every list and every size. -/
theorem roundTrip (us : List Int32) (h0 : (0 : Int32) ∉ us) (des : Buffer) {n : ℕ} (hn : 1 ≤ n) :
    RoundTrip us des n := by
  have hstart : Holds n des.high (des.write 0 [0]) (legal []) :=
    ⟨rfl, Buffer.cells_write_singleton, hn, max_le_max_left _ hn⟩
  obtain ⟨e, taken, rest, hrun, hstopped, hholds, hlen, hillegal⟩ := u8encodeLoop_spec h0 [] hstart
  refine ⟨e, taken, rest, ?_, hlen ▸ hholds.room, hholds.bounded, hlen ▸ hholds.terminated,
    hstopped, hillegal, hstopped.longestFitting hholds.room, fun m hm ↦ ?_⟩
  · rw [u8encode, if_neg (Nat.ne_of_gt hn), ← hrun]
    rfl
  · have htaken : (0 : Int32) ∉ legal taken := by
      intro hmem
      refine h0 ?_
      have hus : us = taken ++ rest := hstopped.split
      rw [hus]
      exact List.mem_append_left _ (List.mem_of_mem_filter hmem)
    have hmem : e.des.read 0 (e.len + 1) = utf8 (legal taken) ++ [0] := by
      rw [hlen, Buffer.read_add, hholds.text, Nat.zero_add, Buffer.read_succ, Buffer.read_zero,
        hholds.terminated]
    have hfuel : (legal taken).length < (utf8 (legal taken) ++ [0]).length := by
      rw [List.length_append, List.length_singleton]
      exact Nat.lt_succ_of_le (length_le_utf8 _)
    rw [hmem, u8decode, if_neg (Nat.ne_zero_of_lt hm),
      u8decodeLoop_utf8 (fun _ ↦ not_neg_of_mem_legal) htaken [] 0 0 (by simpa using hm) hfuel,
      hlen]
    simp

theorem roundTrip_cut : RoundTrip [0x41, -1, 0x4e2d, -1] .zeroed 3 :=
  roundTrip _ (by decide) _ (by decide)

/-- The negative code point behind one that does not fit is not counted. -/
theorem not_all_counted : ¬∀ (us : List Int32) (des : Buffer) (n : ℕ), (0 : Int32) ∉ us → 1 ≤ n →
    ∃ e, u8encode (us ++ [0]) des n = some e ∧ e.illegal = some (us.countP (· < 0)) := by
  intro h
  obtain ⟨e, hrun, hillegal⟩ := h [0x41, -1] .zeroed 1 (by decide) (le_refl 1)
  have hencode : u8encode ([0x41, -1] ++ [0]) .zeroed 1
      = some ⟨Buffer.zeroed.write 0 [0], 0, some 0⟩ := rfl
  obtain rfl := Option.some.inj (hencode.symm.trans hrun)
  exact absurd hillegal (by decide)

end Ddmz.Text
