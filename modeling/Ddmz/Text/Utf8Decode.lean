import Ddmz.Foundation.Buffer
import Ddmz.Foundation.Radix

/-!
# Decoding UTF-8

`getu8c` of `utf8.c` skips to the next complete sequence and returns its code point; `u8decode`
calls it until it returns zero. A sequence has up to six bytes, and is broken off by any byte that
could begin another one. The bytes `0xFE` and `0xFF` do not, and count as continuation.

`getu8c` takes the first complete sequence there is: `getu8c_complete`. The terminator of a string
is one, so nothing behind it is read. But it is not the only one with the value zero: a sequence of
two bytes or more all of whose payload bits are zero ends the decoding as well, wherever it stands.
-/

namespace Ddmz.Text

/-- The table `umap`: how many bytes a sequence has that begins with `b`, and zero if none does. -/
def umap (b : UInt8) : ℕ :=
  if b < 0x80 then 1
  else if 0xc0 ≤ b ∧ b < 0xe0 then 2
  else if 0xe0 ≤ b ∧ b < 0xf0 then 3
  else if 0xf0 ≤ b ∧ b < 0xf8 then 4
  else if 0xf8 ≤ b ∧ b < 0xfc then 5
  else if 0xfc ≤ b ∧ b < 0xfe then 6
  else 0

/-- What `getu8c` returns, and where it leaves `*src`. -/
structure Got where
  uc : Int32
  illegal : ℕ
  /-- The length `s - t` of the sequence that `uc` was read from. -/
  taken : ℕ
  rest : List UInt8
  deriving DecidableEq

/-- The loop over the continuation bytes with `goto repeat_label`: `left` bytes are still to come,
and `taken` is `s - t`. The memory ends behind the list. -/
def getu8cRepeat : List UInt8 → ℕ → ℕ → ℕ → ℕ → Option Got
  | s, 0, uc, taken, illegal => some ⟨Int32.ofNat uc, illegal, taken, s⟩
  | [], _ + 1, _, _, _ => none
  | b :: s, left + 1, uc, taken, illegal =>
    if umap b ≠ 0 then
      getu8cRepeat s (umap b - 1) (b.toNat &&& 0xff >>> umap b) 1 (illegal + taken)
    else getu8cRepeat s left ((uc <<< 6 + (b.toNat &&& 0x3f)) % 2 ^ 32) (taken + 1) illegal

/-- `getu8c`, from the loop that skips the bytes that begin no sequence. -/
def getu8cFrom : List UInt8 → ℕ → Option Got
  | [], _ => none
  | b :: s, illegal =>
    if umap b = 0 then getu8cFrom s (illegal + 1)
    else getu8cRepeat s (umap b - 1) (b.toNat &&& 0xff >>> umap b) 1 illegal

def getu8c (src : List UInt8) : Option Got := getu8cFrom src 0

/-- What `u8decode` leaves in `des` in front of the zero, and in `*illegal` if it writes it. -/
structure Decoded where
  des : List Int32
  illegal : Option ℕ
  /-- The bytes of the sequences in `des`. -/
  bytes : ℕ
  deriving DecidableEq

/-- The loop of `u8decode`, with `r_illegal_all`. The result is `none` if it reads behind the
memory, or does not end. -/
def u8decodeLoop (n : ℕ) : ℕ → List UInt8 → List Int32 → ℕ → ℕ → Option Decoded
  | 0, _, _, _, _ => none
  | fuel + 1, s, des, illegalAll, bytes =>
    match getu8c s with
    | none => none
    | some g =>
      if g.uc ≠ 0 ∧ des.length < n - 1 then
        u8decodeLoop n fuel g.rest (des ++ [g.uc]) (illegalAll + g.illegal) (bytes + g.taken)
      else some ⟨des, some (illegalAll + g.illegal), bytes⟩

def u8decode (mem : List UInt8) (n : ℕ) : Option Decoded :=
  if n = 0 then some ⟨[], none, 0⟩ else u8decodeLoop n mem.length mem [] 0 0

/-! ## Sequences -/

/-- The number that a byte that begins a sequence contributes. -/
def leadBits (b : UInt8) : ℕ := b.toNat &&& 0xff >>> umap b

/-- The number that a continuation byte contributes. -/
def contBits (b : UInt8) : ℕ := b.toNat &&& 0x3f

/-- A complete sequence. -/
structure Sequence where
  lead : UInt8
  tail : List UInt8
  umap_lead : umap lead = tail.length + 1
  umap_tail : ∀ b ∈ tail, umap b = 0

namespace Sequence

def bytes (z : Sequence) : List UInt8 := z.lead :: z.tail

def value (z : Sequence) : ℕ := (z.tail.map contBits).foldl (pushDigit 64) (leadBits z.lead)

end Sequence

theorem contBits_lt (b : UInt8) : contBits b < 64 :=
  lt_of_le_of_lt Nat.and_le_right (by decide)

/-- The payload of a first byte leaves room for the continuation bytes in 31 bits. -/
theorem leadBits_le (b : UInt8) (hb : umap b ≠ 0) :
    (leadBits b + 1) * 64 ^ (umap b - 1) ≤ 2 ^ 31 := by
  have hall : ∀ n : Fin 256, umap (UInt8.ofFin n) ≠ 0 →
      (leadBits (UInt8.ofFin n) + 1) * 64 ^ (umap (UInt8.ofFin n) - 1) ≤ 2 ^ 31 := by
    decide +kernel
  exact hall b.toFin hb

theorem getu8cRepeat_zero (s : List UInt8) (uc taken illegal : ℕ) :
    getu8cRepeat s 0 uc taken illegal = some ⟨Int32.ofNat uc, illegal, taken, s⟩ := by
  rw [getu8cRepeat]

/-- A continuation byte is taken in without a carry. -/
theorem getu8cRepeat_cont {b : UInt8} (hb : umap b = 0) {left uc : ℕ} (s : List UInt8)
    (taken illegal : ℕ) (huc : (uc + 1) * 64 ^ (left + 1) ≤ 2 ^ 31) :
    getu8cRepeat (b :: s) (left + 1) uc taken illegal
      = getu8cRepeat s left (pushDigit 64 uc (contBits b)) (taken + 1) illegal := by
  have hpow : (uc + 1) * 64 ≤ 2 ^ 31 := by
    refine le_trans (Nat.mul_le_mul_left _ ?_) huc
    exact Nat.le_self_pow (Nat.succ_ne_zero left) 64
  have hlt := contBits_lt b
  have hstep : (uc <<< 6 + contBits b) % 2 ^ 32 = pushDigit 64 uc (contBits b) := by
    rw [Nat.shiftLeft_eq, Nat.mod_eq_of_lt (by omega), pushDigit]
  rw [getu8cRepeat, if_neg (not_not.mpr hb), ← contBits, hstep]

theorem pushDigit_room {left uc d : ℕ} (hd : d < 64) (huc : (uc + 1) * 64 ^ (left + 1) ≤ 2 ^ 31) :
    (pushDigit 64 uc d + 1) * 64 ^ left ≤ 2 ^ 31 := by
  have hle : pushDigit 64 uc d + 1 ≤ (uc + 1) * 64 := by
    rw [pushDigit]
    omega
  calc (pushDigit 64 uc d + 1) * 64 ^ left ≤ (uc + 1) * 64 * 64 ^ left :=
        Nat.mul_le_mul_right _ hle
    _ = (uc + 1) * 64 ^ (left + 1) := by rw [Nat.mul_assoc, ← pow_succ']
    _ ≤ 2 ^ 31 := huc

/-- The continuation bytes of a sequence, with anything behind them. -/
theorem getu8cRepeat_tail {tail : List UInt8} (htail : ∀ b ∈ tail, umap b = 0) (s : List UInt8)
    (uc taken illegal : ℕ) (huc : (uc + 1) * 64 ^ tail.length ≤ 2 ^ 31) :
    getu8cRepeat (tail ++ s) tail.length uc taken illegal
      = some ⟨Int32.ofNat ((tail.map contBits).foldl (pushDigit 64) uc), illegal,
          taken + tail.length, s⟩ := by
  induction tail generalizing uc taken with
  | nil => exact getu8cRepeat_zero s uc taken illegal
  | cons b tail ih =>
    have hb : umap b = 0 := htail b List.mem_cons_self
    have hrest : ∀ b ∈ tail, umap b = 0 := fun b h ↦ htail b (List.mem_cons_of_mem _ h)
    rw [List.cons_append, List.length_cons, getu8cRepeat_cont hb _ _ _ huc,
      ih hrest _ _ (pushDigit_room (contBits_lt b) huc), List.map_cons, List.foldl_cons,
      Nat.add_assoc, Nat.add_comm 1]

namespace Sequence

variable (z : Sequence)

theorem umap_lead_ne : umap z.lead ≠ 0 := by
  rw [z.umap_lead]
  exact Nat.succ_ne_zero _

theorem length_bytes : z.bytes.length = z.tail.length + 1 := rfl

/-- A sequence that is not broken off is decoded to its value. -/
theorem getu8cRepeat_bytes (s : List UInt8) (illegal : ℕ) :
    getu8cRepeat (z.tail ++ s) (umap z.lead - 1) (leadBits z.lead) 1 illegal
      = some ⟨Int32.ofNat z.value, illegal, z.bytes.length, s⟩ := by
  have hroom := leadBits_le z.lead z.umap_lead_ne
  rw [z.umap_lead, Nat.add_sub_cancel] at hroom ⊢
  rw [getu8cRepeat_tail z.umap_tail s _ _ _ hroom, length_bytes, Nat.add_comm 1]
  rfl

theorem getu8c_bytes (s : List UInt8) :
    getu8c (z.bytes ++ s) = some ⟨Int32.ofNat z.value, 0, z.bytes.length, s⟩ := by
  rw [getu8c, bytes, List.cons_append, getu8cFrom, if_neg z.umap_lead_ne]
  exact z.getu8cRepeat_bytes s 0

theorem value_lt : z.value < 2 ^ 31 := by
  have hroom := leadBits_le z.lead z.umap_lead_ne
  rw [z.umap_lead, Nat.add_sub_cancel] at hroom
  have hbits : ∀ d ∈ z.tail.map contBits, d < 64 := by simpa using fun b _ ↦ contBits_lt b
  have hlt : z.value < (leadBits z.lead + 1) * 64 ^ (z.tail.map contBits).length :=
    foldl_pushDigit_lt hbits (Nat.lt_succ_self _)
  rw [List.length_map] at hlt
  exact lt_of_lt_of_le hlt hroom

theorem ofNat_value_eq_zero : Int32.ofNat z.value = 0 ↔ z.value = 0 := by
  have hlt := z.value_lt
  rw [← Int32.toInt_inj, Int32.toInt_ofNat_of_lt hlt]
  exact Int.natCast_eq_zero

end Sequence

/-! ## The first complete sequence -/

/-- Whatever has begun when a complete sequence comes, either that is what is returned or it is
still to come afterwards. -/
theorem getu8cRepeat_complete (z : Sequence) (q p : List UInt8) (left uc taken illegal : ℕ) :
    ∃ g, getu8cRepeat (p ++ (z.bytes ++ q)) left uc taken illegal = some g ∧
      (g.uc = Int32.ofNat z.value ∧ g.taken = z.bytes.length ∧ g.rest = q ∨
        ∃ p', g.rest = p' ++ (z.bytes ++ q)) := by
  induction p generalizing left uc taken illegal with
  | nil =>
    cases left with
    | zero => exact ⟨_, getu8cRepeat_zero _ _ _ _, .inr ⟨[], rfl⟩⟩
    | succ left =>
      refine ⟨⟨Int32.ofNat z.value, illegal + taken, z.bytes.length, q⟩, ?_, .inl ⟨rfl, rfl, rfl⟩⟩
      -- the first byte of the sequence breaks off what has begun
      rw [List.nil_append, Sequence.bytes, List.cons_append, getu8cRepeat,
        if_pos z.umap_lead_ne]
      exact z.getu8cRepeat_bytes q _
  | cons b p ih =>
    cases left with
    | zero => exact ⟨_, getu8cRepeat_zero _ _ _ _, .inr ⟨b :: p, rfl⟩⟩
    | succ left =>
      rw [List.cons_append, getu8cRepeat]
      split
      · exact ih _ _ _ _
      · exact ih _ _ _ _

/-- **`getu8c` returns the first complete sequence**, or one in front of it. -/
theorem getu8c_complete (z : Sequence) (q p : List UInt8) :
    ∃ g, getu8c (p ++ (z.bytes ++ q)) = some g ∧
      (g.uc = Int32.ofNat z.value ∧ g.taken = z.bytes.length ∧ g.rest = q ∨
        ∃ p', g.rest = p' ++ (z.bytes ++ q)) := by
  rw [getu8c]
  generalize 0 = illegal
  induction p generalizing illegal with
  | nil =>
    refine ⟨⟨Int32.ofNat z.value, illegal, z.bytes.length, q⟩, ?_, .inl ⟨rfl, rfl, rfl⟩⟩
    rw [List.nil_append, Sequence.bytes, List.cons_append, getu8cFrom, if_neg z.umap_lead_ne]
    exact z.getu8cRepeat_bytes q _
  | cons b p ih =>
    rw [List.cons_append, getu8cFrom]
    split
    · exact ih _
    · exact getu8cRepeat_complete z q p _ _ _ _

/-! ## What is returned -/

/-- What has been read of a sequence: its first byte, and the continuation bytes so far. -/
structure Begun (lead : UInt8) (tail : List UInt8) (left uc : ℕ) : Prop where
  umap_lead : umap lead = tail.length + left + 1
  umap_tail : ∀ b ∈ tail, umap b = 0
  uc_eq : uc = (tail.map contBits).foldl (pushDigit 64) (leadBits lead)
  room : (uc + 1) * 64 ^ left ≤ 2 ^ 31

theorem Begun.start {b : UInt8} (hb : umap b ≠ 0) : Begun b [] (umap b - 1) (leadBits b) where
  umap_lead := by
    rw [List.length_nil]
    omega
  umap_tail := by simp
  uc_eq := rfl
  room := leadBits_le b hb

theorem Begun.cont {lead b : UInt8} {tail : List UInt8} {left uc : ℕ}
    (h : Begun lead tail (left + 1) uc) (hb : umap b = 0) :
    Begun lead (tail ++ [b]) left (pushDigit 64 uc (contBits b)) where
  umap_lead := by
    rw [h.umap_lead, List.length_append, List.length_singleton]
    omega
  umap_tail := by
    intro c hc
    rw [List.mem_append, List.mem_singleton] at hc
    obtain hc | rfl := hc
    · exact h.umap_tail c hc
    · exact hb
  uc_eq := by
    rw [List.map_append, List.foldl_append, ← h.uc_eq]
    rfl
  room := pushDigit_room (contBits_lt b) h.room

/-- A sequence that has been read to its end. -/
def Begun.sequence {lead : UInt8} {tail : List UInt8} {uc : ℕ} (h : Begun lead tail 0 uc) :
    Sequence where
  lead := lead
  tail := tail
  umap_lead := h.umap_lead
  umap_tail := h.umap_tail

/-- The loop returns a complete sequence, and counts what it has passed over. -/
theorem getu8cRepeat_returns {s tail : List UInt8} {lead : UInt8} {left uc illegal : ℕ} {g : Got}
    (hbegun : Begun lead tail left uc)
    (h : getu8cRepeat s left uc (tail.length + 1) illegal = some g) :
    ∃ (p : List UInt8) (z : Sequence), lead :: tail ++ s = p ++ (z.bytes ++ g.rest) ∧
      g.illegal = illegal + p.length ∧ g.uc = Int32.ofNat z.value ∧ g.taken = z.bytes.length := by
  induction s generalizing tail lead left uc illegal with
  | nil =>
    cases left with
    | zero =>
      rw [getu8cRepeat_zero] at h
      obtain rfl := Option.some.inj h
      exact ⟨[], hbegun.sequence, rfl, rfl, congrArg Int32.ofNat hbegun.uc_eq, rfl⟩
    | succ left => simp [getu8cRepeat] at h
  | cons b s ih =>
    cases left with
    | zero =>
      rw [getu8cRepeat_zero] at h
      obtain rfl := Option.some.inj h
      exact ⟨[], hbegun.sequence, rfl, rfl, congrArg Int32.ofNat hbegun.uc_eq, rfl⟩
    | succ left =>
      by_cases hb : umap b = 0
      · rw [getu8cRepeat_cont hb _ _ _ hbegun.room] at h
        have hlen : tail.length + 1 = (tail ++ [b]).length := by simp
        rw [hlen] at h
        obtain ⟨p, z, hsplit, hrest⟩ := ih (hbegun.cont hb) h
        refine ⟨p, z, ?_, hrest⟩
        rw [← hsplit]
        simp
      · rw [getu8cRepeat, if_pos hb] at h
        obtain ⟨p, z, hsplit, hillegal, hrest⟩ := ih (Begun.start hb) h
        refine ⟨lead :: tail ++ p, z, ?_, ?_, hrest⟩
        · rw [List.append_assoc, ← hsplit]
          rfl
        · rw [hillegal, List.length_append, List.length_cons]
          omega

theorem getu8cFrom_returns {s : List UInt8} {illegal : ℕ} {g : Got}
    (h : getu8cFrom s illegal = some g) :
    ∃ (p : List UInt8) (z : Sequence), s = p ++ (z.bytes ++ g.rest) ∧
      g.illegal = illegal + p.length ∧ g.uc = Int32.ofNat z.value ∧ g.taken = z.bytes.length := by
  induction s generalizing illegal with
  | nil => simp [getu8cFrom] at h
  | cons b s ih =>
    rw [getu8cFrom] at h
    split at h
    · obtain ⟨p, z, hsplit, hillegal, hrest⟩ := ih h
      refine ⟨b :: p, z, by rw [hsplit, List.cons_append], ?_, hrest⟩
      rw [hillegal, List.length_cons]
      omega
    · rename_i hb
      exact getu8cRepeat_returns (Begun.start hb) h

/-- What `getu8c` returns is the value of a sequence in front of `rest`, and the bytes in front of
that are the illegal ones. -/
theorem getu8c_returns {s : List UInt8} {g : Got} (h : getu8c s = some g) :
    ∃ (p : List UInt8) (z : Sequence), s = p ++ (z.bytes ++ g.rest) ∧ g.illegal = p.length ∧
      g.uc = Int32.ofNat z.value ∧ g.taken = z.bytes.length := by
  obtain ⟨p, z, hsplit, hillegal, hrest⟩ := getu8cFrom_returns h
  exact ⟨p, z, hsplit, hillegal.trans (Nat.zero_add _), hrest⟩

/-! ## Zeros -/

/-- The sequences of two bytes or more with the value zero. -/
def overlongZeros : List (List UInt8) :=
  [[0xc0, 0x80], [0xe0, 0x80, 0x80], [0xf0, 0x80, 0x80, 0x80], [0xf8, 0x80, 0x80, 0x80, 0x80],
    [0xfc, 0x80, 0x80, 0x80, 0x80, 0x80]]

/-- A sequence of one byte. -/
def Sequence.single (lead : UInt8) (h : umap lead = 1) : Sequence where
  lead := lead
  tail := []
  umap_lead := h
  umap_tail := fun _ hb ↦ absurd hb List.not_mem_nil

/-- The terminator. -/
def Sequence.nul : Sequence := .single 0 rfl

/-- A sequence whose continuation bytes contribute nothing. -/
def Sequence.padded (lead : UInt8) (k : ℕ) (h : umap lead = k + 1) : Sequence where
  lead := lead
  tail := List.replicate k 0x80
  umap_lead := by rw [h, List.length_replicate]
  umap_tail := by
    intro b hb
    rw [List.eq_of_mem_replicate hb]
    rfl

theorem exists_sequence_of_mem_overlongZeros {w : List UInt8} (h : w ∈ overlongZeros) :
    ∃ z : Sequence, z.bytes = w ∧ z.value = 0 ∧ 2 ≤ w.length := by
  simp only [overlongZeros, List.mem_cons, List.not_mem_nil, or_false] at h
  rcases h with rfl | rfl | rfl | rfl | rfl
  · exact ⟨.padded 0xc0 1 rfl, rfl, rfl, by decide⟩
  · exact ⟨.padded 0xe0 2 rfl, rfl, rfl, by decide⟩
  · exact ⟨.padded 0xf0 3 rfl, rfl, rfl, by decide⟩
  · exact ⟨.padded 0xf8 4 rfl, rfl, rfl, by decide⟩
  · exact ⟨.padded 0xfc 5 rfl, rfl, rfl, by decide⟩

theorem eq_of_contBits_eq_zero (b : UInt8) (hb : umap b = 0) (hbits : contBits b = 0) :
    b = 0x80 := by
  have hall : ∀ n : Fin 256, umap (UInt8.ofFin n) = 0 → contBits (UInt8.ofFin n) = 0 →
      UInt8.ofFin n = 0x80 := by
    decide +kernel
  exact hall b.toFin hb hbits

theorem mem_of_leadBits_eq_zero (b : UInt8) (hb : umap b ≠ 0) (hbits : leadBits b = 0) :
    b ∈ [0, 0xc0, 0xe0, 0xf0, 0xf8, (0xfc : UInt8)] := by
  have hall : ∀ n : Fin 256, umap (UInt8.ofFin n) ≠ 0 → leadBits (UInt8.ofFin n) = 0 →
      UInt8.ofFin n ∈ [0, 0xc0, 0xe0, 0xf0, 0xf8, (0xfc : UInt8)] := by
    decide +kernel
  exact hall b.toFin hb hbits

theorem Sequence.bytes_of_value_eq_zero (z : Sequence) (h : z.value = 0) :
    z.bytes = [0] ∨ z.bytes ∈ overlongZeros := by
  obtain ⟨hlead, htail⟩ := (foldl_pushDigit_eq_zero (by decide)).mp h
  have hconts : z.tail = List.replicate (umap z.lead - 1) 0x80 := by
    refine List.eq_replicate_iff.mpr ⟨by rw [z.umap_lead, Nat.add_sub_cancel], fun b hb ↦ ?_⟩
    exact eq_of_contBits_eq_zero b (z.umap_tail b hb) (htail _ (List.mem_map_of_mem hb))
  have hmem := mem_of_leadBits_eq_zero z.lead z.umap_lead_ne hlead
  rw [bytes, hconts]
  simp only [List.mem_cons, List.not_mem_nil, or_false] at hmem
  rcases hmem with h | h | h | h | h | h <;> rw [h] <;> decide

/-- No overlong zero stands in the text. -/
def NoOverlongZero (p : List UInt8) : Prop := ∀ w ∈ overlongZeros, ¬w <:+: p

instance (p : List UInt8) : Decidable (NoOverlongZero p) :=
  inferInstanceAs (Decidable (∀ w ∈ overlongZeros, ¬w <:+: p))

variable {p : List UInt8} {g : Got}

/-- An overlong zero is what is returned, or it is still to come. -/
theorem getu8c_overlongZero {w : List UInt8} (hw : w ∈ overlongZeros) (hpart : w <:+: p)
    (h : getu8c (p ++ [0]) = some g) :
    g.uc = 0 ∧ 2 ≤ g.taken ∨ ∃ a b, g.rest = a ++ (w ++ (b ++ [0])) := by
  obtain ⟨z, rfl, hvalue, hlen⟩ := exists_sequence_of_mem_overlongZeros hw
  obtain ⟨a, b, rfl⟩ := hpart
  obtain ⟨g', hg', hcases⟩ := getu8c_complete z (b ++ [0]) a
  have heq : a ++ z.bytes ++ b ++ [0] = a ++ (z.bytes ++ (b ++ [0])) := by simp
  rw [heq, hg'] at h
  obtain rfl := Option.some.inj h
  obtain ⟨huc, htaken, -⟩ | ⟨a', hrest⟩ := hcases
  · exact .inl ⟨huc.trans (z.ofNat_value_eq_zero.mpr hvalue), htaken ▸ hlen⟩
  · exact .inr ⟨a', b, hrest⟩

/-- A text with a terminator, split in front of the terminator. -/
theorem eq_append_of_append_zero {a w r : List UInt8} (hw : (0 : UInt8) ∉ w) (hne : w ≠ [])
    (h : p ++ [0] = a ++ (w ++ r)) : ∃ r', r = r' ++ [0] ∧ p = a ++ (w ++ r') := by
  obtain rfl | ⟨r', c, rfl⟩ := List.eq_nil_or_concat r
  · obtain ⟨w', c, rfl⟩ := (List.eq_nil_or_concat w).resolve_left hne
    have hlast : p ++ [0] = a ++ w' ++ [c] := by simpa using h
    obtain ⟨-, hc⟩ := List.append_inj' hlast rfl
    exact absurd (by simp [List.cons.inj hc]) hw
  · have hlast : p ++ [0] = a ++ (w ++ r') ++ [c] := by simpa using h
    obtain ⟨hp, hc⟩ := List.append_inj' hlast rfl
    exact ⟨r', by simp [(List.cons.inj hc).1], hp⟩

namespace Sequence

/-- Only the terminator has a zero byte in it. -/
theorem zero_notMem {z : Sequence} (h : z.bytes ≠ [0]) : (0 : UInt8) ∉ z.bytes := by
  intro hmem
  obtain h0 | h0 := List.mem_cons.mp hmem
  · have hlen := z.umap_lead
    rw [← h0] at hlen
    have htail : z.tail = [] := List.eq_nil_of_length_eq_zero (Nat.succ.inj hlen).symm
    exact h (by rw [bytes, htail, ← h0])
  · exact absurd (z.umap_tail 0 h0) (by decide)

theorem value_of_bytes {z : Sequence} (h : z.bytes = [0]) : z.value = 0 := by
  obtain ⟨hlead, htail⟩ := List.cons.inj h
  rw [value, hlead, htail]
  rfl

end Sequence

theorem ne_singleton_of_mem_overlongZeros {w : List UInt8} (hw : w ∈ overlongZeros) : w ≠ [0] := by
  obtain ⟨-, -, -, hlen⟩ := exists_sequence_of_mem_overlongZeros hw
  rintro rfl
  exact absurd hlen (by decide)

/-- Where `getu8c` returns zero, all bytes were illegal unless an overlong zero is in the way. -/
theorem getu8c_of_zero {g : Got} (h0 : (0 : UInt8) ∉ p) (hg : getu8c (p ++ [0]) = some g)
    (hz : g.uc = 0) : g.illegal ≤ p.length ∧ (g.illegal = p.length ↔ NoOverlongZero p) := by
  obtain ⟨a, z, hsplit, hillegal, huc, htaken⟩ := getu8c_returns hg
  have hsum := congrArg List.length hsplit
  rw [List.length_append, List.length_append, List.length_append, List.length_singleton] at hsum
  have hzlen := z.length_bytes
  have hvalue : z.value = 0 := z.ofNat_value_eq_zero.mp (huc ▸ hz)
  refine ⟨by omega, ?_, ?_⟩
  · -- all illegal: only the terminator is left
    intro hall w hw hpart
    obtain ⟨-, htwo⟩ | ⟨b, c, hrest⟩ := getu8c_overlongZero hw hpart hg
    · omega
    · have hlen := congrArg List.length hrest
      simp only [List.length_append, List.length_singleton] at hlen
      omega
  · intro hno
    obtain hnul | hoverlong := z.bytes_of_value_eq_zero hvalue
    · obtain hnil | ⟨r, c, hr⟩ := List.eq_nil_or_concat g.rest
      · rw [hnil, hnul, List.length_singleton, List.length_nil] at hsum
        omega
      · -- the zero would stand inside the text
        have hlast : p ++ [0] = a ++ ([0] ++ r) ++ [c] := by
          rw [hsplit, hnul, hr]
          simp
        obtain ⟨hp, -⟩ := List.append_inj' hlast rfl
        exact absurd (by simp [hp]) h0
    · have hne := ne_singleton_of_mem_overlongZeros hoverlong
      obtain ⟨r, -, hp⟩ :=
        eq_append_of_append_zero (Sequence.zero_notMem hne) (List.cons_ne_nil _ _) hsplit
      exact absurd ⟨a, r, by rw [hp, List.append_assoc]⟩ (hno _ hoverlong)

/-- Where it does not, it leaves a string, in which there is an overlong zero if there was one
before. -/
theorem getu8c_of_ne_zero {g : Got} (h0 : (0 : UInt8) ∉ p) (hg : getu8c (p ++ [0]) = some g)
    (hz : g.uc ≠ 0) : ∃ p', g.rest = p' ++ [0] ∧ (0 : UInt8) ∉ p' ∧ 0 < g.taken ∧
      g.illegal + g.taken + p'.length = p.length ∧ (NoOverlongZero p' ↔ NoOverlongZero p) := by
  obtain ⟨a, z, hsplit, hillegal, huc, htaken⟩ := getu8c_returns hg
  have hzlen := z.length_bytes
  have hne : z.bytes ≠ [0] := fun h ↦
    hz (huc.trans (z.ofNat_value_eq_zero.mpr (Sequence.value_of_bytes h)))
  obtain ⟨p', hrest, hp⟩ :=
    eq_append_of_append_zero (Sequence.zero_notMem hne) (List.cons_ne_nil _ _) hsplit
  refine ⟨p', hrest, fun hmem ↦ h0 (hp ▸ by simp [hmem]), by omega, ?_, ?_, ?_⟩
  · rw [hp, List.length_append, List.length_append]
    omega
  · intro hno w hw hpart
    obtain ⟨hzero, -⟩ | ⟨b, c, hb⟩ := getu8c_overlongZero hw hpart hg
    · exact hz hzero
    · have hp' : p' ++ [0] = b ++ (w ++ c) ++ [0] := by
        rw [← hrest, hb]
        simp
      obtain ⟨rfl, -⟩ := List.append_inj' hp' rfl
      exact hno w hw ⟨b, c, by rw [List.append_assoc]⟩
  · intro hno w hw hpart
    exact hno w hw (hp ▸ hpart.trans (List.IsSuffix.isInfix ⟨a ++ z.bytes, by simp⟩))

/-- **One call of `getu8c` on a string**: it reads nothing behind the terminator. -/
theorem getu8c_string (h0 : (0 : UInt8) ∉ p) : ∃ g, getu8c (p ++ [0]) = some g ∧
    (g.uc = 0 ∧ g.illegal ≤ p.length ∧ (g.illegal = p.length ↔ NoOverlongZero p) ∨
      g.uc ≠ 0 ∧ ∃ p', g.rest = p' ++ [0] ∧ (0 : UInt8) ∉ p' ∧ 0 < g.taken ∧
        g.illegal + g.taken + p'.length = p.length ∧ (NoOverlongZero p' ↔ NoOverlongZero p)) := by
  obtain ⟨g, hg⟩ : ∃ g, getu8c (p ++ [0]) = some g :=
    (getu8c_complete .nul [] p).imp fun _ h ↦ h.1
  by_cases hz : g.uc = 0
  · exact ⟨g, hg, .inl ⟨hz, getu8c_of_zero h0 hg hz⟩⟩
  · exact ⟨g, hg, .inr ⟨hz, getu8c_of_ne_zero h0 hg hz⟩⟩

/-! ## The whole string -/

variable {n fuel : ℕ} {des : List Int32} {illegalAll bytes : ℕ}

/-- `u8decode` returns, and has read nothing behind the terminator. -/
theorem u8decodeLoop_returns (h0 : (0 : UInt8) ∉ p) (hfuel : p.length < fuel) :
    ∃ d, u8decodeLoop n fuel (p ++ [0]) des illegalAll bytes = some d := by
  induction fuel generalizing p des illegalAll bytes with
  | zero => exact absurd hfuel (Nat.not_lt_zero _)
  | succ fuel ih =>
    obtain ⟨g, hg, hcases⟩ := getu8c_string h0
    simp only [u8decodeLoop, hg]
    split
    · rename_i hgo
      obtain ⟨hzero, -⟩ | ⟨-, p', hrest, h0', htaken, hlen, -⟩ := hcases
      · exact absurd hzero hgo.1
      · rw [hrest]
        exact ih h0' (by omega)
    · exact ⟨_, rfl⟩

theorem u8decode_returns (str : CStr) (n : ℕ) : ∃ d, u8decode (str.1 ++ [0]) n = some d := by
  rw [u8decode]
  split
  · exact ⟨_, rfl⟩
  · exact u8decodeLoop_returns str.2 (by simp)

/-- The bytes that the loop accounts for are those in front of the first overlong zero. -/
theorem u8decodeLoop_accounts (h0 : (0 : UInt8) ∉ p) (hfuel : p.length < fuel) (des : List Int32)
    (illegalAll bytes : ℕ) (hn : des.length + p.length < n) :
    ∃ d k, u8decodeLoop n fuel (p ++ [0]) des illegalAll bytes = some d ∧ d.illegal = some k ∧
      d.bytes + k ≤ bytes + illegalAll + p.length ∧
      (d.bytes + k = bytes + illegalAll + p.length ↔ NoOverlongZero p) := by
  induction fuel generalizing p des illegalAll bytes with
  | zero => exact absurd hfuel (Nat.not_lt_zero _)
  | succ fuel ih =>
    obtain ⟨g, hg, hcases⟩ := getu8c_string h0
    simp only [u8decodeLoop, hg]
    obtain ⟨hzero, hle, hall⟩ | ⟨hne, p', hrest, h0', htaken, hlen, hno⟩ := hcases
    · rw [if_neg fun h ↦ h.1 hzero]
      refine ⟨_, _, rfl, rfl, ?_, ?_⟩
      · rw [← Nat.add_assoc]
        exact Nat.add_le_add_left hle _
      · rw [← hall, ← Nat.add_assoc]
        exact Nat.add_left_cancel_iff
    · have hroom : (des ++ [g.uc]).length + p'.length < n := by
        rw [List.length_append, List.length_singleton]
        omega
      rw [if_pos ⟨hne, by omega⟩, hrest]
      obtain ⟨d, k, hd, hk, hle, hall⟩ := ih h0' (by omega) (des ++ [g.uc])
        (illegalAll + g.illegal) (bytes + g.taken) hroom
      refine ⟨d, k, hd, hk, by omega, ?_⟩
      rw [← hno, ← hall]
      omega

/-- `u8decode` returns, and the bytes of the sequences it has decoded and those it reports as
illegal are all there are. -/
def Accounted (str : CStr) (n : ℕ) : Prop :=
  ∃ d illegal, u8decode (str.1 ++ [0]) n = some d ∧ d.illegal = some illegal ∧
    d.bytes + illegal = str.1.length

/-- **`u8decode` accounts for every byte of a string exactly if no overlong zero stands in it.** -/
theorem u8decode_accounted_iff (str : CStr) {n : ℕ} (hn : str.1.length < n) :
    Accounted str n ↔ NoOverlongZero str.1 := by
  have hfuel : str.1.length < (str.1 ++ [0]).length := by simp
  obtain ⟨d, k, hd, hk, -, hall⟩ := u8decodeLoop_accounts str.2 hfuel [] 0 0 (by simpa using hn)
  rw [Nat.zero_add] at hall
  rw [← hall, Accounted, u8decode, if_neg (Nat.ne_zero_of_lt hn), hd]
  constructor
  · rintro ⟨d', k', hd', hk', hsum⟩
    obtain rfl := Option.some.inj hd'
    obtain rfl := Option.some.inj (hk.symm.trans hk')
    exact hsum
  · exact fun hsum ↦ ⟨d, k, rfl, hk, hsum⟩

theorem u8decode_accounted_iff_stray : Accounted ⟨[0x80, 0x41], by decide⟩ 3 :=
  (u8decode_accounted_iff _ (by decide)).mpr (by decide)

/-- The decoding ends in front of the `A`. -/
theorem not_accounted : ¬∀ (str : CStr) (n : ℕ), str.1.length < n → Accounted str n := by
  intro h
  obtain ⟨d, k, hd, hk, hsum⟩ := h ⟨[0xc0, 0x80, 0x41], by decide⟩ 4 (by decide)
  have hrun : u8decode [0xc0, 0x80, 0x41, 0] 4 = some ⟨[], some 0, 0⟩ := by decide
  obtain rfl := Option.some.inj (hrun.symm.trans hd)
  obtain rfl := Option.some.inj hk
  exact absurd hsum (by decide)

end Ddmz.Text
