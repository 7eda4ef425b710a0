import Ddmz.Foundation.Lines

/-!
# Resolving one packet of the OTA response

`read_until` and `resolve_pkg` of `OtaService/Ota.c`, together with `esp_ota_audio_write`, the one
flash operation they reach.

## Memory

`text` is a static array of `BUFFSIZE + 1` bytes that the receive loop clears before each `recv`,
so a packet stands in it followed by zeros. `read_until` is called with the length of the whole
packet whatever the offset it starts from, and so can read past the array; `packetText` therefore
also says what stands behind it, as an arbitrary function.

A packet of one byte makes `read_until` return 2 without having seen a line feed. `resolve_pkg`
then computes a negative `i_write_len` and hands it to `memcpy` as a size. That is a crash, and
`resolvePkg` returns `none` for it. `char` is unsigned on the target, so bytes are `UInt8`.

## The line scan

What `resolve_pkg` looks for is the first line of two bytes, whichever they are. `scanLines` says
this about a list of bytes, with no buffer and no offsets, and `resolvePkg_eq` is the bridge.
-/

namespace Ddmz.Ota

/-- `'\n'`. -/
abbrev LF : UInt8 := 10

/-- `'\r'`. -/
abbrev CR : UInt8 := 13

@[simp] theorem LF_ne_zero : LF ≠ 0 := by decide

@[simp] theorem CR_ne_zero : CR ≠ 0 := by decide

@[simp] theorem CR_ne_LF : CR ≠ LF := by decide

def BUFFSIZE : ℕ := 1024

def TEXT_BUFFSIZE : ℕ := 1024

/-! ## Flash writes -/

/-- The two handles of `audio_handle`. -/
structure AudioHandle where
  outWifiHandle : ℕ
  outBtHandle : ℕ
deriving DecidableEq, Repr

/-- One call of `esp_ota_write`: the handle, the data, and whether it returned `ESP_OK`. -/
structure OtaWrite where
  handle : ℕ
  data : List UInt8
  ok : Bool
deriving DecidableEq, Repr

/-- The module's static data that a download changes, with the calls it has made. -/
structure OtaState where
  /-- `binary_file_length`; an image never exceeds its flash partition, so the `int` does not
  wrap. -/
  binaryFileLength : ℕ
  /-- The requests handed to `send`, oldest first. -/
  requests : List String
  /-- The calls of `esp_ota_write`, oldest first. -/
  writes : List OtaWrite
deriving DecidableEq, Repr

/-- The `n`-th call of `esp_ota_write` succeeds iff `flash n`. -/
abbrev Flash := ℕ → Bool

def espOtaWrite (flash : Flash) (handle : ℕ) (data : List UInt8) (s : OtaState) :
    Bool × OtaState :=
  (flash s.writes.length,
    { s with writes := s.writes ++ [⟨handle, data, flash s.writes.length⟩] })

/-- The handle that `esp_ota_audio_write` selects, and no handle in its `default` case. -/
def selectedHandle (handle : AudioHandle) (inOtaSelect : ℤ) : Option ℕ :=
  if inOtaSelect = 0 then some handle.outWifiHandle
  else if inOtaSelect = 1 then some handle.outBtHandle
  else none

/-- `esp_ota_audio_write`, with `true` for `ESP_OK`. -/
def espOtaAudioWrite (flash : Flash) (handle : AudioHandle) (data : List UInt8) (inOtaSelect : ℤ)
    (s : OtaState) : Bool × OtaState :=
  match selectedHandle handle inOtaSelect with
  | some h => espOtaWrite flash h data s
  | none => (false, s)

/-! ## The packet in its buffer -/

/-- One positive result of `recv` into `text`. -/
structure Packet where
  bytes : List UInt8
  nonempty : bytes ≠ []
  length_le : bytes.length ≤ TEXT_BUFFSIZE

/-- The array `text` holding a packet, with `beyond` standing behind it in memory. -/
def packetText (p : List UInt8) (beyond : ℕ → UInt8) (k : ℕ) : UInt8 :=
  if k < BUFFSIZE + 1 then p.getD k 0 else beyond k

/-- The loop of `read_until`, counted by the steps its bound still allows. -/
def readUntilLoop (buffer : ℕ → UInt8) (delim : UInt8) : ℕ → ℕ → ℕ
  | 0, i => i
  | left + 1, i => if buffer i ≠ delim then readUntilLoop buffer delim left (i + 1) else i

def readUntil (buffer : ℕ → UInt8) (delim : UInt8) (len : ℕ) : ℕ :=
  readUntilLoop buffer delim len 0 + 1

/-- The check on the first image bytes: the magic `0xE9`, and at least two bytes. The cleared
`ota_write_data` holds zero where no byte was copied. -/
def imageMagic (body : List UInt8) : Bool := body.getD 0 0 = 0xE9 ∧ 2 ≤ body.length

/-- The loop of `resolve_pkg` from offset `i`. Every turn advances `i`, so `totalLen` turns of fuel
always reach its end (`resolveLoop_eq`). -/
def resolveLoop (flash : Flash) (text : ℕ → UInt8) (totalLen : ℕ) (outHandle : AudioHandle)
    (inOtaSelect : ℤ) (s : OtaState) : ℕ → ℕ → Option (Bool × OtaState)
  | 0, _ => some (false, s)
  | fuel + 1, i =>
    if text i ≠ 0 ∧ i < totalLen then
      let iReadLen := readUntil (fun k ↦ text (i + k)) LF totalLen
      if iReadLen = 2 then
        let iWriteLen : ℤ := totalLen - (i + 2)
        if iWriteLen < 0 then
          none -- `memcpy` of `(size_t) i_write_len` bytes
        else
          let otaWriteData := (List.range iWriteLen.toNat).map fun k ↦ text (i + 2 + k)
          if imageMagic otaWriteData then
            match espOtaAudioWrite flash outHandle otaWriteData inOtaSelect s with
            | (false, s') => some (false, s')
            | (true, s') =>
              some (true, { s' with binaryFileLength := s'.binaryFileLength + iWriteLen.toNat })
          else some (false, s)
      else resolveLoop flash text totalLen outHandle inOtaSelect s fuel (i + iReadLen)
    else some (false, s)

def resolvePkg (flash : Flash) (text : ℕ → UInt8) (totalLen : ℕ) (outHandle : AudioHandle)
    (inOtaSelect : ℤ) (s : OtaState) : Option (Bool × OtaState) :=
  resolveLoop flash text totalLen outHandle inOtaSelect s totalLen 0

/-! ## `read_until` -/

theorem readUntilLoop_eq_of_line {buffer : ℕ → UInt8} {delim : UInt8} {n : ℕ} :
    ∀ {left i : ℕ}, n ≤ left → (∀ k < n, buffer (i + k) ≠ delim) → buffer (i + n) = delim →
      readUntilLoop buffer delim left i = i + n := by
  induction n with
  | zero =>
    intro left i _ _ hend
    cases left with
    | zero => rfl
    | succ left => rw [readUntilLoop, if_neg (by simpa using hend), Nat.add_zero]
  | succ n ih =>
    intro left i hle hne hend
    obtain ⟨left, rfl⟩ : ∃ m, left = m + 1 := ⟨left - 1, by omega⟩
    have h0 : buffer i ≠ delim := by simpa using hne 0 (by omega)
    rw [readUntilLoop, if_pos h0, ih (by omega), Nat.add_right_comm, Nat.add_assoc]
    · intro k hk
      have := hne (k + 1) (by omega)
      rwa [Nat.add_assoc, Nat.add_comm 1]
    · rw [← hend, Nat.add_assoc, Nat.add_comm 1]

theorem le_readUntilLoop {buffer : ℕ → UInt8} {delim : UInt8} {n : ℕ} :
    ∀ {left i : ℕ}, n ≤ left → (∀ k < n, buffer (i + k) ≠ delim) →
      i + n ≤ readUntilLoop buffer delim left i := by
  induction n with
  | zero =>
    intro left
    induction left with
    | zero => intro i _ _; exact Nat.le_refl _
    | succ left ih =>
      intro i _ _
      rw [readUntilLoop]
      split
      · exact Nat.le_trans (Nat.le_succ _) (ih (i := i + 1) (Nat.zero_le _) (by simp))
      · exact Nat.le_refl _
  | succ n ih =>
    intro left i hle hne
    obtain ⟨left, rfl⟩ : ∃ m, left = m + 1 := ⟨left - 1, by omega⟩
    have h0 : buffer i ≠ delim := by simpa using hne 0 (by omega)
    rw [readUntilLoop, if_pos h0]
    have hrest : ∀ k < n, buffer (i + 1 + k) ≠ delim := by
      intro k hk
      have := hne (k + 1) (by omega)
      rwa [Nat.add_assoc, Nat.add_comm 1]
    have : i + 1 + n ≤ readUntilLoop buffer delim left (i + 1) := ih (by omega) hrest
    omega

/-- `read_until` counts a line together with its delimiter. -/
theorem readUntil_eq_of_line {buffer : ℕ → UInt8} {delim : UInt8} {n len : ℕ} (hn : n ≤ len)
    (hne : ∀ k < n, buffer k ≠ delim) (hend : buffer n = delim) :
    readUntil buffer delim len = n + 1 := by
  rw [readUntil, readUntilLoop_eq_of_line hn (by simpa using hne) (by simpa using hend),
    Nat.zero_add]

theorem lt_readUntil {buffer : ℕ → UInt8} {delim : UInt8} {n len : ℕ} (hn : n ≤ len)
    (hne : ∀ k < n, buffer k ≠ delim) : n < readUntil buffer delim len := by
  have := le_readUntilLoop (i := 0) hn (by simpa using hne)
  rw [readUntil]
  omega

/-! ## The line scan -/

/-- The bytes behind the first two-byte line. The flag says whether the scan stands at the start
of a line, where a zero byte ends it. -/
def scanLines : Bool → List UInt8 → Option (List UInt8)
  | _, [] => none
  | true, b :: t =>
    if b = 0 then none
    else if b = LF then scanLines true t
    else if t.head? = some LF then some t.tail
    else scanLines false t
  | false, b :: t => if b = LF then scanLines true t else scanLines false t

/-- The contents of a line that the scan walks past. -/
def Passed (l : List UInt8) : Prop := l.length ≠ 1 ∧ l.head? ≠ some 0

theorem scanLines_false_line {l rest : List UInt8} (hl : LF ∉ l) :
    scanLines false (l ++ LF :: rest) = scanLines true rest := by
  induction l with
  | nil => simp [scanLines]
  | cons b l ih =>
    rw [List.mem_cons, not_or] at hl
    rw [List.cons_append, scanLines, if_neg (Ne.symm hl.1), ih hl.2]

theorem scanLines_false_of_notMem {l : List UInt8} (hl : LF ∉ l) : scanLines false l = none := by
  induction l with
  | nil => rfl
  | cons b l ih =>
    rw [List.mem_cons, not_or] at hl
    rw [scanLines, if_neg (Ne.symm hl.1), ih hl.2]

/-- A line of another length, not beginning with zero, is walked past. -/
theorem scanLines_line {l rest : List UInt8} (hl : LF ∉ l) (hp : Passed l) :
    scanLines true (l ++ LF :: rest) = scanLines true rest := by
  match l, hl, hp with
  | [], _, _ => simp only [List.nil_append, scanLines, if_neg LF_ne_zero, if_true]
  | [_], _, hp => exact absurd rfl hp.1
  | b :: c :: l, hl, hp =>
    have hb0 : b ≠ 0 := by simpa using hp.2
    simp only [List.mem_cons, not_or] at hl
    have hrest : LF ∉ c :: l := by simp [hl.2]
    rw [List.cons_append, scanLines, if_neg hb0, if_neg (Ne.symm hl.1),
      if_neg (by simpa using Ne.symm hl.2.1), scanLines_false_line hrest]

theorem scanLines_blank {x : UInt8} {rest : List UInt8} (h0 : x ≠ 0) (hx : x ≠ LF) :
    scanLines true (x :: LF :: rest) = some rest := by
  simp [scanLines, h0, hx]

theorem scanLines_zero (rest : List UInt8) : scanLines true (0 :: rest) = none := by
  simp [scanLines]

theorem scanLines_of_notMem {l : List UInt8} (hl : LF ∉ l) : scanLines true l = none := by
  cases l with
  | nil => rfl
  | cons b t =>
    rw [List.mem_cons, not_or] at hl
    have ht : t.head? ≠ some LF := fun h ↦ hl.2 (List.mem_of_head? h)
    by_cases hb : b = 0
    · rw [hb, scanLines_zero]
    · rw [scanLines, if_neg hb, if_neg (Ne.symm hl.1), if_neg ht, scanLines_false_of_notMem hl.2]

/-- A scan that stops at a blank line has walked past complete lines only. -/
theorem scanLines_eq_some_iff {p body : List UInt8} :
    scanLines true p = some body ↔
      ∃ h x, p = h ++ x :: LF :: body ∧ Lines LF Passed h ∧ x ≠ 0 ∧ x ≠ LF := by
  constructor
  · induction hn : p.length using Nat.strong_induction_on generalizing p with
    | _ n ih =>
      intro hs
      rcases Lines.exists_first LF p with hno | ⟨l, rest, hl, rfl⟩
      · rw [scanLines_of_notMem hno] at hs
        exact absurd hs (by simp)
      · by_cases hp : Passed l
        · rw [scanLines_line hl hp] at hs
          have hlt : rest.length < n := by rw [← hn]; simp; omega
          obtain ⟨h, x, rfl, hlines, hx⟩ := ih _ hlt rfl hs
          exact ⟨l ++ LF :: h, x, by simp, .cons hl hp hlines, hx⟩
        · rcases l with _ | ⟨b, l⟩
          · exact absurd ⟨by simp, by simp⟩ hp
          · by_cases hb : b = 0
            · rw [hb, List.cons_append, scanLines_zero] at hs
              exact absurd hs (by simp)
            · have hnil : l = [] := by
                rw [Passed, not_and_or, not_not, not_not] at hp
                rcases hp with hlen | hhead
                · simpa using hlen
                · exact absurd (by simpa using hhead) hb
              subst hnil
              rw [List.mem_singleton] at hl
              rw [List.singleton_append, scanLines_blank hb (Ne.symm hl), Option.some_inj] at hs
              exact ⟨[], b, by rw [hs]; rfl, .nil, hb, Ne.symm hl⟩
  · rintro ⟨h, x, rfl, hlines, h0, hx⟩
    induction hlines with
    | nil => exact scanLines_blank h0 hx
    | cons hl hp _ ih => rw [List.append_assoc, List.cons_append, scanLines_line hl hp, ih]

/-! ## `resolve_pkg` in terms of the scan -/

/-- What `resolve_pkg` does with the bytes behind the blank line. -/
def finishPkg (flash : Flash) (outHandle : AudioHandle) (inOtaSelect : ℤ) (s : OtaState)
    (body : List UInt8) : Bool × OtaState :=
  if imageMagic body then
    let r := espOtaAudioWrite flash outHandle body inOtaSelect s
    if r.1 then (true, { r.2 with binaryFileLength := r.2.binaryFileLength + body.length }) else r
  else (false, s)

section Bridge

variable {flash : Flash} {outHandle : AudioHandle} {inOtaSelect : ℤ} {s : OtaState}
variable {p : List UInt8} {beyond : ℕ → UInt8}

theorem packetText_of_le (hp : p.length ≤ TEXT_BUFFSIZE) {k : ℕ} (hk : k ≤ p.length) :
    packetText p beyond k = p.getD k 0 := by
  rw [packetText, if_pos]
  simp only [TEXT_BUFFSIZE, BUFFSIZE] at *
  omega

variable (beyond) in
/-- Inside the packet the buffer holds what is left of it. -/
theorem packetText_append (hp : p.length ≤ TEXT_BUFFSIZE) {pre c : List UInt8}
    (hpc : p = pre ++ c) {k : ℕ} (hk : k ≤ c.length) :
    packetText p beyond (pre.length + k) = c.getD k 0 := by
  rw [packetText_of_le hp (by rw [hpc, List.length_append]; omega), hpc, List.getD_append_right
    _ _ _ _ (Nat.le_add_right _ _), Nat.add_sub_cancel_left]

variable (beyond) in
theorem range_map_packetText (hp : p.length ≤ TEXT_BUFFSIZE) {pre c : List UInt8}
    (hpc : p = pre ++ c) :
    ((List.range c.length).map fun k ↦ packetText p beyond (pre.length + k)) = c := by
  apply List.ext_getElem (by simp)
  intro k h1 h2
  rw [List.getElem_map, List.getElem_range, packetText_append beyond hp hpc (Nat.le_of_lt h2),
    List.getD_eq_getElem _ _ h2]

variable (beyond) in
/-- `read_until` on what is left of the packet, when a line feed is left in it. -/
theorem readUntil_packetText_line (hp : p.length ≤ TEXT_BUFFSIZE) {pre l rest : List UInt8}
    (hl : LF ∉ l) (hpc : p = pre ++ (l ++ LF :: rest)) :
    readUntil (fun k ↦ packetText p beyond (pre.length + k)) LF p.length = l.length + 1 := by
  have hlen : p.length = pre.length + (l.length + (rest.length + 1)) := by
    rw [hpc, List.length_append, List.length_append, List.length_cons]
  refine readUntil_eq_of_line (by omega) (fun k hk ↦ ?_) ?_
  · rw [packetText_append beyond hp hpc (by simp; omega), List.getD_append _ _ _ _ hk,
      List.getD_eq_getElem _ _ hk]
    exact fun h ↦ hl (h ▸ List.getElem_mem hk)
  · rw [packetText_append beyond hp hpc (by simp), List.getD_append_right _ _ _ _ (le_refl _),
      Nat.sub_self, List.getD_cons_zero]

variable (beyond) in
/-- And when none is left: the next offset lies past the packet, and no line of two bytes is
seen. The zero behind the packet is what excludes the latter for its last byte. -/
theorem readUntil_packetText_of_notMem (hp : p.length ≤ TEXT_BUFFSIZE) (h2 : 2 ≤ p.length)
    {pre c : List UInt8} (hc : LF ∉ c) (hne : c ≠ []) (hpc : p = pre ++ c) :
    c.length < readUntil (fun k ↦ packetText p beyond (pre.length + k)) LF p.length ∧
      readUntil (fun k ↦ packetText p beyond (pre.length + k)) LF p.length ≠ 2 := by
  have hpos : 0 < c.length := List.length_pos_of_ne_nil hne
  have hlen : p.length = pre.length + c.length := by rw [hpc, List.length_append]
  have hbytes : ∀ k < c.length + 1, packetText p beyond (pre.length + k) ≠ LF := by
    intro k hk
    rw [packetText_append beyond hp hpc (by omega)]
    rcases Nat.lt_succ_iff_lt_or_eq.mp hk with hlt | rfl
    · rw [List.getD_eq_getElem _ _ hlt]
      exact fun h ↦ hc (h ▸ List.getElem_mem hlt)
    · rw [List.getD_eq_default _ _ (le_refl _)]
      decide
  have hlt : c.length < readUntil (fun k ↦ packetText p beyond (pre.length + k)) LF p.length :=
    lt_readUntil (by omega) fun k hk ↦ hbytes k (by omega)
  refine ⟨hlt, ?_⟩
  rcases Nat.eq_zero_or_pos pre.length with h0 | h0
  · omega
  · have : c.length + 1 < readUntil (fun k ↦ packetText p beyond (pre.length + k)) LF p.length :=
      lt_readUntil (by omega) hbytes
    omega

theorem resolveLoop_past {text : ℕ → UInt8} {totalLen i : ℕ} (hi : totalLen ≤ i) (fuel : ℕ) :
    resolveLoop flash text totalLen outHandle inOtaSelect s fuel i = some (false, s) := by
  cases fuel with
  | zero => rfl
  | succ fuel => rw [resolveLoop, if_neg (by omega)]

/-- The turn of the loop that finds a line of two bytes. -/
theorem resolveLoop_blank (hp : p.length ≤ TEXT_BUFFSIZE) {pre body : List UInt8} {x : UInt8}
    (h0 : x ≠ 0) (hx : x ≠ LF) (hpc : p = pre ++ x :: LF :: body) (fuel : ℕ) :
    resolveLoop flash (packetText p beyond) p.length outHandle inOtaSelect s (fuel + 1) pre.length
      = some (finishPkg flash outHandle inOtaSelect s body) := by
  have hlen : p.length = pre.length + (body.length + 2) := by
    rw [hpc, List.length_append, List.length_cons, List.length_cons]
  have hhead : packetText p beyond pre.length = x := by
    simpa using packetText_append beyond hp hpc (Nat.zero_le _)
  have hgo : packetText p beyond pre.length ≠ 0 ∧ pre.length < p.length :=
    ⟨by rwa [hhead], by omega⟩
  have hread : readUntil (fun k ↦ packetText p beyond (pre.length + k)) LF p.length = 2 :=
    readUntil_packetText_line beyond hp (l := [x]) (by simpa using Ne.symm hx) (by simpa using hpc)
  have hbody : ((p.length : ℤ) - ((pre.length : ℤ) + 2)) = (body.length : ℕ) := by
    rw [hlen]; push_cast; omega
  have hcopy : ((List.range body.length).map fun k ↦ packetText p beyond (pre.length + 2 + k))
      = body := by
    have := range_map_packetText beyond hp
      (show p = (pre ++ [x, LF]) ++ body by simpa using hpc)
    simpa using this
  rw [resolveLoop, if_pos hgo]
  simp only [hread, if_true, hbody, Int.toNat_natCast, hcopy, finishPkg]
  rw [if_neg (by omega)]
  by_cases hm : imageMagic body
  · rw [if_pos hm, if_pos hm]
    rcases espOtaAudioWrite flash outHandle body inOtaSelect s with ⟨ok, s'⟩
    cases ok <;> rfl
  · rw [if_neg hm, if_neg hm]

/-- The loop follows the scan: `fuel` turns are enough for `fuel` bytes. -/
theorem resolveLoop_eq (hp : p.length ≤ TEXT_BUFFSIZE) (h2 : 2 ≤ p.length) :
    ∀ (fuel : ℕ) (pre c : List UInt8), p = pre ++ c → c.length ≤ fuel →
      resolveLoop flash (packetText p beyond) p.length outHandle inOtaSelect s fuel pre.length
        = some ((scanLines true c).elim (false, s) (finishPkg flash outHandle inOtaSelect s)) := by
  intro fuel
  induction fuel with
  | zero =>
    intro pre c _ hc
    rw [List.length_eq_zero_iff.mp (Nat.le_zero.mp hc)]
    rfl
  | succ fuel ih =>
    intro pre c hpc hc
    have hlen : p.length = pre.length + c.length := by rw [hpc, List.length_append]
    rcases c with _ | ⟨b, t⟩
    · rw [resolveLoop_past (by simp at hlen; omega)]
      rfl
    have hb : packetText p beyond pre.length = b := by
      simpa using packetText_append beyond hp hpc (Nat.zero_le _)
    by_cases hb0 : b = 0
    · rw [resolveLoop, if_neg (by rw [hb]; simp [hb0]), hb0, scanLines_zero]
      rfl
    have hgo : packetText p beyond pre.length ≠ 0 ∧ pre.length < p.length :=
      ⟨by rwa [hb], by simp at hlen; omega⟩
    rcases Lines.exists_first LF (b :: t) with hno | ⟨l, rest, hl, hsplit⟩
    · obtain ⟨hpast, hne2⟩ := readUntil_packetText_of_notMem beyond hp h2 hno
        (List.cons_ne_nil _ _) hpc
      rw [resolveLoop, if_pos hgo]
      simp only [if_neg hne2]
      rw [resolveLoop_past (by omega), scanLines_of_notMem hno]
      rfl
    · rw [hsplit] at hpc hc hlen ⊢
      have hhead : l.head? ≠ some 0 := by
        cases l with
        | nil => simp
        | cons a l =>
          rw [List.cons_append, List.cons.injEq] at hsplit
          simpa [← hsplit.1] using hb0
      by_cases h1 : l.length = 1
      · obtain ⟨x, rfl⟩ := List.length_eq_one_iff.mp h1
        have hx0 : x ≠ 0 := by simpa using hhead
        have hx : x ≠ LF := fun h ↦ hl (by simp [h])
        rw [List.singleton_append] at hpc ⊢
        rw [resolveLoop_blank hp hx0 hx hpc, scanLines_blank hx0 hx]
        rfl
      · have hread := readUntil_packetText_line beyond hp hl hpc
        rw [resolveLoop, if_pos hgo]
        simp only [hread]
        rw [if_neg (by omega), scanLines_line hl ⟨h1, hhead⟩]
        have := ih (pre ++ l ++ [LF]) rest (by simpa using hpc) (by simp at hc; omega)
        simpa [Nat.add_assoc] using this

/-- **`resolve_pkg` follows the line scan** on every packet of at least two bytes. -/
theorem resolvePkg_eq (hp : p.length ≤ TEXT_BUFFSIZE) (h2 : 2 ≤ p.length) :
    resolvePkg flash (packetText p beyond) p.length outHandle inOtaSelect s
      = some ((scanLines true p).elim (false, s) (finishPkg flash outHandle inOtaSelect s)) :=
  resolveLoop_eq hp h2 p.length [] p rfl (le_refl _)

/-- On a packet of one byte it crashes, unless the byte ends the scan at once. -/
theorem resolvePkg_singleton (b : UInt8) :
    resolvePkg flash (packetText [b] beyond) 1 outHandle inOtaSelect s
      = if b = 0 ∨ b = LF then some (false, s) else none := by
  have h0 : packetText [b] beyond 0 = b := rfl
  have h1 : packetText [b] beyond 1 = 0 := rfl
  by_cases hb0 : b = 0
  · subst hb0
    simp [resolvePkg, resolveLoop, h0]
  · by_cases hb : b = LF
    · subst hb
      simp [resolvePkg, resolveLoop, readUntil, readUntilLoop, h0]
    · simp [resolvePkg, resolveLoop, readUntil, readUntilLoop, h0, hb0, hb]

end Bridge

end Ddmz.Ota
