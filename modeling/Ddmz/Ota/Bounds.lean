import Ddmz.Ota.Packet

/-!
# What resolving a packet touches

`resolve_pkg` and `read_until` of `OtaService/Ota.c` once more, this time with everything they do
to memory written down: the bytes of `text` they look at, the `memcpy` into `ota_write_data` and the
call of `esp_ota_audio_write`. `text` ends at index `TEXT_BUFFSIZE`.

## Two ways out of bounds

`read_until` is given the length of the whole packet, not of what is left of it. As long as a line
feed is left it stops there. On the last piece of a packet without one it walks `total_len` bytes
past the start of that piece, and `resolve_pkg` then looks at the byte behind these. Both stay in
the array if and only if the start of the piece and the length of the packet add up to less than
`TEXT_BUFFSIZE` (`LastPieceFits`).

A packet of one byte ends in a `memcpy` of `-1` bytes, see `resolvePkgTrace_singleton`.
-/

namespace Ddmz.Ota

/-- One access of `resolve_pkg`. A copy and a write are of `i_write_len` bytes from `text + i + 2`
on. -/
inductive Access
  | read (k : ℕ)
  | memcpy (i : ℕ) (iWriteLen : ℤ)
  | write (i : ℕ) (iWriteLen : ℤ)
deriving DecidableEq, Repr

/-- Inside the array, and for copied bytes inside what has been received. -/
def Access.InBounds (totalLen : ℕ) : Access → Prop
  | .read k => k ≤ TEXT_BUFFSIZE
  | .memcpy i iWriteLen | .write i iWriteLen =>
    0 ≤ iWriteLen ∧ iWriteLen ≤ totalLen - i ∧ i + 2 + iWriteLen ≤ totalLen

/-- The bytes that `read_until(&text[i], delim, len)` looks at, from its index `k` on. The byte is
compared before the bound is. -/
def readUntilReads (text : ℕ → UInt8) (delim : UInt8) (i : ℕ) : ℕ → ℕ → List Access
  | 0, k => [.read (i + k)]
  | left + 1, k =>
    .read (i + k) :: if text (i + k) ≠ delim then readUntilReads text delim i left (k + 1) else []

/-- `resolveLoop` with its accesses, and `none` where the fuel is not enough. -/
def resolveTrace (flash : Flash) (text : ℕ → UInt8) (totalLen : ℕ) (outHandle : AudioHandle)
    (inOtaSelect : ℤ) (s : OtaState) : ℕ → ℕ → Option (List Access × Option (Bool × OtaState))
  | 0, _ => none
  | fuel + 1, i =>
    if text i ≠ 0 ∧ i < totalLen then
      let iReadLen := readUntil (fun k ↦ text (i + k)) LF totalLen
      let reads := .read i :: readUntilReads text LF i totalLen 0
      if iReadLen = 2 then
        let iWriteLen : ℤ := totalLen - (i + 2)
        let copied := reads ++ [.memcpy i iWriteLen]
        if iWriteLen < 0 then
          some (copied, none)
        else
          let otaWriteData := (List.range iWriteLen.toNat).map fun k ↦ text (i + 2 + k)
          if imageMagic otaWriteData then
            let written := copied ++ [.write i iWriteLen]
            match espOtaAudioWrite flash outHandle otaWriteData inOtaSelect s with
            | (false, s') => some (written, some (false, s'))
            | (true, s') =>
              some (written,
                some (true, { s' with binaryFileLength := s'.binaryFileLength + iWriteLen.toNat }))
          else some (copied, some (false, s))
      else
        (resolveTrace flash text totalLen outHandle inOtaSelect s fuel (i + iReadLen)).map
          fun r ↦ (reads ++ r.1, r.2)
    else some ([.read i], some (false, s))

def resolvePkgTrace (flash : Flash) (text : ℕ → UInt8) (totalLen : ℕ) (outHandle : AudioHandle)
    (inOtaSelect : ℤ) (s : OtaState) : Option (List Access × Option (Bool × OtaState)) :=
  resolveTrace flash text totalLen outHandle inOtaSelect s (totalLen + 1) 0

/-- Every piece of the packet that has no line feed in it, does not start with a zero and stands
behind lines that are walked past (there is one at most) starts early enough. -/
def LastPieceFits (totalLen off : ℕ) (c : List UInt8) : Prop :=
  ∀ h t, c = h ++ t → Lines LF Passed h → t ≠ [] → LF ∉ t → t.head? ≠ some 0 →
    off + h.length + totalLen < TEXT_BUFFSIZE

/-! ## The trace is of `resolve_pkg` -/

section Trace

variable {flash : Flash} {text : ℕ → UInt8} {totalLen : ℕ} {outHandle : AudioHandle}
variable {inOtaSelect : ℤ} {s : OtaState}

/-- Forgetting the accesses leaves `resolveLoop`, and the trace never runs out of fuel where the
loop has enough. -/
theorem map_snd_resolveTrace :
    ∀ {fuel i : ℕ}, totalLen ≤ i + fuel →
      (resolveTrace flash text totalLen outHandle inOtaSelect s (fuel + 1) i).map Prod.snd
        = some (resolveLoop flash text totalLen outHandle inOtaSelect s fuel i) := by
  intro fuel
  induction fuel with
  | zero =>
    intro i hi
    rw [resolveTrace, if_neg (by omega)]
    rfl
  | succ fuel ih =>
    intro i hi
    rw [resolveTrace, resolveLoop]
    by_cases hgo : text i ≠ 0 ∧ i < totalLen
    · rw [if_pos hgo, if_pos hgo]
      by_cases h2 : readUntil (fun k ↦ text (i + k)) LF totalLen = 2
      · simp only [if_pos h2]
        by_cases hneg : (totalLen : ℤ) - (i + 2) < 0
        · simp only [if_pos hneg]
          rfl
        · simp only [if_neg hneg]
          split
          · generalize espOtaAudioWrite flash outHandle _ inOtaSelect s = written
            rcases written with ⟨_ | _, s'⟩ <;> rfl
          · rfl
      · simp only [if_neg h2]
        have hadv : 1 ≤ readUntil (fun k ↦ text (i + k)) LF totalLen := Nat.le_add_left _ _
        rw [← ih (i := i + readUntil (fun k ↦ text (i + k)) LF totalLen) (by omega),
          Option.map_map]
        rfl
    · rw [if_neg hgo, if_neg hgo]
      rfl

theorem map_snd_resolvePkgTrace :
    (resolvePkgTrace flash text totalLen outHandle inOtaSelect s).map Prod.snd
      = some (resolvePkg flash text totalLen outHandle inOtaSelect s) :=
  map_snd_resolveTrace (Nat.le_add_left _ _)

/-- `read_until` looks at the bytes it counts. -/
theorem mem_readUntilReads {delim : UInt8} {i : ℕ} {a : Access} :
    ∀ {left k : ℕ}, a ∈ readUntilReads text delim i left k ↔
      ∃ j, k ≤ j ∧ j ≤ readUntilLoop (fun k ↦ text (i + k)) delim left k ∧ a = .read (i + j) := by
  intro left
  induction left with
  | zero =>
    intro k
    rw [readUntilReads, readUntilLoop, List.mem_singleton]
    constructor
    · rintro rfl
      exact ⟨k, le_refl k, le_refl k, rfl⟩
    · rintro ⟨j, h1, h2, rfl⟩
      rw [Nat.le_antisymm h2 h1]
  | succ left ih =>
    intro k
    rw [readUntilReads, readUntilLoop, List.mem_cons]
    by_cases hd : text (i + k) ≠ delim
    · rw [if_pos hd, if_pos hd, ih]
      have hle : k + 1 ≤ readUntilLoop (fun k ↦ text (i + k)) delim left (k + 1) :=
        le_readUntilLoop (n := 0) (Nat.zero_le _) (by simp)
      constructor
      · rintro (rfl | ⟨j, h1, h2, rfl⟩)
        · exact ⟨k, le_refl k, by omega, rfl⟩
        · exact ⟨j, by omega, h2, rfl⟩
      · rintro ⟨j, h1, h2, rfl⟩
        rcases Nat.eq_or_lt_of_le h1 with rfl | hlt
        · exact Or.inl rfl
        · exact Or.inr ⟨j, hlt, h2, rfl⟩
    · rw [if_neg hd, if_neg hd]
      constructor
      · rintro (rfl | h)
        · exact ⟨k, le_refl k, le_refl k, rfl⟩
        · exact absurd h List.not_mem_nil
      · rintro ⟨j, h1, h2, rfl⟩
        exact Or.inl (by rw [Nat.le_antisymm h2 h1])

theorem readUntilLoop_le {buffer : ℕ → UInt8} {delim : UInt8} :
    ∀ left i, readUntilLoop buffer delim left i ≤ left + i := by
  intro left
  induction left with
  | zero => intro i; simp [readUntilLoop]
  | succ left ih =>
    intro i
    rw [readUntilLoop]
    split
    · exact le_trans (ih (i + 1)) (by omega)
    · omega

/-- The tests of one turn and the `text[i]` of the next are inside the array together. -/
theorem reads_inBounds_iff {i : ℕ} :
    (∀ a ∈ Access.read i :: readUntilReads text LF i totalLen 0, a.InBounds totalLen) ↔
      i + readUntil (fun k ↦ text (i + k)) LF totalLen ≤ TEXT_BUFFSIZE + 1 := by
  rw [readUntil]
  constructor
  · intro h
    have := h (.read (i + readUntilLoop (fun k ↦ text (i + k)) LF totalLen 0))
      (List.mem_cons_of_mem _ (mem_readUntilReads.mpr ⟨_, Nat.zero_le _, le_refl _, rfl⟩))
    simp only [Access.InBounds] at this
    omega
  · intro h a ha
    rcases List.mem_cons.mp ha with rfl | ha
    · simp only [Access.InBounds]
      omega
    · obtain ⟨j, -, hj, rfl⟩ := mem_readUntilReads.mp ha
      simp only [Access.InBounds]
      omega

end Trace

/-! ## The last piece -/

theorem lastPieceFits_nil {totalLen off : ℕ} : LastPieceFits totalLen off [] := by
  intro h t heq _ ht _ _
  exact absurd (List.append_eq_nil_iff.mp heq.symm).2 ht

/-- A zero at the start of a line ends the scan. -/
theorem lastPieceFits_zero {totalLen off : ℕ} {c : List UInt8} :
    LastPieceFits totalLen off (0 :: c) := by
  intro h t heq hh _ _ ht0
  cases hh with
  | nil => exact absurd (by rw [← List.nil_append t, ← heq]; rfl) ht0
  | @cons l rest _ hp _ =>
    cases l with
    | nil => exact absurd (List.cons.inj heq).1.symm LF_ne_zero
    | cons b l => exact absurd (by rw [List.head?_cons, (List.cons.inj heq).1]) hp.2

theorem lastPieceFits_of_notMem {totalLen off : ℕ} {c : List UInt8} (hc : LF ∉ c) (hne : c ≠ [])
    (h0 : c.head? ≠ some 0) :
    LastPieceFits totalLen off c ↔ off + totalLen < TEXT_BUFFSIZE := by
  constructor
  · intro h
    simpa using h [] c rfl .nil hne hc h0
  · intro hlt h t heq hh _ _ _
    rw [heq] at hc
    rw [hh.eq_nil_of_notMem hc]
    simpa using hlt

/-- A line that is walked past moves the start. -/
theorem lastPieceFits_line {totalLen off : ℕ} {l rest : List UInt8} (hl : LF ∉ l)
    (hp : Passed l) :
    LastPieceFits totalLen off (l ++ LF :: rest) ↔
      LastPieceFits totalLen (off + (l.length + 1)) rest := by
  constructor
  · intro h h' t heq hh' ht htLF ht0
    have := h (l ++ LF :: h') t (by rw [heq]; simp) (.cons hl hp hh') ht htLF ht0
    simp only [List.length_append, List.length_cons] at this
    omega
  · intro h h' t heq hh' ht htLF ht0
    rcases hh'.eq_nil_or_cons hl heq with rfl | ⟨h'', rfl, -, hh'', hrest⟩
    · exact absurd (by rw [← List.nil_append t, ← heq]; simp) htLF
    · have := h h'' t hrest hh'' ht htLF ht0
      simp only [List.length_append, List.length_cons]
      omega

/-- A line that is not walked past leaves no last piece. -/
theorem lastPieceFits_of_not_passed {totalLen off : ℕ} {l rest : List UInt8} (hl : LF ∉ l)
    (hp : ¬ Passed l) : LastPieceFits totalLen off (l ++ LF :: rest) := by
  intro h t heq hh _ htLF _
  rcases hh.eq_nil_or_cons hl heq with rfl | ⟨_, -, hp', -, -⟩
  · exact absurd (by rw [← List.nil_append t, ← heq]; simp) htLF
  · exact absurd hp' hp

/-! ## When the accesses are in bounds -/

section Bounds

variable (flash : Flash) (beyond : ℕ → UInt8) (outHandle : AudioHandle) (inOtaSelect : ℤ)
variable (s : OtaState) {p : List UInt8}

/-- The last read of the scan of a piece without a line feed. -/
theorem readUntil_le_iff (hp : p.length ≤ TEXT_BUFFSIZE) {pre c : List UInt8} (hc : LF ∉ c)
    (hpc : p = pre ++ c) :
    pre.length + readUntil (fun k ↦ packetText p beyond (pre.length + k)) LF p.length
        ≤ TEXT_BUFFSIZE ↔ pre.length + p.length < TEXT_BUFFSIZE := by
  have hlen : p.length = pre.length + c.length := by rw [hpc, List.length_append]
  -- Behind the packet the array is zero up to its end, so no line feed is seen inside it.
  have hnone : ∀ k, pre.length + k ≤ TEXT_BUFFSIZE → packetText p beyond (pre.length + k) ≠ LF := by
    intro k hk
    rw [packetText, if_pos (by simp only [BUFFSIZE, TEXT_BUFFSIZE] at *; omega), hpc,
      List.getD_append_right _ _ _ _ (Nat.le_add_right _ _), Nat.add_sub_cancel_left]
    by_cases hkc : k < c.length
    · rw [List.getD_eq_getElem _ _ hkc]
      exact fun h ↦ hc (h ▸ List.getElem_mem hkc)
    · rw [List.getD_eq_default _ _ (Nat.le_of_not_lt hkc)]
      decide
  constructor
  · intro h
    by_contra hge
    have hlt : TEXT_BUFFSIZE - pre.length
        < readUntil (fun k ↦ packetText p beyond (pre.length + k)) LF p.length :=
      lt_readUntil (by omega) fun k hk ↦ hnone k (by omega)
    omega
  · intro h
    have hle : readUntilLoop (fun k ↦ packetText p beyond (pre.length + k)) LF p.length 0
        ≤ p.length + 0 := readUntilLoop_le p.length 0
    rw [readUntil]
    omega

theorem resolveTrace_past {text : ℕ → UInt8} {totalLen i : ℕ} (hi : totalLen ≤ i) (fuel : ℕ) :
    resolveTrace flash text totalLen outHandle inOtaSelect s (fuel + 1) i
      = some ([.read i], some (false, s)) := by
  rw [resolveTrace, if_neg (by omega)]

/-- The loop goes on at a byte of the packet that is not zero. -/
theorem goesOn (hp : p.length ≤ TEXT_BUFFSIZE) {pre c : List UInt8} (hne : c ≠ [])
    (h0 : c.head? ≠ some 0) (hpc : p = pre ++ c) :
    packetText p beyond pre.length ≠ 0 ∧ pre.length < p.length := by
  obtain ⟨b, t, rfl⟩ := List.exists_cons_of_ne_nil hne
  have hbyte : packetText p beyond pre.length = b := by
    simpa using packetText_append beyond hp hpc (Nat.zero_le _)
  refine ⟨?_, ?_⟩
  · rw [hbyte]
    simpa using h0
  · rw [hpc, List.length_append, List.length_cons]
    omega

/-- The turn that finds the line of two bytes copies what is behind it. -/
theorem resolveTrace_blank (hp : p.length ≤ TEXT_BUFFSIZE) {pre body : List UInt8} {x : UInt8}
    (h0 : x ≠ 0) (hx : x ≠ LF) (hpc : p = pre ++ x :: LF :: body) (fuel : ℕ) :
    ∃ r, resolveTrace flash (packetText p beyond) p.length outHandle inOtaSelect s (fuel + 1)
        pre.length = some r ∧ ∀ a ∈ r.1, a.InBounds p.length := by
  have hlen : p.length = pre.length + (body.length + 2) := by
    rw [hpc, List.length_append, List.length_cons, List.length_cons]
  have hgo := goesOn beyond hp (List.cons_ne_nil _ _) (by simpa using h0) hpc
  have hread : readUntil (fun k ↦ packetText p beyond (pre.length + k)) LF p.length = 2 :=
    readUntil_packetText_line beyond hp (l := [x]) (by simpa using Ne.symm hx) (by simpa using hpc)
  have hreads := reads_inBounds_iff.mpr (show pre.length + _ ≤ _ by rw [hread]; omega)
  have hcopy : ∀ a ∈ Access.read pre.length ::
      readUntilReads (packetText p beyond) LF pre.length p.length 0 ++
        [.memcpy pre.length (p.length - (pre.length + 2))], a.InBounds p.length := by
    intro a ha
    rcases List.mem_append.mp ha with ha | ha
    · exact hreads a ha
    · rw [List.mem_singleton.mp ha]
      simp only [Access.InBounds]
      omega
  rw [resolveTrace, if_pos hgo]
  simp only [hread, if_true]
  rw [if_neg (by omega)]
  split
  · have hwritten : ∀ a ∈ Access.read pre.length ::
        readUntilReads (packetText p beyond) LF pre.length p.length 0 ++
          [.memcpy pre.length (p.length - (pre.length + 2))] ++
          [.write pre.length (p.length - (pre.length + 2))], a.InBounds p.length := by
      intro a ha
      rcases List.mem_append.mp ha with ha | ha
      · exact hcopy a ha
      · rw [List.mem_singleton.mp ha]
        simp only [Access.InBounds]
        omega
    split
    · exact ⟨_, rfl, hwritten⟩
    · exact ⟨_, rfl, hwritten⟩
  · exact ⟨_, rfl, hcopy⟩

/-- The turn on a last piece without a line feed looks once more, at the byte behind the scan. -/
theorem resolveTrace_last (hp : p.length ≤ TEXT_BUFFSIZE) (h2 : 2 ≤ p.length) {pre c : List UInt8}
    (hne : c ≠ []) (hc : LF ∉ c) (h0 : c.head? ≠ some 0) (hpc : p = pre ++ c) (fuel : ℕ) :
    ∃ r, resolveTrace flash (packetText p beyond) p.length outHandle inOtaSelect s (fuel + 2)
        pre.length = some r ∧
      ((∀ a ∈ r.1, a.InBounds p.length) ↔ pre.length + p.length < TEXT_BUFFSIZE) := by
  have hlen : p.length = pre.length + c.length := by rw [hpc, List.length_append]
  obtain ⟨hpast, hne2⟩ := readUntil_packetText_of_notMem beyond hp h2 hc hne hpc
  rw [resolveTrace, if_pos (goesOn beyond hp hne h0 hpc)]
  simp only [if_neg hne2]
  rw [resolveTrace_past _ _ _ _ (by omega)]
  refine ⟨_, rfl, ?_⟩
  rw [← readUntil_le_iff beyond hp hc hpc, List.forall_mem_append, reads_inBounds_iff,
    List.forall_mem_singleton, Access.InBounds]
  omega

/-- The turn on a line that is walked past is in bounds, and the rest is up to the turns behind. -/
theorem resolveTrace_passed (hp : p.length ≤ TEXT_BUFFSIZE) {pre l rest : List UInt8}
    (hl : LF ∉ l) (hpassed : Passed l) (hpc : p = pre ++ (l ++ LF :: rest)) {fuel : ℕ}
    {r : List Access × Option (Bool × OtaState)}
    (hr : resolveTrace flash (packetText p beyond) p.length outHandle inOtaSelect s fuel
      (pre.length + (l.length + 1)) = some r) :
    ∃ r', resolveTrace flash (packetText p beyond) p.length outHandle inOtaSelect s (fuel + 1)
        pre.length = some r' ∧
      ((∀ a ∈ r'.1, a.InBounds p.length) ↔ ∀ a ∈ r.1, a.InBounds p.length) := by
  have hlen : p.length = pre.length + (l.length + (rest.length + 1)) := by
    rw [hpc, List.length_append, List.length_append, List.length_cons]
  have hhead : (l ++ LF :: rest).head? ≠ some 0 := by
    cases l with
    | nil => simp [LF_ne_zero]
    | cons b l => exact hpassed.2
  have hread := readUntil_packetText_line beyond hp hl hpc
  have hne2 : l.length + 1 ≠ 2 := fun h ↦ hpassed.1 (Nat.succ.inj h)
  rw [resolveTrace, if_pos (goesOn beyond hp (by simp) hhead hpc)]
  simp only [hread]
  rw [if_neg hne2, hr]
  refine ⟨_, rfl, ?_⟩
  simp only [List.forall_mem_append, and_iff_right_iff_imp]
  intro _
  refine reads_inBounds_iff.mpr ?_
  rw [hread]
  omega

/-- The turns from offset `pre.length` on, by induction on the bytes left. -/
theorem resolveTrace_inBounds_iff (hp : p.length ≤ TEXT_BUFFSIZE) (h2 : 2 ≤ p.length) :
    ∀ (fuel : ℕ) (pre c : List UInt8), p = pre ++ c → c.length < fuel →
      ∃ r, resolveTrace flash (packetText p beyond) p.length outHandle inOtaSelect s fuel
          pre.length = some r ∧
        ((∀ a ∈ r.1, a.InBounds p.length) ↔ LastPieceFits p.length pre.length c) := by
  intro fuel
  induction fuel with
  | zero => exact fun _ _ _ h ↦ absurd h (Nat.not_lt_zero _)
  | succ fuel ih =>
    intro pre c hpc hc
    have hlen : p.length = pre.length + c.length := by rw [hpc, List.length_append]
    have hhere : ∀ a ∈ [Access.read pre.length], a.InBounds p.length := by
      intro a ha
      rw [List.mem_singleton.mp ha]
      simp only [Access.InBounds]
      omega
    by_cases hne : c = []
    · subst hne
      rw [resolveTrace_past _ _ _ _ (by simp at hlen; omega)]
      exact ⟨_, rfl, iff_of_true hhere lastPieceFits_nil⟩
    by_cases h0 : c.head? = some 0
    · obtain ⟨t, rfl⟩ := List.head?_eq_some_iff.mp h0
      have hzero : packetText p beyond pre.length = 0 := by
        simpa using packetText_append beyond hp hpc (Nat.zero_le _)
      rw [resolveTrace, if_neg fun h ↦ h.1 hzero]
      exact ⟨_, rfl, iff_of_true hhere lastPieceFits_zero⟩
    rcases Lines.exists_first LF c with hno | ⟨l, rest, hl, rfl⟩
    · obtain ⟨m, rfl⟩ : ∃ m, fuel = m + 1 :=
        ⟨fuel - 1, by have := List.length_pos_of_ne_nil hne; omega⟩
      rw [lastPieceFits_of_notMem hno hne h0]
      exact resolveTrace_last flash beyond outHandle inOtaSelect s hp h2 hne hno h0 hpc m
    by_cases h1 : l.length = 1
    · obtain ⟨x, rfl⟩ := List.length_eq_one_iff.mp h1
      obtain ⟨r, hr, hin⟩ := resolveTrace_blank flash beyond outHandle inOtaSelect s hp
        (by simpa using h0) (fun h ↦ hl (by simp [h])) (by simpa using hpc) fuel
      exact ⟨r, hr, iff_of_true hin (lastPieceFits_of_not_passed hl fun h ↦ h.1 rfl)⟩
    · have hpassed : Passed l := by
        refine ⟨h1, fun h ↦ ?_⟩
        rw [List.head?_append, h] at h0
        exact h0 rfl
      obtain ⟨r, hr, hin⟩ := ih (pre ++ l ++ [LF]) rest (by simpa using hpc)
        (by simp at hc; omega)
      have hoff : (pre ++ l ++ [LF]).length = pre.length + (l.length + 1) := by simp
      rw [hoff] at hr hin
      rw [lastPieceFits_line hl hpassed, ← hin]
      exact resolveTrace_passed flash beyond outHandle inOtaSelect s hp hl hpassed hpc hr

/-- What the packet has to be for `resolve_pkg` to stay in bounds. -/
def Contained (p : List UInt8) : Prop :=
  (∀ x, p = [x] → x = 0 ∨ x = LF) ∧ LastPieceFits p.length 0 p

/-- A packet of one byte: the two that end the scan are harmless, and any other ends in a copy
of `-1` bytes. -/
theorem resolvePkgTrace_singleton (x : UInt8) :
    ∃ r, resolvePkgTrace flash (packetText [x] beyond) 1 outHandle inOtaSelect s = some r ∧
      ((∀ a ∈ r.1, a.InBounds 1) ↔ x = 0 ∨ x = LF) := by
  have h0 : packetText [x] beyond 0 = x := rfl
  have h1 : packetText [x] beyond 1 = 0 := rfl
  by_cases hx0 : x = 0
  · subst hx0
    simp [resolvePkgTrace, resolveTrace, h0, Access.InBounds]
  · by_cases hx : x = LF
    · subst hx
      simp [resolvePkgTrace, resolveTrace, readUntil, readUntilLoop, readUntilReads, h0,
        Access.InBounds, TEXT_BUFFSIZE]
    · simp [resolvePkgTrace, resolveTrace, readUntil, readUntilLoop, readUntilReads, h0, hx0, hx,
        Access.InBounds]

end Bounds

/-- **`resolve_pkg` ends, and stays in bounds on the packets that are `Contained` and on no
others**, whatever stands behind the array and whatever the flash does. -/
theorem resolvePkg_inBounds_iff (flash : Flash) (p : Packet) (beyond : ℕ → UInt8)
    (outHandle : AudioHandle) (inOtaSelect : ℤ) (s : OtaState) :
    ∃ r, resolvePkgTrace flash (packetText p.bytes beyond) p.bytes.length outHandle inOtaSelect s
        = some r ∧
      ((∀ a ∈ r.1, a.InBounds p.bytes.length) ↔ Contained p.bytes) := by
  obtain ⟨p, hne, hp⟩ := p
  rcases Nat.lt_or_ge p.length 2 with h1 | h2
  · obtain ⟨x, rfl⟩ : ∃ x, p = [x] := by
      have := List.length_pos_of_ne_nil hne
      exact List.length_eq_one_iff.mp (by omega)
    obtain ⟨r, hr, hin⟩ := resolvePkgTrace_singleton flash beyond outHandle inOtaSelect s x
    refine ⟨r, hr, hin.trans ⟨fun hx ↦ ⟨?_, ?_⟩, fun h ↦ h.1 x rfl⟩⟩
    · intro y hy
      rwa [← (List.cons.inj hy).1]
    · rcases hx with rfl | rfl
      · exact lastPieceFits_zero
      · exact (lastPieceFits_line (l := []) List.not_mem_nil ⟨by simp, by simp⟩).mpr
          lastPieceFits_nil
  · obtain ⟨r, hr, hin⟩ := resolveTrace_inBounds_iff flash beyond outHandle inOtaSelect s hp h2
      (p.length + 1) [] p rfl (Nat.lt_succ_self _)
    refine ⟨r, hr, hin.trans ⟨fun h ↦ ⟨?_, h⟩, And.right⟩⟩
    intro x hx
    exact absurd h2 (by rw [show p = [x] from hx]; simp)

/-- The single byte `H` is copied with a length of `-1`. -/
theorem resolvePkg_not_inBounds :
    ¬ ∀ (flash : Flash) (p : Packet) (beyond : ℕ → UInt8) (outHandle : AudioHandle)
      (inOtaSelect : ℤ) (s : OtaState),
      ∃ r, resolvePkgTrace flash (packetText p.bytes beyond) p.bytes.length outHandle inOtaSelect s
          = some r ∧ ∀ a ∈ r.1, a.InBounds p.bytes.length := by
  intro h
  obtain ⟨r, hr, hin⟩ := h (fun _ ↦ true) ⟨[72], by simp, by simp [TEXT_BUFFSIZE]⟩ (fun _ ↦ 0)
    ⟨0, 0⟩ 0 ⟨0, [], []⟩
  obtain ⟨r', hr', hin'⟩ := resolvePkgTrace_singleton (fun _ ↦ true) (fun _ ↦ 0) ⟨0, 0⟩ 0
    ⟨0, [], []⟩ 72
  rw [Option.some.inj (hr.symm.trans hr')] at hin
  exact absurd (hin'.mp hin) (by decide)

end Ddmz.Ota
