import Ddmz.Foundation.Buffer

/-!
# Capturing speech into `mic_save_buffer`

The inner loop of `ddcloud_task` in `dd_cloud_service.c`: what a wake-up session reads from the
recorder is collected in a buffer of ten seconds and handed to `ddcloud_http_data_post` at its end.

## What the loop does

The offset is advanced before the copy, so the first block lands at `REC_ONE_BLOCK_SIZE`, the
first block of the buffer stays as it was cleared, and the last one that the capacity check admits
ends behind the buffer. A timeout of `rec_engine_data_read` takes the same branch as a block, and
saves whatever it leaves in `voiceData`. `saved_spec` is the invariant of the loop.

Both defects are invisible in short sessions, which are not posted, and the first one is invisible
in silence. That is all: `captureContract_iff`.

The recorder engine is a binary library. `RecRead` takes its results as its header documents them,
and leaves open what a timeout does to the buffer it was given.
-/

namespace Ddmz.Cloud

def REC_ONE_BLOCK_SIZE : ℕ := 2880

def MIC_1S_BUFFSIZE : ℕ := 16000 * 2

def MIC_MAX_SAVE_TIME : ℕ := 10

def MIC_SAVE_BUFFER_SIZE : ℕ := MIC_1S_BUFFSIZE * MIC_MAX_SAVE_TIME

/-! ## Sessions -/

/-- The contents of `voiceData`. -/
structure Block where
  bytes : List UInt8
  length_eq : bytes.length = REC_ONE_BLOCK_SIZE

/-- A result of `rec_engine_data_read` that does not end the session, with what it leaves in
`voiceData`: a voice block, for a positive index, or a timeout, for `-2`. -/
inductive RecRead
  | block (data : Block)
  | timeout (left : Block)

def RecRead.voiceData : RecRead → Block
  | block data => data
  | timeout left => left

/-- The voice block that a read delivers. -/
def RecRead.delivered : RecRead → Option Block
  | block data => some data
  | timeout _ => none

/-- One wake-up session: the reads before the `0` or `-1` that ends it, and whether the debug file
on the SD card can be opened. -/
structure Session where
  reads : List RecRead
  fileOpens : Bool

/-- The variables of `ddcloud_task` that a session changes, and the calls of
`ddcloud_http_data_post` so far. -/
structure MicState where
  micSaveBuffer : Buffer
  micSaveBufferSize : ℕ
  /-- `file`, as the number in its name, or `none` for `NULL`. -/
  file : Option ℕ
  filecnt : ℕ
  posts : List (List UInt8)

/-- The buffer is allocated and cleared when the task starts; nothing has been written before. -/
def MicState.init (memory : ℕ → UInt8) : MicState where
  micSaveBuffer := (Buffer.mk memory 0).clear MIC_SAVE_BUFFER_SIZE
  micSaveBufferSize := 0
  file := none
  filecnt := 0
  posts := []

/-- Saving `voiceData`. -/
def saveBlock (voiceData : Block) (s : MicState) : MicState :=
  if s.micSaveBufferSize + REC_ONE_BLOCK_SIZE ≤ MIC_SAVE_BUFFER_SIZE then
    let size := s.micSaveBufferSize + REC_ONE_BLOCK_SIZE
    { s with
      micSaveBufferSize := size
      micSaveBuffer := s.micSaveBuffer.write size voiceData.bytes }
  else s

/-- What a session does when its last read has been seen. Closing a file that was never opened is
harmless: the target's `fclose` ignores `NULL`. -/
def endSession (s : MicState) : MicState where
  micSaveBuffer := s.micSaveBuffer.clear MIC_SAVE_BUFFER_SIZE
  micSaveBufferSize := 0
  file := none
  filecnt := s.filecnt
  posts :=
    if MIC_1S_BUFFSIZE / 2 < s.micSaveBufferSize then
      s.posts ++ [s.micSaveBuffer.read 0 s.micSaveBufferSize]
    else s.posts

/-- The reads of a session, and whether its end is seen. The first one opens the debug file; if
that fails the session is left at once. -/
def sessionReads (fileOpens : Bool) : List RecRead → MicState → Bool × MicState
  | [], s => (true, s)
  | r :: rs, s =>
    if s.file = none then
      let s' := { s with filecnt := s.filecnt + 1 }
      if fileOpens then
        sessionReads fileOpens rs (saveBlock r.voiceData { s' with file := some s.filecnt })
      else (false, s')
    else sessionReads fileOpens rs (saveBlock r.voiceData s)

/-- One session. -/
def runSession (x : Session) (s : MicState) : MicState :=
  let r := sessionReads x.fileOpens x.reads s
  if r.1 then endSession r.2 else r.2

/-- The task, over the sessions that wake it. -/
def ddcloudTask (xs : List Session) (s : MicState) : MicState :=
  xs.foldl (fun s x ↦ runSession x s) s

theorem ddcloudTask_append (xs ys : List Session) (s : MicState) :
    ddcloudTask (xs ++ ys) s = ddcloudTask ys (ddcloudTask xs s) := List.foldl_append

theorem ddcloudTask_cons (x : Session) (xs : List Session) (s : MicState) :
    ddcloudTask (x :: xs) s = ddcloudTask xs (runSession x s) := rfl

/-! ## The contract -/

/-- The number of blocks that fit into the buffer. -/
def capacity : ℕ := MIC_SAVE_BUFFER_SIZE / REC_ONE_BLOCK_SIZE

theorem capacity_eq : capacity = 111 := by decide

/-- The audio of a list of blocks. -/
def audio (bs : List Block) : List UInt8 := bs.flatMap Block.bytes

/-- What a session should hand over: the voice blocks delivered in it, as many as fit. -/
def expected (x : Session) : List UInt8 :=
  audio ((x.reads.filterMap RecRead.delivered).take capacity)

/-- The size captured when the end of a session is seen. -/
def capturedSize (x : Session) (s : MicState) : ℕ :=
  (sessionReads x.fileOpens x.reads s).2.micSaveBufferSize

/-- What the task should satisfy over a sequence of sessions. -/
structure CaptureContract (memory : ℕ → UInt8) (xs : List Session) : Prop where
  /-- A session that captured enough hands over exactly its own voice blocks. -/
  posted : ∀ pre x post, xs = pre ++ x :: post →
    MIC_1S_BUFFSIZE / 2 < capturedSize x (ddcloudTask pre (.init memory)) →
      (runSession x (ddcloudTask pre (.init memory))).posts
        = (ddcloudTask pre (.init memory)).posts ++ [expected x]
  /-- No write lands behind the buffer. -/
  inBounds : ∀ pre post, xs = pre ++ post →
    (ddcloudTask pre (.init memory)).micSaveBuffer.high ≤ MIC_SAVE_BUFFER_SIZE

/-- A session too short to be posted, or one of voice blocks only, all of them silent, that stays
one block below the capacity. -/
def Harmless (x : Session) : Prop :=
  x.reads.length ≤ 5 ∨
    x.reads.length < capacity ∧
      ∀ r ∈ x.reads, ∃ b, r = RecRead.block b ∧ ∀ v ∈ b.bytes, v = 0

/-! ## The loop invariant -/

theorem length_audio (bs : List Block) : (audio bs).length = REC_ONE_BLOCK_SIZE * bs.length := by
  induction bs with
  | nil => rfl
  | cons b bs ih =>
    rw [audio, List.flatMap_cons, List.length_append, ← audio, ih, b.length_eq,
      List.length_cons, Nat.mul_succ, Nat.add_comm]

/-- The task between two sessions. -/
structure Clean (s : MicState) : Prop where
  size : s.micSaveBufferSize = 0
  cleared : s.micSaveBuffer.read 0 MIC_SAVE_BUFFER_SIZE = List.replicate MIC_SAVE_BUFFER_SIZE 0
  file : s.file = none
  high : MIC_SAVE_BUFFER_SIZE ≤ s.micSaveBuffer.high

/-- **The loop invariant.** After the blocks `ds` have been saved since the clean state `s₀`, the
buffer holds one cleared block followed by those of `ds` that the capacity check admitted, and the
size counts the latter only. -/
structure Saved (s₀ : MicState) (ds : List Block) (s : MicState) : Prop where
  size : s.micSaveBufferSize = REC_ONE_BLOCK_SIZE * min ds.length capacity
  contents : s.micSaveBuffer.read 0 (s.micSaveBufferSize + REC_ONE_BLOCK_SIZE)
    = List.replicate REC_ONE_BLOCK_SIZE 0 ++ audio (ds.take capacity)
  high : s.micSaveBuffer.high
    = max s₀.micSaveBuffer.high (s.micSaveBufferSize + REC_ONE_BLOCK_SIZE)
  posts : s.posts = s₀.posts

theorem Clean.saved {s : MicState} (h : Clean s) : Saved s [] s where
  size := by rw [h.size]; rfl
  contents := by
    rw [h.size, Nat.zero_add, Buffer.read_prefix h.cleared (by decide), List.take_replicate,
      Nat.min_eq_left (by decide), List.take_nil, audio, List.flatMap_nil, List.append_nil]
  high := by
    have := h.high
    rw [h.size, max_eq_left]
    exact (by decide : 0 + REC_ONE_BLOCK_SIZE ≤ MIC_SAVE_BUFFER_SIZE).trans this
  posts := rfl

theorem Clean.opened {s : MicState} (h : Clean s) (file : Option ℕ) (n : ℕ) :
    Saved s [] { s with file := file, filecnt := n } :=
  ⟨h.saved.size, h.saved.contents, h.saved.high, rfl⟩

theorem Saved.saveBlock {s₀ s : MicState} {ds : List Block} (h : Saved s₀ ds s) (d : Block) :
    Saved s₀ (ds ++ [d]) (saveBlock d s) := by
  have hcap := capacity_eq
  have hsize := h.size
  rw [Cloud.saveBlock]
  by_cases hfit : ds.length < capacity
  · rw [Nat.min_eq_left (Nat.le_of_lt hfit)] at hsize
    have hroom : s.micSaveBufferSize + REC_ONE_BLOCK_SIZE ≤ MIC_SAVE_BUFFER_SIZE := by
      rw [hsize]
      simp only [REC_ONE_BLOCK_SIZE, MIC_SAVE_BUFFER_SIZE, MIC_1S_BUFFSIZE, MIC_MAX_SAVE_TIME]
      omega
    have htake : ds.take capacity = ds := List.take_of_length_le (Nat.le_of_lt hfit)
    have htake' : (ds ++ [d]).take capacity = ds ++ [d] :=
      List.take_of_length_le (by simpa using hfit)
    rw [if_pos hroom]
    refine ⟨?_, ?_, ?_, h.posts⟩
    · simp only [hsize, List.length_append, List.length_singleton]
      rw [Nat.min_eq_left (by omega), Nat.mul_succ]
    · have hread : (s.micSaveBuffer.write (s.micSaveBufferSize + REC_ONE_BLOCK_SIZE)
          d.bytes).read 0 (s.micSaveBufferSize + REC_ONE_BLOCK_SIZE + d.bytes.length)
          = s.micSaveBuffer.read 0 (s.micSaveBufferSize + REC_ONE_BLOCK_SIZE) ++ d.bytes :=
        Buffer.read_zero_write_append
      rw [d.length_eq, h.contents, htake] at hread
      rw [htake', hread]
      simp [audio]
    · rw [Buffer.high_write, h.high, d.length_eq]
      simp only
      omega
  · have hfull : ¬s.micSaveBufferSize + REC_ONE_BLOCK_SIZE ≤ MIC_SAVE_BUFFER_SIZE := by
      rw [hsize, Nat.min_eq_right (by omega), hcap]
      decide
    rw [if_neg hfull]
    refine ⟨?_, ?_, h.high, h.posts⟩
    · rw [hsize, List.length_append, Nat.min_eq_right (by omega), Nat.min_eq_right (by omega)]
    · rw [h.contents, List.take_append_of_le_length (by omega)]

/-- Once the file is open, every read saves. -/
theorem Saved.reads {s₀ : MicState} (rs : List RecRead) :
    ∀ {ds : List Block} {s : MicState}, s.file ≠ none → Saved s₀ ds s →
      (sessionReads true rs s).1 = true ∧
        Saved s₀ (ds ++ rs.map RecRead.voiceData) (sessionReads true rs s).2 := by
  induction rs with
  | nil =>
    intro ds s _ h
    exact ⟨rfl, by rwa [List.map_nil, List.append_nil]⟩
  | cons r rs ih =>
    intro ds s hfile h
    have hfile' : (Cloud.saveBlock r.voiceData s).file ≠ none := by
      rw [Cloud.saveBlock]
      split <;> exact hfile
    rw [Cloud.sessionReads, if_neg hfile, List.map_cons]
    have := ih hfile' (h.saveBlock r.voiceData)
    rwa [List.append_assoc, List.singleton_append] at this

/-- **What a session saves**, from a clean state and with the file opened. -/
theorem saved_spec {x : Session} (hopen : x.fileOpens = true) {s : MicState} (h : Clean s) :
    (sessionReads x.fileOpens x.reads s).1 = true ∧
      Saved s (x.reads.map RecRead.voiceData) (sessionReads x.fileOpens x.reads s).2 := by
  rw [hopen]
  cases hreads : x.reads with
  | nil => exact ⟨rfl, h.saved⟩
  | cons r rs =>
    rw [sessionReads, if_pos h.file, if_pos rfl, List.map_cons]
    have hfile : (saveBlock r.voiceData
        { s with file := some s.filecnt, filecnt := s.filecnt + 1 }).file ≠ none := by
      rw [saveBlock]
      split <;> simp
    have := Saved.reads rs hfile ((h.opened (some s.filecnt) (s.filecnt + 1)).saveBlock
      r.voiceData)
    simpa using this

/-! ## Sessions in terms of their reads -/

section Session

variable {x : Session} {s : MicState}

theorem capturedSize_eq (hopen : x.fileOpens = true) (h : Clean s) :
    capturedSize x s = REC_ONE_BLOCK_SIZE * min x.reads.length capacity := by
  rw [capturedSize, (saved_spec hopen h).2.size, List.length_map]

/-- A session is posted once it has six reads. -/
theorem lt_capturedSize_iff (hopen : x.fileOpens = true) (h : Clean s) :
    MIC_1S_BUFFSIZE / 2 < capturedSize x s ↔ 5 < x.reads.length := by
  rw [capturedSize_eq hopen h, capacity_eq]
  simp only [REC_ONE_BLOCK_SIZE, MIC_1S_BUFFSIZE]
  omega

theorem runSession_eq (hopen : x.fileOpens = true) (h : Clean s) :
    runSession x s = endSession (sessionReads x.fileOpens x.reads s).2 := by
  rw [runSession]
  exact if_pos (saved_spec hopen h).1

/-- What a session that is posted hands over: its saves, one block late. -/
theorem runSession_posts (hopen : x.fileOpens = true) (h : Clean s) :
    (runSession x s).posts = if MIC_1S_BUFFSIZE / 2 < capturedSize x s then
        s.posts ++ [(List.replicate REC_ONE_BLOCK_SIZE 0 ++
          audio ((x.reads.map RecRead.voiceData).take capacity)).take (capturedSize x s)]
      else s.posts := by
  have hs := (saved_spec hopen h).2
  rw [runSession_eq hopen h, endSession]
  simp only
  rw [hs.posts, capturedSize, Buffer.read_prefix hs.contents (Nat.le_add_right _ _)]

/-- A session leaves the task clean, and has written one block past what it captured. -/
theorem Clean.runSession (hopen : x.fileOpens = true) (h : Clean s) :
    Clean (runSession x s) ∧ (Cloud.runSession x s).micSaveBuffer.high
      = max s.micSaveBuffer.high (capturedSize x s + REC_ONE_BLOCK_SIZE) := by
  have hs := (saved_spec hopen h).2
  have hhigh : (Cloud.runSession x s).micSaveBuffer.high
      = max s.micSaveBuffer.high (capturedSize x s + REC_ONE_BLOCK_SIZE) := by
    rw [runSession_eq hopen h, endSession, Buffer.high_clear, hs.high, capturedSize]
    exact max_eq_left (h.high.trans (le_max_left _ _))
  refine ⟨⟨?_, ?_, ?_, ?_⟩, hhigh⟩
  · rw [runSession_eq hopen h, endSession]
  · rw [runSession_eq hopen h, endSession, Buffer.read_clear]
  · rw [runSession_eq hopen h, endSession]
  · rw [hhigh]
    exact h.high.trans (le_max_left _ _)

/-- A sequence that repeats a shift of itself behind zeros is zero. -/
theorem eq_replicate_of_prefix_shift {c : ℕ} (hc : 0 < c) {l : List UInt8}
    (h : l = (List.replicate c 0 ++ l).take l.length) : l = List.replicate l.length 0 := by
  have hall : ∀ n (hn : n < l.length), l[n] = 0 := by
    intro n
    induction n using Nat.strong_induction_on with
    | _ n ih =>
      intro hn
      have hlen : n < ((List.replicate c 0 ++ l).take l.length).length := by
        rw [← h]
        exact hn
      have hget : l[n] = ((List.replicate c 0 ++ l).take l.length)[n] := by
        congr 1
      rw [hget, List.getElem_take]
      by_cases hnc : n < c
      · rw [List.getElem_append_left (by simpa using hnc), List.getElem_replicate]
      · rw [List.getElem_append_right (by simpa using hnc)]
        exact ih _ (by simp; omega) _
  exact List.eq_replicate_iff.mpr ⟨rfl, fun b hb ↦ by
    obtain ⟨n, hn, rfl⟩ := List.getElem_of_mem hb
    exact hall n hn⟩

/-- No timeout among the reads: every one of them delivered a block. -/
theorem filterMap_delivered_of_length {rs : List RecRead}
    (h : (rs.filterMap RecRead.delivered).length = rs.length) :
    (∀ r ∈ rs, ∃ b, r = RecRead.block b) ∧
      rs.filterMap RecRead.delivered = rs.map RecRead.voiceData := by
  induction rs with
  | nil => simp
  | cons r rs ih =>
    have hle := List.length_filterMap_le RecRead.delivered rs
    cases r with
    | timeout left =>
      rw [List.filterMap_cons_none rfl, List.length_cons] at h
      omega
    | block b =>
      have hcons : (RecRead.block b :: rs).filterMap RecRead.delivered
          = b :: rs.filterMap RecRead.delivered := rfl
      rw [hcons, List.length_cons, List.length_cons] at h
      obtain ⟨hall, hmap⟩ := ih (by omega)
      refine ⟨List.forall_mem_cons.mpr ⟨⟨b, rfl⟩, hall⟩, ?_⟩
      rw [hcons, hmap, List.map_cons, RecRead.voiceData]

theorem filterMap_delivered_of_block {rs : List RecRead}
    (h : ∀ r ∈ rs, ∃ b, r = RecRead.block b) :
    rs.filterMap RecRead.delivered = rs.map RecRead.voiceData := by
  rw [← List.filterMap_eq_map]
  refine List.filterMap_congr fun r hr ↦ ?_
  obtain ⟨b, rfl⟩ := h r hr
  rfl

theorem audio_eq_replicate_iff {bs : List Block} :
    audio bs = List.replicate (audio bs).length 0 ↔ ∀ b ∈ bs, ∀ v ∈ b.bytes, v = 0 := by
  rw [List.eq_replicate_iff, audio]
  constructor
  · intro h b hb v hv
    exact h.2 v (List.mem_flatMap.mpr ⟨b, hb, hv⟩)
  · intro h
    refine ⟨rfl, fun v hv ↦ ?_⟩
    obtain ⟨b, hb, hv⟩ := List.mem_flatMap.mp hv
    exact h b hb v hv

/-- **Late by one block.** Below the capacity, what is handed over is right for silence only. -/
theorem posted_eq_expected_iff (hlt : x.reads.length < capacity) :
    (List.replicate REC_ONE_BLOCK_SIZE 0 ++
        audio ((x.reads.map RecRead.voiceData).take capacity)).take
          (REC_ONE_BLOCK_SIZE * min x.reads.length capacity) = expected x
      ↔ ∀ r ∈ x.reads, ∃ b, r = RecRead.block b ∧ ∀ v ∈ b.bytes, v = 0 := by
  set ds := x.reads.map RecRead.voiceData with hds
  have hdslen : ds.length = x.reads.length := by rw [hds, List.length_map]
  have haudio : (audio ds).length = REC_ONE_BLOCK_SIZE * x.reads.length := by
    rw [length_audio, hdslen]
  have hdel := List.length_filterMap_le RecRead.delivered x.reads
  rw [expected, List.take_of_length_le (l := ds) (by omega),
    List.take_of_length_le (l := x.reads.filterMap RecRead.delivered) (by omega),
    Nat.min_eq_left (Nat.le_of_lt hlt), ← haudio]
  constructor
  · intro h
    have hlen : (x.reads.filterMap RecRead.delivered).length = x.reads.length := by
      have := congrArg List.length h
      rw [List.length_take, List.length_append, Nat.min_eq_left (Nat.le_add_left _ _), haudio,
        length_audio] at this
      exact (Nat.eq_of_mul_eq_mul_left (by decide) this).symm
    obtain ⟨hblock, hmap⟩ := filterMap_delivered_of_length hlen
    rw [hmap] at h
    have hzero := audio_eq_replicate_iff.mp
      (eq_replicate_of_prefix_shift (c := REC_ONE_BLOCK_SIZE) (by decide) h.symm)
    intro r hr
    obtain ⟨b, rfl⟩ := hblock r hr
    exact ⟨b, rfl, hzero b (List.mem_map.mpr ⟨_, hr, rfl⟩)⟩
  · intro h
    have hblock : ∀ r ∈ x.reads, ∃ b, r = RecRead.block b := fun r hr ↦
      (h r hr).imp fun _ hb ↦ hb.1
    have hzero : audio ds = List.replicate (audio ds).length 0 := by
      refine audio_eq_replicate_iff.mpr fun b hb ↦ ?_
      obtain ⟨r, hr, rfl⟩ := List.mem_map.mp hb
      obtain ⟨b, rfl, hsilent⟩ := h r hr
      exact hsilent
    rw [filterMap_delivered_of_block hblock, ← hds]
    conv_lhs => rw [hzero]
    conv_rhs => rw [hzero]
    rw [List.replicate_append_replicate, List.take_replicate, List.length_replicate,
      Nat.min_eq_left (Nat.le_add_left _ _)]

/-- One session keeps its part of the contract exactly when it is harmless. -/
theorem session_iff_harmless (hopen : x.fileOpens = true) (h : Clean s)
    (hhigh : s.micSaveBuffer.high = MIC_SAVE_BUFFER_SIZE) :
    ((MIC_1S_BUFFSIZE / 2 < capturedSize x s →
        (runSession x s).posts = s.posts ++ [expected x]) ∧
      (runSession x s).micSaveBuffer.high ≤ MIC_SAVE_BUFFER_SIZE) ↔ Harmless x := by
  have hcap := capacity_eq
  have hbound : (runSession x s).micSaveBuffer.high ≤ MIC_SAVE_BUFFER_SIZE ↔
      x.reads.length < capacity := by
    rw [(h.runSession hopen).2, hhigh, capturedSize_eq hopen h, hcap]
    simp only [REC_ONE_BLOCK_SIZE, MIC_SAVE_BUFFER_SIZE, MIC_1S_BUFFSIZE, MIC_MAX_SAVE_TIME]
    omega
  rw [hbound, runSession_posts hopen h, Harmless]
  by_cases hlt : x.reads.length < capacity
  · by_cases hpost : MIC_1S_BUFFSIZE / 2 < capturedSize x s
    · have hsix : ¬x.reads.length ≤ 5 := by
        rw [lt_capturedSize_iff hopen h] at hpost
        omega
      rw [if_pos hpost, List.append_right_inj, List.cons.injEq, capturedSize_eq hopen h,
        posted_eq_expected_iff hlt]
      rw [capturedSize_eq hopen h] at hpost
      simp [hpost, hlt, hsix]
    · have hfew : x.reads.length ≤ 5 := by
        rw [lt_capturedSize_iff hopen h] at hpost
        omega
      simp [hpost, hlt, hfew]
  · have hsix : ¬x.reads.length ≤ 5 := by omega
    simp [hlt, hsix]

end Session

/-! ## The task over all its sessions -/

theorem clean_init (memory : ℕ → UInt8) : Clean (.init memory) where
  size := rfl
  cleared := Buffer.read_clear _
  file := rfl
  high := by rw [MicState.init, Buffer.high_clear]; exact le_max_right _ _

theorem high_init (memory : ℕ → UInt8) :
    (MicState.init memory).micSaveBuffer.high = MIC_SAVE_BUFFER_SIZE := by
  rw [MicState.init, Buffer.high_clear]
  exact Nat.zero_max _

/-- Between two sessions the task is clean. -/
theorem clean_ddcloudTask {xs : List Session} (hopen : ∀ x ∈ xs, x.fileOpens = true) :
    ∀ {s : MicState}, Clean s → Clean (ddcloudTask xs s) := by
  induction xs with
  | nil => exact fun h ↦ h
  | cons x xs ih =>
    intro s h
    rw [ddcloudTask_cons]
    exact ih (fun y hy ↦ hopen y (List.mem_cons_of_mem _ hy))
      (h.runSession (hopen x List.mem_cons_self)).1

theorem harmless_of_captureContract {memory : ℕ → UInt8} {xs : List Session}
    (hopen : ∀ x ∈ xs, x.fileOpens = true) (h : CaptureContract memory xs) :
    ∀ x ∈ xs, Harmless x := by
  intro x hx
  obtain ⟨pre, post, rfl⟩ := List.append_of_mem hx
  have hpre : ∀ y ∈ pre, y.fileOpens = true := fun y hy ↦ hopen y (List.mem_append_left _ hy)
  have hclean := clean_ddcloudTask hpre (clean_init memory)
  have hhigh := le_antisymm (h.inBounds pre (x :: post) rfl) hclean.high
  refine (session_iff_harmless (hopen x hx) hclean hhigh).mp ⟨h.posted pre x post rfl, ?_⟩
  have := h.inBounds (pre ++ [x]) post (by simp)
  rwa [ddcloudTask_append] at this

theorem high_ddcloudTask {memory : ℕ → UInt8} {xs : List Session}
    (hopen : ∀ x ∈ xs, x.fileOpens = true) (h : ∀ x ∈ xs, Harmless x) :
    (ddcloudTask xs (.init memory)).micSaveBuffer.high = MIC_SAVE_BUFFER_SIZE := by
  induction xs using List.reverseRecOn with
  | nil => exact high_init memory
  | append_singleton xs x ih =>
    have hxs : ∀ y ∈ xs, y.fileOpens = true := fun y hy ↦ hopen y (List.mem_append_left _ hy)
    have hclean := clean_ddcloudTask hxs (clean_init memory)
    have hhigh := ih hxs fun y hy ↦ h y (List.mem_append_left _ hy)
    have hx := (session_iff_harmless (hopen x (by simp)) hclean hhigh).mpr (h x (by simp))
    rw [ddcloudTask_append]
    exact le_antisymm hx.2 (hclean.runSession (hopen x (by simp))).1.high

theorem captureContract_of_harmless {memory : ℕ → UInt8} {xs : List Session}
    (hopen : ∀ x ∈ xs, x.fileOpens = true) (h : ∀ x ∈ xs, Harmless x) :
    CaptureContract memory xs := by
  refine ⟨?_, ?_⟩
  · rintro pre x post rfl
    have hpre : ∀ y ∈ pre, y.fileOpens = true := fun y hy ↦ hopen y (List.mem_append_left _ hy)
    have hx : x ∈ pre ++ x :: post := by simp
    exact ((session_iff_harmless (hopen x hx) (clean_ddcloudTask hpre (clean_init memory))
      (high_ddcloudTask hpre fun y hy ↦ h y (List.mem_append_left _ hy))).mpr (h x hx)).1
  · rintro pre post rfl
    exact le_of_eq (high_ddcloudTask (fun y hy ↦ hopen y (List.mem_append_left _ hy))
      fun y hy ↦ h y (List.mem_append_left _ hy))

/-- **Exactly the harmless sessions are captured right.** For every sequence of sessions whose
debug files open. -/
theorem captureContract_iff (memory : ℕ → UInt8) (xs : List Session)
    (hopen : ∀ x ∈ xs, x.fileOpens = true) :
    CaptureContract memory xs ↔ ∀ x ∈ xs, Harmless x :=
  ⟨harmless_of_captureContract hopen, captureContract_of_harmless hopen⟩

/-- A block of one value. -/
def evenBlock (v : UInt8) : Block where
  bytes := List.replicate REC_ONE_BLOCK_SIZE v
  length_eq := List.length_replicate

/-- `n` blocks of one value. -/
def evenSession (n : ℕ) (v : UInt8) : Session := ⟨List.replicate n (.block (evenBlock v)), true⟩

/-- A session that is too short to go wrong, and a silent one that is posted. -/
theorem captureContract_silent :
    let xs : List Session := [evenSession 5 1, evenSession 6 0]
    CaptureContract (fun _ ↦ 0) xs ∧
      expected (evenSession 6 0) ∈ (ddcloudTask xs (.init fun _ ↦ 0)).posts := by
  intro xs
  have hopen : ∀ x ∈ xs, x.fileOpens = true := by simp [xs, evenSession]
  have hcontract : CaptureContract (fun _ ↦ 0) xs := by
    refine (captureContract_iff (fun _ ↦ 0) xs hopen).mpr fun x hx ↦ ?_
    obtain rfl | rfl : x = evenSession 5 1 ∨ x = evenSession 6 0 := by simpa [xs] using hx
    · exact .inl (by simp [evenSession])
    · refine .inr ⟨by simp only [evenSession, List.length_replicate]; decide, fun r hr ↦ ?_⟩
      exact ⟨evenBlock 0, List.eq_of_mem_replicate hr, fun v hv ↦ List.eq_of_mem_replicate hv⟩
  refine ⟨hcontract, ?_⟩
  have hclean : Clean (ddcloudTask [evenSession 5 1] (.init fun _ ↦ 0)) :=
    clean_ddcloudTask (by simp [evenSession]) (clean_init _)
  have hlong : MIC_1S_BUFFSIZE / 2 < capturedSize (evenSession 6 0)
      (ddcloudTask [evenSession 5 1] (.init fun _ ↦ 0)) :=
    (lt_capturedSize_iff rfl hclean).mpr (by simp [evenSession])
  have hposted := hcontract.posted [evenSession 5 1] (evenSession 6 0) [] rfl hlong
  have hlast : ddcloudTask xs (.init fun _ ↦ 0)
      = runSession (evenSession 6 0) (ddcloudTask [evenSession 5 1] (.init fun _ ↦ 0)) :=
    ddcloudTask_append [evenSession 5 1] [evenSession 6 0] _
  rw [hlast, hposted]
  exact List.mem_append_right _ List.mem_cons_self

/-- Six blocks of sound, half a second, are handed over wrong. -/
theorem not_captureContract_loud : ¬CaptureContract (fun _ ↦ 0) [evenSession 6 1] := by
  intro h
  rcases harmless_of_captureContract (by simp [evenSession]) h (evenSession 6 1) (by simp) with
    hfew | ⟨-, hsilent⟩
  · exact absurd hfew (by simp [evenSession])
  · obtain ⟨b, hb, hzero⟩ := hsilent (.block (evenBlock 1)) (by simp [evenSession])
    obtain rfl : evenBlock 1 = b := RecRead.block.inj hb
    have hmem : (1 : UInt8) ∈ (evenBlock 1).bytes := List.mem_replicate.mpr ⟨by decide, rfl⟩
    exact absurd (hzero 1 hmem) (by decide)

end Ddmz.Cloud
