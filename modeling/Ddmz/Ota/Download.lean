import Ddmz.Ota.Packet

/-!
# Downloading one OTA image

`connect_to_http_server` and `ota_data_from_server` of `OtaService/Ota.c`, and what their receive
loop does with an arbitrary sequence of `recv` results.

## Shape of a download

The loop has two phases, told apart by `pkg_body_start`. In the first, every packet is given to
`resolve_pkg`, whose single Boolean stands for four outcomes: the header goes on, the magic is
wrong, the write failed, the body has begun. Only the last one ends the phase. `HeaderPhase` lists
the packets that leave the loop in it, and `recvLoop_cases` is the resulting inversion of a whole
download: either the phase never ends, or some packet ends it, by a crash or by a first write.

## Two properties

`Segmented` and `Delivered` say how a response has to fall into packets to be received intact, the
first for a well-formed response and working flash, the second for anything the network and the
flash may do.
-/

namespace Ddmz.Ota

/-- What ends a sequence of packets: `recv` returns zero, or a negative value. -/
inductive RecvEnd
  | closed
  | error
deriving DecidableEq, Repr

/-- The answers of the network during one download. -/
structure Network where
  /-- `socket` does not return `-1`. -/
  socket : Bool
  /-- `connect` does not return `-1`. -/
  connect : Bool
  /-- `send` does not return `-1`. -/
  send : Bool
  packets : List Packet
  ending : RecvEnd

/-- The bytes of a sequence of packets. -/
def received (ps : List Packet) : List UInt8 := ps.flatMap Packet.bytes

@[simp] theorem received_nil : received [] = [] := rfl

@[simp] theorem received_cons (p : Packet) (ps : List Packet) :
    received (p :: ps) = p.bytes ++ received ps := rfl

@[simp] theorem received_append (ps qs : List Packet) :
    received (ps ++ qs) = received ps ++ received qs := List.flatMap_append

def connectToHttpServer (net : Network) : Bool := net.socket && net.connect

/-- The `http_request` of a selected image. -/
def httpRequest (inOtaSelect : ℤ) : Option String :=
  if inOtaSelect = 0 then
    some "GET /ota_audio_wifi.bin HTTP/1.1\r\nHost: 192.168.0.200:8080\r\n\r\n"
  else if inOtaSelect = 1 then
    some "GET /ota_audio_bt.bin HTTP/1.1\r\nHost: 192.168.0.200:8080\r\n\r\n"
  else none

section Model

variable (flash : Flash) (beyond : ℕ → ℕ → UInt8) (outHandle : AudioHandle) (inOtaSelect : ℤ)

/-- The receive loop. The flag is `pkg_body_start`; the memory behind `text` may be different for
every packet. -/
def recvLoop (ending : RecvEnd) : List Packet → Bool → OtaState → Option (Bool × OtaState)
  | [], _, s => some (ending = .closed, s)
  | p :: ps, false, s =>
    match resolvePkg flash (packetText p.bytes (beyond ps.length)) p.bytes.length outHandle
        inOtaSelect s with
    | none => none
    | some (pkgBodyStart, s') => recvLoop ending ps pkgBodyStart s'
  | p :: ps, true, s =>
    match espOtaAudioWrite flash outHandle p.bytes inOtaSelect s with
    | (false, s') => some (false, s')
    | (true, s') =>
      recvLoop ending ps true { s' with binaryFileLength := s'.binaryFileLength + p.bytes.length }

/-- `ota_data_from_server`; `none` is a crash. -/
def otaDataFromServer (net : Network) (s : OtaState) : Option (Bool × OtaState) :=
  if connectToHttpServer net then
    match httpRequest inOtaSelect with
    | none => some (false, s)
    | some request =>
      let s := { s with requests := s.requests ++ [request] }
      if net.send then recvLoop flash beyond outHandle inOtaSelect net.ending net.packets false s
      else some (false, s)
  else some (false, s)

end Model

/-! ## What a packet does while the header is looked for -/

/-- A packet of one byte that the scan does not stop at: `resolve_pkg` crashes on it. -/
def Crashes (p : List UInt8) : Prop := p.length = 1 ∧ p ≠ [0] ∧ p ≠ [LF]

/-- A packet in which the scan finds a blank line followed by what passes for an image. -/
def startsImage (p : List UInt8) : Bool := (scanLines true p).any imageMagic

theorem startsImage_iff {p : List UInt8} :
    startsImage p = true ↔ ∃ b, scanLines true p = some b ∧ imageMagic b = true := by
  rw [startsImage, Option.any_eq_true]

theorem not_startsImage_of_length {p : List UInt8} (h : p.length = 1) : startsImage p = false := by
  obtain ⟨b, rfl⟩ := List.length_eq_one_iff.mp h
  by_cases h0 : b = 0
  · simp [startsImage, scanLines, h0]
  · by_cases hb : b = LF <;> simp [startsImage, scanLines, h0, hb]

theorem not_crashes_of_startsImage {p : List UInt8} (h : startsImage p = true) : ¬Crashes p := by
  intro hc
  rw [not_startsImage_of_length hc.1] at h
  exact Bool.false_ne_true h

/-- **The header phase.** `HeaderPhase flash k pre k'`: none of the packets `pre` crashes
`resolve_pkg`, and each one that looks like the start of an image has its write refused, which
takes the number of calls of `esp_ota_write` from `k` to `k'`. -/
inductive HeaderPhase (flash : Flash) : ℕ → List Packet → ℕ → Prop
  | nil (k : ℕ) : HeaderPhase flash k [] k
  | skip {k k' : ℕ} {p : Packet} {pre : List Packet} : ¬Crashes p.bytes →
      startsImage p.bytes = false → HeaderPhase flash k pre k' → HeaderPhase flash k (p :: pre) k'
  | refused {k k' : ℕ} {p : Packet} {pre : List Packet} : startsImage p.bytes = true →
      flash k = false → HeaderPhase flash (k + 1) pre k' → HeaderPhase flash k (p :: pre) k'

/-- Packets that neither crash nor look like an image cost no write. -/
theorem HeaderPhase.of_quiet {flash : Flash} {k : ℕ} {pre : List Packet}
    (h : ∀ q ∈ pre, ¬Crashes q.bytes ∧ startsImage q.bytes = false) :
    HeaderPhase flash k pre k := by
  induction pre with
  | nil => exact .nil k
  | cons p pre ih =>
    obtain ⟨hp, hs⟩ := h p List.mem_cons_self
    exact .skip hp hs (ih fun q hq ↦ h q (List.mem_cons_of_mem _ hq))

theorem HeaderPhase.not_crashes {flash : Flash} {k k' : ℕ} {pre : List Packet}
    (h : HeaderPhase flash k pre k') : ∀ q ∈ pre, ¬Crashes q.bytes := by
  induction h with
  | nil => simp
  | skip hp _ _ ih => exact List.forall_mem_cons.mpr ⟨hp, ih⟩
  | refused hs _ _ ih => exact List.forall_mem_cons.mpr ⟨not_crashes_of_startsImage hs, ih⟩

/-- A phase that costs no write contains no packet that looks like an image. -/
theorem HeaderPhase.quiet {flash : Flash} {k k' : ℕ} {pre : List Packet}
    (h : HeaderPhase flash k pre k') :
    k ≤ k' ∧ (k' = k → ∀ q ∈ pre, startsImage q.bytes = false) := by
  induction h with
  | nil => simp
  | skip _ hs _ ih =>
    exact ⟨ih.1, fun he ↦ List.forall_mem_cons.mpr ⟨hs, ih.2 he⟩⟩
  | refused _ _ _ ih => exact ⟨by omega, fun he ↦ by omega⟩

theorem HeaderPhase.eq_of_flash {flash : Flash} (hflash : ∀ n, flash n = true) {k k' : ℕ}
    {pre : List Packet} (h : HeaderPhase flash k pre k') : k' = k := by
  induction h with
  | nil => rfl
  | skip _ _ _ ih => exact ih
  | refused _ hf _ _ => rw [hflash] at hf; exact absurd hf (by simp)

/-- Every sequence of packets stays in the header phase or has a first packet that ends it. -/
theorem HeaderPhase.exists_end (flash : Flash) (ps : List Packet) : ∀ k : ℕ,
    (∃ k', HeaderPhase flash k ps k') ∨
      ∃ pre p post k', ps = pre ++ p :: post ∧ HeaderPhase flash k pre k' ∧
        (Crashes p.bytes ∨ startsImage p.bytes = true ∧ flash k' = true) := by
  induction ps with
  | nil => exact fun k ↦ Or.inl ⟨k, .nil k⟩
  | cons p ps ih =>
    intro k
    by_cases hc : Crashes p.bytes
    · exact Or.inr ⟨[], p, ps, k, rfl, .nil k, Or.inl hc⟩
    by_cases hs : startsImage p.bytes = true
    · by_cases hf : flash k = true
      · exact Or.inr ⟨[], p, ps, k, rfl, .nil k, Or.inr ⟨hs, hf⟩⟩
      · rw [Bool.not_eq_true] at hf
        rcases ih (k + 1) with ⟨k', h⟩ | ⟨pre, q, post, k', rfl, h, hq⟩
        · exact Or.inl ⟨k', .refused hs hf h⟩
        · exact Or.inr ⟨p :: pre, q, post, k', rfl, .refused hs hf h, hq⟩
    · rw [Bool.not_eq_true] at hs
      rcases ih k with ⟨k', h⟩ | ⟨pre, q, post, k', rfl, h, hq⟩
      · exact Or.inl ⟨k', .skip hc hs h⟩
      · exact Or.inr ⟨p :: pre, q, post, k', rfl, .skip hc hs h, hq⟩

/-! ## The two phases of the loop -/

section Loop

variable {flash : Flash} {beyond : ℕ → ℕ → UInt8} {outHandle : AudioHandle} {inOtaSelect : ℤ}
variable {ending : RecvEnd} {h : ℕ}

theorem espOtaAudioWrite_eq (hsel : selectedHandle outHandle inOtaSelect = some h)
    (data : List UInt8) (s : OtaState) :
    espOtaAudioWrite flash outHandle data inOtaSelect s
      = (flash s.writes.length,
          { s with writes := s.writes ++ [⟨h, data, flash s.writes.length⟩] }) := by
  rw [espOtaAudioWrite, hsel]
  rfl

theorem recvLoop_crash {p : Packet} (hp : Crashes p.bytes) (ps : List Packet) (s : OtaState) :
    recvLoop flash beyond outHandle inOtaSelect ending (p :: ps) false s = none := by
  obtain ⟨hlen, h0, hLF⟩ := hp
  obtain ⟨b, hb⟩ := List.length_eq_one_iff.mp hlen
  rw [hb] at h0 hLF
  rw [recvLoop, hb, List.length_singleton, resolvePkg_singleton,
    if_neg (by rintro (rfl | rfl); exacts [h0 rfl, hLF rfl])]

/-- One packet of the header phase, as the scan sees it. -/
theorem resolvePkg_of_not_crashes {p : Packet} (hp : ¬Crashes p.bytes) (m : ℕ → UInt8)
    (s : OtaState) :
    resolvePkg flash (packetText p.bytes m) p.bytes.length outHandle inOtaSelect s
      = some ((scanLines true p.bytes).elim (false, s)
          (finishPkg flash outHandle inOtaSelect s)) := by
  have hpos : 0 < p.bytes.length := List.length_pos_of_ne_nil p.nonempty
  by_cases h1 : p.bytes.length = 1
  · obtain ⟨b, hb⟩ := List.length_eq_one_iff.mp h1
    have hb' : b = 0 ∨ b = LF := by
      by_contra hne
      rw [not_or] at hne
      exact hp ⟨h1, by simpa [hb] using hne.1, by simpa [hb] using hne.2⟩
    have hscan : scanLines true [b] = none := by
      rcases hb' with rfl | rfl
      · exact scanLines_zero []
      · have hline : scanLines true ([] ++ LF :: []) = scanLines true [] :=
          scanLines_line (by simp) ⟨by simp, by simp⟩
        exact hline
    rw [hb, List.length_singleton, resolvePkg_singleton, if_pos hb', hscan]
    rfl
  · exact resolvePkg_eq p.length_le (by omega)

theorem recvLoop_skip {p : Packet} (hp : ¬Crashes p.bytes) (hs : startsImage p.bytes = false)
    (ps : List Packet) (s : OtaState) :
    recvLoop flash beyond outHandle inOtaSelect ending (p :: ps) false s
      = recvLoop flash beyond outHandle inOtaSelect ending ps false s := by
  rw [recvLoop, resolvePkg_of_not_crashes hp]
  rcases hscan : scanLines true p.bytes with _ | b
  · rfl
  · rw [startsImage, hscan, Option.any_some] at hs
    simp [finishPkg, hs]

theorem recvLoop_start (hsel : selectedHandle outHandle inOtaSelect = some h) {p : Packet}
    {b : List UInt8} (hscan : scanLines true p.bytes = some b) (hm : imageMagic b = true)
    (ps : List Packet) (s : OtaState) :
    recvLoop flash beyond outHandle inOtaSelect ending (p :: ps) false s
      = if flash s.writes.length then
          recvLoop flash beyond outHandle inOtaSelect ending ps true
            { s with
              binaryFileLength := s.binaryFileLength + b.length
              writes := s.writes ++ [⟨h, b, true⟩] }
        else
          recvLoop flash beyond outHandle inOtaSelect ending ps false
            { s with writes := s.writes ++ [⟨h, b, false⟩] } := by
  have hs : startsImage p.bytes = true := startsImage_iff.mpr ⟨b, hscan, hm⟩
  rw [recvLoop, resolvePkg_of_not_crashes (not_crashes_of_startsImage hs), hscan]
  simp only [Option.elim_some, finishPkg, hm, if_true, espOtaAudioWrite_eq hsel]
  by_cases hf : flash s.writes.length = true
  · simp only [hf, if_true]
  · rw [Bool.not_eq_true] at hf
    simp only [hf, Bool.false_eq_true, if_false]

variable (beyond ending) in
/-- The header phase changes nothing but the log of refused writes. -/
theorem recvLoop_headerPhase (hsel : selectedHandle outHandle inOtaSelect = some h) {k k' : ℕ}
    {pre : List Packet} (hpre : HeaderPhase flash k pre k') (ps : List Packet) :
    ∀ s : OtaState, s.writes.length = k →
      ∃ bad : List OtaWrite, (∀ w ∈ bad, w.ok = false) ∧ k + bad.length = k' ∧
        recvLoop flash beyond outHandle inOtaSelect ending (pre ++ ps) false s
          = recvLoop flash beyond outHandle inOtaSelect ending ps false
              { s with writes := s.writes ++ bad } := by
  induction hpre with
  | nil k =>
    intro s _
    exact ⟨[], by simp, by simp, by rw [List.append_nil, List.nil_append]⟩
  | skip hp hs _ ih =>
    intro s hk
    obtain ⟨bad, hbad, hlen, hrun⟩ := ih s hk
    exact ⟨bad, hbad, hlen, by rw [List.cons_append, recvLoop_skip hp hs, hrun]⟩
  | refused hs hf _ ih =>
    intro s hk
    obtain ⟨b, hscan, hm⟩ := startsImage_iff.mp hs
    obtain ⟨bad, hbad, hlen, hrun⟩ := ih { s with writes := s.writes ++ [⟨h, b, false⟩] }
      (by simp [hk])
    refine ⟨⟨h, b, false⟩ :: bad, by simpa using hbad, by simp; omega, ?_⟩
    rw [List.cons_append, recvLoop_start hsel hscan hm, hk, hf, if_neg Bool.false_ne_true, hrun,
      List.append_assoc, List.singleton_append]

/-- The state once a first write of the body has been accepted, after some refused ones. -/
def imageBegun (h : ℕ) (bad : List OtaWrite) (b : List UInt8) (s : OtaState) : OtaState :=
  { s with
    binaryFileLength := s.binaryFileLength + b.length
    writes := s.writes ++ bad ++ [⟨h, b, true⟩] }

@[simp] theorem length_imageBegun_writes (h : ℕ) (bad : List OtaWrite) (b : List UInt8)
    (s : OtaState) :
    (imageBegun h bad b s).writes.length = s.writes.length + bad.length + 1 := by
  simp [imageBegun, Nat.add_assoc]

variable (beyond ending) in
/-- The packet that ends the header phase in order. -/
theorem recvLoop_begin (hsel : selectedHandle outHandle inOtaSelect = some h) {k' : ℕ}
    {pre : List Packet} (post : List Packet) {p : Packet} {s : OtaState}
    (hpre : HeaderPhase flash s.writes.length pre k') (hs : startsImage p.bytes = true)
    (hf : flash k' = true) :
    ∃ (bad : List OtaWrite) (b : List UInt8), (∀ w ∈ bad, w.ok = false) ∧
      s.writes.length + bad.length = k' ∧ scanLines true p.bytes = some b ∧
      imageMagic b = true ∧
      recvLoop flash beyond outHandle inOtaSelect ending (pre ++ p :: post) false s
        = recvLoop flash beyond outHandle inOtaSelect ending post true (imageBegun h bad b s) := by
  obtain ⟨bad, hbad, hlen, hrun⟩ := recvLoop_headerPhase beyond ending
    hsel hpre (p :: post) s rfl
  obtain ⟨b, hscan, hm⟩ := startsImage_iff.mp hs
  refine ⟨bad, b, hbad, hlen, hscan, hm, ?_⟩
  rw [hrun, recvLoop_start hsel hscan hm, List.length_append, hlen, hf, if_pos rfl, imageBegun]

/-- The state after the packets of a body have all been written. -/
def bodyWritten (h : ℕ) (ps : List Packet) (s : OtaState) : OtaState :=
  { s with
    binaryFileLength := s.binaryFileLength + (received ps).length
    writes := s.writes ++ ps.map fun p ↦ ⟨h, p.bytes, true⟩ }

theorem recvLoop_body (hsel : selectedHandle outHandle inOtaSelect = some h) (ps : List Packet) :
    ∀ s : OtaState, (∀ j < ps.length, flash (s.writes.length + j) = true) →
      recvLoop flash beyond outHandle inOtaSelect ending ps true s
        = some (decide (ending = .closed), bodyWritten h ps s) := by
  induction ps with
  | nil => intro s _; simp [recvLoop, bodyWritten]
  | cons p ps ih =>
    intro s hok
    have h0 : flash s.writes.length = true := hok 0 (by simp)
    rw [recvLoop, espOtaAudioWrite_eq hsel, h0]
    simp only
    rw [ih]
    · simp [bodyWritten, Nat.add_assoc]
    · intro j hj
      have := hok (j + 1) (by simpa using hj)
      simpa [Nat.add_assoc, Nat.add_comm 1] using this

variable (beyond ending) in
theorem recvLoop_body_fail (hsel : selectedHandle outHandle inOtaSelect = some h)
    (ps : List Packet) : ∀ s : OtaState, (∃ j < ps.length, flash (s.writes.length + j) = false) →
      ∃ s', recvLoop flash beyond outHandle inOtaSelect ending ps true s = some (false, s') := by
  induction ps with
  | nil => rintro s ⟨j, hj, -⟩; exact absurd hj (by simp)
  | cons p ps ih =>
    rintro s ⟨j, hj, hf⟩
    rw [recvLoop, espOtaAudioWrite_eq hsel]
    rcases h0 : flash s.writes.length with _ | _
    · exact ⟨_, rfl⟩
    · rcases j with _ | j
      · rw [Nat.add_zero, h0] at hf
        exact absurd hf (by simp)
      · refine ih _ ⟨j, by simpa using hj, ?_⟩
        simpa [Nat.add_assoc, Nat.add_comm 1] using hf

/-- **Inversion of a download that reports success.** The stream ended in order, and either no
packet ever ended the header phase, or one did by an accepted write and every later packet was
written as it came. -/
theorem recvLoop_cases (hsel : selectedHandle outHandle inOtaSelect = some h) {ps : List Packet}
    {s s' : OtaState}
    (hrun : recvLoop flash beyond outHandle inOtaSelect ending ps false s = some (true, s')) :
    ending = .closed ∧
      ((∃ bad : List OtaWrite, (∀ w ∈ bad, w.ok = false) ∧
          HeaderPhase flash s.writes.length ps (s.writes.length + bad.length) ∧
          s' = { s with writes := s.writes ++ bad }) ∨
        ∃ (pre : List Packet) (p : Packet) (post : List Packet) (b : List UInt8)
          (bad : List OtaWrite), ps = pre ++ p :: post ∧
          HeaderPhase flash s.writes.length pre (s.writes.length + bad.length) ∧
          scanLines true p.bytes = some b ∧ imageMagic b = true ∧ (∀ w ∈ bad, w.ok = false) ∧
          (∀ j ≤ post.length, flash (s.writes.length + bad.length + j) = true) ∧
          s' = bodyWritten h post (imageBegun h bad b s)) := by
  rcases HeaderPhase.exists_end flash ps s.writes.length with
    ⟨k', hph⟩ | ⟨pre, p, post, k', rfl, hph, hc | ⟨hs, hf⟩⟩
  · obtain ⟨bad, hbad, rfl, hgo⟩ := recvLoop_headerPhase beyond ending
      hsel hph [] s rfl
    rw [List.append_nil, recvLoop] at hgo
    rw [hgo, Option.some_inj, Prod.mk.injEq, decide_eq_true_eq] at hrun
    exact ⟨hrun.1, Or.inl ⟨bad, hbad, hph, hrun.2.symm⟩⟩
  · obtain ⟨bad, -, -, hgo⟩ := recvLoop_headerPhase beyond ending
      hsel hph (p :: post) s rfl
    rw [hgo, recvLoop_crash hc] at hrun
    exact absurd hrun (by simp)
  · obtain ⟨bad, b, hbad, rfl, hscan, hm, hgo⟩ := recvLoop_begin beyond ending
      hsel post hph hs hf
    rw [hgo] at hrun
    by_cases hall : ∀ j < post.length, flash ((imageBegun h bad b s).writes.length + j) = true
    · rw [recvLoop_body hsel post _ hall, Option.some_inj, Prod.mk.injEq,
        decide_eq_true_eq] at hrun
      refine ⟨hrun.1, Or.inr ⟨pre, p, post, b, bad, rfl, hph, hscan, hm, hbad, ?_,
        hrun.2.symm⟩⟩
      intro j hj
      rcases j with _ | j
      · exact hf
      · have := hall j hj
        rwa [length_imageBegun_writes, Nat.add_assoc _ 1, Nat.add_comm 1] at this
    · push Not at hall
      simp only [Bool.not_eq_true] at hall
      obtain ⟨s'', hs''⟩ := recvLoop_body_fail beyond ending hsel post _
        hall
      rw [hs'', Option.some_inj, Prod.mk.injEq] at hrun
      exact absurd hrun.1 Bool.false_ne_true

end Loop

end Ddmz.Ota
