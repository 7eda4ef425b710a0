import Ddmz.Ota.Download

/-!
# When an OTA image arrives intact

The two contracts of `ota_data_from_server`. A well-formed response should be written byte for
byte however TCP cuts it into packets, and success should be reported for a complete transfer
only. The code keeps neither promise in general: `resolve_pkg` has no memory between packets, and
its Boolean result hides a refused write and a failed magic check from the loop.

The results below say exactly when each promise is kept. The first blank line, whole, and two
bytes of the image must stand in one packet; the scan of that packet must reach them, which it
does not when the packet begins in the last two bytes of a header line; and no earlier packet may
crash the scan or be mistaken for the start of the image.
-/

namespace Ddmz.Ota

/-! ## Responses that carry an image -/

/-- An HTTP response carrying an image: a status line and header lines, an empty line, a body. -/
structure ImageResponse where
  /-- The contents of the status line and of the header lines. -/
  lines : List (List UInt8)
  body : List UInt8
  line_ne_nil : ∀ l ∈ lines, l ≠ []
  notMem_line : ∀ l ∈ lines, LF ∉ l
  magic : imageMagic body = true

namespace ImageResponse

/-- The lines, each ended by CRLF. -/
def header (r : ImageResponse) : List UInt8 := r.lines.flatMap fun l ↦ l ++ [CR, LF]

def bytes (r : ImageResponse) : List UInt8 := r.header ++ CR :: LF :: r.body

theorem body_ne_nil (r : ImageResponse) : r.body ≠ [] := by
  intro h
  have hm := r.magic
  rw [h] at hm
  exact absurd hm (by decide)

end ImageResponse

/-- The shortest response there is: a one-letter status line and a two-byte image. -/
def shortResponse : ImageResponse where
  lines := [[72]]
  body := [0xE9, 8]
  line_ne_nil := by decide
  notMem_line := by decide
  magic := by decide

/-- The response in one packet. -/
def wholePacket : Packet where
  bytes := [72, CR, LF, CR, LF, 0xE9, 8]
  nonempty := by decide
  length_le := by decide

/-- Its header and blank line, as a server sends them that flushes before the body. -/
def headerPacket : Packet where
  bytes := [72, CR, LF, CR, LF]
  nonempty := by decide
  length_le := by decide

/-- Its body. -/
def bodyPacket : Packet where
  bytes := [0xE9, 8]
  nonempty := by decide
  length_le := by decide

/-- A connection that works and delivers the given packets. -/
def deliver (ps : List Packet) : Network := ⟨true, true, true, ps, .closed⟩

/-- A download reports success, has written exactly `body`, and has counted it. -/
def ReceivedIntact (run : Option (Bool × OtaState)) (s : OtaState) (body : List UInt8) : Prop :=
  ∃ s' new, run = some (true, s') ∧ s'.writes = s.writes ++ new ∧
    new.flatMap OtaWrite.data = body ∧
    s'.binaryFileLength = s.binaryFileLength + body.length

/-- How a response with the given header has to be cut: some packet holds the blank line and two
bytes of the body, every line that stands before them in it is walked past by the scan, and no
earlier packet crashes the scan or looks like the start of an image. -/
def Segmented (header : List UInt8) (ps : List Packet) : Prop :=
  ∃ pre p post h b, ps = pre ++ p :: post ∧ p.bytes = h ++ CR :: LF :: b ∧
    received pre ++ h = header ∧ 2 ≤ b.length ∧ Lines LF Passed h ∧
    ∀ q ∈ pre, ¬Crashes q.bytes ∧ startsImage q.bytes = false

/-! ## Success means a complete transfer -/

/-- What a reported success should mean: the stream has a first blank line, the image behind it
passes the magic check, and the calls of `esp_ota_write` all succeeded and wrote that image. -/
def GoodTransfer (stream : List UInt8) (s s' : OtaState) : Prop :=
  ∃ header body new, stream = header ++ CR :: LF :: body ∧ Lines LF (· ≠ [CR]) header ∧
    imageMagic body = true ∧ s'.writes = s.writes ++ new ∧ (∀ w ∈ new, w.ok = true) ∧
    new.flatMap OtaWrite.data = body

/-- A transfer that cannot end in a reported success: the stream ends in an error, a packet of the
header phase crashes the scan, or a write fails once the body has begun. -/
def CutShort (flash : Flash) (k : ℕ) (net : Network) : Prop :=
  net.ending = .error ∨
    ∃ pre p post k', net.packets = pre ++ p :: post ∧ HeaderPhase flash k pre k' ∧
      (Crashes p.bytes ∨
        startsImage p.bytes = true ∧ flash k' = true ∧
          ∃ j < post.length, flash (k' + 1 + j) = false)

/-- A transfer in which the first blank line of the whole stream and the beginning of the image
stand in one packet that the scan reads correctly, and every write succeeds. -/
def Delivered (flash : Flash) (k : ℕ) (net : Network) : Prop :=
  ∃ pre p post h b, net.packets = pre ++ p :: post ∧ p.bytes = h ++ CR :: LF :: b ∧
    Lines LF (· ≠ [CR]) (received pre ++ h) ∧ Lines LF Passed h ∧ imageMagic b = true ∧
    (∀ q ∈ pre, ¬Crashes q.bytes ∧ startsImage q.bytes = false) ∧
    ∀ j ≤ post.length, flash (k + j) = true

section Contracts

variable {flash : Flash} {beyond : ℕ → ℕ → UInt8} {outHandle : AudioHandle} {inOtaSelect : ℤ}

variable (outHandle) in
theorem exists_selectedHandle (hsel : inOtaSelect = 0 ∨ inOtaSelect = 1) :
    ∃ h, selectedHandle outHandle inOtaSelect = some h := by
  rcases hsel with rfl | rfl
  · exact ⟨_, rfl⟩
  · exact ⟨_, rfl⟩

theorem exists_httpRequest (hsel : inOtaSelect = 0 ∨ inOtaSelect = 1) :
    ∃ r, httpRequest inOtaSelect = some r := by
  rcases hsel with rfl | rfl
  · exact ⟨_, rfl⟩
  · exact ⟨_, rfl⟩

/-- A download that gets as far as receiving. -/
theorem otaDataFromServer_eq {net : Network} {request : String}
    (hconn : connectToHttpServer net = true) (hreq : httpRequest inOtaSelect = some request)
    (hsend : net.send = true) (s : OtaState) :
    otaDataFromServer flash beyond outHandle inOtaSelect net s
      = recvLoop flash beyond outHandle inOtaSelect net.ending net.packets false
          { s with requests := s.requests ++ [request] } := by
  rw [otaDataFromServer, if_pos hconn, hreq]
  simp only [hsend, if_true]

variable (flash beyond outHandle) in
/-- A download that does not get so far reports failure. -/
theorem otaDataFromServer_refused {net : Network}
    (h : ¬(connectToHttpServer net = true ∧ (inOtaSelect = 0 ∨ inOtaSelect = 1) ∧
      net.send = true)) (s : OtaState) :
    ∃ s', otaDataFromServer flash beyond outHandle inOtaSelect net s = some (false, s') := by
  rw [otaDataFromServer]
  by_cases hconn : connectToHttpServer net = true
  · rw [if_pos hconn]
    by_cases hsel : inOtaSelect = 0 ∨ inOtaSelect = 1
    · obtain ⟨request, hreq⟩ := exists_httpRequest hsel
      have hsend : ¬net.send = true := fun hs ↦ h ⟨hconn, hsel, hs⟩
      rw [hreq]
      exact ⟨_, if_neg hsend⟩
    · rw [not_or] at hsel
      rw [httpRequest, if_neg hsel.1, if_neg hsel.2]
      exact ⟨s, rfl⟩
  · exact ⟨s, if_neg hconn⟩

theorem bodyWritten_writes (h : ℕ) (ps : List Packet) (s : OtaState) :
    (bodyWritten h ps s).writes = s.writes ++ ps.map fun p ↦ ⟨h, p.bytes, true⟩ := rfl

theorem flatMap_data_map (h : ℕ) (ps : List Packet) :
    (ps.map fun p ↦ (⟨h, p.bytes, true⟩ : OtaWrite)).flatMap OtaWrite.data = received ps := by
  rw [List.flatMap_map, received]

theorem imageBegun_nil_writes (h : ℕ) (b : List UInt8) (s : OtaState) :
    (imageBegun h [] b s).writes = s.writes ++ [⟨h, b, true⟩] := by
  rw [imageBegun, List.append_nil]

/-- A packet that ends the header phase in order, and the rest of the stream behind it. -/
theorem recvLoop_delivered {h : ℕ} (hsel : selectedHandle outHandle inOtaSelect = some h)
    {pre post : List Packet} {p : Packet} {g b : List UInt8} {s : OtaState}
    (hp : p.bytes = g ++ CR :: LF :: b) (hg : Lines LF Passed g) (hm : imageMagic b = true)
    (hpre : ∀ q ∈ pre, ¬Crashes q.bytes ∧ startsImage q.bytes = false)
    (hok : ∀ j ≤ post.length, flash (s.writes.length + j) = true) :
    recvLoop flash beyond outHandle inOtaSelect .closed (pre ++ p :: post) false s
      = some (true, bodyWritten h post (imageBegun h [] b s)) := by
  have hscan : scanLines true p.bytes = some b :=
    scanLines_eq_some_iff.mpr ⟨g, CR, hp, hg, CR_ne_zero, CR_ne_LF⟩
  obtain ⟨bad, b', -, hlen, hscan', -, hrun⟩ := recvLoop_begin beyond .closed
    hsel post (HeaderPhase.of_quiet hpre : HeaderPhase flash _ pre _)
    (startsImage_iff.mpr ⟨b, hscan, hm⟩) (by simpa using hok 0 (Nat.zero_le _))
  obtain rfl : bad = [] := List.length_eq_zero_iff.mp (by omega)
  obtain rfl : b' = b := Option.some_inj.mp (hscan'.symm.trans hscan)
  rw [hrun, recvLoop_body hsel]
  · rfl
  · intro j hj
    have := hok (j + 1) hj
    rwa [length_imageBegun_writes, List.length_nil, Nat.add_zero, Nat.add_assoc, Nat.add_comm 1]

/-- Two readings of one stream that agree on the image agree on the blank line before it. -/
theorem header_eq_of_stream {pre post : List Packet} {g b header : List UInt8} {x : UInt8}
    (h : received pre ++ (g ++ x :: LF :: b) ++ received post
      = header ++ CR :: LF :: (b ++ received post)) : received pre ++ g = header ∧ x = CR := by
  have hcut : (received pre ++ g ++ [x] ++ [LF]) ++ (b ++ received post)
      = (header ++ [CR] ++ [LF]) ++ (b ++ received post) := by simpa using h
  have hlines := List.append_cancel_right (List.append_cancel_right hcut)
  obtain ⟨hheader, hx⟩ := List.append_inj' hlines rfl
  exact ⟨hheader, by simpa using hx⟩

theorem imageMagic_of_append {b c : List UInt8} (h : imageMagic (b ++ c) = true)
    (hb : 2 ≤ b.length) : imageMagic b = true := by
  rw [imageMagic, decide_eq_true_eq, List.getD_append _ _ _ _ (by omega)] at h
  rw [imageMagic, decide_eq_true_eq]
  exact ⟨h.1, hb⟩

theorem two_le_length_of_imageMagic {b : List UInt8} (h : imageMagic b = true) :
    2 ≤ b.length := by
  rw [imageMagic, decide_eq_true_eq] at h
  exact h.2

theorem imageMagic_append {b : List UInt8} (h : imageMagic b = true) (c : List UInt8) :
    imageMagic (b ++ c) = true := by
  rw [imageMagic, decide_eq_true_eq] at h ⊢
  rw [List.getD_append _ _ _ _ (by omega)]
  exact ⟨h.1, by rw [List.length_append]; omega⟩

/-- **A response is received intact exactly when it is cut well.** With the connection made, the
request sent, the stream ended in order and every flash write succeeding. -/
theorem receivedIntact_iff_segmented (r : ImageResponse) (net : Network) (s : OtaState)
    (hsel : inOtaSelect = 0 ∨ inOtaSelect = 1) (hconn : connectToHttpServer net = true)
    (hsend : net.send = true) (hstream : received net.packets = r.bytes)
    (hend : net.ending = .closed) (hflash : ∀ n, flash n = true) :
    ReceivedIntact (otaDataFromServer flash beyond outHandle inOtaSelect net s) s r.body
      ↔ Segmented r.header net.packets := by
  obtain ⟨h, hh⟩ := exists_selectedHandle outHandle hsel
  obtain ⟨request, hreq⟩ := exists_httpRequest hsel
  rw [ReceivedIntact, otaDataFromServer_eq hconn hreq hsend]
  constructor
  · rintro ⟨s', new, hrun, hnew, hbody, -⟩
    obtain ⟨-, ⟨bad, -, hph, rfl⟩ | ⟨pre, p, post, b, bad, hps, hph, hscan, hm, -, -, rfl⟩⟩ :=
      recvLoop_cases hh hrun
    · -- no packet started the image, so nothing has been written
      obtain rfl : bad = new := List.append_cancel_left hnew
      obtain rfl : bad = [] := List.length_eq_zero_iff.mp (by have := hph.eq_of_flash hflash; omega)
      exact absurd hbody.symm r.body_ne_nil
    · obtain rfl : bad = [] := List.length_eq_zero_iff.mp (by have := hph.eq_of_flash hflash; omega)
      have hdata : b ++ received post = r.body := by
        rw [bodyWritten_writes, imageBegun_nil_writes, List.append_assoc] at hnew
        rw [← hbody, ← List.append_cancel_left hnew, List.flatMap_append, flatMap_data_map]
        simp
      obtain ⟨g, x, hp, hg, -, -⟩ := scanLines_eq_some_iff.mp hscan
      rw [hps, ImageResponse.bytes, ← hdata, received_append, received_cons, hp,
        ← List.append_assoc] at hstream
      obtain ⟨hheader, rfl⟩ := header_eq_of_stream hstream
      exact ⟨pre, p, post, g, b, hps, hp, hheader, two_le_length_of_imageMagic hm, hg,
        fun q hq ↦ ⟨hph.not_crashes q hq, hph.quiet.2 rfl q hq⟩⟩
  · rintro ⟨pre, p, post, g, b, hps, hp, hheader, hlen, hg, hpre⟩
    have hdata : b ++ received post = r.body := by
      rw [hps, ImageResponse.bytes, ← hheader, received_append, received_cons, hp] at hstream
      simpa using hstream
    have hm : imageMagic b = true := imageMagic_of_append (hdata ▸ r.magic) hlen
    rw [hps, hend, recvLoop_delivered hh hp hg hm hpre fun _ _ ↦ hflash _]
    refine ⟨_, ⟨h, b, true⟩ :: post.map fun p ↦ ⟨h, p.bytes, true⟩, rfl, ?_, ?_, ?_⟩
    · rw [bodyWritten_writes, imageBegun_nil_writes, List.append_assoc, List.singleton_append]
    · rw [List.flatMap_cons, flatMap_data_map, hdata]
    · rw [bodyWritten, imageBegun, ← hdata, List.length_append]
      simp only [Nat.add_assoc]

/-- In one packet the short response arrives. -/
theorem receivedIntact_wholePacket :
    ReceivedIntact (otaDataFromServer (fun _ ↦ true) (fun _ _ ↦ 0) ⟨0, 1⟩ 0 (deliver [wholePacket])
      ⟨0, [], []⟩) ⟨0, [], []⟩ shortResponse.body := by
  have hcut : Segmented shortResponse.header [wholePacket] :=
    ⟨[], wholePacket, [], [72, CR, LF], [0xE9, 8], rfl, rfl, rfl, by decide,
      .cons (l := [72, CR]) (by decide) ⟨by decide, by decide⟩ .nil, by simp⟩
  exact (receivedIntact_iff_segmented shortResponse (deliver [wholePacket]) ⟨0, [], []⟩
    (Or.inl rfl) rfl rfl rfl rfl fun _ ↦ rfl).mpr hcut

/-- Cut between the blank line and the body it does not, although nothing failed. -/
theorem not_receivedIntact_cut_behind_blank_line :
    received [headerPacket, bodyPacket] = shortResponse.bytes ∧
      ¬ReceivedIntact (otaDataFromServer (fun _ ↦ true) (fun _ _ ↦ 0) ⟨0, 1⟩ 0
        (deliver [headerPacket, bodyPacket]) ⟨0, [], []⟩) ⟨0, [], []⟩ shortResponse.body := by
  have hrun : otaDataFromServer (fun _ ↦ true) (fun _ _ ↦ 0) ⟨0, 1⟩ 0
      (deliver [headerPacket, bodyPacket]) ⟨0, [], []⟩
      = some (true, ⟨0, ["GET /ota_audio_wifi.bin HTTP/1.1\r\nHost: 192.168.0.200:8080\r\n\r\n"],
          []⟩) := by decide
  refine ⟨rfl, ?_⟩
  rintro ⟨s', new, hs', -, -, hcount⟩
  rw [hrun, Option.some_inj, Prod.mk.injEq] at hs'
  rw [← hs'.2] at hcount
  exact absurd hcount (by decide)

variable (flash beyond) in
/-- The transfers that end in a reported success are those that are not cut short. -/
theorem recvLoop_eq_true_iff {h : ℕ} (hsel : selectedHandle outHandle inOtaSelect = some h)
    (net : Network) (s : OtaState) :
    (∃ s', recvLoop flash beyond outHandle inOtaSelect net.ending net.packets false s
        = some (true, s')) ↔ ¬CutShort flash s.writes.length net := by
  constructor
  · rintro ⟨s', hrun⟩ (herr | ⟨pre, p, post, k', hps, hph, hc | ⟨hs, hf, j, hj, hfail⟩⟩)
    · have hclosed := (recvLoop_cases hsel hrun).1
      rw [herr] at hclosed
      exact absurd hclosed (by decide)
    · obtain ⟨bad, -, -, hgo⟩ := recvLoop_headerPhase beyond net.ending
        hsel hph (p :: post) s rfl
      rw [hps, hgo, recvLoop_crash hc] at hrun
      exact absurd hrun (by simp)
    · obtain ⟨bad, b, -, rfl, -, -, hgo⟩ := recvLoop_begin beyond net.ending
        hsel post hph hs hf
      obtain ⟨s'', hs''⟩ := recvLoop_body_fail beyond net.ending hsel
        post (imageBegun h bad b s) ⟨j, hj, by rwa [length_imageBegun_writes]⟩
      rw [hps, hgo, hs'', Option.some_inj, Prod.mk.injEq] at hrun
      exact absurd hrun.1 Bool.false_ne_true
  · intro hcut
    rw [CutShort, not_or] at hcut
    have hclosed : net.ending = .closed := by
      cases hend : net.ending with
      | closed => rfl
      | error => exact absurd hend hcut.1
    rcases HeaderPhase.exists_end flash net.packets s.writes.length with
      ⟨k', hph⟩ | ⟨pre, p, post, k', hps, hph, hc | ⟨hs, hf⟩⟩
    · obtain ⟨bad, -, -, hgo⟩ := recvLoop_headerPhase beyond net.ending
        hsel hph [] s rfl
      rw [List.append_nil, recvLoop, hclosed] at hgo
      exact ⟨_, by rw [hclosed]; exact hgo⟩
    · exact absurd ⟨pre, p, post, k', hps, hph, Or.inl hc⟩ hcut.2
    · obtain ⟨bad, b, -, rfl, -, -, hgo⟩ := recvLoop_begin beyond net.ending
        hsel post hph hs hf
      have hall : ∀ j < post.length, flash ((imageBegun h bad b s).writes.length + j) = true := by
        intro j hj
        by_contra hfail
        rw [Bool.not_eq_true, length_imageBegun_writes] at hfail
        exact hcut.2 ⟨pre, p, post, _, hps, hph, Or.inr ⟨hs, hf, j, hj, hfail⟩⟩
      refine ⟨bodyWritten h post (imageBegun h bad b s), ?_⟩
      rw [hps, hgo, recvLoop_body hsel post _ hall, hclosed]
      rfl

/-- **Success is reported truthfully exactly when the transfer is refused, cut short or
delivered.** For every answer of the network and of the flash. -/
theorem goodTransfer_iff (net : Network) (s : OtaState) :
    (∀ s', otaDataFromServer flash beyond outHandle inOtaSelect net s = some (true, s') →
        GoodTransfer (received net.packets) s s')
      ↔ (¬(connectToHttpServer net = true ∧ (inOtaSelect = 0 ∨ inOtaSelect = 1) ∧
            net.send = true) ∨
          CutShort flash s.writes.length net ∨ Delivered flash s.writes.length net) := by
  by_cases hgo : connectToHttpServer net = true ∧ (inOtaSelect = 0 ∨ inOtaSelect = 1) ∧
      net.send = true
  swap
  · obtain ⟨s'', hs''⟩ := otaDataFromServer_refused flash beyond outHandle hgo s
    refine iff_of_true (fun s' hrun ↦ ?_) (Or.inl hgo)
    rw [hs'', Option.some_inj, Prod.mk.injEq] at hrun
    exact absurd hrun.1 Bool.false_ne_true
  obtain ⟨hconn, hsel, hsend⟩ := hgo
  obtain ⟨h, hh⟩ := exists_selectedHandle outHandle hsel
  obtain ⟨request, hreq⟩ := exists_httpRequest hsel
  rw [otaDataFromServer_eq hconn hreq hsend]
  set s₀ : OtaState := { s with requests := s.requests ++ [request] } with hs₀
  have htrue := recvLoop_eq_true_iff flash beyond hh net s₀
  constructor
  · intro hall
    by_cases hcut : CutShort flash s.writes.length net
    · exact Or.inr (Or.inl hcut)
    obtain ⟨s', hrun⟩ := htrue.mpr hcut
    obtain ⟨header, body, new, hstream, hheader, hmagic, hnew, hok, hdata⟩ := hall s' hrun
    obtain ⟨-, ⟨bad, hbad, -, rfl⟩ | ⟨pre, p, post, b, bad, hps, hph, hscan, hm, hbad, hflash,
      rfl⟩⟩ := recvLoop_cases hh hrun
    · -- success without a body: the writes made, all of them refused, cannot be the image
      obtain rfl : bad = new := List.append_cancel_left hnew
      obtain rfl : bad = [] := List.eq_nil_iff_forall_not_mem.mpr fun w hw ↦
        Bool.false_ne_true ((hbad w hw).symm.trans (hok w hw))
      rw [← hdata] at hmagic
      exact absurd hmagic (by decide)
    · rw [bodyWritten_writes, imageBegun, List.append_assoc, List.append_assoc] at hnew
      obtain rfl := List.append_cancel_left hnew
      obtain rfl : bad = [] := List.eq_nil_iff_forall_not_mem.mpr fun w hw ↦
        Bool.false_ne_true ((hbad w hw).symm.trans (hok w (List.mem_append_left _ hw)))
      have hbody : b ++ received post = body := by
        rw [← hdata, List.nil_append, List.flatMap_append, flatMap_data_map]
        simp
      obtain ⟨g, x, hp, hg, -, -⟩ := scanLines_eq_some_iff.mp hscan
      rw [hps, ← hbody, received_append, received_cons, hp, ← List.append_assoc] at hstream
      obtain ⟨rfl, rfl⟩ := header_eq_of_stream hstream
      exact Or.inr (Or.inr ⟨pre, p, post, g, b, hps, hp, hheader, hg, hm,
        fun q hq ↦ ⟨hph.not_crashes q hq, hph.quiet.2 rfl q hq⟩, hflash⟩)
  · rintro (hno | hcut | ⟨pre, p, post, g, b, hps, hp, hheader, hg, hm, hpre, hok⟩) s' hrun
    · exact absurd ⟨hconn, hsel, hsend⟩ hno
    · exact absurd hcut (htrue.mp ⟨s', hrun⟩)
    · have hclosed := (recvLoop_cases hh hrun).1
      rw [hps, hclosed, recvLoop_delivered (s := s₀) hh hp hg hm hpre hok, Option.some_inj,
        Prod.mk.injEq] at hrun
      rw [← hrun.2]
      refine ⟨received pre ++ g, b ++ received post,
        ⟨h, b, true⟩ :: post.map fun p ↦ ⟨h, p.bytes, true⟩, ?_, hheader, imageMagic_append hm _,
        ?_, ?_, ?_⟩
      · rw [hps, received_append, received_cons, hp]
        simp
      · rw [bodyWritten_writes, imageBegun_nil_writes, List.append_assoc, List.singleton_append]
      · rintro w (_ | ⟨_, hw⟩)
        · rfl
        · obtain ⟨p, -, rfl⟩ := List.mem_map.mp hw
          rfl
      · rw [List.flatMap_cons, flatMap_data_map]

/-- A connection closed without a byte is reported as a success. -/
theorem empty_reply_not_goodTransfer :
    ∃ s', otaDataFromServer (fun _ ↦ true) (fun _ _ ↦ 0) ⟨0, 1⟩ 0 (deliver []) ⟨0, [], []⟩
        = some (true, s') ∧ ¬GoodTransfer (received []) ⟨0, [], []⟩ s' := by
  refine ⟨_, rfl, ?_⟩
  rintro ⟨header, body, new, hstream, -⟩
  exact absurd hstream.symm (by simp)

end Contracts

end Ddmz.Ota
