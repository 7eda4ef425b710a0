import Ddmz.Foundation.Heap
import Ddmz.Foundation.Json
import Ddmz.Foundation.Runs

/-!
# The memory of voice sessions

A voice session posts what has been recorded, reads the answer from the response, and asks for it
to be spoken. `tts_text_start` allocates three buffers in the first session and keeps them; all else
that `dd_http.c` allocates is for one session.

But the tree that `cJSON_Parse` returns is given to `cJSON_free`, which frees the block of its root
only, and of the five blocks of `ddcloud_http_xunfei_tts` one is freed. So no memory is lost exactly
as long as no response is a tree of more than one node, and then nothing is ever spoken:
`clean_iff`.
-/

namespace Ddmz.Cloud

/-! ## The answer -/

/-- `strcmp` of the `sub` of a node, which must not be a null pointer. -/
def isSub (node : CJson) (name : String) : Option Bool :=
  match node.getObjectItem "sub" with
  | none => some false
  | some sub => sub.valuestring.map fun s ↦ decide (s.1 = ascii name)

/-- The node has the text of what has been said. -/
def hasIat (node : CJson) : Option Bool :=
  (isSub node "iat").map fun iat ↦ iat && (node.getObjectItem "text").isSome

/-- The node has an answer that is not empty; `strlen` must not get a null pointer. -/
def hasAnswer (node : CJson) : Option Bool :=
  (isSub node "nlp").bind fun nlp ↦
    match nlp, node.getObjectItem "intent" with
    | true, some intent =>
      match (intent.getObjectItem "answer").bind (·.getObjectItem "text") with
      | none => some false
      | some text => text.valuestring.map fun s ↦ decide (0 < s.1.length)
    | _, _ => some false

/-- The loop of `tts_text_finish`: whether both texts are found. -/
def ttsTextFinishLoop : List CJson → Bool → Bool → Option Bool
  | [], _, _ => some false
  | node :: nodes, iatflag, nlpflag =>
    (if iatflag then some true else hasIat node).bind fun iatflag ↦
      (if nlpflag then some true else hasAnswer node).bind fun nlpflag ↦
        if iatflag && nlpflag then some true else ttsTextFinishLoop nodes iatflag nlpflag

/-- `tts_text_finish`, with what `cJSON_Parse` returns. The first block is that of the root. -/
def Sessions.ttsTextFinish (root : Option CJson) (h : Heap) : Option (Bool × Heap) :=
  match root with
  | none => some (false, h)
  | some root =>
    (h.obtainAll root.nodes).bind fun r ↦
      let found := match root.getObjectItem "data" with
        | none => some false
        | some data => ttsTextFinishLoop data.child false false
      found.map fun found ↦ (found, r.2.freeAll (r.1.take 1))

/-! ## Sessions -/

/-- How a session goes. -/
structure VoiceSession where
  /-- The response comes to its end. -/
  finished : Bool
  /-- What `cJSON_Parse` makes of it. -/
  root : Option CJson

structure Sessions where
  heap : Heap
  /-- `tts_text_json`, `tts_text_iat_txt` and `tts_text_nlp_txt`. -/
  buffers : List ℕ
  /-- How many sessions there have been. -/
  sessions : ℕ

namespace Sessions

def init (grants : ℕ → Bool) : Sessions := ⟨⟨0, 0, grants⟩, [], 0⟩

variable (s : Sessions)

/-- `tts_text_start`. -/
def ttsTextStart : Option Sessions :=
  match s.buffers with
  | [] => (s.heap.obtainAll 3).map fun r ↦ { s with heap := r.2, buffers := r.1 }
  | _ => some s

/-- `ddcloud_http_data_post`: whether there is an answer. The blocks are `headbase64Str`,
`md5checkstr`, `timestr` and `md5charStr`. -/
def ddcloudHttpDataPost (x : VoiceSession) : Option (Bool × Sessions) :=
  (s.heap.obtainAll 4).bind fun r ↦
    (ttsTextStart { s with heap := r.2 }).bind fun s ↦
      (if x.finished then ttsTextFinish x.root s.heap else some (false, s.heap)).map fun f ↦
        (f.1, { s with heap := f.2.freeAll r.1 })

/-- `ddcloud_http_xunfei_tts`, whether or not the request succeeds: the same four blocks, of which
the first is freed, and `urlbuff`. -/
def ddcloudHttpXunfeiTts : Option Sessions :=
  (s.heap.obtainAll 4).bind fun r ↦
    r.2.obtain.map fun q ↦ { s with heap := q.2.freeAll (r.1.take 1) }

/-- A session, with the request for what has been found. -/
def step (s : Sessions) (x : VoiceSession) : Option Sessions :=
  (s.ddcloudHttpDataPost x).bind fun r ↦
    (if r.1 then r.2.ddcloudHttpXunfeiTts else some r.2).map fun t ↦
      { t with sessions := t.sessions + 1 }

/-- After every session there are the three buffers, and nothing else. -/
structure Clean : Prop where
  live : s.heap.live = ↑s.buffers
  buffers : s.sessions ≠ 0 → s.buffers.length = 3

/-- The response does not come to its end, is no JSON, or is a value of a single node. -/
def Fits (_ : Sessions) (x : VoiceSession) : Prop :=
  x.finished = true → ∀ root, x.root = some root → root.nodes = 1

/-! ## One session -/

/-- What is always so; the blocks `lost` belong to nobody. -/
structure Keeps (lost : List ℕ) : Prop where
  live : Heap.Took ⟨0, 0, fun _ ↦ true⟩ s.heap (lost ++ s.buffers)
  buffers : s.buffers = [] ∧ s.sessions = 0 ∨ s.buffers.length = 3

variable {s} {t : Sessions} {x : VoiceSession} {lost ps : List ℕ} {h₀ h : Heap}

theorem took_ttsTextFinish {root : Option CJson} {r : Bool × Heap} (ht : Heap.Took h₀ h ps)
    (hr : ttsTextFinish root h = some r) : ∃ leak, Heap.Took h₀ r.2 (leak ++ ps) ∧
      (leak = [] ↔ ∀ v, root = some v → v.nodes = 1) ∧ (leak = [] → r.1 = false) := by
  cases root with
  | none =>
    obtain rfl := Option.some.inj hr
    exact ⟨[], ht, iff_of_true rfl fun v hv ↦ absurd hv.symm (Option.some_ne_none v), fun _ ↦ rfl⟩
  | some root =>
    obtain ⟨q, hq, hr⟩ := Option.bind_eq_some_iff.mp hr
    obtain ⟨found, hfound, rfl⟩ := Option.map_eq_some_iff.mp hr
    obtain ⟨htook, hlength⟩ := ht.obtainAll hq
    rw [← List.take_append_drop 1 q.1, List.append_assoc] at htook
    have hnodes : q.1.drop 1 = [] ↔ root.nodes = 1 := by
      rw [← List.length_eq_zero_iff, List.length_drop, hlength, CJson.nodes_eq]
      omega
    refine ⟨q.1.drop 1, htook.freeAll_append, ?_, ?_⟩
    · rw [hnodes]
      exact ⟨fun h v hv ↦ Option.some.inj hv ▸ h, fun h ↦ h root rfl⟩
    · intro hleak
      rw [CJson.getObjectItem_of_nodes (hnodes.mp hleak)] at hfound
      exact (Option.some.inj hfound).symm

theorem took_ttsTextStart (ht : Heap.Took h₀ s.heap (s.buffers ++ ps))
    (hbuffers : s.buffers = [] ∨ s.buffers.length = 3) (hstart : s.ttsTextStart = some t) :
    Heap.Took h₀ t.heap (t.buffers ++ ps) ∧ t.buffers.length = 3 := by
  rw [ttsTextStart] at hstart
  split at hstart
  · case _ hnil =>
    obtain ⟨r, hr, rfl⟩ := Option.map_eq_some_iff.mp hstart
    rw [hnil] at ht
    exact ht.obtainAll hr
  · case _ hne =>
    obtain rfl := Option.some.inj hstart
    exact ⟨ht, hbuffers.resolve_left hne⟩

/-- The recording is posted. -/
theorem Keeps.dataPost {r : Bool × Sessions} (h : s.Keeps lost)
    (hr : s.ddcloudHttpDataPost x = some r) : ∃ leak, r.2.Keeps (leak ++ lost) ∧
      r.2.buffers.length = 3 ∧ (leak = [] ↔ s.Fits x) ∧ (leak = [] → r.1 = false) := by
  obtain ⟨q, hq, hr⟩ := Option.bind_eq_some_iff.mp hr
  obtain ⟨u, hu, hr⟩ := Option.bind_eq_some_iff.mp hr
  obtain ⟨f, hf, rfl⟩ := Option.map_eq_some_iff.mp hr
  have htook := (h.live.obtainAll hq).1
  have hbuffers : s.buffers = [] ∨ s.buffers.length = 3 := h.buffers.imp_left And.left
  have hperm : (q.1 ++ (lost ++ s.buffers)).Perm (s.buffers ++ (q.1 ++ lost)) := by
    rw [← List.append_assoc]
    exact List.perm_append_comm
  obtain ⟨hstart, hlength⟩ :=
    took_ttsTextStart (s := { s with heap := q.2 }) (htook.perm hperm) hbuffers hu
  have hleak : ∃ leak, Heap.Took ⟨0, 0, fun _ ↦ true⟩ f.2 (leak ++ (u.buffers ++ (q.1 ++ lost))) ∧
      (leak = [] ↔ s.Fits x) ∧ (leak = [] → f.1 = false) := by
    rw [Fits]
    cases hfinished : x.finished with
    | true =>
      rw [hfinished, if_pos rfl] at hf
      obtain ⟨leak, hlive, hiff, hfound⟩ := took_ttsTextFinish hstart hf
      exact ⟨leak, hlive, hiff.trans ⟨fun h _ ↦ h, fun h ↦ h rfl⟩, hfound⟩
    | false =>
      rw [hfinished, if_neg Bool.false_ne_true] at hf
      obtain rfl := Option.some.inj hf
      exact ⟨[], hstart, iff_of_true rfl fun hnot ↦ absurd hnot Bool.false_ne_true, fun _ ↦ rfl⟩
  obtain ⟨leak, hlive, hiff, hfound⟩ := hleak
  have hperm : (leak ++ (u.buffers ++ (q.1 ++ lost))).Perm
      (q.1 ++ (leak ++ lost ++ u.buffers)) := by
    rw [← Multiset.coe_eq_coe]
    simp only [← Multiset.coe_add]
    abel
  exact ⟨leak, ⟨(hlive.perm hperm).freeAll_append, .inr hlength⟩, hlength, hiff, hfound⟩

/-- The answer is spoken. -/
theorem Keeps.speech (h : s.Keeps lost) (ht : s.ddcloudHttpXunfeiTts = some t) :
    ∃ leak, leak ≠ [] ∧ t.Keeps (leak ++ lost) ∧ t.buffers = s.buffers := by
  obtain ⟨r, hr, ht⟩ := Option.bind_eq_some_iff.mp ht
  obtain ⟨q, hq, rfl⟩ := Option.map_eq_some_iff.mp ht
  have hlive := (h.live.obtainAll hr).1.obtain hq
  rw [← List.take_append_drop 1 r.1] at hlive
  have hperm : (q.1 :: (r.1.take 1 ++ r.1.drop 1 ++ (lost ++ s.buffers))).Perm
      (r.1.take 1 ++ (q.1 :: r.1.drop 1 ++ lost ++ s.buffers)) := by
    rw [← Multiset.coe_eq_coe]
    simp only [List.cons_append, ← Multiset.coe_add, ← Multiset.cons_coe,
      ← Multiset.singleton_add]
    abel
  exact ⟨q.1 :: r.1.drop 1, List.cons_ne_nil _ _,
    ⟨(hlive.perm hperm).freeAll_append, h.buffers⟩, rfl⟩

theorem Keeps.step (h : s.Keeps lost) (hstep : s.step x = some t) :
    ∃ leak, t.Keeps (leak ++ lost) ∧ (leak = [] ↔ s.Fits x) := by
  obtain ⟨r, hr, hstep⟩ := Option.bind_eq_some_iff.mp hstep
  obtain ⟨u, hu, rfl⟩ := Option.map_eq_some_iff.mp hstep
  obtain ⟨leak, hkeeps, hlength, hiff, hfound⟩ := h.dataPost hr
  cases hanswer : r.1 with
  | true =>
    rw [hanswer, if_pos rfl] at hu
    obtain ⟨leak', hleak', hu, hbuffers⟩ := hkeeps.speech hu
    refine ⟨leak' ++ leak, ?_, ?_⟩
    · rw [List.append_assoc]
      exact ⟨hu.live, .inr (hbuffers ▸ hlength)⟩
    · rw [← hiff, List.append_eq_nil_iff]
      exact iff_of_false (fun hnil ↦ hleak' hnil.1) fun hnil ↦
        Bool.false_ne_true ((hfound hnil).symm.trans hanswer)
  | false =>
    rw [hanswer, if_neg Bool.false_ne_true] at hu
    obtain rfl := Option.some.inj hu
    exact ⟨leak, ⟨hkeeps.live, .inr hlength⟩, hiff⟩

theorem keeps_init (grants : ℕ → Bool) : (init grants).Keeps [] := ⟨rfl, .inl ⟨rfl, rfl⟩⟩

theorem Keeps.clean_iff_not_lost (h : s.Keeps lost) : s.Clean ↔ lost = [] := by
  have hlive : s.heap.live = ↑(lost ++ s.buffers) := h.live.trans (add_zero _)
  constructor
  · intro hclean
    have heq : (↑(lost ++ s.buffers) : Multiset ℕ) = ↑s.buffers := hlive.symm.trans hclean.live
    have hcard := congrArg Multiset.card heq
    rw [Multiset.coe_card, Multiset.coe_card, List.length_append] at hcard
    exact List.length_eq_zero_iff.mp (by omega)
  · rintro rfl
    exact ⟨hlive, fun hne ↦ h.buffers.resolve_left fun hnil ↦ hne hnil.2⟩

/-- **No memory is lost over any number of sessions** exactly as long as no response of theirs is
JSON of more than one node. -/
theorem clean_iff {grants : ℕ → Bool} {xs : List VoiceSession}
    (hrun : AnyRun Sessions.step (init grants) xs t) :
    Always Sessions.step Clean (init grants) xs ↔
      Run Sessions.step Fits (init grants) xs t := by
  have hpres : ∀ s x t, (∃ lost, s.Keeps lost) → Sessions.step s x = some t →
      ∃ lost, t.Keeps lost := by
    rintro s x t ⟨lost, h⟩ hstep
    obtain ⟨leak, hkeeps, -⟩ := h.step hstep
    exact ⟨_, hkeeps⟩
  refine hrun.always_iff hpres ?_ ⟨_, keeps_init grants⟩
    ((keeps_init grants).clean_iff_not_lost.mpr rfl)
  rintro s x t ⟨lost, h⟩ hclean hstep
  obtain rfl := h.clean_iff_not_lost.mp hclean
  obtain ⟨leak, hkeeps, hiff⟩ := h.step hstep
  rw [hkeeps.clean_iff_not_lost, List.append_nil]
  exact hiff

/-- Three sessions: the response breaks off, is no JSON, and is a number. -/
theorem clean_brokenOff : Always Sessions.step Clean (init fun _ ↦ true)
    [⟨false, none⟩, ⟨true, none⟩, ⟨true, some ⟨.Number, none, 1, none, []⟩⟩] := by
  refine (clean_iff (anyRun_of_foldlM rfl)).mpr
    (.cons nofun rfl (.cons (fun _ _ h ↦ nomatch h) rfl (.cons ?_ rfl (.nil _))))
  rintro - _ ⟨⟩
  rfl

/-- `{"desc":"invalid"}`. -/
def refusal : CJson :=
  ⟨.Object, none, 0, none, [⟨.String, some (cstr "invalid"), 0, some (cstr "desc"), []⟩]⟩

/-- The service refuses the request. -/
theorem not_clean_refused : ¬∀ grants xs t, AnyRun Sessions.step (init grants) xs t →
    Always Sessions.step Clean (init grants) xs := by
  intro h
  have hrun : AnyRun Sessions.step (init fun _ ↦ true) [⟨true, some refusal⟩] _ :=
    anyRun_of_foldlM rfl
  have hclean := h _ _ _ hrun _ [] _ (List.append_nil _).symm hrun
  exact absurd (congrArg Multiset.card hclean.live) (by decide)

end Sessions

end Ddmz.Cloud
