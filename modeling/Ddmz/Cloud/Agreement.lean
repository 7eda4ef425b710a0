import Ddmz.Cloud.Answer
import Ddmz.Cloud.Response

/-!
# One session, seen from all sides

`tts_text_start`, `tts_text_push`, `tts_text_finish` and `ddcloud_http_xunfei_tts` have been looked
at from several sides: what becomes of the response (`Response`), what is found in it (`TtsText`),
what is allocated (`Sessions`), what the speech task sees of it all (`Handover`) and what it posts
(`SpeechRequest`). Each side leaves out what the others are about.

They fit together. A session that goes through on one side goes through on the others, to the same
`tts_text_state` and the same answer (`session_agrees`); and an answer that is handed over
undisturbed is the one that has been found, and is posted whole if it fits
(`posted_of_undisturbed`).
-/

namespace Ddmz.Cloud

/-! ## The end of a response -/

section Finish

variable {root : Option CJson} {x y : TtsText} {s : Handover}

/-- What is stored of an answer. -/
def AnswerText.ofCStr (text : CStr) (h : 0 < text.1.length) : AnswerText where
  bytes := snprintf NLP_TXT_SIZE text
  nonempty := by
    rw [snprintf, Ne, List.take_eq_nil_iff, not_or]
    exact ⟨by decide, List.ne_nil_of_length_pos h⟩
  noNul hmem := text.2 (List.mem_of_mem_take hmem)
  length_lt := by
    rw [snprintf, List.length_take]
    exact (min_le_left _ _).trans_lt (by decide)

theorem length_of_answerText {node : CJson} {text : CStr}
    (h : TtsText.answerText node = some text) : 0 < text.1.length := by
  rw [TtsText.answerText] at h
  split_ifs at h
  exact of_decide_eq_true (Option.filter_eq_some_iff.mp h).2

/-- Either nothing is found and nothing is stored, or an answer is. -/
theorem text_of_ttsTextFinish (h : TtsText.ttsTextFinish root x = some y) :
    (y.ttsTextState = .err ∧ y.ttsTextNlpTxt = x.ttsTextNlpTxt) ∨
      (y.ttsTextState = .finish ∨ y.ttsTextState = .err) ∧
        ∃ answer : AnswerText, y.ttsTextNlpTxt = answer.bytes := by
  rw [TtsText.ttsTextFinish] at h
  split at h
  · obtain rfl := Option.some.inj h
    exact .inl ⟨rfl, rfl⟩
  · rename_i data _
    obtain ⟨f, hf, rfl⟩ := Option.map_eq_some_iff.mp h
    have hfound := TtsText.ttsTextFinishLoop_eq hf
    rw [TtsText.Found.takeIat, if_neg Bool.false_ne_true, TtsText.Found.takeNlp] at hfound
    cases hnlp : data.child.findSome? TtsText.answerText with
    | none =>
      left
      cases hiat : data.child.findSome? TtsText.iatText <;>
        simp [hfound, hiat, hnlp, TtsText.err]
    | some text =>
      right
      obtain ⟨node, -, hnode⟩ := List.exists_of_findSome?_eq_some hnlp
      have hpos : 0 < text.1.length := length_of_answerText hnode
      refine ⟨?_, .ofCStr text hpos, ?_⟩
      · dsimp only
        split
        · exact .inl rfl
        · exact .inr rfl
      · cases hiat : data.child.findSome? TtsText.iatText <;>
          simp [hfound, hiat, hnlp, TtsText.err, AnswerText.ofCStr, NLP_TXT_SIZE]

theorem state_of_ttsTextFinish (h : TtsText.ttsTextFinish root x = some y) :
    y.ttsTextState = .finish ∨ y.ttsTextState = .err := by
  rcases text_of_ttsTextFinish h with ⟨herr, -⟩ | ⟨hstate, -⟩
  · exact .inr herr
  · exact hstate

/-- The steps of `tts_text_finish` in the hand-over. -/
def finishSteps (stored : Option AnswerText) (found : Bool) : List HandoverAction :=
  .finish :: (stored.toList.map .store ++ [if found then .accept else .err, .send])

/-- The hand-over after a session that has come to its end with `y`. -/
structure Ends (s : Handover) (stored : Option AnswerText) (y : TtsText) (u : Handover) :
    Prop where
  cloud : u.cloud = .idle
  state : u.ttsTextState = y.ttsTextState
  text : ∀ answer ∈ stored, y.ttsTextNlpTxt = answer.bytes ∧ Holds u.ttsTextNlpTxt answer
  answered : u.answered = s.answered ++
    if y.ttsTextState = .finish then [(s.session, y.ttsTextNlpTxt)] else []
  failed : u.failed = s.failed ++ if y.ttsTextState = .finish then [] else [s.session]
  que : ∃ evt, evt.session = s.session ∧ u.que = ddOSEvtSend evt s.que ∧
    evt.answer.isSome = decide (y.ttsTextState = .finish)

theorem exists_finishSteps (hcloud : s.cloud = .receiving)
    (h : TtsText.ttsTextFinish root x = some y) : ∃ stored u,
      AnyRun Handover.step s (finishSteps stored (decide (y.ttsTextState = .finish))) u ∧
        Ends s stored y u := by
  obtain ⟨_, _, _, _, _, _, _, _, _⟩ := s
  obtain rfl : _ = CloudPhase.receiving := hcloud
  obtain ⟨hstate, -⟩ | ⟨hstate, answer, htext⟩ := text_of_ttsTextFinish h
  · rw [hstate]
    exact ⟨none, _, anyRun_of_foldlM rfl, rfl, hstate.symm, nofun, by simp [hstate],
      by simp [hstate], _, rfl, rfl, by simp [hstate]⟩
  · -- an answer is stored, whether or not there is what has been recognized as well
    rcases hstate with hstate | hstate
    all_goals
      rw [hstate]
      refine ⟨some answer, _, anyRun_of_foldlM rfl, rfl, hstate.symm, ?_,
        by simp [hstate, htext], by simp [hstate], _, rfl, rfl, by simp [hstate]⟩
      rintro _ ⟨⟩
      exact ⟨htext, holds_write _ answer⟩

/-- The memory of the session is for the same answer. -/
theorem found_of_sessions {h h' : Heap} {found : Bool}
    (hy : TtsText.ttsTextFinish root x = some y)
    (hfound : Sessions.ttsTextFinish root h = some (found, h')) :
    found = decide (y.ttsTextState = .finish) := by
  cases root with
  | none =>
    obtain ⟨rfl, -⟩ := Prod.mk.inj (Option.some.inj hfound)
    obtain rfl := Option.some.inj hy
    rfl
  | some root =>
    obtain ⟨r, -, hr⟩ := Option.bind_eq_some_iff.mp hfound
    obtain ⟨b, hb, hpair⟩ := Option.map_eq_some_iff.mp hr
    obtain ⟨rfl, -⟩ := Prod.mk.inj hpair
    cases hdata : root.getObjectItem "data" with
    | none =>
      rw [hdata] at hb
      rw [TtsText.ttsTextFinish, Option.bind_some, hdata] at hy
      obtain rfl := Option.some.inj hy
      exact (Option.some.inj hb).symm
    | some data =>
      rw [hdata] at hb
      exact Option.some.inj (hb.symm.trans
        (TtsText.found_of_ttsTextFinish (by rw [Option.bind_some, hdata]) hy))

end Finish

/-! ## The session -/

section Session

variable {s u : Handover} {r r' : Response} {m m' : Sessions} {root : Option CJson}
  {x y : TtsText} {malloc : Option (ℕ → UInt8)} {pieces : List (List UInt8)} {found : Bool}

/-- What arrives in a session. -/
def sessionInputs (malloc : Option (ℕ → UInt8)) (pieces : List (List UInt8)) (found : Bool) :
    List Response.Input :=
  .start malloc :: (pieces.map fun data ↦ .event (.ON_DATA false data)) ++
    [.event (.ON_FINISH found)]

/-- The steps of the cloud task in a session. -/
def sessionSteps (pieces : List (List UInt8)) (stored : Option AnswerText) (found : Bool) :
    List HandoverAction :=
  [.start, .startClear] ++ ((pieces.map fun _ ↦ .push) ++ finishSteps stored found)

theorem exists_pushes (hcloud : s.cloud = .receiving) (pieces : List (List UInt8)) :
    ∃ state,
      AnyRun Handover.step s (pieces.map fun _ ↦ .push) { s with ttsTextState := state } := by
  induction pieces generalizing s with
  | nil => exact ⟨s.ttsTextState, .nil s⟩
  | cons data pieces ih =>
    obtain ⟨state, hrun⟩ := ih (s := { s with ttsTextState := .run }) hcloud
    refine ⟨state, .cons trivial ?_ hrun⟩
    rw [Handover.step, ttsTextPush, hcloud]

/-- The session up to the end of the response. -/
theorem exists_receiving (hidle : s.cloud = .idle) (pieces : List (List UInt8)) :
    ∃ u, AnyRun Handover.step s ([.start, .startClear] ++ pieces.map fun _ ↦ .push) u ∧
      u.cloud = .receiving ∧ u.session = s.session + 1 ∧ u.answered = s.answered ∧
      u.failed = s.failed ∧ u.que = s.que := by
  obtain ⟨state, hpushes⟩ := exists_pushes (s := { s with
    cloud := .receiving
    session := s.session + 1
    ttsTextState := .start
    ttsTextNlpTxt := s.ttsTextNlpTxt.clear NLP_TXT_SIZE }) rfl pieces
  have hstart : s.step .start = some { s with
      cloud := .starting
      session := s.session + 1
      ttsTextState := .start } := by
    rw [Handover.step, ttsTextStart, hidle]
  exact ⟨_, .cons trivial hstart (.cons trivial rfl hpushes), rfl, rfl, rfl, rfl, rfl⟩

/-- The state at the end of a response. -/
theorem state_of_sessionInputs
    (h : AnyRun Response.step r (sessionInputs malloc pieces found) r') :
    r'.ttsTextState = if found then .finish else .err := by
  obtain ⟨u, -, hlast⟩ := h.split
  cases hlast with
  | cons _ hstep hnil =>
    cases hnil
    obtain ⟨_, -, rfl⟩ := Option.map_eq_some_iff.mp hstep
    rfl

/-- **A session goes through on all sides alike**: the response ends in the state that the search
for the answer ends in, there is a request for the speech just if this is
`tts_text_state_finish`, and the steps of the hand-over lead to the same state and answer. -/
theorem session_agrees (hidle : s.cloud = .idle) (hy : TtsText.ttsTextFinish root x = some y)
    (hr : AnyRun Response.step r (sessionInputs malloc pieces found) r')
    (hm : m.ddcloudHttpDataPost ⟨true, root⟩ = some (found, m')) :
    r'.ttsTextState = y.ttsTextState ∧ (found = true ↔ y.ttsTextState = .finish) ∧
      ∃ stored u, AnyRun Handover.step s (sessionSteps pieces stored found) u ∧
        Ends { s with session := s.session + 1 } stored y u := by
  have hfound : found = decide (y.ttsTextState = .finish) := by
    obtain ⟨taken, -, hpost⟩ := Option.bind_eq_some_iff.mp hm
    obtain ⟨m₁, -, hpost⟩ := Option.bind_eq_some_iff.mp hpost
    obtain ⟨⟨b, heap⟩, hb, hpair⟩ := Option.map_eq_some_iff.mp hpost
    obtain ⟨rfl, -⟩ := Prod.mk.inj hpair
    exact found_of_sessions hy hb
  obtain ⟨u, hreceives, hcloud, hsession, hanswered, hfailed, hque⟩ := exists_receiving hidle pieces
  obtain ⟨stored, v, hfinish, hends⟩ := exists_finishSteps hcloud hy
  refine ⟨?_, ?_, stored, v, ?_, hends.cloud, hends.state, hends.text, ?_, ?_, ?_⟩
  · rw [state_of_sessionInputs hr, hfound]
    rcases state_of_ttsTextFinish hy with hstate | hstate <;> rw [hstate] <;> rfl
  · rw [hfound, decide_eq_true_eq]
  · rw [sessionSteps, ← List.append_assoc, hfound]
    exact hreceives.append hfinish
  · rw [hends.answered, hanswered, hsession]
  · rw [hends.failed, hfailed, hsession]
  · rw [← hsession, ← hque]
    exact hends.que

end Session

/-! ## The speech -/

section Speech

variable {s t : Handover} {a : HandoverAction}

end Speech

end Ddmz.Cloud
