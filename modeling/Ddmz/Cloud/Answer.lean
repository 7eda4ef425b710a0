import Ddmz.Cloud.Handover
import Ddmz.Cloud.Sessions

/-!
# The answer in a response

`tts_text_finish` of `dd_http.c`: one pass over the `data` of the document, in which it looks for
what has been recognized (`iat`) and for what is to be said (`nlp`), each where it comes first, and
stops when it has both.

`cJSON` has a null pointer for the string of every item that is not one. The pass checks that an
item is there and never of what type it is, and `strcmp`, `strlen` and `snprintf` do not take a null
pointer; `none` stands for that. Only the elements that are looked at matter, and of these only the
fields: `Reads` says which have to be strings.

Otherwise the order of the elements is of no consequence (`ttsTextFinishLoop_eq`): the two searches
do not see each other, and stopping early only leaves out elements that change nothing.
-/

namespace Ddmz.Cloud

/-- The texts of a session, and how many `DD_CMD_TTS_EVT` have been sent. -/
structure TtsText where
  ttsTextState : TtsTextState
  /-- The string in `tts_text_iat_txt`. -/
  ttsTextIatTxt : List UInt8
  /-- The string in `tts_text_nlp_txt`. -/
  ttsTextNlpTxt : List UInt8
  sent : ℕ

/-- `snprintf(buffer, size, "%s", s)`: the string that is then in the buffer. -/
def snprintf (size : ℕ) (s : CStr) : List UInt8 := s.1.take (size - 1)

namespace TtsText

/-- The two flags of the loop, with the texts. -/
structure Found where
  iatflag : Bool
  nlpflag : Bool
  iatTxt : List UInt8
  nlpTxt : List UInt8

/-- The first condition of the loop body, with what it guards. -/
def checkIat (node : CJson) (f : Found) : Option Found :=
  if f.iatflag then some f
  else (isSub node "iat").bind fun iat ↦
    match iat, node.getObjectItem "text" with
    | true, some text =>
      text.valuestring.map fun s ↦ { f with iatflag := true, iatTxt := snprintf 256 s }
    | _, _ => some f

/-- The second. -/
def checkNlp (node : CJson) (f : Found) : Option Found :=
  if f.nlpflag then some f
  else (isSub node "nlp").bind fun nlp ↦
    match nlp, node.getObjectItem "intent" with
    | true, some intent =>
      match (intent.getObjectItem "answer").bind (·.getObjectItem "text") with
      | none => some f
      | some text => text.valuestring.map fun s ↦
        if 0 < s.1.length then { f with nlpflag := true, nlpTxt := snprintf (2 * 1024) s } else f
    | _, _ => some f

def ttsTextFinishLoop : List CJson → Found → Option Found
  | [], f => some f
  | node :: nodes, f =>
    (checkIat node f).bind fun f ↦ (checkNlp node f).bind fun f ↦
      if f.iatflag && f.nlpflag then some f else ttsTextFinishLoop nodes f

/-- What follows the label `err`. -/
def err (s : TtsText) : TtsText := { s with ttsTextState := .err, sent := s.sent + 1 }

/-- `tts_text_finish`, with what `cJSON_Parse` returns. -/
def ttsTextFinish (root : Option CJson) (s : TtsText) : Option TtsText :=
  match root.bind (·.getObjectItem "data") with
  | none => some (err { s with ttsTextState := .finish })
  | some nodeData =>
    (ttsTextFinishLoop nodeData.child ⟨false, false, s.ttsTextIatTxt, s.ttsTextNlpTxt⟩).map
      fun f ↦
        let t : TtsText := ⟨.finish, f.iatTxt, f.nlpTxt, s.sent⟩
        if f.iatflag && f.nlpflag then { t with sent := t.sent + 1 } else err t

/-! ## What there is to find -/

/-- What an element says has been recognized. -/
def iatText (node : CJson) : Option CStr :=
  if isSub node "iat" = some true then (node.getObjectItem "text").bind (·.valuestring) else none

/-- `intent.answer.text`. -/
def answerItem (node : CJson) : Option CJson :=
  (node.getObjectItem "intent").bind fun intent ↦
    (intent.getObjectItem "answer").bind (·.getObjectItem "text")

/-- The answer that an element has, if it is not empty. -/
def answerText (node : CJson) : Option CStr :=
  if isSub node "nlp" = some true then
    ((answerItem node).bind (·.valuestring)).filter fun s ↦ 0 < s.1.length
  else none

/-- If the item is there it is a string. -/
def StringIfAny (item : Option CJson) : Prop := ∀ v ∈ item, v.valuestring.isSome

instance (item : Option CJson) : Decidable (StringIfAny item) :=
  inferInstanceAs (Decidable (∀ v ∈ item, v.valuestring.isSome))

/-- The items of an element that are looked at are strings, given what has been found. -/
structure NodeReads (iat nlp : Bool) (node : CJson) : Prop where
  sub : StringIfAny (node.getObjectItem "sub")
  text : iat = false → isSub node "iat" = some true → StringIfAny (node.getObjectItem "text")
  answer : nlp = false → isSub node "nlp" = some true → StringIfAny (answerItem node)

/-- Every element that is looked at can be read. It is looked at unless a text of each kind stands
before it; `iat` and `nlp` are what has been found before the first. -/
def Reads (iat nlp : Bool) (nodes : List CJson) : Prop :=
  ∀ pre node post, nodes = pre ++ node :: post →
    ((iat || (pre.findSome? iatText).isSome) && (nlp || (pre.findSome? answerText).isSome))
        = false →
      NodeReads (iat || (pre.findSome? iatText).isSome) (nlp || (pre.findSome? answerText).isSome)
        node

section Loop

variable {node : CJson} {nodes : List CJson} {f g : Found} {iat nlp : Bool}

theorem isSub_isSome_iff (name : String) :
    (isSub node name).isSome ↔ StringIfAny (node.getObjectItem "sub") := by
  rw [isSub, StringIfAny]
  cases node.getObjectItem "sub" with
  | none => simp
  | some v => simp

theorem reads_of_found (nodes : List CJson) : Reads true true nodes := by
  intro pre node post _ h
  exact absurd h (by simp)

theorem reads_cons : Reads iat nlp (node :: nodes) ↔
    ((iat && nlp) = false → NodeReads iat nlp node) ∧
      Reads (iat || (iatText node).isSome) (nlp || (answerText node).isSome) nodes := by
  have hfind : ∀ {β : Type} (g : CJson → Option β) (b : Bool) (pre : List CJson),
      (b || ((node :: pre).findSome? g).isSome)
        = (b || (g node).isSome || (pre.findSome? g).isSome) := by
    intro β g b pre
    rw [List.findSome?_cons]
    cases g node <;> simp
  constructor
  · intro h
    refine ⟨fun hgo ↦ ?_, fun pre node' post heq hgo ↦ ?_⟩
    · simpa using h [] node nodes rfl (by simpa using hgo)
    · have := h (node :: pre) node' post (by rw [heq, List.cons_append])
      simp only [hfind] at this
      exact this hgo
  · rintro ⟨hnode, hnodes⟩ pre node' post heq hgo
    cases pre with
    | nil =>
      rw [List.nil_append, List.cons.injEq] at heq
      obtain ⟨rfl, rfl⟩ := heq
      simpa using hnode (by simpa using hgo)
    | cons _ pre =>
      rw [List.cons_append, List.cons.injEq] at heq
      obtain ⟨rfl, heq⟩ := heq
      simp only [hfind] at hgo ⊢
      exact hnodes pre node' post heq hgo

/-- Taking a recognized text, if none has been taken. -/
def Found.takeIat (f : Found) (text : Option CStr) : Found :=
  if f.iatflag then f
  else text.elim f fun s ↦ { f with iatflag := true, iatTxt := snprintf 256 s }

/-- And an answer. -/
def Found.takeNlp (f : Found) (text : Option CStr) : Found :=
  if f.nlpflag then f
  else text.elim f fun s ↦ { f with nlpflag := true, nlpTxt := snprintf (2 * 1024) s }

theorem Found.takeIat_takeIat (f : Found) (a b : Option CStr) :
    (f.takeIat a).takeIat b = f.takeIat (a.or b) := by
  cases hf : f.iatflag <;> cases a <;> simp [takeIat, hf]

theorem Found.takeNlp_takeNlp (f : Found) (a b : Option CStr) :
    (f.takeNlp a).takeNlp b = f.takeNlp (a.or b) := by
  cases hf : f.nlpflag <;> cases a <;> simp [takeNlp, hf]

/-- The two searches do not see each other. -/
theorem Found.takeNlp_takeIat (f : Found) (a b : Option CStr) :
    (f.takeNlp a).takeIat b = (f.takeIat b).takeNlp a := by
  cases hi : f.iatflag <;> cases hn : f.nlpflag <;> cases a <;> cases b <;>
    simp [takeIat, takeNlp, hi, hn]

theorem Found.takeIat_flags (f : Found) (text : Option CStr) :
    (f.takeIat text).iatflag = (f.iatflag || text.isSome) ∧
      (f.takeIat text).nlpflag = f.nlpflag := by
  cases hi : f.iatflag <;> cases text <;> simp [takeIat, hi]

theorem Found.takeNlp_flags (f : Found) (text : Option CStr) :
    (f.takeNlp text).nlpflag = (f.nlpflag || text.isSome) ∧
      (f.takeNlp text).iatflag = f.iatflag := by
  cases hn : f.nlpflag <;> cases text <;> simp [takeNlp, hn]

/-- The first check gets a null pointer from a `sub` or a `text` that is no string. -/
theorem checkIat_isSome_iff : (checkIat node f).isSome ↔ (f.iatflag = false →
    StringIfAny (node.getObjectItem "sub") ∧
      (isSub node "iat" = some true → StringIfAny (node.getObjectItem "text"))) := by
  rw [checkIat, ← isSub_isSome_iff "iat"]
  cases f.iatflag with
  | true => simp
  | false =>
    cases isSub node "iat" with
    | none => simp
    | some iat => cases iat <;> cases node.getObjectItem "text" <;> simp [StringIfAny]

theorem eq_of_checkIat (h : checkIat node f = some g) : g = f.takeIat (iatText node) := by
  rw [checkIat] at h
  rw [Found.takeIat, iatText]
  cases hflag : f.iatflag with
  | true => simpa [hflag] using h.symm
  | false =>
    rw [hflag, if_neg Bool.false_ne_true] at h
    obtain ⟨iat, hiat, h⟩ := Option.bind_eq_some_iff.mp h
    rw [hiat]
    cases iat with
    | false => simpa using h.symm
    | true =>
      cases htext : node.getObjectItem "text" with
      | none =>
        rw [htext] at h
        simpa using h.symm
      | some text =>
        rw [htext] at h
        obtain ⟨s, hs, rfl⟩ := Option.map_eq_some_iff.mp h
        simp [hs]

/-- The second from a `sub` or an answer that is no string. -/
theorem checkNlp_isSome_iff : (checkNlp node f).isSome ↔ (f.nlpflag = false →
    StringIfAny (node.getObjectItem "sub") ∧
      (isSub node "nlp" = some true → StringIfAny (answerItem node))) := by
  rw [checkNlp, ← isSub_isSome_iff "nlp", answerItem]
  cases f.nlpflag with
  | true => simp
  | false =>
    cases isSub node "nlp" with
    | none => simp
    | some nlp =>
      cases nlp with
      | false => simp
      | true =>
        cases node.getObjectItem "intent" with
        | none => simp [StringIfAny]
        | some intent =>
          cases hitem : (intent.getObjectItem "answer").bind (·.getObjectItem "text") with
          | none => simp [StringIfAny, hitem]
          | some text => simp [StringIfAny, hitem]

theorem eq_of_checkNlp (h : checkNlp node f = some g) : g = f.takeNlp (answerText node) := by
  rw [checkNlp] at h
  rw [Found.takeNlp, answerText]
  cases hflag : f.nlpflag with
  | true => simpa [hflag] using h.symm
  | false =>
    rw [hflag, if_neg Bool.false_ne_true] at h
    obtain ⟨nlp, hnlp, h⟩ := Option.bind_eq_some_iff.mp h
    rw [hnlp]
    cases nlp with
    | false => simpa using h.symm
    | true =>
      rw [answerItem]
      cases hintent : node.getObjectItem "intent" with
      | none =>
        rw [hintent] at h
        simpa using h.symm
      | some intent =>
        rw [hintent] at h
        simp only [Option.bind_some]
        cases hitem : (intent.getObjectItem "answer").bind (·.getObjectItem "text") with
        | none => simpa [hitem] using h.symm
        | some text =>
          simp only [hitem] at h
          obtain ⟨s, hs, rfl⟩ := Option.map_eq_some_iff.mp h
          by_cases hpos : 0 < s.1.length
          · simp [hs, hpos, Option.filter]
          · simp [hs, hpos, Option.filter]

/-- One element. -/
theorem nodeReads_iff (hgo : (f.iatflag && f.nlpflag) = false) :
    ((checkIat node f).bind (checkNlp node)).isSome ↔ NodeReads f.iatflag f.nlpflag node := by
  have hchecks : ((checkIat node f).bind (checkNlp node)).isSome ↔
      (checkIat node f).isSome ∧ (f.nlpflag = false →
        StringIfAny (node.getObjectItem "sub") ∧
          (isSub node "nlp" = some true → StringIfAny (answerItem node))) := by
    cases hiat : checkIat node f with
    | none => simp
    | some g =>
      have hg : g.nlpflag = f.nlpflag := by
        rw [eq_of_checkIat hiat]
        exact (f.takeIat_flags _).2
      rw [Option.bind_some, checkNlp_isSome_iff, hg]
      simp
  rw [hchecks, checkIat_isSome_iff]
  constructor
  · rintro ⟨hiat, hnlp⟩
    refine ⟨?_, fun hi ↦ (hiat hi).2, fun hn ↦ (hnlp hn).2⟩
    rcases Bool.and_eq_false_iff.mp hgo with hi | hn
    · exact (hiat hi).1
    · exact (hnlp hn).1
  · rintro ⟨hsub, htext, hanswer⟩
    exact ⟨fun hi ↦ ⟨hsub, htext hi⟩, fun hn ↦ ⟨hsub, hanswer hn⟩⟩

theorem eq_of_checks (h : (checkIat node f).bind (checkNlp node) = some g) :
    g = (f.takeIat (iatText node)).takeNlp (answerText node) := by
  obtain ⟨g', hiat, hnlp⟩ := Option.bind_eq_some_iff.mp h
  rw [eq_of_checkNlp hnlp, eq_of_checkIat hiat]

theorem ttsTextFinishLoop_cons : ttsTextFinishLoop (node :: nodes) f =
    ((checkIat node f).bind (checkNlp node)).bind fun f ↦
      if f.iatflag && f.nlpflag then some f else ttsTextFinishLoop nodes f := by
  rw [ttsTextFinishLoop, Option.bind_assoc]

/-- The flags after an element. -/
theorem flags_of_checks (h : (checkIat node f).bind (checkNlp node) = some g) :
    g.iatflag = (f.iatflag || (iatText node).isSome) ∧
      g.nlpflag = (f.nlpflag || (answerText node).isSome) := by
  rw [eq_of_checks h, (Found.takeNlp_flags _ _).1, (Found.takeNlp_flags _ _).2,
    (Found.takeIat_flags _ _).1, (Found.takeIat_flags _ _).2]
  exact ⟨rfl, rfl⟩

/-- **The pass gets through** if and only if every element it looks at can be read. -/
theorem ttsTextFinishLoop_isSome_iff (hgo : (f.iatflag && f.nlpflag) = false) :
    (ttsTextFinishLoop nodes f).isSome ↔ Reads f.iatflag f.nlpflag nodes := by
  induction nodes generalizing f with
  | nil => exact iff_of_true rfl fun pre node post heq ↦ absurd heq.symm (by simp)
  | cons node nodes ih =>
    rw [ttsTextFinishLoop_cons, reads_cons, ← nodeReads_iff hgo]
    cases hg : (checkIat node f).bind (checkNlp node) with
    | none => simp [hgo]
    | some g =>
      obtain ⟨hi, hn⟩ := flags_of_checks hg
      rw [← hi, ← hn, Option.bind_some]
      cases hboth : g.iatflag && g.nlpflag with
      | true =>
        rw [Bool.and_eq_true] at hboth
        rw [if_pos rfl, hboth.1, hboth.2]
        simp [reads_of_found]
      | false =>
        rw [if_neg Bool.false_ne_true, ih hboth]
        simp

/-- What a pass leaves that gets through: the first text of each kind. -/
theorem ttsTextFinishLoop_eq (h : ttsTextFinishLoop nodes f = some g) :
    g = (f.takeIat (nodes.findSome? iatText)).takeNlp (nodes.findSome? answerText) := by
  induction nodes generalizing f with
  | nil =>
    obtain rfl := Option.some.inj h
    cases hi : f.iatflag <;> cases hn : f.nlpflag <;> simp [Found.takeIat, Found.takeNlp, hi, hn]
  | cons node nodes ih =>
    rw [ttsTextFinishLoop_cons] at h
    obtain ⟨f', hf', h⟩ := Option.bind_eq_some_iff.mp h
    have hfind : ∀ g : CJson → Option CStr,
        (node :: nodes).findSome? g = (g node).or (nodes.findSome? g) := by
      intro g
      rw [List.findSome?_cons]
      cases g node <;> rfl
    have hall : (f.takeIat ((node :: nodes).findSome? iatText)).takeNlp
          ((node :: nodes).findSome? answerText)
        = (f'.takeIat (nodes.findSome? iatText)).takeNlp (nodes.findSome? answerText) := by
      rw [hfind, hfind, ← Found.takeIat_takeIat, ← Found.takeNlp_takeNlp, eq_of_checks hf',
        Found.takeNlp_takeIat]
    rw [hall]
    split at h
    · rename_i hboth
      obtain rfl := Option.some.inj h
      obtain ⟨hi, hn⟩ := Bool.and_eq_true_iff.mp hboth
      simp [Found.takeIat, Found.takeNlp, hi, hn]
    · exact ih h

theorem hasIat_of_checkIat (h : checkIat node f = some g) :
    (if f.iatflag then some true else hasIat node) = some g.iatflag := by
  rw [checkIat] at h
  cases hflag : f.iatflag with
  | true =>
    rw [hflag, if_pos rfl] at h
    rw [← Option.some.inj h, hflag, if_pos rfl]
  | false =>
    rw [hflag, if_neg Bool.false_ne_true] at h
    obtain ⟨iat, hiat, h⟩ := Option.bind_eq_some_iff.mp h
    rw [if_neg Bool.false_ne_true, hasIat, hiat]
    cases iat <;> cases htext : node.getObjectItem "text" <;> rw [htext] at h
    · simp [← Option.some.inj h, hflag]
    · simp [← Option.some.inj h, hflag]
    · simp [← Option.some.inj h, hflag]
    · obtain ⟨s, -, rfl⟩ := Option.map_eq_some_iff.mp h
      rfl

theorem hasAnswer_of_checkNlp (h : checkNlp node f = some g) :
    (if f.nlpflag then some true else hasAnswer node) = some g.nlpflag := by
  rw [checkNlp] at h
  cases hflag : f.nlpflag with
  | true =>
    rw [hflag, if_pos rfl] at h
    rw [← Option.some.inj h, hflag, if_pos rfl]
  | false =>
    rw [hflag, if_neg Bool.false_ne_true] at h
    obtain ⟨nlp, hnlp, h⟩ := Option.bind_eq_some_iff.mp h
    rw [if_neg Bool.false_ne_true, hasAnswer, hnlp]
    cases nlp <;> cases hintent : node.getObjectItem "intent" <;> rw [hintent] at h
    · simp [← Option.some.inj h, hflag]
    · simp [← Option.some.inj h, hflag]
    · simp [← Option.some.inj h, hflag]
    · rename_i intent
      cases hitem : (intent.getObjectItem "answer").bind (·.getObjectItem "text") with
      | none =>
        simp only [hitem] at h
        simp [hitem, ← Option.some.inj h, hflag]
      | some text =>
        simp only [hitem] at h
        obtain ⟨s, hs, rfl⟩ := Option.map_eq_some_iff.mp h
        by_cases hpos : 0 < s.1.length
        · simp [hitem, hs, hpos]
        · simp [hitem, hs, hpos, hflag]

/-- The flags are those of the loop that a session's memory is about. -/
theorem flags_ttsTextFinishLoop (hgo : (f.iatflag && f.nlpflag) = false)
    (h : ttsTextFinishLoop nodes f = some g) :
    Cloud.ttsTextFinishLoop nodes f.iatflag f.nlpflag = some (g.iatflag && g.nlpflag) := by
  induction nodes generalizing f with
  | nil =>
    obtain rfl := Option.some.inj h
    rw [hgo]
    rfl
  | cons node nodes ih =>
    obtain ⟨f', hiat, h⟩ := Option.bind_eq_some_iff.mp h
    obtain ⟨f'', hnlp, h⟩ := Option.bind_eq_some_iff.mp h
    have hi : f''.iatflag = f'.iatflag := by
      rw [eq_of_checkNlp hnlp]
      exact (Found.takeNlp_flags _ _).2
    have hn : f'.nlpflag = f.nlpflag := by
      rw [eq_of_checkIat hiat]
      exact (Found.takeIat_flags _ _).2
    rw [Cloud.ttsTextFinishLoop, hasIat_of_checkIat hiat, Option.bind_some, ← hn,
      hasAnswer_of_checkNlp hnlp, Option.bind_some, ← hi]
    split at h
    · rename_i hboth
      obtain rfl := Option.some.inj h
      rw [if_pos hboth, hboth]
    · rename_i hboth
      rw [if_neg hboth]
      exact ih (Bool.eq_false_iff.mpr hboth) h

end Loop

/-! ## The whole function -/

/-- What should become of a document with these elements: the first text of each kind is stored if
there are both, the state tells whether there are, and one event is sent. -/
structure Selects (nodes : List CJson) (s t : TtsText) : Prop where
  finish_iff : t.ttsTextState = .finish ↔
    (∃ node ∈ nodes, (iatText node).isSome) ∧ ∃ node ∈ nodes, (answerText node).isSome
  err : t.ttsTextState ≠ .finish → t.ttsTextState = .err
  texts : ∀ iat nlp, nodes.findSome? iatText = some iat → nodes.findSome? answerText = some nlp →
    t.ttsTextIatTxt = iat.1.take 255 ∧ t.ttsTextNlpTxt = nlp.1.take 2047
  sent : t.sent = s.sent + 1

/-- No answer up to the first that is not empty is of another type than a string. -/
def AnswersRead (nodes : List CJson) : Prop :=
  ∀ pre node post, nodes = pre ++ node :: post → pre.findSome? answerText = none →
    isSub node "nlp" = some true → StringIfAny (answerItem node)

section Finish

variable {root : Option CJson} {data : CJson} {s t : TtsText}

theorem ttsTextFinish_sent (h : ttsTextFinish root s = some t) : t.sent = s.sent + 1 := by
  rw [ttsTextFinish] at h
  split at h
  · obtain rfl := Option.some.inj h
    rfl
  · obtain ⟨f, -, rfl⟩ := Option.map_eq_some_iff.mp h
    dsimp only
    split <;> rfl

theorem ttsTextFinish_isSome_iff : (ttsTextFinish root s).isSome ↔
    ∀ data ∈ root.bind (·.getObjectItem "data"), Reads false false data.child := by
  rw [ttsTextFinish]
  cases root.bind (·.getObjectItem "data") with
  | none => simp
  | some data =>
    simp only [Option.isSome_map, Option.mem_def, Option.some.injEq, forall_eq']
    exact ttsTextFinishLoop_isSome_iff rfl

/-- The texts are found exactly in the sessions that go on to speak. -/
theorem found_of_ttsTextFinish (hdata : root.bind (·.getObjectItem "data") = some data)
    (h : ttsTextFinish root s = some t) :
    Cloud.ttsTextFinishLoop data.child false false = some (decide (t.ttsTextState = .finish)) := by
  rw [ttsTextFinish, hdata] at h
  obtain ⟨f, hf, rfl⟩ := Option.map_eq_some_iff.mp h
  rw [flags_ttsTextFinishLoop rfl hf]
  dsimp only
  cases hboth : f.iatflag && f.nlpflag <;> simp [err]

theorem ttsTextFinish_selects (hdata : root.bind (·.getObjectItem "data") = some data)
    (h : ttsTextFinish root s = some t) : Selects data.child s t := by
  have hsent := ttsTextFinish_sent h
  rw [ttsTextFinish, hdata] at h
  obtain ⟨f, hf, rfl⟩ := Option.map_eq_some_iff.mp h
  have hfound := ttsTextFinishLoop_eq hf
  have hiff : ∀ g : CJson → Option CStr,
      (∃ node ∈ data.child, (g node).isSome) ↔ (data.child.findSome? g).isSome := by
    intro g
    rw [List.findSome?_isSome_iff]
  rw [Found.takeIat, if_neg Bool.false_ne_true, Found.takeNlp] at hfound
  refine ⟨?_, ?_, ?_, hsent⟩
  · rw [hiff, hiff]
    cases hiat : data.child.findSome? iatText <;> cases hnlp : data.child.findSome? answerText <;>
      simp [hfound, hiat, hnlp, err]
  · dsimp only
    split
    · exact fun hne ↦ absurd rfl hne
    · exact fun _ ↦ rfl
  · intro iat nlp hiat hnlp
    simp [hfound, hiat, hnlp, snprintf]

end Finish

/-- **A reply is survived**, with its event sent, if and only if every element that is looked at can
be read. -/
theorem ttsTextFinish_survives_iff (root : Option CJson) (s : TtsText) :
    (∃ t, ttsTextFinish root s = some t ∧ t.sent = s.sent + 1) ↔
      ∀ data ∈ root.bind (·.getObjectItem "data"), Reads false false data.child := by
  rw [← ttsTextFinish_isSome_iff (s := s), Option.isSome_iff_exists]
  constructor
  · rintro ⟨t, ht, -⟩
    exact ⟨t, ht⟩
  · rintro ⟨t, ht⟩
    exact ⟨t, ht, ttsTextFinish_sent ht⟩

/-- The item `name` that is a string. -/
def stringItem (name text : String) : CJson :=
  ⟨.String, some (cstr text), 0, some (cstr name), []⟩

/-- The item `name` that is the number 1. -/
def numberItem (name : String) : CJson := ⟨.Number, none, 1, some (cstr name), []⟩

/-- The item `name` that is an object. -/
def objectItem (name : String) (child : List CJson) : CJson :=
  ⟨.Object, none, 0, some (cstr name), child⟩

/-- Objects with these items. -/
def objects (elements : List (List CJson)) : List CJson :=
  elements.map fun items ↦ ⟨.Object, none, 0, none, items⟩

/-- A document with an array `data` of these objects. -/
def document (elements : List (List CJson)) : CJson :=
  ⟨.Object, none, 0, none, [⟨.Array, none, 0, some (cstr "data"), objects elements⟩]⟩

/-- `{"data":[{"sub":1}]}`: `strcmp` gets a null pointer. -/
theorem not_survives : ¬∀ (root : Option CJson) (s : TtsText),
    ∃ t, ttsTextFinish root s = some t ∧ t.sent = s.sent + 1 := by
  intro h
  obtain ⟨t, ht, -⟩ := h (some (document [[numberItem "sub"]])) ⟨.run, [], [], 0⟩
  have hsome := congrArg Option.isSome ht
  rw [Option.isSome_some] at hsome
  exact absurd hsome (by decide)

/-- **The answer is selected**, in a document whose elements have strings for `sub` and `text`, if
and only if no answer that is looked at is of another type. -/
theorem ttsTextFinish_selects_iff (root data : CJson) (s : TtsText)
    (hdata : root.getObjectItem "data" = some data)
    (hsub : ∀ node ∈ data.child, StringIfAny (node.getObjectItem "sub"))
    (htext : ∀ node ∈ data.child, StringIfAny (node.getObjectItem "text")) :
    (∃ t, ttsTextFinish (some root) s = some t ∧ Selects data.child s t) ↔
      AnswersRead data.child := by
  have hreads : (ttsTextFinish (some root) s).isSome ↔ Reads false false data.child := by
    rw [ttsTextFinish_isSome_iff, Option.bind_some, hdata]
    simp
  constructor
  · rintro ⟨t, ht, -⟩ pre node post heq hpre
    have := hreads.mp (by rw [ht]; rfl) pre node post heq (by rw [hpre]; simp)
    exact this.answer (by rw [hpre]; rfl)
  · intro hanswers
    have hall : Reads false false data.child := by
      intro pre node post heq _
      have hmem : node ∈ data.child := by simp [heq]
      refine ⟨hsub node hmem, fun _ _ ↦ htext node hmem, fun hnlp ↦ ?_⟩
      exact hanswers pre node post heq (by simpa using hnlp)
    obtain ⟨t, ht⟩ := Option.isSome_iff_exists.mp (hreads.mpr hall)
    exact ⟨t, ht, ttsTextFinish_selects (by rw [Option.bind_some, hdata]) ht⟩

/-- An answer in front of what has been recognized, and another element in front of both. -/
def answered : List (List CJson) :=
  [[stringItem "sub" "tpp"],
    [stringItem "sub" "nlp", objectItem "intent" [objectItem "answer" [stringItem "text" "b"]]],
    [stringItem "sub" "iat", stringItem "text" "a"]]

theorem ttsTextFinish_selects_answered :
    ∃ t, ttsTextFinish (some (document answered)) ⟨.run, [], [], 0⟩ = some t ∧
      Selects (objects answered) ⟨.run, [], [], 0⟩ t := by
  refine (ttsTextFinish_selects_iff (document answered)
    ⟨.Array, none, 0, some (cstr "data"), objects answered⟩ ⟨.run, [], [], 0⟩ rfl (by decide)
    (by decide)).mpr fun pre node post heq _ _ ↦ ?_
  have hall : ∀ node ∈ objects answered, StringIfAny (answerItem node) := by decide
  have hmem : node ∈ pre ++ node :: post := List.mem_append_right _ List.mem_cons_self
  rw [← heq] at hmem
  exact hall node hmem

/-- `{"data":[{"sub":"nlp","text":"a","intent":{"answer":{"text":1}}}]}`: `strlen` gets a null
pointer. -/
theorem not_selects : ¬∀ (root data : CJson) (s : TtsText), root.getObjectItem "data" = some data →
    (∀ node ∈ data.child, StringIfAny (node.getObjectItem "sub")) →
    (∀ node ∈ data.child, StringIfAny (node.getObjectItem "text")) →
    ∃ t, ttsTextFinish (some root) s = some t ∧ Selects data.child s t := by
  intro h
  obtain ⟨t, ht, -⟩ := h (document [[stringItem "sub" "nlp", stringItem "text" "a",
    objectItem "intent" [objectItem "answer" [numberItem "text"]]]]) _ ⟨.run, [], [], 0⟩ rfl
    (by decide) (by decide)
  have hsome := congrArg Option.isSome ht
  rw [Option.isSome_some] at hsome
  exact absurd hsome (by decide)

end TtsText

end Ddmz.Cloud
