import Ddmz.Utils.Search

/-!
# The text of an XML element

`get_xml_tag_value` of `utils.c` looks for the opening and the closing tag, both from the beginning
of the buffer, and ends the text at the closing one. What it is for is the text up to the first
closing tag behind the first opening one; a closing tag that stands further in front is taken for
it, and where it stands the buffer is cut.
-/

namespace Ddmz.Utils

/-- `<tag>`. -/
def openTag (tag : List UInt8) : List UInt8 := 60 :: (tag ++ [62])

/-- `</tag>`. -/
def closeTag (tag : List UInt8) : List UInt8 := 60 :: 47 :: (tag ++ [62])

/-- `get_xml_tag_value`, with the memory allocated: the offset that it returns, and the buffer. -/
def getXmlTagValue (buffer tag : List UInt8) : Option (Option ℕ × List UInt8) := do
  let foundOpen ← strcasestr buffer (openTag tag ++ [0])
  let foundClose ← strcasestr buffer (closeTag tag ++ [0])
  match foundOpen, foundClose with
  | some o, some c => some (some (o + tag.length + 2), buffer.set c 0)
  | _, _ => some (none, buffer)

/-! ## The element -/

/-- Where the text of the first element begins and ends: behind the first opening tag, and at the
first closing tag from there on. -/
def elementText (buffer tag : List UInt8) : Option (ℕ × ℕ) :=
  match firstOcc (eqBy tolower) (openTag tag) buffer with
  | none => none
  | some o =>
    let start := o + (openTag tag).length
    (firstOcc (eqBy tolower) (closeTag tag) (buffer.drop start)).map fun c ↦ (start, start + c)

/-- The text of the first element is returned, and ended in the buffer; without an element nothing
is, and the buffer is left as it was. -/
def Extracted (buffer tag : CStr) : Prop :=
  getXmlTagValue (buffer.1 ++ [0]) tag.1 =
    some (match elementText buffer.1 tag.1 with
      | some (start, stop) => (some start, (buffer.1 ++ [0]).set stop 0)
      | none => (none, buffer.1 ++ [0]))

/-- There is no opening tag, or a whole one in front of every closing tag. -/
def Opened (buffer tag : List UInt8) : Prop :=
  (∀ o, ¬StandsAt (openTag tag) buffer o) ∨ ∀ c, StandsAt (closeTag tag) buffer c →
    ∃ o, StandsAt (openTag tag) buffer o ∧ o + (openTag tag).length ≤ c

variable {buffer tag p s : List UInt8} {o c k : ℕ}

theorem length_openTag : (openTag tag).length = tag.length + 2 := by simp [openTag]

theorem zero_notMem_openTag (h : (0 : UInt8) ∉ tag) : (0 : UInt8) ∉ openTag tag := by
  simp [openTag, h]

theorem zero_notMem_closeTag (h : (0 : UInt8) ∉ tag) : (0 : UInt8) ∉ closeTag tag := by
  simp [closeTag, h]

/-! ## Occurrences -/

theorem firstOcc_eq_none_iff : firstOcc (eqBy tolower) p s = none ↔ ∀ k, ¬StandsAt p s k := by
  rw [firstOcc, firstSuffix_eq_none]
  constructor
  · rintro h k ⟨hk, hstarts⟩
    exact absurd hstarts (by simp [h k hk])
  · exact fun h k hk ↦ Bool.eq_false_iff.mpr fun hstarts ↦ h k ⟨hk, hstarts⟩

theorem firstOcc_eq_some_iff : firstOcc (eqBy tolower) p s = some k ↔
    StandsAt p s k ∧ ∀ j, StandsAt p s j → k ≤ j := by
  rw [firstOcc, firstSuffix_eq_some, StandsAt, and_assoc]
  refine and_congr_right fun hk ↦ and_congr_right fun _ ↦ ⟨fun h j hj ↦ ?_, fun h j hj ↦ ?_⟩
  · by_contra hlt
    exact absurd hj.2 (by simp [h j (Nat.lt_of_not_le hlt)])
  · refine Bool.eq_false_iff.mpr fun hstarts ↦ ?_
    exact absurd (h j ⟨hj.le.trans hk, hstarts⟩) (Nat.not_le.mpr hj)

theorem StandsAt.le (h : StandsAt p s k) : k + p.length ≤ s.length := by
  have hle := length_le_of_startsWith h.2
  rw [List.length_drop] at hle
  have hk := h.1
  omega

theorem standsAt_drop (hk : k ≤ s.length) (j : ℕ) :
    StandsAt p (s.drop k) j ↔ StandsAt p s (k + j) := by
  rw [StandsAt, StandsAt, List.length_drop, List.drop_drop]
  exact and_congr_left fun _ ↦ by omega

/-- The first opening tag, and a closing tag behind it that is the first one of all. -/
theorem elementText_of_le (ho : firstOcc (eqBy tolower) (openTag tag) buffer = some o)
    (hc : firstOcc (eqBy tolower) (closeTag tag) buffer = some c)
    (hle : o + (openTag tag).length ≤ c) :
    elementText buffer tag = some (o + (openTag tag).length, c) := by
  have hopen := (firstOcc_eq_some_iff.mp ho).1.le
  obtain ⟨hclose, hfirst⟩ := firstOcc_eq_some_iff.mp hc
  obtain ⟨j, rfl⟩ := Nat.exists_eq_add_of_le hle
  have hj : firstOcc (eqBy tolower) (closeTag tag) (buffer.drop (o + (openTag tag).length))
      = some j := by
    rw [firstOcc_eq_some_iff, standsAt_drop hopen]
    refine ⟨hclose, fun i hi ↦ ?_⟩
    have hle := hfirst _ ((standsAt_drop hopen i).mp hi)
    omega
  simp only [elementText, ho, hj, Option.map_some]

theorem elementText_le {start stop : ℕ} (h : elementText buffer tag = some (start, stop))
    (ho : firstOcc (eqBy tolower) (openTag tag) buffer = some o) :
    o + (openTag tag).length ≤ stop := by
  simp only [elementText, ho, Option.map_eq_some_iff] at h
  obtain ⟨j, -, heq⟩ := h
  obtain ⟨rfl, rfl⟩ := Prod.mk.inj heq
  exact Nat.le_add_right _ _

theorem getXmlTagValue_eq (hbuffer : (0 : UInt8) ∉ buffer) (htag : (0 : UInt8) ∉ tag) :
    getXmlTagValue (buffer ++ [0]) tag =
      match firstOcc (eqBy tolower) (openTag tag) buffer,
        firstOcc (eqBy tolower) (closeTag tag) buffer with
      | some o, some c => some (some (o + tag.length + 2), (buffer ++ [0]).set c 0)
      | _, _ => some (none, buffer ++ [0]) := by
  rw [getXmlTagValue, strcasestr_eq hbuffer (zero_notMem_openTag htag),
    strcasestr_eq hbuffer (zero_notMem_closeTag htag)]
  rfl

/-- A text that ends at `stop` and at no other place. -/
theorem set_zero_ne (hbuffer : (0 : UInt8) ∉ buffer) (hc : c < buffer.length) {stop : ℕ}
    (hne : stop ≠ c) : (buffer ++ [0]).set c 0 ≠ (buffer ++ [0]).set stop 0 := by
  intro h
  have hcell := congrArg (·[c]?) h
  have hlen : c < (buffer ++ [0]).length := by
    rw [List.length_append]
    omega
  rw [List.getElem?_set_self hlen, List.getElem?_set_ne hne, List.getElem?_append_left hc,
    List.getElem?_eq_getElem hc] at hcell
  exact hbuffer (Option.some.inj hcell ▸ List.getElem_mem hc)

/-- **When the element is extracted.** -/
theorem extracted_iff (buffer tag : CStr) : Extracted buffer tag ↔ Opened buffer.1 tag.1 := by
  obtain ⟨buffer, hbuffer⟩ := buffer
  obtain ⟨tag, htag⟩ := tag
  simp only [Extracted, Opened]
  rw [getXmlTagValue_eq hbuffer htag]
  cases ho : firstOcc (eqBy tolower) (openTag tag) buffer with
  | none =>
    have hnone : elementText buffer tag = none := by simp only [elementText, ho]
    rw [hnone]
    exact iff_of_true rfl (.inl (firstOcc_eq_none_iff.mp ho))
  | some o =>
    obtain ⟨hopen, hfirst⟩ := firstOcc_eq_some_iff.mp ho
    rw [or_iff_right fun h ↦ h o hopen]
    cases hc : firstOcc (eqBy tolower) (closeTag tag) buffer with
    | none =>
      have hclose := firstOcc_eq_none_iff.mp hc
      have hnone : elementText buffer tag = none := by
        simp only [elementText, ho, Option.map_eq_none_iff]
        refine firstOcc_eq_none_iff.mpr fun j hj ↦ ?_
        exact hclose _ ((standsAt_drop hopen.le j).mp hj)
      rw [hnone]
      exact iff_of_true rfl fun c h ↦ absurd h (hclose c)
    | some c =>
      obtain ⟨hclose, hbefore⟩ := firstOcc_eq_some_iff.mp hc
      constructor
      · intro h c' hc'
        refine ⟨o, hopen, ?_⟩
        by_contra hlt
        have hlt' := (hbefore c' hc').trans_lt (Nat.lt_of_not_le hlt)
        have hlen : c < buffer.length :=
          lt_of_lt_of_le (Nat.lt_add_of_pos_right (by simp [closeTag])) hclose.le
        cases htext : elementText buffer tag with
        | none =>
          rw [htext] at h
          cases h
        | some text =>
          rw [htext] at h
          have hstop := elementText_le htext ho
          have hne : text.2 ≠ c := by omega
          exact set_zero_ne hbuffer hlen hne (congrArg Prod.snd (Option.some.inj h))
      · intro h
        obtain ⟨o', ho', hle⟩ := h c hclose
        have hle' : o + (openTag tag).length ≤ c :=
          (Nat.add_le_add_right (hfirst o' ho') _).trans hle
        rw [elementText_of_le ho hc hle', length_openTag]
        rfl

/-- In `</a><a>x</a>` the value of `a` is cut off in front of its beginning. -/
theorem not_extracted : ¬∀ buffer tag, Extracted buffer tag := by
  intro h
  have hrun : getXmlTagValue (ascii "</a><a>x</a>" ++ [0]) (ascii "a")
      = some (some 7, (ascii "</a><a>x</a>" ++ [0]).set 0 0) := by decide
  have htext : elementText (ascii "</a><a>x</a>") (ascii "a") = some (7, 8) := by decide
  have hbad := h ⟨ascii "</a><a>x</a>", by decide⟩ ⟨ascii "a", by decide⟩
  simp only [Extracted, hrun, htext] at hbad
  exact absurd hbad (by decide)

end Ddmz.Utils
