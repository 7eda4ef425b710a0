import Ddmz.Foundation.Traces

/-!
# Presses of a button

A driver tells of a button that it has been pushed and released. While it is pushed there may be
events for a long press, of several kinds `ι`; and a press without such an event is a tap, which is
told directly before the release.

`PressProtocol` says what this means for the trace of the events, by what came before each of them.
It is told which events for a long press come once only in a press, and which may also come while
the button is not pushed.
`Presses` generates such traces event by event, with what is to be remembered of the press that is
going on: the events for a long press so far, or nothing, if the button is not pushed. A driver that
keeps this in its state can be shown to keep to the protocol one event at a time:
`Presses.protocol`.

Of the cells of a keypad only one is pushed at a time, and an event tells the cell as well. Here a
tap need not be followed by the release at once. `CellAllowed` says what an event says of those
before it, and `CellPresses` generates the traces, with the cell that is active and whether there
has been an event for a long press: `CellPresses.allowed`.
-/

namespace Ddmz

inductive PressEvent (ι : Type*)
  | push
  /-- An event for a long press. -/
  | press (i : ι)
  | tap
  | release
  deriving DecidableEq

section Presses

variable {ι : Type*}

def PressEvent.isEdge : PressEvent ι → Bool
  | .push | .release => true
  | .press _ | .tap => false

open PressEvent

/-- What an event says of those before it. Events for a long press that are `once` come once only in
a press; those that are `stray` may come outside a press. -/
def PressAllowed (once stray : ι → Prop) (before : List (PressEvent ι)) : PressEvent ι → Prop
  | .push => lastOf isEdge before ≠ some .push
  | .press i => (lastOf isEdge before = some .push → once i → .press i ∉ since isEdge before) ∧
    (lastOf isEdge before ≠ some .push → stray i)
  | .tap => lastOf isEdge before = some .push ∧ since isEdge before = []
  | .release => lastOf isEdge before = some .push ∧
    (.tap ∈ since isEdge before ↔ ∀ i, .press i ∉ since isEdge before)

/-- Pushes and releases alternate, and begin with a push. A tap comes directly before a release,
exactly if there was no event for a long press since the push. -/
structure PressProtocol (once stray : ι → Prop) (l : List (PressEvent ι)) : Prop where
  allowed : EachEntry (PressAllowed once stray) l
  tap : ∀ before after, l = before ++ .tap :: after → ∃ after', after = .release :: after'

/-- The traces of a driver that keeps to the protocol. -/
inductive Presses (once stray : ι → Prop) : List (PressEvent ι) → Option (List ι) → Prop
  | nil : Presses once stray [] none
  | push {l : List (PressEvent ι)} (h : Presses once stray l none) :
      Presses once stray (l ++ [.push]) (some [])
  | press {l : List (PressEvent ι)} {ran : List ι} {i : ι} (h : Presses once stray l (some ran))
      (hi : once i → i ∉ ran) : Presses once stray (l ++ [.press i]) (some (ran ++ [i]))
  | stray {l : List (PressEvent ι)} {i : ι} (h : Presses once stray l none) (hi : stray i) :
      Presses once stray (l ++ [.press i]) none
  | release {l : List (PressEvent ι)} {ran : List ι} (h : Presses once stray l (some ran))
      (hran : ran ≠ []) : Presses once stray (l ++ [.release]) none
  | tap {l : List (PressEvent ι)} (h : Presses once stray l (some [])) :
      Presses once stray (l ++ [.tap] ++ [.release]) none

namespace Presses

variable {once stray : ι → Prop} {l : List (PressEvent ι)} {ran : List ι} {o : Option (List ι)}

/-- The last push or release, and the press that is going on. -/
theorem last (h : Presses once stray l o) : match o with
    | none => lastOf isEdge l ≠ some .push
    | some ran => lastOf isEdge l = some .push ∧ since isEdge l = ran.map .press := by
  induction h with
  | nil => exact (Option.some_ne_none _).symm
  | push _ _ => exact ⟨lastOf_concat_pos _ rfl, since_concat_pos _ rfl⟩
  | press _ _ ih =>
    refine ⟨(lastOf_concat_neg _ rfl).trans ih.1, ?_⟩
    rw [since_concat_neg _ rfl, ih.2, List.map_append, List.map_singleton]
  | stray _ _ ih => rwa [lastOf_concat_neg _ rfl]
  | release _ _ _ | tap _ _ =>
    rw [lastOf_concat_pos _ rfl]
    simp

theorem last_none (h : Presses once stray l none) : lastOf isEdge l ≠ some .push := h.last

theorem last_some (h : Presses once stray l (some ran)) :
    lastOf isEdge l = some .push ∧ since isEdge l = ran.map .press := h.last

/-- The last push or release tells whether a press is going on. -/
theorem last_eq_push_iff (h : Presses once stray l o) :
    lastOf isEdge l = some .push ↔ o ≠ none := by
  cases o with
  | none => exact iff_of_false h.last_none (fun hne ↦ hne rfl)
  | some ran => exact iff_of_true h.last_some.1 (Option.some_ne_none ran)

theorem allowed (h : Presses once stray l o) : EachEntry (PressAllowed once stray) l := by
  induction h with
  | nil => exact eachEntry_nil
  | push h ih =>
    rw [eachEntry_concat]
    exact ⟨ih, h.last_none⟩
  | press h hi ih =>
    obtain ⟨hlast, hsince⟩ := h.last_some
    rw [eachEntry_concat]
    refine ⟨ih, ?_, fun hnot ↦ absurd hlast hnot⟩
    intro _ honce hmem
    rw [hsince] at hmem
    obtain ⟨j, hj, heq⟩ := List.mem_map.mp hmem
    exact hi honce (PressEvent.press.inj heq ▸ hj)
  | stray h hi ih =>
    rw [eachEntry_concat]
    exact ⟨ih, fun hpush ↦ absurd hpush h.last_none, fun _ ↦ hi⟩
  | @release _ ran h hran ih =>
    obtain ⟨hlast, hsince⟩ := h.last_some
    rw [eachEntry_concat]
    refine ⟨ih, hlast, ?_⟩
    rw [hsince]
    refine iff_of_false (by simp) ?_
    intro hnone
    obtain ⟨i, hi⟩ := List.exists_mem_of_ne_nil ran hran
    exact hnone i (List.mem_map_of_mem hi)
  | tap h ih =>
    obtain ⟨hlast, hsince⟩ := h.last_some
    rw [eachEntry_concat, eachEntry_concat]
    refine ⟨⟨ih, hlast, hsince⟩, (lastOf_concat_neg _ rfl).trans hlast, ?_⟩
    rw [since_concat_neg _ rfl, hsince]
    simp

/-- After a tap there is a release. -/
theorem tap_release (h : Presses once stray l o) {before after : List (PressEvent ι)}
    (hl : l = before ++ .tap :: after) : ∃ after', after = .release :: after' := by
  have hconcat : ∀ {l : List (PressEvent ι)} {x : PressEvent ι} {after : List (PressEvent ι)},
      x ≠ .tap → l ++ [x] = before ++ .tap :: after →
      (∀ {after}, l = before ++ .tap :: after → ∃ after', after = .release :: after') →
      ∃ after', after = .release :: after' := by
    intro l x after hx heq ih
    obtain ⟨-, htap, -⟩ | ⟨after, rfl, hl⟩ := append_singleton_eq heq
    · exact absurd htap hx
    · obtain ⟨after, rfl⟩ := ih hl
      exact ⟨after ++ [x], List.cons_append⟩
  induction h generalizing after with
  | nil => exact absurd hl.symm (List.append_ne_nil_of_right_ne_nil _ (List.cons_ne_nil _ _))
  | push _ ih => exact hconcat (by simp) hl ih
  | press _ _ ih => exact hconcat (by simp) hl ih
  | stray _ _ ih => exact hconcat (by simp) hl ih
  | release _ _ ih => exact hconcat (by simp) hl ih
  | tap _ ih =>
    obtain ⟨-, hne, -⟩ | ⟨after, rfl, hafter⟩ := append_singleton_eq hl
    · exact absurd hne (by simp)
    obtain ⟨-, -, rfl⟩ | ⟨after, rfl, hbefore⟩ := append_singleton_eq hafter
    · exact ⟨[], rfl⟩
    · obtain ⟨after, rfl⟩ := ih hbefore
      exact ⟨after ++ [PressEvent.tap] ++ [PressEvent.release], by simp⟩

/-- **The trace keeps to the protocol.** -/
theorem protocol (h : Presses once stray l o) : PressProtocol once stray l where
  allowed := h.allowed
  tap := fun _ _ ↦ h.tap_release

end Presses

end Presses

section Cells

variable {ι κ : Type*}

open PressEvent

/-- The event is a push or a release of its cell. -/
def isCellEdge (x : PressEvent ι × κ) : Bool := x.1.isEdge

/-- What an event of a cell says of those before it. -/
def CellAllowed (before : List (PressEvent ι × κ)) : PressEvent ι × κ → Prop
  | (.push, _) => ∀ k, lastOf isCellEdge before ≠ some (.push, k)
  | (.press _, k) | (.release, k) => lastOf isCellEdge before = some (.push, k)
  | (.tap, k) => lastOf isCellEdge before = some (.push, k) ∧
    ∀ i k', (.press i, k') ∉ since isCellEdge before

/-- The traces of a keypad; the cell that is active, and whether its press has been a long one. -/
inductive CellPresses : List (PressEvent ι × κ) → Option (κ × Bool) → Prop
  | nil : CellPresses [] none
  | push {l : List (PressEvent ι × κ)} (h : CellPresses l none) (k : κ) :
      CellPresses (l ++ [(.push, k)]) (some (k, false))
  | press {l : List (PressEvent ι × κ)} {k : κ} {long : Bool} (h : CellPresses l (some (k, long)))
      (i : ι) : CellPresses (l ++ [(.press i, k)]) (some (k, true))
  | tap {l : List (PressEvent ι × κ)} {k : κ} (h : CellPresses l (some (k, false))) :
      CellPresses (l ++ [(.tap, k)]) (some (k, false))
  | release {l : List (PressEvent ι × κ)} {k : κ} {long : Bool}
      (h : CellPresses l (some (k, long))) : CellPresses (l ++ [(.release, k)]) none

namespace CellPresses

variable {l : List (PressEvent ι × κ)} {o : Option (κ × Bool)} {k : κ} {long : Bool}

/-- The last push or release tells the cell that is active. -/
theorem last_eq_push_iff (h : CellPresses l o) :
    lastOf isCellEdge l = some (.push, k) ↔ ∃ long, o = some (k, long) := by
  induction h with
  | nil => simp
  | push _ k' =>
    rw [lastOf_concat_pos _ rfl]
    simp
  | press _ i ih =>
    rw [lastOf_concat_neg _ rfl, ih]
    simp
  | tap _ ih => rwa [lastOf_concat_neg _ rfl]
  | release _ _ =>
    rw [lastOf_concat_pos _ rfl]
    simp

theorem last_some (h : CellPresses l (some (k, long))) :
    lastOf isCellEdge l = some (.push, k) := h.last_eq_push_iff.mpr ⟨long, rfl⟩

/-- As long as a press is not a long one there has been no event for one. -/
theorem since_short (h : CellPresses l (some (k, false))) (i : ι) (k' : κ) :
    (.press i, k') ∉ since isCellEdge l := by
  generalize ho : some (k, false) = o at h
  induction h with
  | nil => cases ho
  | push _ _ =>
    rw [since_concat_pos _ rfl]
    exact List.not_mem_nil
  | press _ _ _ => cases ho
  | tap _ ih =>
    rw [since_concat_neg _ rfl, List.mem_append, not_or]
    exact ⟨ih ho, by simp⟩
  | release _ _ => cases ho

/-- **The trace of a keypad keeps to the protocol.** -/
theorem allowed (h : CellPresses l o) : EachEntry CellAllowed l := by
  induction h with
  | nil => exact eachEntry_nil
  | push h k ih =>
    rw [eachEntry_concat]
    refine ⟨ih, fun k' hlast ↦ ?_⟩
    obtain ⟨long, hnone⟩ := h.last_eq_push_iff.mp hlast
    cases hnone
  | press h i ih =>
    rw [eachEntry_concat]
    exact ⟨ih, h.last_some⟩
  | tap h ih =>
    rw [eachEntry_concat]
    exact ⟨ih, h.last_some, h.since_short⟩
  | release h ih =>
    rw [eachEntry_concat]
    exact ⟨ih, h.last_some⟩

end CellPresses

end Cells

end Ddmz
