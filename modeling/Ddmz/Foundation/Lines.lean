import Mathlib

/-!
# Separator-terminated lines

A flat sequence read as a concatenation of lines, each ended by one separator and each with
contents satisfying a predicate. The predicate is what varies between consumers: which lines a
grammar allows, and which lines a hand-written scanner walks past, are two instances of the same
notion, and comparing the two is a matter of comparing predicates.

A sequence either has no separator left or starts with a complete line (`Lines.exists_first`), which
is what lets a scanner that looks at one line at a time be compared with a grammar that speaks about
the whole.
-/

namespace Ddmz

variable {α : Type*}

/-- `Lines sep P g`: the sequence `g` consists of lines ended by `sep`, whose contents are free of
`sep` and satisfy `P`. -/
inductive Lines (sep : α) (P : List α → Prop) : List α → Prop
  | nil : Lines sep P []
  | cons {l rest : List α} : sep ∉ l → P l → Lines sep P rest → Lines sep P (l ++ sep :: rest)

namespace Lines

/-- A sequence either has no separator left or starts with a complete line. -/
theorem exists_first [DecidableEq α] (sep : α) (c : List α) :
    sep ∉ c ∨ ∃ l r, sep ∉ l ∧ c = l ++ sep :: r := by
  by_cases h : sep ∈ c
  · obtain ⟨l, r, hc, hl⟩ := List.eq_append_cons_of_mem h
    exact Or.inr ⟨l, r, hl, hc⟩
  · exact Or.inl h

/-- The first separator splits a sequence in one way. -/
theorem first_inj {sep : α} {l l' r r' : List α} (hl : sep ∉ l) (hl' : sep ∉ l')
    (h : l ++ sep :: r = l' ++ sep :: r') : l = l' ∧ r = r' := by
  rcases List.append_eq_append_iff.mp h with ⟨m, rfl, hm⟩ | ⟨m, rfl, hm⟩
  · rcases m with _ | ⟨a, m⟩
    · exact ⟨(List.append_nil l).symm, (List.cons.inj hm).2⟩
    · exact absurd (by simp [(List.cons.inj hm).1]) hl'
  · rcases m with _ | ⟨a, m⟩
    · exact ⟨List.append_nil l', ((List.cons.inj hm).2).symm⟩
    · exact absurd (by simp [(List.cons.inj hm).1]) hl

/-- Lines at the front of `l ++ sep :: rest` are none at all, or begin with `l`. -/
theorem eq_nil_or_cons {sep : α} {P : List α → Prop} {h c l rest : List α} (hh : Lines sep P h)
    (hl : sep ∉ l) (heq : l ++ sep :: rest = h ++ c) :
    h = [] ∨ ∃ h', h = l ++ sep :: h' ∧ P l ∧ Lines sep P h' ∧ rest = h' ++ c := by
  cases hh with
  | nil => exact Or.inl rfl
  | @cons l' h' hl' hp hh' =>
    rw [List.append_assoc, List.cons_append] at heq
    obtain ⟨rfl, hrest⟩ := first_inj hl hl' heq
    exact Or.inr ⟨h', rfl, hp, hh', hrest⟩

/-- Nothing without a separator has a line in it. -/
theorem eq_nil_of_notMem {sep : α} {P : List α → Prop} {h c : List α} (hh : Lines sep P h)
    (hno : sep ∉ h ++ c) : h = [] := by
  cases hh with
  | nil => rfl
  | cons _ _ _ => exact absurd (by simp) hno

end Lines

end Ddmz
