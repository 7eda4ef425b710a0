import Mathlib

/-!
# Mutexes

A mutex has one owner or none. Where a thread is in its code says whether it is inside a section
that the mutex guards; `Guards owner inside` is that the threads inside are the owner, and it is
kept by every step that goes in by taking the mutex and out by giving it back. A thread that is
stopped inside leaves the mutex with an owner that will not give it back: what is kept even then is
`Owns`, that nobody is inside without owning the mutex.

Threads are numbered, and where they are is a function of the number; `sum_update_add` is for a
measure that adds up what is left for each of them to do.
-/

namespace Ddmz

section Mutex

variable {τ : Type*} {owner : Option τ} {inside inside' : τ → Prop} {t u : τ}

/-- The threads inside are the owner of the mutex. -/
def Guards (owner : Option τ) (inside : τ → Prop) : Prop := ∀ t, inside t ↔ owner = some t

theorem guards_none (h : ∀ t, ¬inside t) : Guards none inside :=
  fun t ↦ iff_of_false (h t) nofun

/-- While the mutex is free nobody is inside. -/
theorem Guards.not_inside (h : Guards none inside) (t : τ) : ¬inside t :=
  fun ht ↦ nomatch (h t).mp ht

/-- **Exclusion.** -/
theorem Guards.exclusive (h : Guards owner inside) (ht : inside t) (hu : inside u) : t = u :=
  Option.some.inj (((h t).mp ht).symm.trans ((h u).mp hu))

theorem Guards.acquire (h : Guards none inside) (ht : inside' t)
    (hne : ∀ u, u ≠ t → (inside' u ↔ inside u)) : Guards (some t) inside' := by
  intro u
  by_cases hu : u = t
  · rw [hu]
    exact iff_of_true ht rfl
  · rw [hne u hu, Option.some.injEq]
    exact iff_of_false (h.not_inside u) (Ne.symm hu)

theorem Guards.release (h : Guards owner inside) (ht : inside t) (ht' : ¬inside' t)
    (hne : ∀ u, u ≠ t → (inside' u ↔ inside u)) : Guards none inside' := by
  refine guards_none fun u hu ↦ ?_
  by_cases hut : u = t
  · exact ht' (hut ▸ hu)
  · exact hut (h.exclusive ((hne u hut).mp hu) ht)

/-- Whoever is inside is the owner of the mutex; the owner need not be inside. -/
def Owns (owner : Option τ) (inside : τ → Prop) : Prop := ∀ t, inside t → owner = some t

theorem Owns.guards (h : Owns owner inside) (howner : ∀ t, owner = some t → inside t) :
    Guards owner inside :=
  fun t ↦ ⟨h t, howner t⟩

theorem Owns.acquire (h : Owns none inside) (hne : ∀ u, u ≠ t → inside' u → inside u) :
    Owns (some t) inside' := by
  intro u hu
  by_cases hut : u = t
  · rw [hut]
  · exact nomatch h u (hne u hut hu)

theorem Owns.release (h : Owns owner inside) (ht : inside t) (ht' : ¬inside' t)
    (hne : ∀ u, u ≠ t → inside' u → inside u) : Owns none inside' := by
  intro u hu
  by_cases hut : u = t
  · exact absurd (hut ▸ hu) ht'
  · exact absurd (Option.some.inj ((h u (hne u hut hu)).symm.trans (h t ht))) hut

/-- A step that does not go in. -/
theorem Owns.mono (h : Owns owner inside) (hle : ∀ u, inside' u → inside u) : Owns owner inside' :=
  fun u hu ↦ h u (hle u hu)

/-- A step that neither goes in nor out. -/
theorem Guards.congr (h : Guards owner inside) (hsame : ∀ u, inside' u ↔ inside u) :
    Guards owner inside' :=
  fun u ↦ (hsame u).trans (h u)

end Mutex

/-- What the threads weigh together changes by what one of them weighs. -/
theorem sum_update_add {α : Type*} (f : ℕ → α) (w : α → ℕ) {n i : ℕ} (hi : i < n) (x : α) :
    ∑ j ∈ Finset.range n, w (Function.update f i x j) + w (f i)
      = ∑ j ∈ Finset.range n, w (f j) + w x := by
  have hmem := Finset.mem_range.mpr hi
  have hrest : ∑ j ∈ (Finset.range n).erase i, w (Function.update f i x j)
      = ∑ j ∈ (Finset.range n).erase i, w (f j) :=
    Finset.sum_congr rfl fun j hj ↦ by rw [Function.update_of_ne (Finset.ne_of_mem_erase hj)]
  rw [← Finset.add_sum_erase _ _ hmem, ← Finset.add_sum_erase _ (fun j ↦ w (f j)) hmem, hrest,
    Function.update_self]
  omega

end Ddmz
