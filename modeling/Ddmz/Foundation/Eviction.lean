import Mathlib

/-!
# Making room in a queue

A queue whose elements have a weight, and some of which are pinned. To make room, the first
element that is not pinned is taken out again and again, until the weight is small enough or all
that is left is pinned.

`evict k` is the queue after `k` removals: the pinned elements are all there, and of the others
the first `k` are missing. `MakesRoom` says that no more have been removed than necessary, and
`MakesRoom.keeps_most` that no other choice of the oldest ones would have kept more.
-/

namespace Ddmz.Eviction

variable {α : Type*} {free : α → Bool} {weight : α → ℕ} {l : List α} {k n : ℕ}

/-- The weight of a queue. -/
def load (weight : α → ℕ) (l : List α) : ℕ := (l.map weight).sum

/-- The queue after `k` removals. -/
def evict (free : α → Bool) : ℕ → List α → List α
  | 0, l => l
  | k + 1, l => evict free k (l.eraseP free)

theorem load_mono {l' : List α} (h : l'.Sublist l) : load weight l' ≤ load weight l := by
  induction h with
  | slnil => exact le_refl _
  | cons a _ ih =>
    rw [load, load, List.map_cons, List.sum_cons]
    exact ih.trans (Nat.le_add_left _ _)
  | cons_cons a _ ih =>
    rw [load, load, List.map_cons, List.map_cons, List.sum_cons, List.sum_cons]
    exact Nat.add_le_add_left ih _

theorem evict_sublist : (evict free k l).Sublist l := by
  induction k generalizing l with
  | zero => exact List.Sublist.refl l
  | succ k ih => exact ih.trans List.eraseP_sublist

/-- What is pinned stays. -/
theorem filter_not_eraseP : (l.eraseP free).filter (!free ·) = l.filter (!free ·) := by
  induction l with
  | nil => rfl
  | cons a l ih =>
    by_cases ha : free a
    · rw [List.eraseP_cons_of_pos ha, List.filter_cons_of_neg (by simp [ha])]
    · rw [List.eraseP_cons_of_neg ha, List.filter_cons_of_pos (by simp [ha]),
        List.filter_cons_of_pos (by simp [ha]), ih]

theorem filter_eraseP : (l.eraseP free).filter free = (l.filter free).tail := by
  induction l with
  | nil => rfl
  | cons a l ih =>
    by_cases ha : free a
    · rw [List.eraseP_cons_of_pos ha, List.filter_cons_of_pos ha, List.tail_cons]
    · rw [List.eraseP_cons_of_neg ha, List.filter_cons_of_neg ha, List.filter_cons_of_neg ha, ih]

theorem filter_not_evict : (evict free k l).filter (!free ·) = l.filter (!free ·) := by
  induction k generalizing l with
  | zero => rfl
  | succ k ih => rw [evict, ih, filter_not_eraseP]

/-- Of the others the first ones are missing. -/
theorem filter_evict : (evict free k l).filter free = (l.filter free).drop k := by
  induction k generalizing l with
  | zero => rfl
  | succ k ih => rw [evict, ih, filter_eraseP, List.drop_tail]

/-- `r` is the queue `l` after just as many removals as make its weight at most `n`, with whether
that has been possible. -/
structure MakesRoom (free : α → Bool) (weight : α → ℕ) (n : ℕ) (l : List α)
    (r : List α × Bool) : Prop where
  steps : ∃ k, r.1 = evict free k l ∧ ∀ j < k, n < load weight (evict free j l)
  fits : r.2 = true → load weight r.1 ≤ n
  stuck : r.2 = false → n < load weight r.1 ∧ ∀ a ∈ r.1, free a = false

theorem makesRoom_done (h : load weight l ≤ n) : MakesRoom free weight n l (l, true) where
  steps := ⟨0, rfl, fun j hj ↦ absurd hj (Nat.not_lt_zero j)⟩
  fits _ := h
  stuck h := nomatch h

theorem makesRoom_stuck (h : n < load weight l) (hpinned : ∀ a ∈ l, free a = false) :
    MakesRoom free weight n l (l, false) where
  steps := ⟨0, rfl, fun j hj ↦ absurd hj (Nat.not_lt_zero j)⟩
  fits h := nomatch h
  stuck _ := ⟨h, hpinned⟩

/-- One removal, where the queue is too heavy. -/
theorem makesRoom_step {r : List α × Bool} (h : n < load weight l)
    (hr : MakesRoom free weight n (l.eraseP free) r) : MakesRoom free weight n l r where
  steps := by
    obtain ⟨k, hk, hless⟩ := hr.steps
    refine ⟨k + 1, hk, fun j hj ↦ ?_⟩
    rcases j with - | j
    · exact h
    · exact hless j (Nat.lt_of_succ_lt_succ hj)
  fits := hr.fits
  stuck := hr.stuck

namespace MakesRoom

variable {r : List α × Bool}

theorem sublist (h : MakesRoom free weight n l r) : r.1.Sublist l := by
  obtain ⟨k, hk, -⟩ := h.steps
  exact hk ▸ evict_sublist

theorem snd_iff (h : MakesRoom free weight n l r) : r.2 = true ↔ load weight r.1 ≤ n := by
  refine ⟨h.fits, fun hle ↦ ?_⟩
  by_contra hfalse
  exact absurd hle (Nat.not_le.mpr (h.stuck (Bool.not_eq_true _ ▸ hfalse)).1)

/-- Where no room is made, only the pinned elements are left. -/
theorem fst_of_snd_false (h : MakesRoom free weight n l r) (hfalse : r.2 = false) :
    r.1 = l.filter (!free ·) := by
  obtain ⟨k, hk, -⟩ := h.steps
  rw [← filter_not_evict (k := k), ← hk, List.filter_eq_self.mpr]
  intro a ha
  rw [(h.stuck hfalse).2 a ha]
  rfl

/-- Room is made if and only if the pinned elements leave it. -/
theorem snd_false_iff (h : MakesRoom free weight n l r) :
    r.2 = false ↔ n < load weight (l.filter (!free ·)) := by
  constructor
  · intro hfalse
    rw [← h.fst_of_snd_false hfalse]
    exact (h.stuck hfalse).1
  · intro hlt
    by_contra htrue
    have hle := h.fits (Bool.not_eq_false _ ▸ htrue)
    obtain ⟨k, hk, -⟩ := h.steps
    rw [← filter_not_evict (k := k), ← hk] at hlt
    exact absurd ((load_mono List.filter_sublist).trans hle) (Nat.not_le.mpr hlt)

/-- Where nothing is pinned, there is always room in the end. -/
theorem fits_of_all_free (h : MakesRoom free weight n l r) (hfree : ∀ a ∈ l, free a) :
    load weight r.1 ≤ n := by
  rcases hr : r.2 with - | -
  · obtain ⟨hlt, hpinned⟩ := h.stuck hr
    cases hlist : r.1 with
    | nil => exact Nat.zero_le n
    | cons a l' =>
      have ha : a ∈ r.1 := hlist ▸ List.mem_cons_self
      exact absurd (hfree a (h.sublist.subset ha)) (by rw [hpinned a ha]; exact Bool.false_ne_true)
  · exact h.fits hr

/-- **No more is removed than necessary**: any number of removals that make room are at least as
many, so that the result is the largest of the queues that do. -/
theorem keeps_most (h : MakesRoom free weight n l r) {k : ℕ}
    (hk : load weight (evict free k l) ≤ n) : (evict free k l).Sublist r.1 := by
  obtain ⟨k', hr, hless⟩ := h.steps
  have hle : k' ≤ k := by
    by_contra hlt
    exact absurd hk (Nat.not_le.mpr (hless k (Nat.not_le.mp hlt)))
  obtain ⟨j, rfl⟩ := Nat.exists_eq_add_of_le hle
  have hadd (i : ℕ) (m : List α) : evict free (i + j) m = evict free j (evict free i m) := by
    induction i generalizing m with
    | zero => rw [Nat.zero_add]; rfl
    | succ i ih => rw [Nat.succ_add]; exact ih (m.eraseP free)
  rw [hr, hadd]
  exact evict_sublist

end MakesRoom

end Ddmz.Eviction
