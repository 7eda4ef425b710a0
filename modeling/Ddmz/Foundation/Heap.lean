import Mathlib

/-!
# Allocated memory

What a program has allocated and not freed is the multiset of the blocks in use. A request for
memory is granted or not, whatever the program is; a block is known by the number of the request
that it was granted to.

`Heap.Took h₀ h ps` is that the blocks `ps` have been taken since `h₀`, and nothing else: a request
that is granted adds its block, and what frees them all leaves what was in use before.
-/

namespace Ddmz

structure Heap where
  live : Multiset ℕ
  /-- How many requests there have been. -/
  asked : ℕ
  /-- Which requests are granted. -/
  grants : ℕ → Bool

namespace Heap

variable {h h₀ : Heap} {p : ℕ} {ps : List ℕ}

def malloc (h : Heap) : Option ℕ × Heap :=
  if h.grants h.asked then
    (some h.asked, { h with live := h.asked ::ₘ h.live, asked := h.asked + 1 })
  else (none, { h with asked := h.asked + 1 })

def free (h : Heap) (p : ℕ) : Heap := { h with live := h.live.erase p }

/-- Free one after the other. -/
def freeAll (h : Heap) (ps : List ℕ) : Heap := ps.foldl free h

/-- Free a block, which has to be in use. -/
def release (h : Heap) (p : ℕ) : Option Heap := if p ∈ h.live then some (h.free p) else none

def releaseAll (h : Heap) (ps : List ℕ) : Option Heap := ps.foldlM release h

/-- A request that has to be granted. -/
def obtain (h : Heap) : Option (ℕ × Heap) :=
  match h.malloc with
  | (none, _) => none
  | (some p, h) => some (p, h)

/-- So many of them. -/
def obtainAll : ℕ → Heap → Option (List ℕ × Heap)
  | 0, h => some ([], h)
  | n + 1, h =>
    h.obtain.bind fun r ↦ (obtainAll n r.2).map fun q ↦ (r.1 :: q.1, q.2)

/-- Since `h₀` the blocks `ps` have been taken. -/
def Took (h₀ h : Heap) (ps : List ℕ) : Prop := h.live = ↑ps + h₀.live

theorem took_nil (h : Heap) : Took h h [] := (zero_add _).symm

theorem Took.nil_iff : Took h₀ h [] ↔ h.live = h₀.live := by
  rw [Took, Multiset.coe_nil, zero_add]

/-- The order in which blocks have been taken does not matter. -/
theorem Took.perm {qs : List ℕ} (ht : Took h₀ h ps) (hperm : ps.Perm qs) : Took h₀ h qs := by
  rw [Took, ← Multiset.coe_eq_coe.mpr hperm]
  exact ht

@[simp] theorem grants_malloc (h : Heap) : h.malloc.2.grants = h.grants := by
  rw [malloc]
  split <;> rfl

@[simp] theorem asked_malloc (h : Heap) : h.malloc.2.asked = h.asked + 1 := by
  rw [malloc]
  split <;> rfl

/-- A request takes a block if it is granted, and otherwise nothing. -/
theorem Took.malloc_cases (ht : Took h₀ h ps) :
    (h.grants h.asked = false ∧ h.malloc.1 = none ∧ Took h₀ h.malloc.2 ps) ∨
      (h.grants h.asked = true ∧ h.malloc.1 = some h.asked ∧
        Took h₀ h.malloc.2 (h.asked :: ps)) := by
  rw [Heap.malloc]
  split_ifs with hgrants
  · refine .inr ⟨hgrants, rfl, ?_⟩
    rw [Took] at ht
    rw [Took, ht, ← Multiset.cons_coe, Multiset.cons_add]
  · exact .inl ⟨Bool.eq_false_iff.mpr hgrants, rfl, ht⟩

/-- A request takes a block, or nothing. -/
theorem Took.malloc (ht : Took h₀ h ps) :
    (h.malloc.1 = none ∧ Took h₀ h.malloc.2 ps) ∨
      ∃ p, h.malloc.1 = some p ∧ Took h₀ h.malloc.2 (p :: ps) :=
  ht.malloc_cases.imp And.right fun h ↦ ⟨_, h.2⟩

theorem Took.obtain {r : ℕ × Heap} (ht : Took h₀ h ps) (hr : h.obtain = some r) :
    Took h₀ r.2 (r.1 :: ps) := by
  rw [Heap.obtain] at hr
  rcases ht.malloc with ⟨hnone, -⟩ | ⟨p, hsome, ht⟩
  · split at hr
    · exact absurd hr.symm (Option.some_ne_none r)
    · case _ hmalloc =>
      rw [hmalloc] at hnone
      exact absurd hnone (Option.some_ne_none _)
  · split at hr
    · exact absurd hr.symm (Option.some_ne_none r)
    · case _ hmalloc =>
      obtain rfl := Option.some.inj hr
      rw [hmalloc] at hsome ht
      rw [Option.some.inj hsome]
      exact ht

theorem Took.obtainAll {n : ℕ} {r : List ℕ × Heap} (ht : Took h₀ h ps)
    (hr : h.obtainAll n = some r) : Took h₀ r.2 (r.1 ++ ps) ∧ r.1.length = n := by
  induction n generalizing h ps r with
  | zero =>
    obtain rfl := Option.some.inj hr
    exact ⟨ht, rfl⟩
  | succ n ih =>
    obtain ⟨p, hp, hr⟩ := Option.bind_eq_some_iff.mp hr
    obtain ⟨q, hq, rfl⟩ := Option.map_eq_some_iff.mp hr
    obtain ⟨ht, hlength⟩ := ih (ht.obtain hp) hq
    exact ⟨ht.perm List.perm_middle, congrArg Nat.succ hlength⟩

theorem live_freeAll (h : Heap) (ps : List ℕ) : (h.freeAll ps).live = h.live - ↑ps := by
  induction ps generalizing h with
  | nil => exact (Multiset.sub_zero _).symm
  | cons p ps ih => rw [freeAll, List.foldl_cons, ← freeAll, ih, free, ← Multiset.cons_coe,
      Multiset.sub_cons]

/-- A block that has been taken can be released. -/
theorem Took.release (ht : Took h₀ h (p :: ps)) :
    h.release p = some (h.free p) ∧ Took h₀ (h.free p) ps := by
  rw [Took, ← Multiset.cons_coe, Multiset.cons_add] at ht
  constructor
  · rw [Heap.release, ht]
    exact if_pos (Multiset.mem_cons_self _ _)
  · rw [Took, free, ht]
    exact Multiset.erase_cons_head _ _

theorem Took.releaseAll {qs : List ℕ} (ht : Took h₀ h (qs ++ ps)) :
    ∃ h', h.releaseAll qs = some h' ∧ Took h₀ h' ps := by
  induction qs generalizing h with
  | nil => exact ⟨h, rfl, ht⟩
  | cons q qs ih =>
    obtain ⟨hq, ht⟩ := ht.release
    obtain ⟨h', hqs, ht'⟩ := ih ht
    refine ⟨h', ?_, ht'⟩
    rw [Heap.releaseAll, List.foldlM_cons, hq]
    exact hqs

theorem Took.freeAll_append {qs : List ℕ} (ht : Took h₀ h (qs ++ ps)) :
    Took h₀ (h.freeAll qs) ps := by
  rw [Took, ← Multiset.coe_add, add_assoc] at ht
  rw [Took, live_freeAll, ht, add_tsub_cancel_left]

/-- What has been taken is freed, and all is as before. -/
theorem Took.freeAll (ht : Took h₀ h ps) : (h.freeAll ps).live = h₀.live := by
  rw [live_freeAll, ht, add_tsub_cancel_left]

end Heap

end Ddmz
