import Mathlib

/-!
# Traces

A trace lists what has happened, the oldest entry first, and grows at its end. What an entry may be
depends on what came before it, mostly on the last entry of some kind and on what came since:
`lastOf` and `since`. `EachEntry P` says that every entry of the trace stood in `P` to what came
before it; such a property is kept up by looking at the new entry alone: `eachEntry_concat`.
-/

namespace Ddmz

section Traces

variable {α : Type*} (p : α → Bool) (t : List α) {x : α}

/-- The last entry with `p`. -/
def lastOf : Option α := (t.filter p).getLast?

/-- What came after the last entry with `p`; everything, if there is none. -/
def since : List α := t.rtakeWhile fun x ↦ !p x

variable {p}

@[simp] theorem lastOf_nil : lastOf p [] = none := rfl

@[simp] theorem since_nil : since p [] = [] := rfl

@[simp] theorem lastOf_concat_pos (h : p x = true) : lastOf p (t ++ [x]) = some x := by
  rw [lastOf, List.filter_append, List.filter_singleton, h]
  exact List.getLast?_concat

@[simp] theorem lastOf_concat_neg (h : p x = false) : lastOf p (t ++ [x]) = lastOf p t := by
  rw [lastOf, List.filter_append, List.filter_singleton, h, cond_false, List.append_nil, lastOf]

@[simp] theorem since_concat_pos (h : p x = true) : since p (t ++ [x]) = [] :=
  List.rtakeWhile_concat_neg _ _ _ (by simp [h])

@[simp] theorem since_concat_neg (h : p x = false) : since p (t ++ [x]) = since p t ++ [x] :=
  List.rtakeWhile_concat_pos _ _ _ (by simp [h])

theorem lastOf_append (l : List α) : lastOf p (t ++ l) = (lastOf p l).or (lastOf p t) := by
  rw [lastOf, List.filter_append, List.getLast?_append, lastOf, lastOf]

theorem lastOf_eq_none {l : List α} (h : l.any p = false) : lastOf p l = none := by
  rw [lastOf, List.getLast?_eq_none_iff, List.filter_eq_nil_iff]
  intro x hx
  exact List.any_eq_false.mp h x hx

theorem lastOf_append_of_not_any {l : List α} (h : l.any p = false) :
    lastOf p (t ++ l) = lastOf p t := by
  rw [lastOf_append, lastOf_eq_none h, Option.none_or]

theorem since_append_of_not_any {l : List α} (h : l.any p = false) :
    since p (t ++ l) = since p t ++ l := by
  induction l using List.reverseRecOn with
  | nil => simp
  | append_singleton l y ih =>
    simp only [List.any_append, List.any_cons, List.any_nil, Bool.or_false,
      Bool.or_eq_false_iff] at h
    rw [← List.append_assoc, since_concat_neg _ h.2, ih h.1, List.append_assoc]

variable {t} in
theorem eq_false_of_mem_since (h : x ∈ since p t) : p x = false := by
  simpa using List.mem_rtakeWhile_imp h

/-- If the last entry with `q` has `p`, which implies `q`, then it is the last entry with `p`. -/
theorem lastOf_since_of_imp {q : α → Bool} (himp : ∀ y, q y = false → p y = false) (hx : p x = true)
    (h : lastOf q t = some x) : lastOf p t = some x ∧ since p t = since q t := by
  induction t using List.reverseRecOn with
  | nil => exact absurd h.symm (Option.some_ne_none x)
  | append_singleton t y ih =>
    by_cases hy : q y = true
    · rw [lastOf_concat_pos t hy, Option.some.injEq] at h
      subst h
      simp [hx, hy]
    · have hq : q y = false := Bool.eq_false_of_not_eq_true hy
      rw [lastOf_concat_neg t hq] at h
      obtain ⟨hlast, hsince⟩ := ih h
      simp [hq, himp y hq, hlast, hsince]

/-- A list that ends in `x`, cut at `y`. -/
theorem append_singleton_eq {l before after : List α} {x y : α}
    (h : l ++ [x] = before ++ y :: after) : (l = before ∧ x = y ∧ after = []) ∨
      ∃ after', after = after' ++ [x] ∧ l = before ++ y :: after' := by
  obtain rfl | ⟨after', z, rfl⟩ := after.eq_nil_or_concat'
  · obtain ⟨hl, hx⟩ := List.append_inj' h rfl
    exact .inl ⟨hl, List.singleton_inj.mp hx, rfl⟩
  · rw [← List.cons_append, ← List.append_assoc] at h
    obtain ⟨hl, hx⟩ := List.append_inj' h rfl
    exact .inr ⟨after', by rw [List.singleton_inj.mp hx], hl⟩

/-- Every entry stands in `P` to what came before it. -/
def EachEntry (P : List α → α → Prop) (t : List α) : Prop :=
  ∀ before x after, t = before ++ x :: after → P before x

variable {P : List α → α → Prop}

@[simp] theorem eachEntry_nil : EachEntry P [] := by
  intro before x after h
  exact absurd h.symm (List.append_ne_nil_of_right_ne_nil _ (List.cons_ne_nil _ _))

/-- **One entry more.** -/
@[simp] theorem eachEntry_concat : EachEntry P (t ++ [x]) ↔ EachEntry P t ∧ P t x := by
  constructor
  · intro h
    constructor
    · intro before y after heq
      exact h before y (after ++ [x]) (by rw [heq, List.append_assoc, List.cons_append])
    · exact h t x [] rfl
  · rintro ⟨hbefore, hlast⟩ before y after heq
    obtain ⟨rfl, rfl, -⟩ | ⟨after', -, heq⟩ := append_singleton_eq heq
    · exact hlast
    · exact hbefore before y after' heq

/-- More entries, of which `P` says nothing. -/
theorem eachEntry_append_of {l : List α} (h : ∀ x ∈ l, ∀ before, P before x) :
    EachEntry P (t ++ l) ↔ EachEntry P t := by
  induction l using List.reverseRecOn with
  | nil => rw [List.append_nil]
  | append_singleton l x ih =>
    rw [← List.append_assoc, eachEntry_concat,
      ih fun y hy ↦ h y (List.mem_append_left _ hy)]
    exact and_iff_left (h x (List.mem_append_right _ (List.mem_singleton_self x)) _)

theorem EachEntry.imp {Q : List α → α → Prop} (himp : ∀ before x, P before x → Q before x)
    (h : EachEntry P t) : EachEntry Q t :=
  fun before x after heq ↦ himp before x (h before x after heq)

end Traces

end Ddmz
