import Mathlib

/-!
# Searching and replacing in lists

A pattern stands at the beginning of a text if the text is as long and its elements match those of
the pattern one by one; what matches is a parameter. `firstOcc` is where it stands first, and
`replaceAll` replaces it from left to right, going on behind each replaced piece.

With more matches there are at least as many such pieces: going from left to right finds as many as
there can be side by side. That is `countOcc_le_countOcc`.
-/

namespace Ddmz

variable {α : Type*}

/-! ## Where something stands first -/

/-- The first position from which the rest of the list meets `q`. -/
def firstSuffix (q : List α → Bool) : List α → Option ℕ
  | [] => if q [] then some 0 else none
  | b :: s => if q (b :: s) then some 0 else (firstSuffix q s).map (· + 1)

section FirstSuffix

variable {q q' : List α → Bool} {s : List α} {k : ℕ}

theorem firstSuffix_eq_none : firstSuffix q s = none ↔ ∀ k ≤ s.length, q (s.drop k) = false := by
  induction s with
  | nil => simp [firstSuffix]
  | cons b s ih =>
    rw [firstSuffix]
    constructor
    · intro h k hk
      split at h
      · cases h
      · rename_i hq
        cases k with
        | zero => simpa using hq
        | succ k => exact ih.mp (Option.map_eq_none_iff.mp h) k (Nat.le_of_succ_le_succ hk)
    · intro h
      have hq : q (b :: s) = false := h 0 (Nat.zero_le _)
      rw [hq, if_neg Bool.false_ne_true, Option.map_eq_none_iff, ih]
      exact fun k hk ↦ h (k + 1) (Nat.succ_le_succ hk)

theorem firstSuffix_eq_some : firstSuffix q s = some k ↔
    k ≤ s.length ∧ q (s.drop k) = true ∧ ∀ j < k, q (s.drop j) = false := by
  induction s generalizing k with
  | nil =>
    rw [firstSuffix]
    constructor
    · intro h
      split at h
      · obtain rfl := Option.some.inj h
        exact ⟨le_refl _, ‹_›, by simp⟩
      · cases h
    · rintro ⟨hk, hq, -⟩
      obtain rfl := Nat.le_zero.mp hk
      exact if_pos hq
  | cons b s ih =>
    rw [firstSuffix]
    by_cases hq : q (b :: s) = true
    · rw [if_pos hq]
      constructor
      · intro h
        obtain rfl := Option.some.inj h
        exact ⟨Nat.zero_le _, hq, by simp⟩
      · rintro ⟨-, -, hfirst⟩
        cases k with
        | zero => rfl
        | succ k => exact absurd hq (by simpa using hfirst 0 (Nat.succ_pos k))
    · rw [if_neg hq]
      cases k with
      | zero => simp [hq]
      | succ k =>
        have hsucc : (firstSuffix q s).map (· + 1) = some (k + 1) ↔ firstSuffix q s = some k := by
          simp
        rw [hsucc, ih, List.length_cons, Nat.add_le_add_iff_right]
        refine and_congr_right fun _ ↦ and_congr_right fun _ ↦ ⟨fun h j hj ↦ ?_, fun h j hj ↦ ?_⟩
        · cases j with
          | zero => simpa using hq
          | succ j => exact h j (Nat.lt_of_succ_lt_succ hj)
        · exact h (j + 1) (Nat.succ_lt_succ hj)

/-- A stronger condition is met first at the same place if and only if it is met wherever the weaker
one is met first. -/
theorem firstSuffix_congr_iff (hle : ∀ s, q' s = true → q s = true) :
    firstSuffix q' s = firstSuffix q s ↔
      ∀ k ≤ s.length, q (s.drop k) = true → ∃ j ≤ k, q' (s.drop j) = true := by
  constructor
  · intro h k hk hq
    cases hfirst : firstSuffix q s with
    | none => exact absurd hq (by simp [firstSuffix_eq_none.mp hfirst k hk])
    | some j =>
      refine ⟨j, ?_, (firstSuffix_eq_some.mp (h.trans hfirst)).2.1⟩
      by_contra hj
      exact absurd hq (by simp [(firstSuffix_eq_some.mp hfirst).2.2 k (Nat.lt_of_not_le hj)])
  · intro h
    cases hfirst : firstSuffix q s with
    | none =>
      refine firstSuffix_eq_none.mpr fun k hk ↦ ?_
      have hq := firstSuffix_eq_none.mp hfirst k hk
      exact Bool.eq_false_iff.mpr fun hq' ↦ absurd (hle _ hq') (by simp [hq])
    | some k =>
      obtain ⟨hk, hq, hbefore⟩ := firstSuffix_eq_some.mp hfirst
      have hbefore' : ∀ j < k, q' (s.drop j) = false := fun j hj ↦
        Bool.eq_false_iff.mpr fun hq' ↦ absurd (hle _ hq') (by simp [hbefore j hj])
      obtain ⟨j, hj, hq'⟩ := h k hk hq
      obtain rfl : j = k := by
        by_contra hne
        exact absurd hq' (by simp [hbefore' j (Nat.lt_of_le_of_ne hj hne)])
      exact firstSuffix_eq_some.mpr ⟨hk, hq', hbefore'⟩

end FirstSuffix

/-! ## Patterns -/

variable (r : α → α → Bool)

/-- `p` stands at the beginning of `s`. -/
def startsWith : List α → List α → Bool
  | [], _ => true
  | _ :: _, [] => false
  | a :: p, b :: s => r a b && startsWith p s

/-- Where `p` stands first in `s`. -/
def firstOcc (p s : List α) : Option ℕ := firstSuffix (startsWith r p) s

variable {r} {p s t : List α}

theorem startsWith_iff : startsWith r p s = true ↔
    ∃ m t, s = m ++ t ∧ List.Forall₂ (fun a b ↦ r a b = true) p m := by
  induction p generalizing s with
  | nil => exact ⟨fun _ ↦ ⟨[], s, rfl, .nil⟩, fun _ ↦ rfl⟩
  | cons a p ih =>
    cases s with
    | nil => simp [startsWith]
    | cons b s =>
      rw [startsWith, Bool.and_eq_true, ih]
      constructor
      · rintro ⟨hab, m, t, rfl, hm⟩
        exact ⟨b :: m, t, rfl, .cons hab hm⟩
      · rintro ⟨_, t, heq, _ | @⟨_, c, _, m, hac, hm⟩⟩
        obtain ⟨rfl, rfl⟩ := List.cons.inj heq
        exact ⟨hac, m, t, rfl, hm⟩

theorem length_le_of_startsWith (h : startsWith r p s = true) : p.length ≤ s.length := by
  obtain ⟨m, t, rfl, hm⟩ := startsWith_iff.mp h
  rw [hm.length_eq, List.length_append]
  exact Nat.le_add_right _ _

/-- What comes behind a text that is long enough does not matter. -/
theorem startsWith_append (h : p.length ≤ s.length) :
    startsWith r p (s ++ t) = startsWith r p s := by
  induction p generalizing s with
  | nil => rfl
  | cons a p ih =>
    cases s with
    | nil => exact absurd h (by simp)
    | cons b s =>
      rw [List.cons_append, startsWith, startsWith, ih (Nat.le_of_succ_le_succ h)]

/-- Nor does what comes behind an element that the pattern does not have. -/
theorem startsWith_append_cons {z : α} (hz : ∀ a ∈ p, r a z = false) :
    startsWith r p (s ++ z :: t) = startsWith r p s := by
  induction p generalizing s with
  | nil => rfl
  | cons a p ih =>
    have hp : ∀ a ∈ p, r a z = false := fun a ha ↦ hz a (List.mem_cons_of_mem _ ha)
    cases s with
    | nil => simp [startsWith, hz a List.mem_cons_self]
    | cons b s => rw [List.cons_append, startsWith, startsWith, ih hp]

theorem startsWith_mono {r' : α → α → Bool} (hle : ∀ a b, r a b = true → r' a b = true)
    (h : startsWith r p s = true) : startsWith r' p s = true := by
  obtain ⟨m, t, rfl, hm⟩ := startsWith_iff.mp h
  exact startsWith_iff.mpr ⟨m, t, rfl, hm.imp hle⟩

/-- A pattern stands nowhere in a text that is too short for it. -/
theorem firstOcc_eq_none_of_lt (h : s.length < p.length) : firstOcc r p s = none := by
  refine firstSuffix_eq_none.mpr fun k _ ↦ Bool.eq_false_iff.mpr fun hstarts ↦ ?_
  have hle := length_le_of_startsWith hstarts
  rw [List.length_drop] at hle
  omega

/-! ## Replacing -/

section Rewrite

variable {β : Type*} (rule : List α → Option (ℕ × List β)) (keep : α → β)

/-- One pass from left to right. Where `rule` says so, it replaces as many elements as `rule` says,
and goes on behind them; the other elements it keeps. It is to skip `k` elements first. -/
def rewriteFrom : ℕ → List α → List β
  | _, [] => []
  | k + 1, _ :: s => rewriteFrom k s
  | 0, b :: s =>
    match rule (b :: s) with
    | none => keep b :: rewriteFrom 0 s
    | some (k, q) => q ++ rewriteFrom (k - 1) s

variable {rule keep}

theorem rewriteFrom_eq_drop (k : ℕ) (s : List α) :
    rewriteFrom rule keep k s = rewriteFrom rule keep 0 (s.drop k) := by
  induction s generalizing k with
  | nil => cases k <;> rfl
  | cons b s ih =>
    cases k with
    | zero => rfl
    | succ k => exact ih k

theorem rewriteFrom_keep {b : α} (h : rule (b :: s) = none) :
    rewriteFrom rule keep 0 (b :: s) = keep b :: rewriteFrom rule keep 0 s := by
  simp only [rewriteFrom, h]

theorem rewriteFrom_replace {b : α} {k : ℕ} {q : List β} (h : rule (b :: s) = some (k + 1, q)) :
    rewriteFrom rule keep 0 (b :: s) = q ++ rewriteFrom rule keep 0 (s.drop k) := by
  simp only [rewriteFrom, h, Nat.add_sub_cancel]
  rw [rewriteFrom_eq_drop]

end Rewrite

variable (r)

/-- Replace `p` by `q` where it stands. -/
def replaceRule (p q s : List α) : Option (ℕ × List α) :=
  if startsWith r p s then some (p.length, q) else none

/-- Replace `p` by `q` wherever it stands, from left to right. -/
def replaceAll (p q s : List α) : List α := rewriteFrom (replaceRule r p q) id 0 s

/-- How many pieces are replaced, if `k` elements are to be skipped first. -/
def countFrom (p : List α) : ℕ → List α → ℕ
  | _, [] => 0
  | k + 1, _ :: s => countFrom p k s
  | 0, b :: s => if startsWith r p (b :: s) then countFrom p (p.length - 1) s + 1
    else countFrom p 0 s

def countOcc (p s : List α) : ℕ := countFrom r p 0 s

variable {r} {q : List α} {k : ℕ}

theorem countFrom_eq_drop (k : ℕ) (s : List α) :
    countFrom r p k s = countOcc r p (s.drop k) := by
  induction s generalizing k with
  | nil => cases k <;> rfl
  | cons b s ih =>
    cases k with
    | zero => rfl
    | succ k => exact ih k

theorem firstOcc_cons {b : α} : firstOcc r p (b :: s) =
    if startsWith r p (b :: s) then some 0 else (firstOcc r p s).map (· + 1) := rfl

/-- **What a pass does without an occurrence**: it only keeps. -/
theorem eq_foldr_of_firstOcc_none {γ : Type*} {F : List α → γ} {keep : α → γ → γ}
    (hkeep : ∀ b s, startsWith r p (b :: s) = false → F (b :: s) = keep b (F s))
    (h : firstOcc r p s = none) : F s = s.foldr keep (F []) := by
  induction s with
  | nil => rfl
  | cons b s ih =>
    rw [firstOcc_cons] at h
    split at h
    · cases h
    · rename_i hstarts
      rw [hkeep b s (Bool.eq_false_of_not_eq_true hstarts), ih (Option.map_eq_none_iff.mp h),
        List.foldr_cons]

/-- And what it does in front of the first one. -/
theorem eq_foldr_of_firstOcc {γ : Type*} {F : List α → γ} {keep : α → γ → γ}
    (hkeep : ∀ b s, startsWith r p (b :: s) = false → F (b :: s) = keep b (F s))
    (h : firstOcc r p s = some k) : F s = (s.take k).foldr keep (F (s.drop k)) := by
  induction s generalizing k with
  | nil =>
    rw [List.take_nil, List.drop_nil]
    rfl
  | cons b s ih =>
    rw [firstOcc_cons] at h
    split at h
    · obtain rfl := Option.some.inj h
      rfl
    · rename_i hstarts
      obtain ⟨k, hk, rfl⟩ := Option.map_eq_some_iff.mp h
      rw [hkeep b s (Bool.eq_false_of_not_eq_true hstarts), ih hk, List.take_succ_cons,
        List.foldr_cons, List.drop_succ_cons]

theorem replaceAll_keep (b : α) (s : List α) (h : startsWith r p (b :: s) = false) :
    replaceAll r p q (b :: s) = b :: replaceAll r p q s := by
  rw [replaceAll, rewriteFrom_keep (by rw [replaceRule, h]; rfl), ← replaceAll, id]

theorem countOcc_keep (b : α) (s : List α) (h : startsWith r p (b :: s) = false) :
    countOcc r p (b :: s) = countOcc r p s := by
  rw [countOcc, countFrom, h]
  rfl

/-- Where the pattern stands, there is something behind it or it is empty. -/
theorem exists_cons_of_startsWith (hp : p ≠ []) (h : startsWith r p s = true) :
    ∃ b s' n, s = b :: s' ∧ p.length = n + 1 := by
  obtain ⟨n, hn⟩ := Nat.exists_eq_succ_of_ne_zero (mt List.length_eq_zero_iff.mp hp)
  cases s with
  | nil =>
    have hle := length_le_of_startsWith h
    rw [List.length_nil] at hle
    omega
  | cons b s => exact ⟨b, s, n, rfl, hn⟩

theorem replaceAll_of_startsWith (hp : p ≠ []) (h : startsWith r p s = true) :
    replaceAll r p q s = q ++ replaceAll r p q (s.drop p.length) := by
  obtain ⟨b, s, n, rfl, hn⟩ := exists_cons_of_startsWith hp h
  have hrule : replaceRule r p q (b :: s) = some (n + 1, q) := by rw [replaceRule, if_pos h, hn]
  rw [replaceAll, rewriteFrom_replace hrule, hn, List.drop_succ_cons, ← replaceAll]

theorem countOcc_of_startsWith (hp : p ≠ []) (h : startsWith r p s = true) :
    countOcc r p s = countOcc r p (s.drop p.length) + 1 := by
  obtain ⟨b, s, n, rfl, hn⟩ := exists_cons_of_startsWith hp h
  rw [countOcc, countFrom, if_pos h, countFrom_eq_drop, hn, List.drop_succ_cons,
    Nat.add_sub_cancel]

/-- A text without an occurrence is left as it is. -/
theorem replaceAll_of_none (h : firstOcc r p s = none) : replaceAll r p q s = s :=
  (eq_foldr_of_firstOcc_none replaceAll_keep h).trans List.foldr_cons_nil

theorem countOcc_of_none (h : firstOcc r p s = none) : countOcc r p s = 0 := by
  have hpass : countOcc r p s = s.foldr (fun _ n ↦ n) 0 :=
    eq_foldr_of_firstOcc_none countOcc_keep h
  rw [hpass, List.foldr_fixed]

/-- The first occurrence is replaced, and then those behind it. -/
theorem replaceAll_of_some (hp : p ≠ []) (h : firstOcc r p s = some k) :
    replaceAll r p q s = s.take k ++ (q ++ replaceAll r p q (s.drop (k + p.length))) := by
  obtain ⟨-, hstarts, -⟩ := firstSuffix_eq_some.mp h
  have hpass : replaceAll r p q s = (s.take k).foldr .cons (replaceAll r p q (s.drop k)) :=
    eq_foldr_of_firstOcc replaceAll_keep h
  rw [hpass, List.foldr_cons_eq_append', replaceAll_of_startsWith hp hstarts, List.drop_drop]

theorem countOcc_of_some (hp : p ≠ []) (h : firstOcc r p s = some k) :
    countOcc r p s = countOcc r p (s.drop (k + p.length)) + 1 := by
  obtain ⟨-, hstarts, -⟩ := firstSuffix_eq_some.mp h
  have hpass : countOcc r p s = (s.take k).foldr (fun _ n ↦ n) (countOcc r p (s.drop k)) :=
    eq_foldr_of_firstOcc countOcc_keep h
  rw [hpass, List.foldr_fixed, countOcc_of_startsWith hp hstarts, List.drop_drop]

/-- Where the first occurrence is, the text has room for the pattern. -/
theorem firstOcc_le (h : firstOcc r p s = some k) : k + p.length ≤ s.length := by
  obtain ⟨hk, hstarts, -⟩ := firstSuffix_eq_some.mp h
  have hle := length_le_of_startsWith hstarts
  rw [List.length_drop] at hle
  omega

/-- The text in front of the first occurrence, the occurrence, and the text behind it. -/
theorem exists_split_of_firstOcc (h : firstOcc r p s = some k) :
    ∃ a m c, s = a ++ (m ++ c) ∧ a.length = k ∧ m.length = p.length ∧
      c = s.drop (k + p.length) ∧ a = s.take k := by
  have hle := firstOcc_le h
  refine ⟨s.take k, (s.drop k).take p.length, s.drop (k + p.length), ?_, ?_, ?_, rfl, rfl⟩
  · rw [← List.drop_drop, List.take_append_drop, List.take_append_drop]
  · exact List.length_take_of_le (by omega)
  · exact List.length_take_of_le (by rw [List.length_drop]; omega)

/-- A pattern of one element. -/
theorem replaceAll_singleton (c : α) (s : List α) :
    replaceAll r [c] q s = s.flatMap fun b ↦ if r c b then q else [b] := by
  induction s with
  | nil => rfl
  | cons b s ih =>
    rw [List.flatMap_cons, ← ih]
    have hstarts : startsWith r [c] (b :: s) = r c b := Bool.and_true _
    by_cases hcb : r c b = true
    · rw [if_pos hcb, replaceAll_of_startsWith (List.cons_ne_nil c []) (hstarts.trans hcb)]
      rfl
    · have hnot : startsWith r [c] (b :: s) = false :=
        hstarts.trans (Bool.eq_false_of_not_eq_true hcb)
      rw [if_neg hcb, replaceAll_keep b s hnot]
      rfl

/-- Only what matches the elements of the pattern matters. -/
theorem countOcc_congr {r' : α → α → Bool} (h : ∀ a ∈ p, r a = r' a) :
    countOcc r p s = countOcc r' p s := by
  have hstarts : ∀ s, startsWith r p s = startsWith r' p s := by
    induction p with
    | nil => exact fun _ ↦ rfl
    | cons a p ih =>
      intro s
      cases s with
      | nil => rfl
      | cons b s =>
        rw [startsWith, startsWith, h a List.mem_cons_self,
          ih fun a ha ↦ h a (List.mem_cons_of_mem _ ha)]
  have hcount : ∀ s k, countFrom r p k s = countFrom r' p k s := by
    intro s
    induction s with
    | nil =>
      intro k
      cases k <;> rfl
    | cons b s ih =>
      intro k
      cases k with
      | zero => rw [countFrom, countFrom, hstarts, ih, ih]
      | succ k => exact ih k
  exact hcount s 0

/-- Every replaced piece makes the text as much longer as the replacement is than the pattern. -/
theorem length_replaceAll (hp : p ≠ []) (s : List α) :
    (replaceAll r p q s).length + p.length * countOcc r p s
      = s.length + q.length * countOcc r p s := by
  induction hlen : s.length using Nat.strong_induction_on generalizing s with
  | _ n ih =>
    cases h : firstOcc r p s with
    | none => rw [replaceAll_of_none h, countOcc_of_none h, hlen, Nat.mul_zero, Nat.mul_zero]
    | some k =>
      have hle := firstOcc_le h
      have hpos := List.length_pos_iff.mpr hp
      have hrest := ih (s.drop (k + p.length)).length (by rw [List.length_drop]; omega) _ rfl
      rw [replaceAll_of_some hp h, countOcc_of_some hp h, List.length_append, List.length_append,
        List.length_take, Nat.mul_succ, Nat.mul_succ, Nat.min_eq_left (by omega)]
      rw [List.length_drop] at hrest
      omega

/-- The pass that has less to skip is ahead, and one that is behind by less than the pattern is
behind by one piece at most. -/
private theorem countFrom_le {r' : α → α → Bool} (hle : ∀ a b, r a b = true → r' a b = true)
    (s : List α) (j k : ℕ) :
    (j ≤ k → countFrom r p k s ≤ countFrom r' p j s) ∧
      (j ≤ p.length - 1 → countFrom r p k s ≤ countFrom r' p j s + 1) := by
  induction s generalizing j k with
  | nil => cases j <;> cases k <;> simp [countFrom]
  | cons b s ih =>
    cases j with
    | succ j =>
      cases k with
      | succ k => exact ⟨fun h ↦ (ih j k).1 (by omega), fun h ↦ (ih j k).2 (by omega)⟩
      | zero =>
        refine ⟨fun h ↦ absurd h (by omega), fun h ↦ ?_⟩
        rw [countFrom, countFrom]
        split
        · exact Nat.add_le_add_right ((ih j (p.length - 1)).1 (by omega)) 1
        · exact (ih j 0).2 (by omega)
    | zero =>
      have hahead : ∀ k, countFrom r p k (b :: s) ≤ countFrom r' p 0 (b :: s) := by
        intro k
        cases k with
        | zero =>
          rw [countFrom, countFrom]
          by_cases hr : startsWith r p (b :: s) = true
          · rw [if_pos hr, if_pos (startsWith_mono hle hr)]
            exact Nat.add_le_add_right ((ih _ _).1 (le_refl _)) 1
          · rw [if_neg hr]
            split
            · exact (ih _ _).2 (le_refl _)
            · exact (ih 0 0).1 (le_refl 0)
        | succ k =>
          rw [countFrom, countFrom]
          split
          · exact (ih _ k).2 (le_refl _)
          · exact (ih 0 k).1 (Nat.zero_le k)
      exact ⟨fun _ ↦ hahead k, fun _ ↦ (hahead k).trans (Nat.le_succ _)⟩

/-- **More matches, more pieces.** -/
theorem countOcc_le_countOcc {r' : α → α → Bool} (hle : ∀ a b, r a b = true → r' a b = true)
    (s : List α) : countOcc r p s ≤ countOcc r' p s :=
  (countFrom_le hle s 0 0).1 (le_refl 0)

end Ddmz
