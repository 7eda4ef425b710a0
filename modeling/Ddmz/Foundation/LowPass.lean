import Mathlib

/-!
# A low-pass filter in whole numbers

The first-order recursion `t ↦ (a + (k - 1) * t) / k` with the division of whole numbers. It moves
towards its input `a` and never past it, so that it is monotone on either side. From above it comes
to `a`. From below the division rounds away the last steps, and it may stall up to `k - 1` short.

`Approaches` keeps of the recursion what this rests on, and its sequences are followed from any
index `s` to any index `M`, since an input stays the same for a while only.
-/

namespace Ddmz

/-- The weighted mean of the input `a` and the last output `t`, rounded down. -/
def lowPass (k a t : ℕ) : ℕ := (a + (k - 1) * t) / k

/-- The step `g` moves towards `a`, and does so until it is there from above, or at most `stall`
short of it from below. -/
structure Approaches (g : ℕ → ℕ) (a stall : ℕ) : Prop where
  below : ∀ t ≤ a, t ≤ g t ∧ g t ≤ a
  above : ∀ t, a ≤ t → a ≤ g t ∧ g t ≤ t
  rises : ∀ t, t + stall < a → t < g t
  falls : ∀ t, a < t → g t < t

/-- `k` times the last output, and the difference to the input. -/
theorem lowPass_sum {k : ℕ} (hk : 0 < k) (a t : ℕ) : a + (k - 1) * t + t = k * t + a := by
  obtain ⟨m, rfl⟩ : ∃ m, k = m + 1 := ⟨k - 1, by omega⟩
  rw [Nat.add_sub_cancel]
  ring

theorem lowPass_approaches {k : ℕ} (hk : 0 < k) (a : ℕ) : Approaches (lowPass k a) a (k - 1) where
  below t ht := by
    have hsum := lowPass_sum hk a t
    refine ⟨(Nat.le_div_iff_mul_le hk).mpr ?_, Nat.div_le_of_le_mul ?_⟩
    · rw [Nat.mul_comm t k]
      omega
    · have hmul : (k - 1) * t ≤ (k - 1) * a := Nat.mul_le_mul_left _ ht
      have hsuma := lowPass_sum hk a a
      omega
  above t ht := by
    have hsum := lowPass_sum hk a t
    refine ⟨(Nat.le_div_iff_mul_le hk).mpr ?_, Nat.div_le_of_le_mul ?_⟩
    · have hmul : (k - 1) * a ≤ (k - 1) * t := Nat.mul_le_mul_left _ ht
      have hsuma := lowPass_sum hk a a
      rw [Nat.mul_comm a k]
      omega
    · omega
  rises t ht := by
    have hsum := lowPass_sum hk a t
    have hmul : (t + 1) * k = k * t + k := by ring
    refine (Nat.le_div_iff_mul_le hk).mpr ?_
    rw [hmul]
    omega
  falls t ht := by
    have hsum := lowPass_sum hk a t
    refine (Nat.div_lt_iff_lt_mul hk).mpr ?_
    rw [Nat.mul_comm t k]
    omega

section Sequences

variable {g x : ℕ → ℕ} {a stall s M : ℕ}

/-- From below the sequence rises, and not past `a`. -/
theorem Approaches.seq_below (h : Approaches g a stall)
    (hx : ∀ n, s ≤ n → n < M → x (n + 1) = g (x n)) (h0 : x s ≤ a) :
    ∀ n, s ≤ n → n ≤ M → x n ≤ a ∧ (a ≤ x n + stall ∨ x s + (n - s) ≤ x n) := by
  intro n hsn
  induction n, hsn using Nat.le_induction with
  | base =>
    intro _
    exact ⟨h0, Or.inr (by omega)⟩
  | succ n hsn ih =>
    intro hnM
    obtain ⟨hle, hfar⟩ := ih (by omega)
    obtain ⟨hup, hle'⟩ := h.below (x n) hle
    rw [hx n hsn hnM]
    refine ⟨hle', ?_⟩
    rcases hfar with hnear | hfar
    · exact Or.inl (by omega)
    · by_cases hshort : x n + stall < a
      · have := h.rises (x n) hshort
        exact Or.inr (by omega)
      · exact Or.inl (by omega)

/-- From above it falls, and not past `a`. -/
theorem Approaches.seq_above (h : Approaches g a stall)
    (hx : ∀ n, s ≤ n → n < M → x (n + 1) = g (x n)) (h0 : a ≤ x s) :
    ∀ n, s ≤ n → n ≤ M → a ≤ x n ∧ x n ≤ x s ∧ (x n = a ∨ x n + (n - s) ≤ x s) := by
  intro n hsn
  induction n, hsn using Nat.le_induction with
  | base =>
    intro _
    exact ⟨h0, le_rfl, Or.inr (by omega)⟩
  | succ n hsn ih =>
    intro hnM
    obtain ⟨hle, hle0, hfar⟩ := ih (by omega)
    obtain ⟨hle', hdown⟩ := h.above (x n) hle
    rw [hx n hsn hnM]
    refine ⟨hle', hdown.trans hle0, ?_⟩
    rcases Nat.eq_or_lt_of_le hle with heq | hlt
    · rw [← heq] at hle' hdown ⊢
      exact Or.inl (le_antisymm hdown hle')
    · have := h.falls (x n) hlt
      exact Or.inr (by omega)

/-- **The sequence settles**: after as many steps as the larger of input and first value it is at
most `stall` short of the input, and not past it. -/
theorem Approaches.settles (h : Approaches g a stall)
    (hx : ∀ n, s ≤ n → n < M → x (n + 1) = g (x n)) {n : ℕ} (hn : s + max a (x s) ≤ n)
    (hnM : n ≤ M) : x n ≤ a ∧ a ≤ x n + stall := by
  rcases Nat.le_total (x s) a with h0 | h0
  · obtain ⟨hle, hfar⟩ := h.seq_below hx h0 n (by omega) hnM
    exact ⟨hle, by omega⟩
  · obtain ⟨hle, -, hfar⟩ := h.seq_above hx h0 n (by omega) hnM
    omega

end Sequences

end Ddmz
