import Mathlib

/-!
# Digits of a fixed number

The last `k` digits of a number in base `B`, the most significant first, and a number that takes in
digits one by one. A writer that starts with the last digit and a reader that starts with the first
meet in `foldl_lowDigits`.
-/

namespace Ddmz

/-- The last `k` digits of `c` in base `B`, the most significant first. -/
def lowDigits (B : ℕ) : ℕ → ℕ → List ℕ
  | 0, _ => []
  | k + 1, c => lowDigits B k (c / B) ++ [c % B]

/-- A number that takes in a digit. -/
def pushDigit (B a d : ℕ) : ℕ := a * B + d

variable {B : ℕ}

@[simp] theorem length_lowDigits (k c : ℕ) : (lowDigits B k c).length = k := by
  induction k generalizing c with
  | zero => rfl
  | succ k ih => rw [lowDigits, List.length_append, ih, List.length_singleton]

theorem lt_of_mem_lowDigits (hB : 0 < B) {k c d : ℕ} (h : d ∈ lowDigits B k c) : d < B := by
  induction k generalizing c with
  | zero => simp [lowDigits] at h
  | succ k ih =>
    rw [lowDigits, List.mem_append, List.mem_singleton] at h
    obtain h | rfl := h
    · exact ih h
    · exact Nat.mod_lt _ hB

/-- **Written from the last digit, read from the first.** -/
theorem foldl_lowDigits (k a c : ℕ) :
    (lowDigits B k c).foldl (pushDigit B) a = a * B ^ k + c % B ^ k := by
  induction k generalizing c with
  | zero => simp [lowDigits, Nat.mod_one]
  | succ k ih =>
    rw [lowDigits, List.foldl_append, ih, List.foldl_cons, List.foldl_nil, pushDigit, pow_succ,
      Nat.add_mul, Nat.mul_assoc, Nat.add_assoc]
    congr 1
    rw [Nat.mul_comm (B ^ k) B, Nat.mod_mul, Nat.mul_comm B, Nat.add_comm]

/-- A number that takes in digits stays below the bound that they leave room for. -/
theorem foldl_pushDigit_lt {ds : List ℕ} (hds : ∀ d ∈ ds, d < B) {a n : ℕ} (ha : a < n) :
    ds.foldl (pushDigit B) a < n * B ^ ds.length := by
  induction ds generalizing a n with
  | nil => simpa using ha
  | cons d ds ih =>
    rw [List.foldl_cons, List.length_cons, pow_succ', ← Nat.mul_assoc]
    refine ih (fun x hx ↦ hds x (List.mem_cons_of_mem _ hx)) ?_
    have hd := hds d List.mem_cons_self
    calc pushDigit B a d < a * B + B := Nat.add_lt_add_left hd _
      _ = (a + 1) * B := (Nat.succ_mul a B).symm
      _ ≤ n * B := Nat.mul_le_mul_right B ha

/-- It is zero only if it was, and took in nothing else. -/
theorem foldl_pushDigit_eq_zero (hB : 0 < B) {ds : List ℕ} {a : ℕ} :
    ds.foldl (pushDigit B) a = 0 ↔ a = 0 ∧ ∀ d ∈ ds, d = 0 := by
  induction ds generalizing a with
  | nil => simp
  | cons d ds ih =>
    rw [List.foldl_cons, ih, List.forall_mem_cons, ← and_assoc, pushDigit, Nat.add_eq_zero_iff,
      Nat.mul_eq_zero]
    simp [hB.ne']

end Ddmz
