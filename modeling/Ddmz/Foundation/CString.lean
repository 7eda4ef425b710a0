import Mathlib

/-!
# Strings in memory

A block of memory as a list of bytes, and the string that a pointer into it stands for: the bytes up
to the next zero. `strspn` and `strpbrk` are given the string itself.

A string stands in the first `n` bytes of a block if its terminator does too, and then nothing
behind them matters to it: `Stands.congr`.
-/

namespace Ddmz

/-- The string at a pointer. -/
def cstrAt (mem : List UInt8) (p : ℕ) : List UInt8 := (mem.drop p).takeWhile (· ≠ 0)

/-- How many bytes at the start of a string are among `accept`. -/
def strspn (s accept : List UInt8) : ℕ := (s.takeWhile (· ∈ accept)).length

/-- Where the first byte is that is among `accept`. -/
def strpbrk (s accept : List UInt8) : Option ℕ := s.findIdx? (· ∈ accept)

variable {mem mem' pre post s t accept : List UInt8} {n p : ℕ} {c : UInt8}

theorem cstrAt_append (hs : (0 : UInt8) ∉ s) :
    cstrAt (pre ++ (s ++ 0 :: post)) pre.length = s := by
  have hne : ∀ b ∈ s, (decide (b ≠ 0)) = true := fun b hb ↦
    decide_eq_true fun h0 ↦ hs (h0 ▸ hb)
  rw [cstrAt, List.drop_left, List.takeWhile_append_of_pos hne, List.takeWhile_cons]
  simp

/-- A string ends in front of any zero behind its start. -/
theorem length_cstrAt_le (hp : p ≤ n) (hzero : mem.drop n = 0 :: post) :
    p + (cstrAt mem p).length ≤ n := by
  have hsplit : mem.drop p = (mem.drop p).take (n - p) ++ 0 :: post := by
    have hdrop : (mem.drop p).drop (n - p) = 0 :: post := by
      rw [List.drop_drop, Nat.add_sub_cancel' hp, hzero]
    rw [← hdrop, List.take_append_drop]
  rw [cstrAt, hsplit, List.takeWhile_append]
  split
  · simp
    omega
  · have hle := (List.takeWhile_sublist (l := (mem.drop p).take (n - p)) (· ≠ 0)).length_le
    rw [List.length_take] at hle
    omega

theorem strspn_le (s accept : List UInt8) : strspn s accept ≤ s.length :=
  (List.takeWhile_sublist _).length_le

theorem strpbrk_lt {i : ℕ} (h : strpbrk s accept = some i) : i < s.length :=
  (List.findIdx?_eq_some_iff_getElem.mp h).1

theorem strspn_append (hs : ∀ b ∈ s, b ∈ accept) (ht : ∀ b ∈ t.head?, b ∉ accept) :
    strspn (s ++ t) accept = s.length := by
  rw [strspn, List.takeWhile_append_of_pos (by simpa using hs)]
  cases t with
  | nil => simp
  | cons b t => simp [ht b rfl]

theorem strpbrk_append (hs : ∀ b ∈ s, b ∉ accept) (hc : c ∈ accept) :
    strpbrk (s ++ c :: t) accept = some s.length := by
  rw [strpbrk, List.findIdx?_append, List.findIdx?_eq_none_iff.mpr (by simpa using hs),
    List.findIdx?_cons]
  simp [hc]

theorem strpbrk_eq_none (hs : ∀ b ∈ s, b ∉ accept) : strpbrk s accept = none :=
  List.findIdx?_eq_none_iff.mpr (by simpa using hs)

/-- `s` is the string at `p`, and ends in the first `n` bytes. -/
def Stands (mem : List UInt8) (n p : ℕ) (s : List UInt8) : Prop :=
  (0 : UInt8) ∉ s ∧ ∃ pre post, mem.take n = pre ++ (s ++ 0 :: post) ∧ pre.length = p

theorem Stands.cstrAt (h : Stands mem n p s) : cstrAt mem p = s := by
  obtain ⟨hs, pre, post, htake, rfl⟩ := h
  rw [← List.take_append_drop n mem, htake, List.append_assoc, List.append_assoc, List.cons_append]
  exact cstrAt_append hs

theorem Stands.congr (h : Stands mem n p s) (hmem : mem'.take n = mem.take n) :
    Stands mem' n p s := by
  obtain ⟨hs, pre, post, htake, hp⟩ := h
  exact ⟨hs, pre, post, hmem.trans htake, hp⟩

/-- A string stands in front of what comes behind its terminator. -/
theorem stands_append (hs : (0 : UInt8) ∉ s) :
    Stands (pre ++ (s ++ 0 :: post)) (pre.length + (s.length + 1)) pre.length s := by
  refine ⟨hs, pre, [], ?_, rfl⟩
  have hsplit : pre ++ (s ++ 0 :: post) = (pre ++ (s ++ [0])) ++ post := by simp
  rw [hsplit]
  exact List.take_left' (by simp)

end Ddmz
