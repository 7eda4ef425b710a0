import Mathlib

/-!
# Memory blocks with a high-water mark

A block of memory seen from its first byte: every offset has a contents, including those behind
the end of the block, and the block remembers how far it has ever been written. The size of the
block is not part of it. That a program respects a size is the statement `b.high ≤ size`, and a
program that does not is modelled as faithfully as one that does.

`read` and `write` are `memcpy` out of and into the block, `clear` is `memset` to zero, and
`strlen` counts up to a terminator.
-/

namespace Ddmz

/-- Memory from the start of a block on. -/
structure Buffer where
  cells : ℕ → UInt8
  /-- One past the end of the furthest write so far. -/
  high : ℕ

namespace Buffer

/-- Copy `data` to offset `off`. -/
def write (b : Buffer) (off : ℕ) (data : List UInt8) : Buffer where
  cells k := if off ≤ k ∧ k < off + data.length then data.getD (k - off) 0 else b.cells k
  high := max b.high (off + data.length)

/-- Set the first `n` bytes to zero. -/
def clear (b : Buffer) (n : ℕ) : Buffer := b.write 0 (List.replicate n 0)

/-- The `n` bytes from offset `off` on. -/
def read (b : Buffer) (off n : ℕ) : List UInt8 := (List.range n).map fun k ↦ b.cells (off + k)

variable {b : Buffer} {off : ℕ} {data : List UInt8}

@[simp] theorem high_write : (b.write off data).high = max b.high (off + data.length) := rfl

@[simp] theorem high_clear (n : ℕ) : (b.clear n).high = max b.high n := by
  rw [clear, high_write, List.length_replicate, Nat.zero_add]

@[simp] theorem length_read (n : ℕ) : (b.read off n).length = n := by
  rw [read, List.length_map, List.length_range]

@[simp] theorem read_zero : b.read off 0 = [] := rfl

theorem read_add (m n : ℕ) : b.read off (m + n) = b.read off m ++ b.read (off + m) n := by
  rw [read, read, read, List.range_add, List.map_append, List.map_map]
  simp only [Function.comp_def, Nat.add_assoc]

theorem read_succ (n : ℕ) : b.read off (n + 1) = b.cells off :: b.read (off + 1) n := by
  rw [Nat.add_comm, read_add]
  rfl

theorem read_congr {b' : Buffer} {n : ℕ} (h : ∀ k < n, b.cells (off + k) = b'.cells (off + k)) :
    b.read off n = b'.read off n := by
  rw [read, read]
  exact List.map_congr_left fun k hk ↦ h k (List.mem_range.mp hk)

/-- What has just been written is read back. -/
@[simp] theorem read_write (b : Buffer) (off : ℕ) (data : List UInt8) :
    (b.write off data).read off data.length = data := by
  apply List.ext_getElem (by simp)
  intro k h1 h2
  simp only [read, write, List.getElem_map, List.getElem_range]
  rw [if_pos ⟨Nat.le_add_right _ _, by omega⟩, Nat.add_sub_cancel_left,
    List.getD_eq_getElem _ _ h2]

/-- Writing in two pieces. -/
theorem write_append {c d : List UInt8} :
    b.write off (c ++ d) = (b.write off c).write (off + c.length) d := by
  have hcells : (b.write off (c ++ d)).cells
      = ((b.write off c).write (off + c.length) d).cells := by
    funext k
    simp only [write, List.length_append]
    by_cases hk : off + c.length ≤ k ∧ k < off + c.length + d.length
    · rw [if_pos hk, if_pos ⟨by omega, by omega⟩, List.getD_append_right _ _ _ _ (by omega),
        Nat.sub_sub]
    · rw [if_neg hk]
      by_cases hc : off ≤ k ∧ k < off + c.length
      · rw [if_pos hc, if_pos ⟨hc.1, by omega⟩, List.getD_append _ _ _ _ (by omega)]
      · rw [if_neg hc, if_neg (by omega)]
  have hhigh : (b.write off (c ++ d)).high
      = ((b.write off c).write (off + c.length) d).high := by
    simp only [high_write, List.length_append]
    omega
  cases h : b.write off (c ++ d)
  cases h' : (b.write off c).write (off + c.length) d
  rw [h, h'] at hcells hhigh
  exact congrArg₂ Buffer.mk hcells hhigh

/-- The same, with the second piece first. -/
theorem write_append_back {c d : List UInt8} :
    b.write off (c ++ d) = (b.write (off + c.length) d).write off c := by
  rw [write_append]
  have hcells : ((b.write off c).write (off + c.length) d).cells
      = ((b.write (off + c.length) d).write off c).cells := by
    funext k
    simp only [write]
    by_cases hk : off ≤ k ∧ k < off + c.length
    · rw [if_neg (by omega), if_pos hk, if_pos hk]
    · rw [if_neg hk, if_neg hk]
  have hhigh : ((b.write off c).write (off + c.length) d).high
      = ((b.write (off + c.length) d).write off c).high := by
    simp only [high_write]
    omega
  cases h : (b.write off c).write (off + c.length) d
  cases h' : (b.write (off + c.length) d).write off c
  rw [h, h'] at hcells hhigh
  exact congrArg₂ Buffer.mk hcells hhigh

/-- What lies in front of a write is untouched. -/
theorem read_write_before {n : ℕ} {a : ℕ} (h : a + n ≤ off) :
    (b.write off data).read a n = b.read a n := by
  refine read_congr fun k hk ↦ ?_
  rw [write]
  exact if_neg (by omega)

/-- What lies behind a write is untouched. -/
theorem read_write_behind {n : ℕ} {a : ℕ} (h : off + data.length ≤ a) :
    (b.write off data).read a n = b.read a n := by
  refine read_congr fun k _ ↦ ?_
  rw [write]
  exact if_neg (by omega)

theorem cells_write_within {c d : List UInt8} {x : UInt8} :
    (b.write off (c ++ x :: d)).cells (off + c.length) = x := by
  have hlen : (c ++ x :: d).length = c.length + (d.length + 1) := List.length_append
  rw [write]
  exact (if_pos ⟨Nat.le_add_right _ _, by omega⟩).trans (by simp)

/-- One byte of what has been written is changed. -/
theorem write_write_within {c d : List UInt8} {x y : UInt8} :
    (b.write off (c ++ x :: d)).write (off + c.length) [y] = b.write off (c ++ y :: d) := by
  have hcells : ((b.write off (c ++ x :: d)).write (off + c.length) [y]).cells
      = (b.write off (c ++ y :: d)).cells := by
    funext k
    simp only [write, List.length_append, List.length_cons, List.length_nil]
    rcases Nat.lt_trichotomy k (off + c.length) with hlt | rfl | hgt
    · rw [if_neg (by omega)]
      by_cases hoff : off ≤ k
      · rw [if_pos ⟨hoff, by omega⟩, if_pos ⟨hoff, by omega⟩,
          List.getD_append _ _ _ _ (by omega), List.getD_append _ _ _ _ (by omega)]
      · rw [if_neg (by omega), if_neg (by omega)]
    · rw [if_pos (by omega), if_pos (by omega), Nat.sub_self, Nat.add_sub_cancel_left,
        List.getD_append_right _ _ _ _ (le_refl _), Nat.sub_self]
      rfl
    · obtain ⟨m, hm⟩ := Nat.exists_eq_add_of_lt hgt
      rw [if_neg (by omega)]
      by_cases hend : k < off + (c.length + (d.length + 1))
      · rw [if_pos ⟨by omega, hend⟩, if_pos ⟨by omega, hend⟩,
          List.getD_append_right _ _ _ _ (by omega), List.getD_append_right _ _ _ _ (by omega),
          show k - off - c.length = m + 1 by omega]
        rfl
      · rw [if_neg (by omega), if_neg (by omega)]
  have hhigh : ((b.write off (c ++ x :: d)).write (off + c.length) [y]).high
      = (b.write off (c ++ y :: d)).high := by
    simp only [high_write, List.length_append, List.length_cons, List.length_nil]
    omega
  cases h : (b.write off (c ++ x :: d)).write (off + c.length) [y]
  cases h' : b.write off (c ++ y :: d)
  rw [h, h'] at hcells hhigh
  exact congrArg₂ Buffer.mk hcells hhigh

/-- A write at the end of what is read extends it. -/
theorem read_write_append {n : ℕ} :
    (b.write (off + n) data).read off (n + data.length) = b.read off n ++ data := by
  rw [read_add, read_write_before (le_refl _), read_write]

theorem read_zero_write_append {n : ℕ} :
    (b.write n data).read 0 (n + data.length) = b.read 0 n ++ data := by
  have hread : (b.write (0 + n) data).read 0 (n + data.length) = b.read 0 n ++ data :=
    read_write_append
  rwa [Nat.zero_add] at hread

/-- Bytes in the middle that are replaced by as many. -/
theorem read_write_replace {pre old post new : List UInt8} {n : ℕ}
    (h : b.read 0 n = pre ++ old ++ post) (hnew : new.length = old.length) :
    (b.write pre.length new).read 0 n = pre ++ new ++ post := by
  obtain rfl : pre.length + old.length + post.length = n := by
    rw [← length_read n, h, List.length_append, List.length_append]
  rw [read_add, read_add] at h
  obtain ⟨hfront, hpost⟩ := List.append_inj' h (length_read _)
  obtain ⟨hpre, -⟩ := List.append_inj hfront (length_read _)
  have hmiddle : (b.write pre.length new).read pre.length old.length = new := by
    rw [← hnew]
    exact read_write b pre.length new
  rw [Nat.zero_add] at hpost
  rw [read_add, read_add, read_write_before (Nat.zero_add _).le, hpre, Nat.zero_add, Nat.zero_add,
    hmiddle, read_write_behind (by omega), hpost]

@[simp] theorem read_clear (n : ℕ) : (b.clear n).read 0 n = List.replicate n 0 := by
  have hread : (b.write 0 (List.replicate n 0)).read 0 (List.replicate n (0 : UInt8)).length
      = List.replicate n 0 := read_write _ _ _
  rwa [List.length_replicate] at hread

@[simp] theorem cells_write_last {c : UInt8} : (b.write off (data ++ [c])).cells
    (off + data.length) = c := by
  have hlen : (data ++ [c]).length = data.length + 1 := List.length_append
  rw [write]
  exact (if_pos ⟨Nat.le_add_right _ _, by omega⟩).trans (by simp)

theorem cells_write_singleton {c : UInt8} : (b.write off [c]).cells off = c :=
  (cells_write_last : (b.write off ([] ++ [c])).cells (off + ([] : List UInt8).length) = c)

/-- What lies behind a write is untouched. -/
theorem cells_write_behind {k : ℕ} (h : off + data.length ≤ k) :
    (b.write off data).cells k = b.cells k := by
  rw [write]
  exact if_neg fun hk ↦ absurd hk.2 (Nat.not_lt.mpr h)

theorem cells_write_before {k : ℕ} (h : k < off) : (b.write off data).cells k = b.cells k := by
  rw [write]
  exact if_neg fun hk ↦ absurd hk.1 (Nat.not_le.mpr h)

/-- What is at an offset, in two pieces. -/
theorem read_append_iff {l l' : List UInt8} : b.read off (l ++ l').length = l ++ l' ↔
    b.read off l.length = l ∧ b.read (off + l.length) l'.length = l' := by
  rw [List.length_append, read_add]
  exact ⟨fun h ↦ List.append_inj h (length_read _), fun h ↦ by rw [h.1, h.2]⟩

theorem read_prefix {l : List UInt8} {n m : ℕ} (h : b.read off n = l) (hm : m ≤ n) :
    b.read off m = l.take m := by
  obtain ⟨k, rfl⟩ := Nat.exists_eq_add_of_le hm
  rw [← h, read_add, List.take_left' (length_read _)]

theorem cells_clear {n k : ℕ} (h : k < n) : (b.clear n).cells k = 0 := by
  have hk : 0 ≤ k ∧ k < 0 + (List.replicate n (0 : UInt8)).length :=
    ⟨Nat.zero_le k, by rwa [Nat.zero_add, List.length_replicate]⟩
  exact (if_pos hk).trans (List.getD_replicate _ h)

/-! ## Strings -/

/-- The number of bytes from offset `off` to the next zero byte, or the limit if there is none
within it. -/
def strlen (b : Buffer) (off : ℕ) : ℕ → ℕ
  | 0 => 0
  | limit + 1 => if b.cells off = 0 then 0 else strlen b (off + 1) limit + 1

theorem strlen_eq {limit : ℕ} {l : List UInt8} (hl : b.read off l.length = l) (h0 : (0 : UInt8) ∉ l)
    (hend : b.cells (off + l.length) = 0) (hlt : l.length < limit) :
    b.strlen off limit = l.length := by
  induction l generalizing off limit with
  | nil =>
    obtain ⟨n, rfl⟩ := Nat.exists_eq_succ_of_ne_zero (Nat.ne_zero_of_lt hlt)
    exact if_pos hend
  | cons c l ih =>
    obtain ⟨n, rfl⟩ := Nat.exists_eq_succ_of_ne_zero (Nat.ne_zero_of_lt hlt)
    rw [List.length_cons, read_succ] at hl
    obtain ⟨hc, hrest⟩ := List.cons.inj hl
    have hne : b.cells off ≠ 0 := fun h ↦ h0 (by rw [← hc, h]; exact List.mem_cons_self)
    rw [strlen, if_neg hne, ih hrest (List.not_mem_of_not_mem_cons h0)
      (by rw [Nat.add_assoc, Nat.add_comm 1]; exact hend) (Nat.lt_of_succ_lt_succ hlt),
      List.length_cons]

/-- The string at offset `off`, if its terminator is among the `limit` bytes from there on. -/
def string (b : Buffer) (off : ℕ) : ℕ → Option (List UInt8)
  | 0 => none
  | limit + 1 =>
    if b.cells off = 0 then some [] else (b.string (off + 1) limit).map (b.cells off :: ·)

/-- `l` is the string at offset `off`. -/
structure HasString (b : Buffer) (off : ℕ) (l : List UInt8) : Prop where
  read : b.read off l.length = l
  zero_notMem : (0 : UInt8) ∉ l
  terminated : b.cells (off + l.length) = 0

theorem HasString.string {limit : ℕ} {l : List UInt8} (h : b.HasString off l)
    (hlt : l.length < limit) : b.string off limit = some l := by
  obtain ⟨hread, h0, hend⟩ := h
  induction l generalizing off limit with
  | nil =>
    obtain ⟨n, rfl⟩ := Nat.exists_eq_succ_of_ne_zero (Nat.ne_zero_of_lt hlt)
    exact if_pos hend
  | cons c l ih =>
    obtain ⟨n, rfl⟩ := Nat.exists_eq_succ_of_ne_zero (Nat.ne_zero_of_lt hlt)
    rw [List.length_cons, read_succ] at hread
    obtain ⟨hc, hrest⟩ := List.cons.inj hread
    have hne : b.cells off ≠ 0 := fun h ↦ h0 (by rw [← hc, h]; exact List.mem_cons_self)
    have hend' : b.cells (off + 1 + l.length) = 0 := by
      rw [Nat.add_assoc, Nat.add_comm 1]
      exact hend
    rw [Buffer.string, if_neg hne, ih (Nat.lt_of_succ_lt_succ hlt) hrest
      (List.not_mem_of_not_mem_cons h0) hend', hc]
    rfl

/-- The end of a string is a string. -/
theorem HasString.append {l l' : List UInt8} (h : b.HasString off (l ++ l')) :
    b.HasString (off + l.length) l' where
  read := by
    have hread := h.read
    rw [List.length_append, read_add] at hread
    exact (List.append_inj hread (length_read _)).2
  zero_notMem := fun h0 ↦ h.zero_notMem (List.mem_append_right l h0)
  terminated := by
    have hend := h.terminated
    rwa [List.length_append, ← Nat.add_assoc] at hend

/-- The beginning of a string, with another end written behind it. -/
theorem HasString.write {l l' w : List UInt8} (h : b.HasString 0 (l ++ l'))
    (hw : (0 : UInt8) ∉ w) : (b.write l.length (w ++ [0])).HasString 0 (l ++ w) where
  read := by
    have hread := read_prefix h.read (m := l.length) (by simp)
    rw [List.take_left' rfl] at hread
    rw [List.length_append, write_append, read_write_before (by omega), read_zero_write_append,
      hread]
  zero_notMem := by
    rw [List.mem_append, not_or]
    exact ⟨fun h0 ↦ h.zero_notMem (List.mem_append_left l' h0), hw⟩
  terminated := by
    rw [Nat.zero_add, List.length_append]
    exact cells_write_last

/-- Memory that has been set to zero and not been written since. -/
def zeroed : Buffer := ⟨fun _ ↦ 0, 0⟩

/-- A string in memory that was zero, if there is room for `n` bytes of it. -/
theorem read_zeroed_write {n : ℕ} : (zeroed.write 0 data).read 0 (data.length + n)
    = data ++ List.replicate n 0 := by
  rw [read_add, read_write, zero_add]
  refine congrArg (data ++ ·) (List.eq_replicate_iff.mpr ⟨length_read n, fun c hc ↦ ?_⟩)
  obtain ⟨k, -, rfl⟩ := List.mem_map.mp hc
  rw [cells_write_behind (by omega)]
  rfl

end Buffer

/-- The bytes of a string constant. -/
def ascii (word : String) : List UInt8 := word.toList.map fun c ↦ UInt8.ofNat c.toNat

/-- A string, without its terminator. -/
abbrev CStr := {s : List UInt8 // 0 ∉ s}

/-- A string constant. -/
def cstr (word : String) : CStr :=
  ⟨(ascii word).takeWhile (· ≠ 0), fun h ↦ by simpa using List.mem_takeWhile_imp h⟩

end Ddmz
