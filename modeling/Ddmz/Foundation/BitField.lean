import Mathlib

/-!
# Fields of registers

A field of a register is set by masking the register with the bits that do not belong to it, and
putting the bits of the value in. The others stay as they were if the value has no bits but those of
the field, or those that it has were set already: `fieldSet_and_keep_iff`.
-/

namespace Ddmz

variable {w : ℕ}

/-- A field to be set: its register, the bits of the register that do not belong to it, and the bits
to be put in. -/
structure FieldUpdate (w : ℕ) where
  reg : ℕ
  keep : BitVec w
  value : BitVec w

/-- A register after a field has been set. `keep` are the bits that do not belong to it. -/
def fieldSet (keep r v : BitVec w) : BitVec w := r &&& keep ||| v

theorem fieldSet_and_keep (keep r v : BitVec w) :
    fieldSet keep r v &&& keep = r &&& keep ||| v &&& keep := by
  apply BitVec.eq_of_getLsbD_eq
  intro i _
  simp only [fieldSet, BitVec.getLsbD_and, BitVec.getLsbD_or]
  cases keep.getLsbD i <;> simp

/-- The value lies in the field. -/
theorem fieldSet_and_keep_of_eq_zero {keep v : BitVec w} (r : BitVec w) (hv : v &&& keep = 0#w) :
    fieldSet keep r v &&& keep = r &&& keep := by
  rw [fieldSet_and_keep, hv, BitVec.or_zero]

/-- **When the rest of the register stays as it was.** -/
theorem fieldSet_and_keep_iff {keep r v : BitVec w} :
    fieldSet keep r v &&& keep = r &&& keep ↔ v &&& keep &&& ~~~r = 0#w := by
  rw [fieldSet_and_keep]
  constructor
  · intro h
    apply BitVec.eq_of_getLsbD_eq
    intro i hi
    have hbit := congrArg (·.getLsbD i) h
    simp only [BitVec.getLsbD_and, BitVec.getLsbD_or] at hbit
    simp only [BitVec.getLsbD_and, BitVec.getLsbD_not, hi, decide_true, Bool.true_and,
      BitVec.getLsbD_zero]
    revert hbit
    cases r.getLsbD i <;> cases v.getLsbD i <;> cases keep.getLsbD i <;> simp
  · intro h
    apply BitVec.eq_of_getLsbD_eq
    intro i hi
    have hbit := congrArg (·.getLsbD i) h
    simp only [BitVec.getLsbD_and, BitVec.getLsbD_not, hi, decide_true, Bool.true_and,
      BitVec.getLsbD_zero] at hbit
    simp only [BitVec.getLsbD_and, BitVec.getLsbD_or]
    revert hbit
    cases r.getLsbD i <;> cases v.getLsbD i <;> cases keep.getLsbD i <;> simp

end Ddmz
