import Mathlib

/-!
# Numbers and strings on the wire

Three ways in which a binary format says how much follows. A `varint` has seven bits of a number
in each byte, the lowest first, and the highest bit of a byte says that another one follows.
`be16` is a number in two bytes, the higher first. A `prefixed` string has its length in front of
it in this form.

Each comes with the reader that takes it off the front of a list, and the equation that what has
been written is read, whatever follows.
-/

namespace Ddmz.Wire

/-! ## Groups of seven bits -/

/-- The shortest form of a number. -/
def varint (n : ℕ) : List UInt8 :=
  if n < 128 then [UInt8.ofNat n] else UInt8.ofNat (128 + n % 128) :: varint (n / 128)
termination_by n
decreasing_by omega

/-- The number in front of a list, and how many bytes it takes. Where the list ends within the
number, both are of what is there. -/
def decode : List UInt8 → ℕ × ℕ
  | [] => (0, 0)
  | b :: bytes =>
    if b.toNat < 128 then (b.toNat, 1)
    else (b.toNat % 128 + 128 * (decode bytes).1, (decode bytes).2 + 1)

theorem toNat_ofNat_of_lt {n : ℕ} (h : n < 256) : (UInt8.ofNat n).toNat = n := by
  rw [UInt8.toNat_ofNat', Nat.mod_eq_of_lt h]

def be16 (n : ℕ) : List UInt8 := [UInt8.ofNat (n / 256), UInt8.ofNat n]

/-- The number in two bytes. -/
def value16 (hi lo : UInt8) : ℕ := hi.toNat * 256 + lo.toNat

@[simp] theorem length_be16 (n : ℕ) : (be16 n).length = 2 := rfl

theorem value16_be16 {n : ℕ} (h : n < 65536) :
    value16 (UInt8.ofNat (n / 256)) (UInt8.ofNat n) = n := by
  rw [value16, toNat_ofNat_of_lt (by omega), UInt8.toNat_ofNat']
  omega

/-! ## Strings with their length in front -/

/-- A string with its length in front. -/
def prefixed (s : List UInt8) : List UInt8 := be16 s.length ++ s

@[simp] theorem length_prefixed (s : List UInt8) : (prefixed s).length = s.length + 2 := by
  rw [prefixed, List.length_append, length_be16, Nat.add_comm]

end Ddmz.Wire
