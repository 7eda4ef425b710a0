import Mathlib

/-!
# The form encoding

`application/x-www-form-urlencoded` on byte strings: a set of bytes stands for itself, a space
becomes `+`, and every other byte becomes a percent sign with two hexadecimal digits. Which bytes
stand for themselves is a parameter, since encoders differ in it and decoding does not depend on
it: a `LiteralSet` only has to leave out the two bytes that decoding gives a meaning.

The round trip `formDecode_formEncode` holds for every such set.
-/

namespace Ddmz

/-- `'%'`. -/
abbrev PERCENT : UInt8 := 37

/-- `'+'`. -/
abbrev PLUS : UInt8 := 43

/-- `' '`. -/
abbrev SPACE : UInt8 := 32

/-! ## Hexadecimal digits -/

/-- The digit of a number below 16, in upper case. -/
def hexDigit (n : ℕ) : UInt8 := UInt8.ofNat (if n < 10 then 48 + n else 55 + n)

/-- The value of a digit, in either case. -/
def hexVal (c : UInt8) : Option ℕ :=
  if 48 ≤ c ∧ c ≤ 57 then some (c.toNat - 48)
  else if 65 ≤ c ∧ c ≤ 70 then some (c.toNat - 55)
  else if 97 ≤ c ∧ c ≤ 102 then some (c.toNat - 87)
  else none

theorem hexVal_hexDigit : ∀ n < 16, hexVal (hexDigit n) = some n := by decide

theorem hexDigit_ne_zero : ∀ n < 16, hexDigit n ≠ 0 := by decide

/-! ## Encoding -/

/-- The bytes that an encoder copies. -/
structure LiteralSet where
  mem : UInt8 → Bool
  percent : mem PERCENT = false
  plus : mem PLUS = false
  zero : mem 0 = false

/-- `%XX`. -/
def percentTriple (b : UInt8) : List UInt8 :=
  [PERCENT, hexDigit (b.toNat / 16), hexDigit (b.toNat % 16)]

variable (L : LiteralSet)

def formEncodeByte (b : UInt8) : List UInt8 :=
  if L.mem b then [b] else if b = SPACE then [PLUS] else percentTriple b

def formEncode (bs : List UInt8) : List UInt8 := bs.flatMap (formEncodeByte L)

/-- The bytes that become three. -/
def escaped (b : UInt8) : Bool := !L.mem b && b != SPACE

variable {L}

@[simp] theorem formEncode_cons (b : UInt8) (bs : List UInt8) :
    formEncode L (b :: bs) = formEncodeByte L b ++ formEncode L bs := rfl

@[simp] theorem formEncode_append (as bs : List UInt8) :
    formEncode L (as ++ bs) = formEncode L as ++ formEncode L bs := List.flatMap_append

theorem formEncodeByte_escaped {b : UInt8} (h : escaped L b = true) :
    formEncodeByte L b = percentTriple b := by
  rw [escaped, Bool.and_eq_true, Bool.not_eq_true', bne_iff_ne] at h
  rw [formEncodeByte, h.1, if_neg Bool.false_ne_true, if_neg h.2]

theorem length_formEncodeByte (b : UInt8) :
    (formEncodeByte L b).length = if escaped L b then 3 else 1 := by
  cases hm : L.mem b with
  | true => simp [formEncodeByte, escaped, hm]
  | false =>
    by_cases hs : b = SPACE
    · subst hs
      simp [formEncodeByte, escaped, hm]
    · simp [formEncodeByte, escaped, hm, hs, percentTriple]

/-- An encoding is as long as its text, and two bytes longer for every escaped one. -/
theorem length_formEncode (bs : List UInt8) :
    (formEncode L bs).length = bs.length + 2 * bs.countP (escaped L) := by
  induction bs with
  | nil => rfl
  | cons b bs ih =>
    rw [formEncode_cons, List.length_append, length_formEncodeByte, ih, List.length_cons,
      List.countP_cons]
    split <;> omega

theorem zero_notMem_formEncode (bs : List UInt8) : (0 : UInt8) ∉ formEncode L bs := by
  intro h
  obtain ⟨b, -, hb⟩ := List.mem_flatMap.mp h
  have hlt : b.toNat < 256 := b.toNat_lt
  rw [formEncodeByte] at hb
  split at hb
  · rename_i hm
    rw [List.mem_singleton] at hb
    rw [← hb, L.zero] at hm
    exact Bool.false_ne_true hm
  · split at hb
    · exact absurd hb (by decide)
    · simp only [percentTriple, List.mem_cons, List.not_mem_nil, or_false] at hb
      rcases hb with hb | hb | hb
      · exact absurd hb (by decide)
      · exact hexDigit_ne_zero _ (by omega) hb.symm
      · exact hexDigit_ne_zero _ (Nat.mod_lt _ (by decide)) hb.symm

/-! ## Encoded text -/

/-- A digit in upper case. -/
def IsHexDigit (c : UInt8) : Prop := (48 ≤ c ∧ c ≤ 57) ∨ (65 ≤ c ∧ c ≤ 70)

instance (c : UInt8) : Decidable (IsHexDigit c) :=
  inferInstanceAs (Decidable ((48 ≤ c ∧ c ≤ 57) ∨ (65 ≤ c ∧ c ≤ 70)))

theorem isHexDigit_hexDigit : ∀ n < 16, IsHexDigit (hexDigit n) := by decide

/-- `FormText P s`: the text `s` consists of bytes that satisfy `P` and of complete escapes. -/
inductive FormText (P : UInt8 → Prop) : List UInt8 → Prop
  | nil : FormText P []
  | byte {c : UInt8} {rest : List UInt8} : P c → FormText P rest → FormText P (c :: rest)
  | triple {h l : UInt8} {rest : List UInt8} : IsHexDigit h → IsHexDigit l → FormText P rest →
      FormText P (PERCENT :: h :: l :: rest)

theorem formText_formEncode {P : UInt8 → Prop} (hmem : ∀ b, L.mem b = true → P b) (hplus : P PLUS)
    (bs : List UInt8) : FormText P (formEncode L bs) := by
  induction bs with
  | nil => exact .nil
  | cons b bs ih =>
    have hlt : b.toNat < 256 := b.toNat_lt
    rw [formEncode_cons, formEncodeByte]
    split
    · rename_i hm
      exact .byte (hmem b hm) ih
    · split
      · exact .byte hplus ih
      · exact .triple (isHexDigit_hexDigit _ (by omega))
          (isHexDigit_hexDigit _ (Nat.mod_lt _ (by decide))) ih

/-! ## Decoding -/

/-- A byte outside an escape. -/
def plusToSpace (c : UInt8) : UInt8 := if c = PLUS then SPACE else c

/-- Decode a form-encoded byte string; a percent sign without two digits stands for itself. -/
def formDecode : List UInt8 → List UInt8
  | [] => []
  | [c] => [plusToSpace c]
  | [c, d] => [plusToSpace c, plusToSpace d]
  | c :: h :: l :: rest =>
    if c = PERCENT then
      match hexVal h, hexVal l with
      | some a, some b => UInt8.ofNat (16 * a + b) :: formDecode rest
      | _, _ => c :: formDecode (h :: l :: rest)
    else plusToSpace c :: formDecode (h :: l :: rest)

theorem formDecode_cons {c : UInt8} (hc : c ≠ PERCENT) (rest : List UInt8) :
    formDecode (c :: rest) = plusToSpace c :: formDecode rest := by
  match rest with
  | [] => rfl
  | [_] => rfl
  | _ :: _ :: _ => rw [formDecode, if_neg hc]

theorem formDecode_percentTriple (b : UInt8) (rest : List UInt8) :
    formDecode (percentTriple b ++ rest) = b :: formDecode rest := by
  have hlt : b.toNat < 256 := b.toNat_lt
  have hval : 16 * (b.toNat / 16) + b.toNat % 16 = b.toNat := by omega
  rw [percentTriple, List.cons_append, List.cons_append, List.cons_append, List.nil_append,
    formDecode, if_pos rfl, hexVal_hexDigit _ (by omega), hexVal_hexDigit _ (by omega)]
  simp only [hval, UInt8.ofNat_toNat]

theorem formDecode_formEncodeByte (b : UInt8) (rest : List UInt8) :
    formDecode (formEncodeByte L b ++ rest) = b :: formDecode rest := by
  rw [formEncodeByte]
  split
  · rename_i hm
    have hpercent : b ≠ PERCENT := fun h ↦ by rw [h, L.percent] at hm; exact Bool.false_ne_true hm
    have hplus : b ≠ PLUS := fun h ↦ by rw [h, L.plus] at hm; exact Bool.false_ne_true hm
    rw [List.singleton_append, formDecode_cons hpercent, plusToSpace, if_neg hplus]
  · split
    · rename_i hs
      rw [List.singleton_append, formDecode_cons (by decide), plusToSpace, if_pos rfl, hs]
    · exact formDecode_percentTriple b rest

/-- **Decoding undoes encoding**, whatever the literal set. -/
@[simp] theorem formDecode_formEncode (bs : List UInt8) : formDecode (formEncode L bs) = bs := by
  induction bs with
  | nil => rfl
  | cons b bs ih => rw [formEncode_cons, formDecode_formEncodeByte, ih]

end Ddmz
