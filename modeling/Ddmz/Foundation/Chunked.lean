import Ddmz.Foundation.FormUrl
import Ddmz.Foundation.Radix

/-!
# The chunked transfer coding

A body in chunks, each with its length in front in hexadecimal digits, and one of length zero at
the end. Writers differ in how many digits they write; a reader takes them all.

A chunk must not be empty, since that ends the body, and its length must have as many digits as are
written. With this the reader has the body and what comes behind it: `decode_chunks`.
-/

namespace Ddmz.Chunked

def CRLF : List UInt8 := [13, 10]

/-! ## Writing -/

/-- A number in `k` hexadecimal digits. -/
def hexNumber (k n : ℕ) : List UInt8 := (lowDigits 16 k n).map hexDigit

def chunk (k : ℕ) (data : List UInt8) : List UInt8 :=
  hexNumber k data.length ++ CRLF ++ data ++ CRLF

/-- The chunk of length zero, without trailing fields. -/
def last : List UInt8 := 48 :: CRLF ++ CRLF

/-- Data that can be a chunk with a length of `k` digits. -/
def Fits (k : ℕ) (data : List UInt8) : Prop := data ≠ [] ∧ data.length < 16 ^ k

/-! ## Reading -/

/-- The digits in front, taken into a number. -/
def readDigits (n : ℕ) : List UInt8 → ℕ × List UInt8
  | [] => (n, [])
  | c :: bytes =>
    match hexVal c with
    | some d => readDigits (pushDigit 16 n d) bytes
    | none => (n, c :: bytes)

/-- The rest behind an end of line. -/
def takeCRLF (bytes : List UInt8) : Option (List UInt8) :=
  if bytes.take 2 = CRLF then some (bytes.drop 2) else none

/-- The body and what is behind it, of at most so many chunks. -/
def decodeChunks : ℕ → List UInt8 → Option (List UInt8 × List UInt8)
  | 0, _ => none
  | fuel + 1, bytes => do
    let size := readDigits 0 bytes
    let rest ← takeCRLF size.2
    if size.1 = 0 then return ([], ← takeCRLF rest)
    else if rest.length < size.1 then none
    else
      let r ← decodeChunks fuel (← takeCRLF (rest.drop size.1))
      return (rest.take size.1 ++ r.1, r.2)

/-- No body has more chunks than bytes. -/
def decode (bytes : List UInt8) : Option (List UInt8 × List UInt8) :=
  decodeChunks bytes.length bytes

/-! ## The round trip -/

variable {k n : ℕ} {data rest : List UInt8}

@[simp] theorem length_hexNumber : (hexNumber k n).length = k := by
  rw [hexNumber, List.length_map, length_lowDigits]

theorem takeCRLF_append : takeCRLF (CRLF ++ rest) = some rest := rfl

/-- The digits are read up to a byte that is none. -/
theorem readDigits_append {ds : List ℕ} (hds : ∀ d ∈ ds, d < 16) {c : UInt8}
    (hc : hexVal c = none) :
    readDigits n (ds.map hexDigit ++ c :: rest) = (ds.foldl (pushDigit 16) n, c :: rest) := by
  induction ds generalizing n with
  | nil => rw [List.map_nil, List.nil_append, readDigits, hc, List.foldl_nil]
  | cons d ds ih =>
    rw [List.map_cons, List.cons_append, readDigits, hexVal_hexDigit d (hds d List.mem_cons_self)]
    exact ih fun d hd ↦ hds d (List.mem_cons_of_mem _ hd)

theorem readDigits_hexNumber (hn : n < 16 ^ k) :
    readDigits 0 (hexNumber k n ++ CRLF ++ rest) = (n, CRLF ++ rest) := by
  rw [List.append_assoc, hexNumber]
  refine (readDigits_append (fun d hd ↦ lt_of_mem_lowDigits (by decide) hd) rfl).trans ?_
  rw [foldl_lowDigits, Nat.zero_mul, Nat.zero_add, Nat.mod_eq_of_lt hn]
  rfl

theorem decodeChunks_last (fuel : ℕ) : decodeChunks (fuel + 1) (last ++ rest) = some ([], rest) :=
  rfl

theorem decodeChunks_chunk (h : Fits k data) (fuel : ℕ) :
    decodeChunks (fuel + 1) (chunk k data ++ rest)
      = (decodeChunks fuel rest).map fun r ↦ (data ++ r.1, r.2) := by
  have hsize : readDigits 0 (chunk k data ++ rest)
      = (data.length, CRLF ++ (data ++ (CRLF ++ rest))) := by
    rw [chunk, List.append_assoc, List.append_assoc]
    exact readDigits_hexNumber h.2
  have hpos : data.length ≠ 0 := (List.length_pos_iff.mpr h.1).ne'
  have hlong : ¬(data ++ (CRLF ++ rest)).length < data.length := by
    rw [List.length_append]
    omega
  rw [decodeChunks, hsize]
  simp only [takeCRLF_append, Option.bind_eq_bind, Option.bind_some, if_neg hpos, if_neg hlong,
    List.drop_left, List.take_left]
  cases decodeChunks fuel rest <;> rfl

theorem decodeChunks_chunks {chunks : List (List UInt8)} (h : ∀ data ∈ chunks, Fits k data)
    {fuel : ℕ} (hfuel : chunks.length < fuel) :
    decodeChunks fuel (chunks.flatMap (chunk k) ++ (last ++ rest))
      = some (chunks.flatten, rest) := by
  induction chunks generalizing fuel with
  | nil =>
    obtain ⟨fuel, rfl⟩ := Nat.exists_eq_add_of_lt hfuel
    exact decodeChunks_last _
  | cons data chunks ih =>
    obtain ⟨fuel, rfl⟩ := Nat.exists_eq_succ_of_ne_zero (Nat.ne_of_gt (Nat.zero_lt_of_lt hfuel))
    rw [List.flatMap_cons, List.append_assoc, decodeChunks_chunk (h data List.mem_cons_self),
      ih (fun data hdata ↦ h data (List.mem_cons_of_mem _ hdata)) (Nat.lt_of_succ_lt_succ hfuel)]
    rfl

theorem length_le_flatMap_chunk (chunks : List (List UInt8)) :
    chunks.length ≤ (chunks.flatMap (chunk k)).length := by
  induction chunks with
  | nil => exact le_refl _
  | cons data chunks ih =>
    have hpos : 2 ≤ (chunk k data).length := by
      rw [chunk, List.length_append]
      exact Nat.le_add_left _ _
    rw [List.flatMap_cons, List.length_append, List.length_cons]
    omega

/-- **A body in chunks is read back**, and the reader stops right behind it. -/
theorem decode_chunks {chunks : List (List UInt8)} (h : ∀ data ∈ chunks, Fits k data) :
    decode (chunks.flatMap (chunk k) ++ last ++ rest) = some (chunks.flatten, rest) := by
  have hlength : chunks.length ≤ (chunks.flatMap (chunk k)).length := length_le_flatMap_chunk chunks
  rw [decode, List.append_assoc]
  refine decodeChunks_chunks h ?_
  rw [List.length_append, List.length_append]
  have hlast : last.length = 5 := rfl
  omega

end Ddmz.Chunked
