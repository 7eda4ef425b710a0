import Ddmz.Utils.Search

/-!
# Replacing in a string on the heap

`modify_string` of `utils.c` replaces every occurrence of a string in place. Where the text gets
longer, it counts the occurrences first and asks for a block that is large enough. But it counts
with `strstr` and replaces with `strcasestr`, and the size is computed in 32 bits.

The loops over memory that the length of a text does not bound are given a limit; with a limit that
is large enough the result does not depend on it. `replaceLoop_eq` says what the second loop does,
whatever the block is; `replaces_iff` when the block is large enough for it.
-/

namespace Ddmz.Utils

/-- A block on the heap. -/
structure Block where
  mem : Buffer
  size : ℕ

/-- `realloc` to `size` bytes, with what is found in the new ones. -/
def Block.realloc (b : Block) (size : ℕ) (fresh : ℕ → UInt8) : Block where
  mem := { cells := fun k ↦ if k < min b.size size then b.mem.cells k else fresh k, high := 0 }
  size := size

/-- `'"'`. -/
abbrev QUOTE : UInt8 := 34

/-- `'%'`. -/
abbrev WILDCARD : UInt8 := 37

def isspace (c : UInt8) : Bool := c == 32 || (9 ≤ c && c ≤ 13)

/-- `while( (p = strstr(s, before)) )`, with the string at `s`. -/
def countLoop (before : List UInt8) : ℕ → List UInt8 → ℕ → Option ℕ
  | 0, _, _ => none
  | limit + 1, s, chgcnt =>
    match strstr (s ++ [0]) (before ++ [0]) with
    | none => none
    | some none => some chgcnt
    | some (some p) => countLoop before limit (s.drop (p + before.length)) (chgcnt + 1)

/-- The first offset from `t` on where `stop` holds. -/
def scanTo (stop : UInt8 → Bool) (mem : Buffer) (t : ℕ) : ℕ → Option ℕ
  | 0 => none
  | limit + 1 => if stop (mem.cells t) then some t else scanTo stop mem (t + 1) limit

/-- What is done at `t` if `like` is not zero: a quoted string behind spaces gets a wildcard in
front of its closing quote, and another one behind the opening one if `like` is two. -/
def addWildcards (limit : ℕ) (like : ℤ) (mem : Buffer) (t : ℕ) : Option Buffer := do
  let t ← scanTo (fun c ↦ !isspace c) mem t limit
  if mem.cells t = QUOTE then
    let (mem, t) ← if like = 2 then do
        let rest ← mem.string (t + 1) limit
        some ((mem.write (t + 2) (rest ++ [0])).write (t + 1) [WILDCARD], t + 1)
      else some (mem, t)
    let t ← scanTo (· == QUOTE) mem (t + 1) limit
    let rest ← mem.string t limit
    some ((mem.write (t + 1) (rest ++ [0])).write t [WILDCARD])
  else some mem

/-- The second loop of `modify_string`. -/
def replaceLoop (limit : ℕ) (before after : List UInt8) (like : ℤ) :
    ℕ → Buffer → ℕ → Option Buffer
  | 0, _, _ => none
  | fuel + 1, mem, s => do
    let str ← mem.string s limit
    match ← strcasestr (str ++ [0]) (before ++ [0]) with
    | none => some mem
    | some k =>
      let p := s + k
      let rest ← mem.string (p + before.length) limit
      let mem := mem.write (p + after.length) (rest ++ [0])
      let mem := mem.write p after
      let mem ← if like = 0 then some mem else addWildcards limit like mem (p + after.length)
      replaceLoop limit before after like fuel mem (p + after.length)

/-- `modify_string`. What `realloc` answers to a size is the new bytes, if there are any to be had;
the size is a `size_t`. -/
def modifyString (limit : ℕ) (realloc : ℕ → Option (ℕ → UInt8)) (string : Block)
    (before after : List UInt8) (like : ℤ) : Option Block := do
  let oldlen : ℤ := before.length
  let newlen : ℤ := after.length
  if newlen + like > oldlen then
    let str ← string.mem.string 0 limit
    let chgcnt ← countLoop before limit str 0
    let size := ((str.length + (newlen - oldlen) * chgcnt + 1 + like) % 2 ^ 32).toNat
    match realloc size with
    | none => some string
    | some fresh =>
      let mem ← replaceLoop limit before after like limit (string.realloc size fresh).mem 0
      some ⟨mem, size⟩
  else
    let mem ← replaceLoop limit before after like limit string.mem 0
    some ⟨mem, string.size⟩

/-! ## Counting -/

variable {before after s out : List UInt8} {limit : ℕ}

theorem countLoop_eq (hb : before ≠ []) (hb0 : (0 : UInt8) ∉ before) (hs : (0 : UInt8) ∉ s)
    (hlt : s.length < limit) (n : ℕ) :
    countLoop before limit s n = some (n + countOcc (eqBy id) before s) := by
  induction limit generalizing s n with
  | zero => exact absurd hlt (Nat.not_lt_zero _)
  | succ limit ih =>
    simp only [countLoop, strstr_eq hs hb0]
    cases h : firstOcc (eqBy id) before s with
    | none => simp only [countOcc_of_none h, Nat.add_zero]
    | some k =>
      have hle := firstOcc_le h
      have hpos := List.length_pos_iff.mpr hb
      have hs' : (0 : UInt8) ∉ s.drop (k + before.length) := fun h0 ↦ hs (List.mem_of_mem_drop h0)
      dsimp only
      rw [ih hs' (by rw [List.length_drop]; omega), countOcc_of_some hb h]
      congr 1
      omega

/-! ## Replacing -/

/-- One replacement, and the end of the text moved before. -/
theorem write_replacement {mem : Buffer} {a m c : List UInt8}
    (h : mem.HasString 0 (a ++ (m ++ c))) (ha : (0 : UInt8) ∉ after) :
    ((mem.write (a.length + after.length) (c ++ [0])).write a.length after).HasString 0
      (a ++ (after ++ c)) := by
  rw [← Buffer.write_append_back, ← List.append_assoc]
  refine h.write ?_
  rw [List.mem_append, not_or]
  refine ⟨ha, fun h0 ↦ h.zero_notMem ?_⟩
  exact List.mem_append_right _ (List.mem_append_right _ h0)

/-- The text with all occurrences replaced. -/
abbrev replaced (before after text : List UInt8) : List UInt8 :=
  replaceAll (eqBy tolower) before after text

/-- A replacement makes the text longer or shorter, as the whole pass does. -/
theorem length_replaced_between (hb : before ≠ []) (after s : List UInt8) :
    (before.length ≤ after.length → s.length ≤ (replaced before after s).length) ∧
      (after.length ≤ before.length → (replaced before after s).length ≤ s.length) := by
  have hlen : (replaced before after s).length + before.length * countOcc (eqBy tolower) before s
      = s.length + after.length * countOcc (eqBy tolower) before s := length_replaceAll hb s
  constructor
  · intro hle
    have hmul := Nat.mul_le_mul_right (countOcc (eqBy tolower) before s) hle
    omega
  · intro hle
    have hmul := Nat.mul_le_mul_right (countOcc (eqBy tolower) before s) hle
    omega

/-- One turn of the second loop, behind `out`, where `m` is the first occurrence. -/
theorem replaceLoop_turn (hb0 : (0 : UInt8) ∉ before) (ha : (0 : UInt8) ∉ after) {mem : Buffer}
    {a m c : List UInt8}
    (hfirst : firstOcc (eqBy tolower) before (a ++ (m ++ c)) = some a.length)
    (hm : m.length = before.length) (h : mem.HasString 0 (out ++ (a ++ (m ++ c)))) :
    ∃ next : Buffer, (∀ fuel, ∀ limit > (a ++ (m ++ c)).length,
        replaceLoop limit before after 0 (fuel + 1) mem out.length
          = replaceLoop limit before after 0 fuel next (out ++ a ++ after).length) ∧
      next.HasString 0 (out ++ a ++ after ++ c) ∧
      next.high ≤ max mem.high (out.length + a.length + after.length + c.length + 1) := by
  have hrest := h.append
  rw [Nat.zero_add] at hrest
  have hmem : mem.HasString 0 (out ++ a ++ (m ++ c)) := by rwa [List.append_assoc]
  have hmoved : mem.HasString (out.length + a.length + before.length) c := by
    have hc := (List.append_assoc (out ++ a) m c ▸ hmem).append
    rwa [Nat.zero_add, List.length_append, List.length_append, hm] at hc
  have hwritten := write_replacement hmem ha
  rw [List.length_append] at hwritten
  refine ⟨_, fun fuel limit hlimit ↦ ?_, by rwa [List.append_assoc (out ++ a)], ?_⟩
  · have hstring : mem.string (out.length + a.length + before.length) limit = some c := by
      refine hmoved.string ?_
      rw [List.length_append, List.length_append] at hlimit
      omega
    simp only [replaceLoop, hrest.string hlimit, Option.bind_eq_bind, Option.bind_some,
      strcasestr_eq hrest.zero_notMem hb0, hfirst, hstring, if_true, List.length_append]
  · rw [Buffer.high_write, Buffer.high_write, List.length_append, List.length_singleton]
    omega

/-- **The second loop**, behind `out`, which it has dealt with: it replaces every occurrence in the
rest `s`, and writes no further than the longer of the two texts. -/
theorem replaceLoop_eq (hb : before ≠ []) (hb0 : (0 : UInt8) ∉ before) (ha : (0 : UInt8) ∉ after)
    {mem : Buffer} (h : mem.HasString 0 (out ++ s)) :
    ∃ mem', (∀ fuel > s.length, ∀ limit > s.length,
        replaceLoop limit before after 0 fuel mem out.length = some mem') ∧
      mem'.HasString 0 (out ++ replaced before after s) ∧
      mem'.high ≤ max mem.high
        (out.length + max s.length (replaced before after s).length + 1) := by
  induction hn : s.length using Nat.strong_induction_on generalizing mem out s with
  | _ n ih =>
    subst hn
    have hrest := h.append
    rw [Nat.zero_add] at hrest
    cases hfirst : firstOcc (eqBy tolower) before s with
    | none =>
      refine ⟨mem, fun fuel hfuel limit hlimit ↦ ?_, ?_, le_max_left _ _⟩
      · obtain ⟨fuel, rfl⟩ := Nat.exists_eq_add_of_lt hfuel
        simp only [replaceLoop, hrest.string hlimit, Option.bind_eq_bind, Option.bind_some,
          strcasestr_eq hrest.zero_notMem hb0, hfirst]
      · rwa [replaced, replaceAll_of_none hfirst]
    | some k =>
      have hpos := List.length_pos_iff.mpr hb
      obtain ⟨a, m, c, hsplit, hk, hm, hc, htake⟩ := exists_split_of_firstOcc hfirst
      have hreplaced : replaced before after s = a ++ (after ++ replaced before after c) := by
        rw [htake, hc]
        exact replaceAll_of_some hb hfirst
      rw [hsplit, ← hk] at hfirst
      obtain ⟨next, hturn, hnext, hhigh⟩ := replaceLoop_turn hb0 ha hfirst hm (hsplit ▸ h)
      have hlen : s.length = a.length + (before.length + c.length) := by
        rw [hsplit, List.length_append, List.length_append, hm]
      obtain ⟨mem', hrun, hstring, hhigh'⟩ := ih c.length (by omega) hnext rfl
      refine ⟨mem', fun fuel hfuel limit hlimit ↦ ?_, ?_, ?_⟩
      · obtain ⟨fuel, rfl⟩ := Nat.exists_eq_succ_of_ne_zero (Nat.ne_zero_of_lt hfuel)
        rw [hturn fuel limit (hsplit ▸ hlimit)]
        exact hrun fuel (by omega) limit (by omega)
      · rwa [hreplaced, ← List.append_assoc, ← List.append_assoc]
      · obtain ⟨hlonger, hshorter⟩ := length_replaced_between hb after c
        simp only [hreplaced, List.length_append] at hhigh' ⊢
        omega

/-! ## The block -/

/-- The block holds a string, and nothing has been written behind its end. -/
structure Block.Holds (b : Block) (text : List UInt8) : Prop where
  string : b.mem.HasString 0 text
  fits : text.length < b.size
  size_lt : b.size < 2 ^ 32
  bounded : b.mem.high ≤ b.size

/-- The size that is asked for. -/
def askedSize (before after text : List UInt8) : ℕ :=
  (text.length + (after.length - before.length) * countOcc (eqBy id) before text + 1) % 2 ^ 32

variable {text : List UInt8} {string : Block} {realloc : ℕ → Option (ℕ → UInt8)}

theorem modifyString_grow (hb : before ≠ []) (hb0 : (0 : UInt8) ∉ before)
    (h : string.mem.HasString 0 text) (hlt : before.length < after.length)
    (hlimit : text.length < limit) :
    modifyString limit realloc string before after 0 =
      match realloc (askedSize before after text) with
      | none => some string
      | some fresh =>
        (replaceLoop limit before after 0 limit
          (string.realloc (askedSize before after text) fresh).mem 0).map
            fun mem ↦ ⟨mem, askedSize before after text⟩ := by
  have hsize : ((((text.length : ℤ) + ((after.length : ℤ) - before.length)
      * ((0 + countOcc (eqBy id) before text : ℕ) : ℤ) + 1 + 0) % 2 ^ 32).toNat)
        = askedSize before after text := by
    have hcast : (text.length : ℤ) + ((after.length : ℤ) - before.length)
        * ((0 + countOcc (eqBy id) before text : ℕ) : ℤ) + 1 + 0
          = ((text.length + (after.length - before.length) * countOcc (eqBy id) before text + 1 : ℕ)
            : ℤ) := by
      push_cast [Nat.cast_sub hlt.le]
      ring
    rw [hcast, askedSize]
    rfl
  have hgrow : (after.length : ℤ) + 0 > before.length := by omega
  simp only [modifyString, if_pos hgrow, h.string hlimit, Option.bind_eq_bind, Option.bind_some,
    countLoop_eq hb hb0 h.zero_notMem hlimit, hsize]
  cases realloc (askedSize before after text) with
  | none => rfl
  | some fresh => exact Option.map_eq_bind.symm

theorem modifyString_keep (hle : after.length ≤ before.length) :
    modifyString limit realloc string before after 0 =
      (replaceLoop limit before after 0 limit string.mem 0).map fun mem ↦ ⟨mem, string.size⟩ := by
  have hkeep : ¬((after.length : ℤ) + 0 > before.length) := by omega
  simp only [modifyString, if_neg hkeep]
  exact Option.map_eq_bind.symm

/-- A string survives `realloc` if it fits. -/
theorem realloc_hasString (h : string.Holds text) {size : ℕ} (hsize : text.length < size)
    (fresh : ℕ → UInt8) : (string.realloc size fresh).mem.HasString 0 text := by
  have hcells : ∀ k ≤ text.length,
      (string.realloc size fresh).mem.cells k = string.mem.cells k := by
    intro k hk
    have hfits := h.fits
    exact if_pos (by omega)
  have hread : (string.realloc size fresh).mem.read 0 text.length
      = string.mem.read 0 text.length :=
    Buffer.read_congr fun k hk ↦ hcells _ (by omega)
  refine ⟨hread.trans h.string.read, h.string.zero_notMem, ?_⟩
  rw [Nat.zero_add, hcells _ (le_refl _)]
  simpa using h.string.terminated

/-- `modify_string` comes to an end; what it returns has every occurrence replaced, and lies in its
block with everything that has been written. -/
def Replaces (realloc : ℕ → Option (ℕ → UInt8)) (string : Block) (before after text : List UInt8) :
    Prop :=
  ∃ string', (∃ n, ∀ limit ≥ n, modifyString limit realloc string before after 0 = some string') ∧
    string'.Holds (replaced before after text)

/-- The text does not get longer, or every occurrence up to case is an exact one and the size that
is needed does not overflow. -/
def Fits (before after text : List UInt8) : Prop :=
  after.length ≤ before.length ∨
    countOcc (eqBy tolower) before text = countOcc (eqBy id) before text ∧
      text.length + (after.length - before.length) * countOcc (eqBy id) before text + 1 < 2 ^ 32

instance (before after text : List UInt8) : Decidable (Fits before after text) :=
  inferInstanceAs (Decidable (_ ∨ _))

/-- A longer text is as much longer as its occurrences say. -/
theorem length_replaced_of_lt (text : List UInt8) (hb : before ≠ [])
    (hlt : before.length < after.length) :
    (replaced before after text).length = text.length
      + (after.length - before.length) * countOcc (eqBy tolower) before text := by
  have hlen : (replaced before after text).length
      + before.length * countOcc (eqBy tolower) before text
        = text.length + after.length * countOcc (eqBy tolower) before text :=
    length_replaceAll hb text
  have hmul := Nat.mul_le_mul_right (countOcc (eqBy tolower) before text) hlt.le
  rw [Nat.sub_mul]
  omega

theorem countOcc_exact_le (before text : List UInt8) :
    countOcc (eqBy id) before text ≤ countOcc (eqBy tolower) before text := by
  refine countOcc_le_countOcc (fun a b h ↦ ?_) text
  have hab : a = b := eq_of_beq h
  rw [hab]
  exact beq_self_eq_true _

/-- What has been replaced lies in its block. -/
theorem holds_of_replaceLoop {mem : Buffer} {size : ℕ} (hb : before ≠ [])
    (hb0 : (0 : UInt8) ∉ before) (ha : (0 : UInt8) ∉ after) (h : mem.HasString 0 text)
    (hfits : text.length < size) (hfits' : (replaced before after text).length < size)
    (hsize : size < 2 ^ 32) (hhigh : mem.high ≤ size) :
    ∃ mem', (∀ limit > text.length, replaceLoop limit before after 0 limit mem 0 = some mem') ∧
      Block.Holds ⟨mem', size⟩ (replaced before after text) := by
  have hstart : mem.HasString 0 ([] ++ text) := h
  obtain ⟨mem', hrun, hstring, hbound⟩ := replaceLoop_eq hb hb0 ha hstart
  rw [List.length_nil, Nat.zero_add] at hbound
  refine ⟨mem', fun limit hlimit ↦ hrun limit hlimit limit hlimit, hstring, hfits', hsize, ?_⟩
  exact hbound.trans (max_le hhigh (Nat.succ_le_of_lt (max_lt hfits hfits')))

/-- Where the text does not get longer, the block stays. -/
theorem replaces_of_le (h : string.Holds text) (hb : before ≠ []) (hb0 : (0 : UInt8) ∉ before)
    (ha : (0 : UInt8) ∉ after) (hle : after.length ≤ before.length) :
    Replaces realloc string before after text := by
  have hshorter := (length_replaced_between hb after text).2 hle
  obtain ⟨mem', hrun, hholds⟩ := holds_of_replaceLoop hb hb0 ha h.string h.fits
    (hshorter.trans_lt h.fits) h.size_lt h.bounded
  refine ⟨_, ⟨text.length + 1, fun limit hlimit ↦ ?_⟩, hholds⟩
  rw [modifyString_keep hle, hrun limit hlimit]
  rfl

/-- Where it does, the block is as large as it has to be. -/
theorem replaces_of_eq (hrealloc : ∀ n, (realloc n).isSome) (h : string.Holds text)
    (hb : before ≠ []) (hb0 : (0 : UInt8) ∉ before) (ha : (0 : UInt8) ∉ after)
    (hlt : before.length < after.length)
    (heq : countOcc (eqBy tolower) before text = countOcc (eqBy id) before text)
    (hsize : (replaced before after text).length + 1 < 2 ^ 32) :
    Replaces realloc string before after text := by
  obtain ⟨fresh, hfresh⟩ := Option.isSome_iff_exists.mp (hrealloc (askedSize before after text))
  have hlen := length_replaced_of_lt text hb hlt
  rw [heq] at hlen
  have hasked : askedSize before after text = (replaced before after text).length + 1 := by
    rw [hlen]
    exact Nat.mod_eq_of_lt (by rwa [← hlen])
  have htext : text.length < askedSize before after text := by omega
  obtain ⟨mem', hrun, hholds⟩ := holds_of_replaceLoop hb hb0 ha (realloc_hasString h htext fresh)
    htext (by omega) (by omega) (Nat.zero_le _)
  refine ⟨_, ⟨text.length + 1, fun limit hlimit ↦ ?_⟩, hholds⟩
  rw [modifyString_grow hb hb0 h.string hlt hlimit, hfresh]
  simp only [hrun limit hlimit, Option.map_some]

/-- A block that holds the longer text has been asked for in its full size. -/
theorem fits_of_replaces (hrealloc : ∀ n, (realloc n).isSome) (h : string.Holds text)
    (hb : before ≠ []) (hb0 : (0 : UInt8) ∉ before) (hlt : before.length < after.length)
    (hreplaces : Replaces realloc string before after text) :
    countOcc (eqBy tolower) before text = countOcc (eqBy id) before text ∧
      text.length + (after.length - before.length) * countOcc (eqBy id) before text + 1
        < 2 ^ 32 := by
  obtain ⟨fresh, hfresh⟩ := Option.isSome_iff_exists.mp (hrealloc (askedSize before after text))
  obtain ⟨string', ⟨n, hrun⟩, hholds⟩ := hreplaces
  have hlimit := hrun (max n (text.length + 1)) (le_max_left _ _)
  have hlarge : text.length < max n (text.length + 1) := le_max_right n _
  rw [modifyString_grow hb hb0 h.string hlt hlarge, hfresh, Option.map_eq_some_iff] at hlimit
  obtain ⟨mem', -, rfl⟩ := hlimit
  have hlen := length_replaced_of_lt text hb hlt
  have hin : (replaced before after text).length < askedSize before after text := hholds.fits
  have hmod : askedSize before after text ≤ text.length
      + (after.length - before.length) * countOcc (eqBy id) before text + 1 := Nat.mod_le _ _
  have hle : (after.length - before.length) * countOcc (eqBy tolower) before text
      ≤ (after.length - before.length) * countOcc (eqBy id) before text := by omega
  have heq : countOcc (eqBy tolower) before text = countOcc (eqBy id) before text :=
    le_antisymm (Nat.le_of_mul_le_mul_left hle (Nat.sub_pos_of_lt hlt))
      (countOcc_exact_le before text)
  have hasked : askedSize before after text < 2 ^ 32 := hholds.size_lt
  rw [heq] at hlen
  exact ⟨heq, by omega⟩

/-- **When `modify_string` replaces within its block**, the memory asked for being there. -/
theorem replaces_iff (hrealloc : ∀ n, (realloc n).isSome) (h : string.Holds text) (hb : before ≠ [])
    (hb0 : (0 : UInt8) ∉ before) (ha : (0 : UInt8) ∉ after) :
    Replaces realloc string before after text ↔ Fits before after text := by
  obtain hle | hlt := le_or_gt after.length before.length
  · exact iff_of_true (replaces_of_le h hb hb0 ha hle) (.inl hle)
  · constructor
    · exact fun hreplaces ↦ .inr (fits_of_replaces hrealloc h hb hb0 hlt hreplaces)
    · intro hfits
      obtain ⟨heq, hsize⟩ := hfits.resolve_left (Nat.not_le.mpr hlt)
      have hlen := length_replaced_of_lt text hb hlt
      exact replaces_of_eq hrealloc h hb hb0 ha hlt heq (by rwa [hlen, heq])

/-- The block that holds a string and nothing else. -/
def Block.ofString (text : List UInt8) : Block :=
  ⟨Buffer.zeroed.write 0 (text ++ [0]), text.length + 1⟩

theorem Block.holds_ofString (h0 : (0 : UInt8) ∉ text) (hsize : text.length + 1 < 2 ^ 32) :
    (Block.ofString text).Holds text where
  string := by
    have hempty : Buffer.zeroed.HasString 0 ([] ++ []) := ⟨rfl, List.not_mem_nil, rfl⟩
    exact hempty.write h0
  fits := Nat.lt_succ_self _
  size_lt := hsize
  bounded := by
    rw [ofString, Buffer.high_write, List.length_append, List.length_singleton, Nat.zero_add]
    exact max_le (Nat.zero_le _) (le_refl _)

theorem replaces_iff_ampersand :
    Replaces (fun _ ↦ some fun _ ↦ 0) (.ofString (ascii "a&b")) (ascii "&") (ascii "&amp;")
      (ascii "a&b") :=
  (replaces_iff (fun _ ↦ rfl) (Block.holds_ofString (by decide) (by decide)) (by decide)
    (by decide) (by decide)).mpr (.inr (by decide))

/-- In `A`, the letter `a` is not counted but replaced by `bb`: three bytes in a block of two. -/
theorem not_replaces : ¬∀ (realloc : ℕ → Option (ℕ → UInt8)) (string : Block)
    (before after text : List UInt8), (∀ n, (realloc n).isSome) → string.Holds text →
      before ≠ [] → (0 : UInt8) ∉ before → (0 : UInt8) ∉ after →
        Replaces realloc string before after text := by
  intro h
  have hblock : (Block.ofString (ascii "A")).Holds (ascii "A") :=
    Block.holds_ofString (by decide) (by decide)
  obtain ⟨string', ⟨n, hrun⟩, hholds⟩ := h (fun _ ↦ some fun _ ↦ 0) _ (ascii "a") (ascii "bb") _
    (fun _ ↦ rfl) hblock (by decide) (by decide) (by decide)
  have hlimit := hrun (max n 2) (le_max_left _ _)
  rw [modifyString_grow (by decide) (by decide) hblock.string (by decide) (le_max_right n 2),
    Option.map_eq_some_iff] at hlimit
  obtain ⟨mem', -, rfl⟩ := hlimit
  have hin : (replaced (ascii "a") (ascii "bb") (ascii "A")).length
      < askedSize (ascii "a") (ascii "bb") (ascii "A") := hholds.fits
  exact absurd hin (by decide)

end Ddmz.Utils
