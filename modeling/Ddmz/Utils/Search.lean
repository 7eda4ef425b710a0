import Ddmz.Foundation.Buffer
import Ddmz.Foundation.CString
import Ddmz.Foundation.Search

/-!
# Searching in strings

`strcasestr` of `utils.c` is the library's search without regard to case; `strstrc` and
`strcasestrc` search only up to a character that ends the text. A block of memory is the list of
its bytes from the pointer on, and reading behind it has no result.

Both bounded searches compare the first byte themselves, and without folding it; and an empty
pattern makes the length that is left to compare wrap around. So `strcasestrc` passes over what
differs in the case of its first letter: `agrees_iff` says exactly when that does not matter.
-/

namespace Ddmz.Utils

/-- `tolower`. -/
def tolower (c : UInt8) : UInt8 := if 65 ≤ c ∧ c ≤ 90 then c + 32 else c

/-- Whether `strncmp` returns zero, and `strncasecmp` if `f` is `tolower`. -/
def strncmpEq (f : UInt8 → UInt8) : List UInt8 → List UInt8 → ℕ → Option Bool
  | _, _, 0 => some true
  | a :: s, b :: t, n + 1 =>
    if f a ≠ f b then some false
    else if a = 0 then some true
    else strncmpEq f s t n
  | _, _, _ + 1 => none

def strlen (s : List UInt8) : ℕ := (cstrAt s 0).length

/-- `strchr`, which finds the terminator as well. -/
def strchr (s : List UInt8) (t : UInt8) : Option ℕ := (cstrAt s 0 ++ [0]).findIdx? (· == t)

def strstr (s find : List UInt8) : Option (Option ℕ) :=
  some (firstOcc (fun a b ↦ a == b) (cstrAt find 0) (cstrAt s 0))

/-- The loops of `strcasestr`, `k` bytes behind where it began. -/
def strcasestrLoop (c : UInt8) (find : List UInt8) (len : ℕ) :
    List UInt8 → ℕ → Option (Option ℕ)
  | [], _ => none
  | sc :: s, k =>
    if sc = 0 then some none
    else if tolower sc ≠ c then strcasestrLoop c find len s (k + 1)
    else
      match strncmpEq tolower s find len with
      | none => none
      | some true => some (some k)
      | some false => strcasestrLoop c find len s (k + 1)

/-- `strcasestr`: the offset of what it returns. -/
def strcasestr (s find : List UInt8) : Option (Option ℕ) :=
  match find with
  | [] => none
  | c :: find =>
    if c ≠ 0 then strcasestrLoop (tolower c) find (strlen find) s 0 else some (some 0)

/-- `n - 1` for a `size_t`. -/
def decr (n : ℕ) : ℕ := if n = 0 then 2 ^ 32 - 1 else n - 1

/-- The loop of `strstrc`, and with `tolower` that of `strcasestrc`, `k` bytes behind where it
began. -/
def boundedLoop (f : UInt8 → UInt8) (p : List UInt8) (plen : ℕ) :
    List UInt8 → ℕ → ℕ → Option (Option ℕ)
  | [], slen, _ => if slen < plen then some none else none
  | b :: s, slen, k =>
    if slen < plen then some none
    else
      match p with
      | [] => none
      | a :: p' =>
        if b = a then
          match strncmpEq f s p' (decr plen) with
          | none => none
          | some true => some (some k)
          | some false => boundedLoop f p plen s (decr slen) (k + 1)
        else boundedLoop f p plen s (decr slen) (k + 1)

def strstrc (s p : List UInt8) (t : UInt8) : Option (Option ℕ) :=
  match strchr s t with
  | none => strstr s p
  | some slen => boundedLoop id p (strlen p) s slen 0

def strcasestrc (s p : List UInt8) (t : UInt8) : Option (Option ℕ) :=
  match strchr s t with
  | none => strcasestr s p
  | some slen => boundedLoop tolower p (strlen p) s slen 0

/-! ## The library functions on strings -/

/-- Equal up to `f`. -/
def eqBy (f : UInt8 → UInt8) (a b : UInt8) : Bool := f a == f b

theorem tolower_eq_zero : ∀ c : UInt8, tolower c = 0 ↔ c = 0 := by
  have hall : ∀ n : Fin 256, tolower (UInt8.ofFin n) = 0 ↔ UInt8.ofFin n = 0 := by
    decide +kernel
  exact fun c ↦ hall c.toFin

variable {f : UInt8 → UInt8} {s p q post : List UInt8} {t : UInt8}

theorem cstrAt_string (hs : (0 : UInt8) ∉ s) : cstrAt (s ++ 0 :: post) 0 = s := by
  have hfront : cstrAt ([] ++ (s ++ 0 :: post)) ([] : List UInt8).length = s := cstrAt_append hs
  exact hfront

theorem strlen_string (hs : (0 : UInt8) ∉ s) : strlen (s ++ 0 :: post) = s.length := by
  rw [strlen, cstrAt_string hs]

/-- A comparison of as many bytes as the pattern has, with a text that is as long or has a
terminator. -/
theorem strncmpEq_eq (hf : ∀ c, f c = 0 ↔ c = 0) (hp : (0 : UInt8) ∉ p)
    (hs : p.length ≤ s.length ∨ (0 : UInt8) ∈ s) :
    strncmpEq f s (p ++ q) p.length = some (startsWith (eqBy f) p s) := by
  induction p generalizing s with
  | nil => rw [List.length_nil, strncmpEq, startsWith]
  | cons b p ih =>
    have hb : b ≠ 0 := fun h ↦ hp (h ▸ List.mem_cons_self)
    cases s with
    | nil => simp at hs
    | cons a s =>
      rw [List.cons_append, List.length_cons, strncmpEq, startsWith, eqBy]
      by_cases hab : f a = f b
      · have ha : a ≠ 0 := fun h ↦ hb ((hf b).mp (hab ▸ (hf a).mpr h))
        have hs' : p.length ≤ s.length ∨ (0 : UInt8) ∈ s := by
          refine hs.imp Nat.le_of_succ_le_succ fun h0 ↦ ?_
          exact (List.mem_cons.mp h0).resolve_left fun h ↦ ha h.symm
        rw [if_neg (not_not.mpr hab), if_neg ha, ih (List.not_mem_of_not_mem_cons hp) hs', hab,
          beq_self_eq_true, Bool.true_and]
      · rw [if_pos hab, beq_eq_false_iff_ne.mpr (Ne.symm hab), Bool.false_and]

/-- Searching a block is searching the string in it. -/
theorem startsWith_string (hf : ∀ c, f c = 0 ↔ c = 0) (hp : (0 : UInt8) ∉ p) :
    startsWith (eqBy f) p (s ++ 0 :: post) = startsWith (eqBy f) p s := by
  refine startsWith_append_cons fun a ha ↦ beq_eq_false_iff_ne.mpr fun h ↦ hp ?_
  have h0 : f a = 0 := h.trans ((hf 0).mpr rfl)
  exact (hf a).mp h0 ▸ ha

theorem map_succ_map (o : Option ℕ) (k : ℕ) :
    (o.map (· + 1)).map (· + k) = o.map (· + (k + 1)) := by
  rw [Option.map_map]
  simp only [Function.comp_def, Nat.add_assoc, Nat.add_comm k]

theorem strcasestrLoop_eq {c : UInt8} (hp : (0 : UInt8) ∉ p) (hs : (0 : UInt8) ∉ s)
    (k : ℕ) :
    strcasestrLoop (tolower c) (p ++ 0 :: q) p.length (s ++ 0 :: post) k
      = some ((firstOcc (eqBy tolower) (c :: p) s).map (· + k)) := by
  induction s generalizing k with
  | nil =>
    rw [List.nil_append, strcasestrLoop, if_pos rfl]
    rfl
  | cons b s ih =>
    have hb : b ≠ 0 := fun h ↦ hs (h ▸ List.mem_cons_self)
    have hrest := ih (List.not_mem_of_not_mem_cons hs) (k + 1)
    rw [List.cons_append, strcasestrLoop, if_neg hb, firstOcc, firstSuffix, startsWith]
    by_cases hbc : tolower b = tolower c
    · rw [if_neg (not_not.mpr hbc), strncmpEq_eq tolower_eq_zero hp (.inr (by simp)),
        startsWith_string tolower_eq_zero hp, eqBy, hbc, beq_self_eq_true, Bool.true_and]
      cases startsWith (eqBy tolower) p s with
      | true => simp
      | false =>
        rw [if_neg Bool.false_ne_true, ← firstOcc, map_succ_map]
        exact hrest
    · rw [if_pos hbc, eqBy, beq_eq_false_iff_ne.mpr (Ne.symm hbc), Bool.false_and,
        if_neg Bool.false_ne_true, ← firstOcc, map_succ_map]
      exact hrest

/-- **`strcasestr` finds the first occurrence**, and reads nothing behind the terminators. -/
theorem strcasestr_eq (hs : (0 : UInt8) ∉ s) (hp : (0 : UInt8) ∉ p) :
    strcasestr (s ++ 0 :: post) (p ++ 0 :: q) = some (firstOcc (eqBy tolower) p s) := by
  cases p with
  | nil =>
    have hfirst : firstOcc (eqBy tolower) [] s = some 0 := by
      cases s <;> rfl
    rw [hfirst, List.nil_append, strcasestr]
    rfl
  | cons c p =>
    have hc : c ≠ 0 := fun h ↦ hp (h ▸ List.mem_cons_self)
    have hp' := List.not_mem_of_not_mem_cons hp
    rw [List.cons_append, strcasestr, if_pos hc, strlen_string hp', strcasestrLoop_eq hp' hs]
    simp

theorem strstr_eq (hs : (0 : UInt8) ∉ s) (hp : (0 : UInt8) ∉ p) :
    strstr (s ++ 0 :: post) (p ++ 0 :: q) = some (firstOcc (eqBy id) p s) := by
  rw [strstr, cstrAt_string hs, cstrAt_string hp]
  rfl

/-! ## The bounded searches -/

/-- `p` stands at the beginning of `s` up to `f`, but with its own first byte. -/
def standsExactly (f : UInt8 → UInt8) (p s : List UInt8) : Bool :=
  decide (s.head? = p.head?) && startsWith (eqBy f) p s

theorem standsExactly_le (s : List UInt8) (h : standsExactly f p s = true) :
    startsWith (eqBy f) p s = true := by
  rw [standsExactly, Bool.and_eq_true] at h
  exact h.2

theorem standsExactly_id (s : List UInt8) (hp : p ≠ []) :
    standsExactly id p s = startsWith (eqBy id) p s := by
  obtain ⟨a, p, rfl⟩ := List.exists_cons_of_ne_nil hp
  cases s with
  | nil => rfl
  | cons b s =>
    rw [standsExactly, startsWith, eqBy]
    by_cases hab : b = a
    · simp [hab]
    · simp [hab, Ne.symm hab]

theorem firstSuffix_standsExactly_of_lt (h : s.length < p.length) :
    firstSuffix (standsExactly f p) s = none := by
  refine firstSuffix_eq_none.mpr fun k hk ↦ Bool.eq_false_iff.mpr fun hstands ↦ ?_
  have hnone := firstSuffix_eq_none.mp (firstOcc_eq_none_of_lt (r := eqBy f) h) k hk
  exact absurd (standsExactly_le _ hstands) (by simp [hnone])

/-- The loop goes through the positions where the pattern is not longer than what is left in front
of the terminator `t`; what comes behind is not read. -/
theorem boundedLoop_eq (hf : ∀ c, f c = 0 ↔ c = 0) {a : UInt8} (hp : (0 : UInt8) ∉ p)
    (u w : List UInt8) (k : ℕ) :
    boundedLoop f (a :: (p ++ q)) (p.length + 1) (u ++ w) u.length k
      = some ((firstSuffix (standsExactly f (a :: p)) u).map (· + k)) := by
  induction u generalizing k with
  | nil => cases w <;> rfl
  | cons b u ih =>
    rw [List.cons_append, boundedLoop]
    by_cases hlt : (b :: u).length < p.length + 1
    · rw [if_pos hlt, firstSuffix_standsExactly_of_lt hlt]
      rfl
    · have hle : p.length ≤ u.length := Nat.le_of_succ_le_succ (Nat.le_of_not_lt hlt)
      have hrest := ih (k + 1)
      have hlong : p.length ≤ (u ++ w).length := by
        rw [List.length_append]
        omega
      have hdecr : decr (b :: u).length = u.length := rfl
      rw [if_neg hlt, firstSuffix, standsExactly, hdecr]
      by_cases hab : b = a
      · rw [if_pos hab, hab, startsWith, eqBy, beq_self_eq_true, Bool.true_and]
        have hcmp : strncmpEq f (u ++ w) (p ++ q) (decr (p.length + 1))
            = some (startsWith (eqBy f) p u) := by
          rw [← startsWith_append hle (t := w)]
          exact strncmpEq_eq hf hp (.inl hlong)
        simp only [hcmp]
        cases startsWith (eqBy f) p u with
        | true => simp
        | false =>
          rw [Bool.and_false, if_neg Bool.false_ne_true, map_succ_map]
          exact hrest
      · have hhead : ¬((b :: u).head? = (a :: p).head?) := by simpa using hab
        rw [if_neg hab, decide_eq_false hhead, Bool.false_and, if_neg Bool.false_ne_true,
          map_succ_map]
        exact hrest

/-- With an empty pattern, the loop goes on to the terminator and compares what is behind it. -/
theorem boundedLoop_nil (hs : (0 : UInt8) ∉ s) (slen k : ℕ) :
    boundedLoop f [0] 0 (s ++ [0]) slen k = none := by
  induction s generalizing slen k with
  | nil =>
    rw [List.nil_append, boundedLoop, if_neg (Nat.not_lt_zero _), if_pos rfl]
    rfl
  | cons b s ih =>
    have hb : b ≠ 0 := fun h ↦ hs (h ▸ List.mem_cons_self)
    rw [List.cons_append, boundedLoop, if_neg (Nat.not_lt_zero _), if_neg hb]
    exact ih (List.not_mem_of_not_mem_cons hs) _ _

/-! ## Agreement with the plain searches -/

/-- The part of `s` in front of the first `t`, which is all of it if there is none. -/
def part (s : List UInt8) (t : UInt8) : List UInt8 := s.takeWhile (· ≠ t)

theorem part_eq_self (h : t ∉ s) : part s t = s :=
  List.takeWhile_eq_self_iff.mpr fun _ hb ↦ decide_eq_true fun hbt ↦ h (hbt ▸ hb)

theorem zero_notMem_part (hs : (0 : UInt8) ∉ s) : (0 : UInt8) ∉ part s t := fun h ↦
  hs ((List.takeWhile_sublist _).mem h)

theorem part_append (h : t ∈ s) : part (s ++ p) t = part s t := by
  induction s with
  | nil => exact absurd h List.not_mem_nil
  | cons b s ih =>
    rw [part, part, List.cons_append, List.takeWhile_cons, List.takeWhile_cons]
    split
    · rename_i hb
      have hne : b ≠ t := by simpa using hb
      exact congrArg (b :: ·) (ih ((List.mem_cons.mp h).resolve_left hne.symm))
    · rfl

theorem findIdx?_eq_part (h : t ∈ s) : s.findIdx? (· == t) = some (part s t).length := by
  induction s with
  | nil => exact absurd h List.not_mem_nil
  | cons b s ih =>
    rw [List.findIdx?_cons, part, List.takeWhile_cons]
    by_cases hb : b = t
    · simp [hb]
    · have hmem : t ∈ s := (List.mem_cons.mp h).resolve_left (Ne.symm hb)
      rw [if_neg (by simpa using hb), ih hmem, if_pos (by simpa using hb)]
      rfl

theorem strchr_eq_none (hs : (0 : UInt8) ∉ s) (ht : t ∉ s) (h0 : t ≠ 0) :
    strchr (s ++ [0]) t = none := by
  rw [strchr, cstrAt_string hs, List.findIdx?_eq_none_iff]
  intro b hb
  rw [List.mem_append, List.mem_singleton] at hb
  obtain hb | rfl := hb
  · simpa using fun h : b = t ↦ ht (h ▸ hb)
  · simpa using Ne.symm h0

theorem strchr_eq_some (hs : (0 : UInt8) ∉ s) (ht : t = 0 ∨ t ∈ s) :
    strchr (s ++ [0]) t = some (part s t).length := by
  rw [strchr, cstrAt_string hs, findIdx?_eq_part (by simpa [or_comm] using ht)]
  by_cases hmem : t ∈ s
  · rw [part_append hmem]
  · obtain rfl := ht.resolve_right hmem
    rw [part_eq_self hmem, part, List.takeWhile_append_of_pos
      (List.takeWhile_eq_self_iff.mp (part_eq_self hmem))]
    simp

/-- `p` stands in `s` from the position `k` on, up to case. -/
def StandsAt (p s : List UInt8) (k : ℕ) : Prop :=
  k ≤ s.length ∧ startsWith (eqBy tolower) p (s.drop k) = true

/-- In the part in front of `t`, both bounded searches find what the plain ones find there, and read
nothing behind the terminators. -/
def Agrees (s p : CStr) (t : UInt8) : Prop :=
  (∃ k, strcasestrc (s.1 ++ [0]) (p.1 ++ [0]) t = some k ∧
      strcasestr (part s.1 t ++ [0]) (p.1 ++ [0]) = some k) ∧
    ∃ k, strstrc (s.1 ++ [0]) (p.1 ++ [0]) t = some k ∧
      strstr (part s.1 t ++ [0]) (p.1 ++ [0]) = some k

/-- The terminator does not occur, or the pattern is not empty and has one occurrence with its own
first byte no later than any other. -/
def Searchable (s p : CStr) (t : UInt8) : Prop :=
  t ≠ 0 ∧ t ∉ s.1 ∨ p.1 ≠ [] ∧ ∀ k, StandsAt p.1 (part s.1 t) k →
    ∃ j ≤ k, StandsAt p.1 (part s.1 t) j ∧ (part s.1 t)[j]? = p.1.head?

/-- Where there is a terminator, the loop searches the part in front of it. -/
theorem boundedLoop_part (hf : ∀ c, f c = 0 ↔ c = 0) (hp : (0 : UInt8) ∉ p) (hne : p ≠ []) :
    boundedLoop f (p ++ [0]) (strlen (p ++ [0])) (s ++ [0]) (part s t).length 0
      = some (firstSuffix (standsExactly f p) (part s t)) := by
  obtain ⟨a, p, rfl⟩ := List.exists_cons_of_ne_nil hne
  have hsplit : s ++ [0] = part s t ++ (s.dropWhile (· ≠ t) ++ [0]) := by
    rw [part, ← List.append_assoc, List.takeWhile_append_dropWhile]
  rw [strlen_string hp, hsplit, List.cons_append]
  refine (boundedLoop_eq hf (List.not_mem_of_not_mem_cons hp) _ _ 0).trans ?_
  simp

/-- Both searches go through the same positions, and only the first byte is compared differently. -/
theorem firstSuffix_standsExactly_iff {u : List UInt8} :
    firstSuffix (standsExactly tolower p) u = firstOcc (eqBy tolower) p u ↔
      ∀ k, StandsAt p u k → ∃ j ≤ k, StandsAt p u j ∧ u[j]? = p.head? := by
  rw [firstOcc, firstSuffix_congr_iff standsExactly_le]
  have hexact : ∀ j, standsExactly tolower p (u.drop j) = true ↔
      u[j]? = p.head? ∧ startsWith (eqBy tolower) p (u.drop j) = true := by
    intro j
    rw [standsExactly, Bool.and_eq_true, decide_eq_true_iff, List.head?_drop]
  constructor
  · rintro h k ⟨hk, hq⟩
    obtain ⟨j, hj, hstands⟩ := h k hk hq
    obtain ⟨hhead, hstarts⟩ := (hexact j).mp hstands
    exact ⟨j, hj, ⟨hj.trans hk, hstarts⟩, hhead⟩
  · intro h k hk hq
    obtain ⟨j, hj, ⟨-, hstarts⟩, hhead⟩ := h k ⟨hk, hq⟩
    exact ⟨j, hj, (hexact j).mpr ⟨hhead, hstarts⟩⟩

/-- **When the bounded searches agree with the plain ones.** -/
theorem agrees_iff (s p : CStr) (t : UInt8) : Agrees s p t ↔ Searchable s p t := by
  obtain ⟨s, hs⟩ := s
  obtain ⟨p, hp⟩ := p
  simp only [Agrees, Searchable, strcasestrc, strstrc]
  rw [strcasestr_eq (zero_notMem_part hs) hp, strstr_eq (zero_notMem_part hs) hp]
  by_cases ht : t = 0 ∨ t ∈ s
  · have hfound : ¬(t ≠ 0 ∧ t ∉ s) := fun h ↦ ht.elim h.1 h.2
    rw [or_iff_right hfound, strchr_eq_some hs ht]
    dsimp only
    by_cases hne : p = []
    · subst hne
      have hstuck : boundedLoop tolower ([] ++ [0]) (strlen ([] ++ [0])) (s ++ [0])
          (part s t).length 0 = none := boundedLoop_nil hs _ _
      rw [hstuck]
      constructor
      · rintro ⟨⟨k, hk, -⟩, -⟩
        cases hk
      · exact fun h ↦ absurd rfl h.1
    · have hid : firstSuffix (standsExactly id p) (part s t) = firstOcc (eqBy id) p (part s t) :=
        congrArg (firstSuffix · _) (funext fun u ↦ standsExactly_id u hne)
      have hzero : ∀ c : UInt8, id c = 0 ↔ c = 0 := fun _ ↦ Iff.rfl
      rw [boundedLoop_part tolower_eq_zero hp hne, boundedLoop_part hzero hp hne, hid,
        and_iff_right hne, ← firstSuffix_standsExactly_iff]
      constructor
      · rintro ⟨⟨k, hk, hk'⟩, -⟩
        exact Option.some.inj (hk.trans hk'.symm)
      · exact fun h ↦ ⟨⟨_, rfl, congrArg some h.symm⟩, _, rfl, rfl⟩
  · have hnone := not_or.mp ht
    rw [strchr_eq_none hs hnone.2 hnone.1, part_eq_self hnone.2]
    dsimp only
    rw [strcasestr_eq hs hp, strstr_eq hs hp]
    exact ⟨fun _ ↦ .inl hnone, fun _ ↦ ⟨⟨_, rfl, rfl⟩, _, rfl, rfl⟩⟩

/-- `strcasestrc("ABC;", "abc", ';')` finds nothing. -/
theorem not_agrees : ¬∀ s p t, Agrees s p t := by
  intro h
  obtain ⟨⟨k, hk, hk'⟩, -⟩ := h ⟨[65, 66, 67, 59], by decide⟩ ⟨[97, 98, 99], by decide⟩ 59
  have hmissed : strcasestrc [65, 66, 67, 59, 0] [97, 98, 99, 0] 59 = some none := by decide
  have hfound : strcasestr [65, 66, 67, 0] [97, 98, 99, 0] = some (some 0) := by decide
  obtain rfl := Option.some.inj (hmissed.symm.trans hk)
  exact absurd (hfound.symm.trans hk') (by decide)

end Ddmz.Utils
