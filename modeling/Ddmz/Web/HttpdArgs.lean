import Ddmz.Cloud.UrlEncode
import Ddmz.Foundation.Buffer
import Ddmz.Foundation.FormUrl
import Ddmz.Foundation.Lines

/-!
# The arguments of a request

`httpdFindArg` looks for an argument in the part of a url behind the question mark, or in what has
been posted, and decodes its value as far as there is room for it.

A client writes the arguments with an encoder of its own. Whatever bytes it escapes, as long as the
ampersand is one of them, what is found is the first value of the argument, cut off at the room for
it: `httpdFindArg_query`. The encoder of `dd_http.c` is one of these.
-/

namespace Ddmz.Web

/-- `'&'`. -/
abbrev AMPERSAND : UInt8 := 38

/-- `'='`. -/
abbrev EQUALS : UInt8 := 61

/-! ## The code -/

/-- `httpdHexVal`, which takes what is no digit for zero. -/
def httpdHexVal (c : UInt8) : ℕ := (hexVal c).getD 0

/-- The loop of `httpdUrlDecode`, with what has been written. -/
def urlDecodeLoop (retLen : ℕ) : List UInt8 → ℕ → ℕ → List UInt8 → List UInt8
  | [], _, _, ret => ret
  | c :: val, esced, escVal, ret =>
    if ret.length < retLen then
      if esced = 1 then urlDecodeLoop retLen val 2 (httpdHexVal c <<< 4) ret
      else if esced = 2 then
        urlDecodeLoop retLen val 0 (escVal + httpdHexVal c)
          (ret ++ [UInt8.ofNat (escVal + httpdHexVal c)])
      else if c = PERCENT then urlDecodeLoop retLen val 1 escVal ret
      else if c = PLUS then urlDecodeLoop retLen val 0 escVal (ret ++ [SPACE])
      else urlDecodeLoop retLen val 0 escVal (ret ++ [c])
    else ret

/-- `httpdUrlDecode`, with what it returns; there is a terminator if there is room for it. -/
def httpdUrlDecode (val : List UInt8) (ret : Buffer) (retLen : ℕ) : ℕ × Buffer :=
  let out := urlDecodeLoop retLen val 0 0 []
  (out.length, ret.write 0 (out ++ if out.length < retLen then [0] else []))

/-- The loop of `httpdFindArg` from `p` on, up to the value. -/
def findArgLoop (arg : List UInt8) : ℕ → List UInt8 → Option (List UInt8)
  | 0, _ => none
  | fuel + 1, p =>
    if p = [] ∨ p.head? = some 10 ∨ p.head? = some 13 then none
    else if arg ++ [EQUALS] <+: p then
      some ((p.drop (arg.length + 1)).takeWhile (· ≠ AMPERSAND))
    else
      match p.dropWhile (· ≠ AMPERSAND) with
      | [] => none
      | _ :: rest => findArgLoop arg fuel rest

/-- `httpdFindArg` in a string, with what it returns and the memory at `buff`. -/
def httpdFindArg (line : Option (List UInt8)) (arg : List UInt8) (buff : Buffer) (buffLen : ℕ) :
    Option (ℕ × Buffer) :=
  line.bind fun line ↦ (findArgLoop arg (line.length + 1) line).map fun val ↦
    httpdUrlDecode val buff buffLen

/-! ## Decoding -/

section Decoding

variable {L : LiteralSet} {retLen escVal : ℕ} {val ret : List UInt8}

theorem urlDecodeLoop_full (h : retLen ≤ ret.length) (esced : ℕ) :
    urlDecodeLoop retLen val esced escVal ret = ret := by
  cases val with
  | nil => rfl
  | cons c val => rw [urlDecodeLoop, if_neg (Nat.not_lt.mpr h)]

theorem httpdHexVal_hexDigit {n : ℕ} (h : n < 16) : httpdHexVal (hexDigit n) = n := by
  rw [httpdHexVal, hexVal_hexDigit n h, Option.getD_some]

/-- The encoding of one byte is decoded in up to three turns. -/
theorem urlDecodeLoop_formEncodeByte (h : ret.length < retLen) (b : UInt8) :
    ∃ escVal', urlDecodeLoop retLen (formEncodeByte L b ++ val) 0 escVal ret
      = urlDecodeLoop retLen val 0 escVal' (ret ++ [b]) := by
  rw [formEncodeByte]
  split_ifs with hmem hspace
  · have hpercent : b ≠ PERCENT := fun heq ↦ by
      rw [heq, L.percent] at hmem
      exact Bool.false_ne_true hmem
    have hplus : b ≠ PLUS := fun heq ↦ by
      rw [heq, L.plus] at hmem
      exact Bool.false_ne_true hmem
    refine ⟨escVal, ?_⟩
    rw [List.singleton_append, urlDecodeLoop, if_pos h, if_neg (by decide), if_neg (by decide),
      if_neg hpercent, if_neg hplus]
  · refine ⟨escVal, ?_⟩
    rw [List.singleton_append, urlDecodeLoop, if_pos h, hspace]
    rfl
  · have hlt : b.toNat < 256 := b.toNat_lt
    have hvalue : (b.toNat / 16) <<< 4 + b.toNat % 16 = b.toNat := by
      rw [Nat.shiftLeft_eq]
      omega
    refine ⟨b.toNat, ?_⟩
    rw [percentTriple, List.cons_append, List.cons_append, List.cons_append, List.nil_append,
      urlDecodeLoop, if_pos h, if_neg (by decide), if_neg (by decide), if_pos rfl, urlDecodeLoop,
      if_pos h, if_pos rfl, urlDecodeLoop, if_pos h, if_neg (by decide), if_pos rfl,
      httpdHexVal_hexDigit (by omega), httpdHexVal_hexDigit (by omega), hvalue, UInt8.ofNat_toNat]

/-- **Decoding undoes encoding** as far as there is room. -/
theorem urlDecodeLoop_formEncode (text : List UInt8) (escVal : ℕ) (h : ret.length ≤ retLen) :
    urlDecodeLoop retLen (formEncode L text) 0 escVal ret
      = ret ++ text.take (retLen - ret.length) := by
  induction text generalizing escVal ret with
  | nil =>
    rw [List.take_nil, List.append_nil]
    rfl
  | cons b text ih =>
    rcases Nat.lt_or_ge ret.length retLen with hlt | hge
    · obtain ⟨escVal', hbyte⟩ : ∃ escVal',
          urlDecodeLoop retLen (formEncodeByte L b ++ formEncode L text) 0 escVal ret = _ :=
        urlDecodeLoop_formEncodeByte hlt b
      obtain ⟨k, hk⟩ : ∃ k, retLen - ret.length = k + 1 := ⟨retLen - ret.length - 1, by omega⟩
      rw [formEncode_cons, hbyte, ih _ (by simpa using hlt), List.length_append,
        List.length_singleton, hk, List.take_succ_cons, List.append_assoc, List.singleton_append]
      congr 3
      omega
    · rw [urlDecodeLoop_full hge, Nat.sub_eq_zero_of_le hge, List.take_zero, List.append_nil]

end Decoding

/-! ## Finding -/

section Finding

variable (L : LiteralSet)

/-- An argument as a client writes it. -/
def argument (a : List UInt8 × List UInt8) : List UInt8 := a.1 ++ EQUALS :: formEncode L a.2

/-- Arguments as a client writes them, with ampersands between them. -/
def query : List (List UInt8 × List UInt8) → List UInt8
  | [] => []
  | [a] => argument L a
  | a :: b :: rest => argument L a ++ AMPERSAND :: query (b :: rest)

/-- A name that a client may give an argument. -/
def IsName (name : List UInt8) : Prop :=
  ∀ c ∈ name, c ≠ AMPERSAND ∧ c ≠ EQUALS ∧ c ≠ 10 ∧ c ≠ 13

instance (name : List UInt8) : Decidable (IsName name) :=
  inferInstanceAs (Decidable (∀ c ∈ name, c ≠ AMPERSAND ∧ c ≠ EQUALS ∧ c ≠ 10 ∧ c ≠ 13))

variable {L} {arg rest : List UInt8} {a : List UInt8 × List UInt8}

theorem ampersand_notMem_formEncode (hL : L.mem AMPERSAND = false) (text : List UInt8) :
    AMPERSAND ∉ formEncode L text := by
  have hdigit : ∀ n < 16, hexDigit n ≠ AMPERSAND := by decide
  intro h
  obtain ⟨b, -, hb⟩ := List.mem_flatMap.mp h
  have hlt : b.toNat < 256 := b.toNat_lt
  rw [formEncodeByte] at hb
  split_ifs at hb with hmem hspace
  · rw [← List.mem_singleton.mp hb, hL] at hmem
    exact Bool.false_ne_true hmem
  · exact absurd hb (by decide)
  · simp only [percentTriple, List.mem_cons, List.not_mem_nil, or_false] at hb
    rcases hb with hb | hb | hb
    · exact absurd hb (by decide)
    · exact hdigit _ (by omega) hb.symm
    · exact hdigit _ (Nat.mod_lt _ (by decide)) hb.symm

theorem argument_append :
    argument L a ++ rest = a.1 ++ EQUALS :: (formEncode L a.2 ++ rest) := by
  rw [argument, List.append_assoc, List.cons_append]

/-- The name of an argument is compared as a whole. -/
theorem prefix_argument_iff (harg : EQUALS ∉ arg) (ha : IsName a.1) :
    arg ++ [EQUALS] <+: argument L a ++ rest ↔ arg = a.1 := by
  have hname : EQUALS ∉ a.1 := fun h ↦ (ha _ h).2.1 rfl
  rw [argument_append]
  constructor
  · rintro ⟨tail, htail⟩
    rw [List.append_assoc] at htail
    exact (Lines.first_inj harg hname htail).1
  · rintro rfl
    exact ⟨formEncode L a.2 ++ rest, List.append_assoc _ _ _⟩

/-- One turn of the search. -/
theorem findArgLoop_argument (hL : L.mem AMPERSAND = false) (harg : EQUALS ∉ arg)
    (ha : IsName a.1) (hrest : ∀ c ∈ rest.head?, c = AMPERSAND) (fuel : ℕ) :
    findArgLoop arg (fuel + 1) (argument L a ++ rest) =
      if arg = a.1 then some (formEncode L a.2)
      else if rest = [] then none else findArgLoop arg fuel rest.tail := by
  have hvalue := ampersand_notMem_formEncode hL a.2
  have hgo : ¬(argument L a ++ rest = [] ∨ (argument L a ++ rest).head? = some 10 ∨
      (argument L a ++ rest).head? = some 13) := by
    obtain ⟨name, value⟩ := a
    cases name with
    | nil => exact of_decide_eq_true rfl
    | cons c name => simpa [argument] using ⟨(ha c (by simp)).2.2.1, (ha c (by simp)).2.2.2⟩
  have hfree : ∀ c ∈ argument L a, (decide (c ≠ AMPERSAND)) = true := by
    intro c hc
    rw [argument, List.mem_append, List.mem_cons] at hc
    rcases hc with hc | rfl | hc
    · exact decide_eq_true (ha c hc).1
    · decide
    · exact decide_eq_true fun heq ↦ hvalue (heq ▸ hc)
  have hfreeValue : ∀ c ∈ formEncode L a.2, (decide (c ≠ AMPERSAND)) = true := fun c hc ↦
    decide_eq_true fun heq ↦ hvalue (heq ▸ hc)
  rw [findArgLoop, if_neg hgo]
  simp only [prefix_argument_iff harg ha]
  split_ifs with hname hempty
  · rw [argument_append, hname, List.drop_append, List.drop_eq_nil_of_le (Nat.le_succ _),
      Nat.add_sub_cancel_left, List.nil_append, List.drop_succ_cons, List.drop_zero,
      List.takeWhile_append_of_pos hfreeValue]
    cases rest with
    | nil => rw [List.takeWhile_nil, List.append_nil]
    | cons c rest => simp [hrest c rfl]
  · rw [hempty, List.append_nil, List.dropWhile_eq_nil_iff.mpr hfree]
  · rw [List.dropWhile_append_of_pos hfree]
    cases rest with
    | nil => exact absurd rfl hempty
    | cons c rest => simp [hrest c rfl]

theorem length_le_query (args : List (List UInt8 × List UInt8)) :
    args.length ≤ (query L args).length := by
  have hpos (a : List UInt8 × List UInt8) : 1 ≤ (argument L a).length := by
    rw [argument, List.length_append, List.length_cons]
    omega
  induction args with
  | nil => exact le_refl _
  | cons a args ih =>
    cases args with
    | nil => exact hpos a
    | cons b rest =>
      have ha := hpos a
      have hquery : (query L (a :: b :: rest)).length
          = (argument L a).length + ((query L (b :: rest)).length + 1) := List.length_append
      have hcount : (a :: b :: rest).length = (b :: rest).length + 1 := rfl
      omega

/-- The first argument of this name is found. -/
theorem findArgLoop_query (hL : L.mem AMPERSAND = false) (harg : EQUALS ∉ arg)
    {args : List (List UInt8 × List UInt8)} (hargs : ∀ a ∈ args, IsName a.1) {fuel : ℕ}
    (hfuel : args.length ≤ fuel) : findArgLoop arg (fuel + 1) (query L args)
      = (args.find? (arg = ·.1)).map fun a ↦ formEncode L a.2 := by
  induction args generalizing fuel with
  | nil => rfl
  | cons a args ih =>
    have hname := hargs a List.mem_cons_self
    have hothers : ∀ a ∈ args, IsName a.1 := fun a ha ↦ hargs a (List.mem_cons_of_mem _ ha)
    obtain ⟨k, rfl⟩ : ∃ k, fuel = k + 1 :=
      ⟨fuel - 1, by rw [List.length_cons] at hfuel; omega⟩
    cases args with
    | nil =>
      rw [query, ← List.append_nil (argument L a), findArgLoop_argument hL harg hname (by simp),
        if_pos rfl, List.find?_singleton]
      by_cases heq : arg = a.1 <;> simp [heq]
    | cons b rest =>
      rw [query, findArgLoop_argument hL harg hname (by simp), if_neg (List.cons_ne_nil _ _),
        List.tail_cons, ih hothers (Nat.le_of_succ_le_succ hfuel)]
      by_cases heq : arg = a.1 <;> simp [List.find?_cons, heq]

/-- **An argument that a client has written is found**, the first of its name, and its value cut off
at the room for it. -/
theorem httpdFindArg_query (hL : L.mem AMPERSAND = false) (harg : EQUALS ∉ arg)
    {args : List (List UInt8 × List UInt8)} (hargs : ∀ a ∈ args, IsName a.1) (buff : Buffer)
    (buffLen : ℕ) : httpdFindArg (some (query L args)) arg buff buffLen
      = (args.find? (arg = ·.1)).map fun a ↦ ((a.2.take buffLen).length,
          buff.write 0 (a.2.take buffLen ++ if a.2.length < buffLen then [0] else [])) := by
  rw [httpdFindArg, Option.bind_some,
    findArgLoop_query hL harg hargs (length_le_query args), Option.map_map]
  refine congrArg (Option.map · _) (funext fun a ↦ ?_)
  have hdecode : urlDecodeLoop buffLen (formEncode L a.2) 0 0 [] = a.2.take buffLen :=
    urlDecodeLoop_formEncode a.2 0 (Nat.zero_le _)
  have hroom : (a.2.take buffLen).length < buffLen ↔ a.2.length < buffLen := by
    rw [List.length_take]
    omega
  simp only [Function.comp_apply, httpdUrlDecode, hdecode, hroom]

theorem httpdFindArg_query_cut :
    let args := [(ascii "id", ascii "7"), (ascii "q", ascii "a b&c")]
    httpdFindArg (some (query Cloud.urlLiterals args)) (ascii "q") ⟨fun _ ↦ 0, 0⟩ 4
      = some (4, Buffer.write ⟨fun _ ↦ 0, 0⟩ 0 (ascii "a b&")) :=
  httpdFindArg_query (by decide) (by decide) (by decide +kernel) _ 4

end Finding

end Ddmz.Web
