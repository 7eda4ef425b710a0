import Ddmz.Utils.ModifyString

/-!
# Escaping for XML

`escape_tag` of `utils.c` replaces `&`, then `<`, then `>` in a copy of its text. None of the
three is in what the passes after it look for, except the `&` of the first, which comes before the
others are put in; so the passes together take each byte on its own: `escape`.

None of them is a letter, and the search up to case finds just what has been counted.
-/

namespace Ddmz.Utils

/-- `'&'`. -/
abbrev AMPERSAND : UInt8 := 38

/-- `'<'`. -/
abbrev LESS : UInt8 := 60

/-- `'>'`. -/
abbrev GREATER : UInt8 := 62

/-- `escape_tag`, with the memory for the copy there: the block that it returns, if any. -/
def escapeTag (limit : ℕ) (realloc : ℕ → Option (ℕ → UInt8)) (tag : List UInt8)
    (forceAlloc : Bool) : Option (Option Block) :=
  if (strchr (tag ++ [0]) AMPERSAND).isSome ∨ (strchr (tag ++ [0]) LESS).isSome ∨
      (strchr (tag ++ [0]) GREATER).isSome ∨ (strchr (tag ++ [0]) QUOTE).isSome then do
    let escTag := Block.ofString tag
    let escTag ← modifyString limit realloc escTag (ascii "&") (ascii "&amp;") 0
    let escTag ← modifyString limit realloc escTag (ascii "<") (ascii "&lt;") 0
    let escTag ← modifyString limit realloc escTag (ascii ">") (ascii "&gt;") 0
    some (some escTag)
  else if forceAlloc then some (some (Block.ofString tag))
  else some none

/-! ## The three passes as one -/

def escapeByte (c : UInt8) : List UInt8 :=
  if c = AMPERSAND then ascii "&amp;"
  else if c = LESS then ascii "&lt;"
  else if c = GREATER then ascii "&gt;"
  else [c]

def escape (tag : List UInt8) : List UInt8 := tag.flatMap escapeByte

/-- What stands for the characters, and the characters. -/
def entities : List (List UInt8 × UInt8) :=
  [(ascii "&amp;", AMPERSAND), (ascii "&lt;", LESS), (ascii "&gt;", GREATER)]

def unescapeRule (s : List UInt8) : Option (ℕ × List UInt8) :=
  (entities.find? fun e ↦ startsWith (fun a b ↦ a == b) e.1 s).map fun e ↦ (e.1.length, [e.2])

/-- Replace the entities by their characters, in one pass from left to right. -/
def unescape (s : List UInt8) : List UInt8 := rewriteFrom unescapeRule id 0 s

variable {tag : List UInt8} {c : UInt8}

theorem escapeByte_self (h1 : c ≠ AMPERSAND) (h2 : c ≠ LESS) (h3 : c ≠ GREATER) :
    escapeByte c = [c] := by
  rw [escapeByte, if_neg h1, if_neg h2, if_neg h3]

/-- The characters to be escaped are not letters. -/
theorem eqBy_tolower_eq : ∀ a ∈ [AMPERSAND, LESS, GREATER], eqBy tolower a = eqBy id a := by
  have hall : ∀ a ∈ [AMPERSAND, LESS, GREATER], ∀ n : Fin 256,
      eqBy tolower a (UInt8.ofFin n) = eqBy id a (UInt8.ofFin n) := by
    decide +kernel
  exact fun a ha ↦ funext fun b ↦ hall a ha b.toFin

/-- The three passes, one after the other. -/
theorem replaced_replaced_replaced (tag : List UInt8) :
    replaced (ascii ">") (ascii "&gt;") (replaced (ascii "<") (ascii "&lt;")
      (replaced (ascii "&") (ascii "&amp;") tag)) = escape tag := by
  have hpass : ∀ a ∈ [AMPERSAND, LESS, GREATER], ∀ q s : List UInt8,
      replaced [a] q s = s.flatMap fun b ↦ if a = b then q else [b] := by
    intro a ha q s
    rw [replaced, replaceAll_singleton, eqBy_tolower_eq a ha]
    simp [eqBy]
  have hamp : ascii "&" = [AMPERSAND] := by decide
  have hless : ascii "<" = [LESS] := by decide
  have hgreater : ascii ">" = [GREATER] := by decide
  rw [hamp, hless, hgreater, hpass _ (by decide), hpass _ (by decide), hpass _ (by decide),
    List.flatMap_assoc, List.flatMap_assoc, escape]
  congr 1
  funext c
  by_cases h1 : c = AMPERSAND
  · rw [h1]
    decide
  · by_cases h2 : c = LESS
    · rw [h2]
      decide
    · by_cases h3 : c = GREATER
      · rw [h3]
        decide
      · simp [escapeByte_self h1 h2 h3, Ne.symm h1, Ne.symm h2, Ne.symm h3]

/-! ## What is in the escaped text -/

theorem escape_eq_self (h : ∀ c ∈ tag, c ≠ AMPERSAND ∧ c ≠ LESS ∧ c ≠ GREATER) :
    escape tag = tag := by
  have hself : ∀ c ∈ tag, escapeByte c = [c] := fun c hc ↦
    escapeByte_self (h c hc).1 (h c hc).2.1 (h c hc).2.2
  rw [escape, List.flatMap_congr hself, List.flatMap_singleton']

theorem notMem_escapeByte (c : UInt8) : (LESS : UInt8) ∉ escapeByte c ∧ GREATER ∉ escapeByte c := by
  rw [escapeByte]
  split_ifs with h1 h2 h3
  · decide
  · decide
  · decide
  · simp [Ne.symm h2, Ne.symm h3]

theorem notMem_escape (tag : List UInt8) : (LESS : UInt8) ∉ escape tag ∧ GREATER ∉ escape tag := by
  constructor <;> intro h <;> obtain ⟨c, -, hc⟩ := List.mem_flatMap.mp h
  · exact (notMem_escapeByte c).1 hc
  · exact (notMem_escapeByte c).2 hc

/-- Reading an escaped byte back. -/
theorem unescape_escapeByte (c : UInt8) (s : List UInt8) :
    unescape (escapeByte c ++ s) = c :: unescape s := by
  by_cases h1 : c = AMPERSAND
  · subst h1
    rfl
  · by_cases h2 : c = LESS
    · subst h2
      rfl
    · by_cases h3 : c = GREATER
      · subst h3
        rfl
      · have hrule : unescapeRule (c :: s) = none := by
          have hc : (AMPERSAND == c) = false := beq_eq_false_iff_ne.mpr (Ne.symm h1)
          simp [unescapeRule, entities, ascii, startsWith, hc]
        rw [escapeByte_self h1 h2 h3, List.singleton_append, unescape, rewriteFrom_keep hrule]
        rfl

theorem unescape_escape (tag : List UInt8) : unescape (escape tag) = tag := by
  induction tag with
  | nil => rfl
  | cons c tag ih =>
    rw [escape, List.flatMap_cons, ← escape, unescape_escapeByte, ih]

/-- An `&` in an escaped byte begins it, and then it is an entity. -/
theorem entity_of_escapeByte {a b : List UInt8} (h : escapeByte c = a ++ AMPERSAND :: b) :
    a = [] ∧ ∃ e ∈ entities, e.1 = AMPERSAND :: b := by
  have htail : AMPERSAND ∉ (escapeByte c).tail := by
    rw [escapeByte]
    split_ifs
    · decide
    · decide
    · decide
    · simp
  obtain rfl : a = [] := by
    cases a with
    | nil => rfl
    | cons x a => exact absurd (by rw [h]; simp) htail
  refine ⟨rfl, ?_⟩
  rw [List.nil_append, escapeByte] at h
  split_ifs at h with h1 h2 h3
  · exact ⟨_, List.mem_cons_self, h⟩
  · exact ⟨_, List.mem_cons_of_mem _ List.mem_cons_self, h⟩
  · exact ⟨_, List.mem_cons_of_mem _ (List.mem_cons_of_mem _ List.mem_cons_self), h⟩
  · exact absurd (List.cons.inj h).1 h1

theorem entity_of_escape {a b : List UInt8} (h : escape tag = a ++ AMPERSAND :: b) :
    ∃ e ∈ entities, e.1 <+: AMPERSAND :: b := by
  induction tag generalizing a with
  | nil => simp [escape] at h
  | cons c tag ih =>
    rw [escape, List.flatMap_cons, ← escape] at h
    obtain ⟨a', -, hrest⟩ | ⟨m, hbyte, hrest⟩ := List.append_eq_append_iff.mp h
    · exact ih hrest
    · cases m with
      | nil => exact ih (a := []) hrest.symm
      | cons x m =>
        obtain ⟨hx, hb⟩ := List.cons.inj hrest
        obtain ⟨-, e, he, hentity⟩ := entity_of_escapeByte (hx ▸ hbyte)
        refine ⟨e, he, ⟨escape tag, ?_⟩⟩
        rw [hentity, hb]
        rfl

/-! ## The passes in memory -/

variable {realloc : ℕ → Option (ℕ → UInt8)} {string : Block} {text : List UInt8}

/-- One pass. -/
theorem replaces_entity (hrealloc : ∀ n, (realloc n).isSome) (h : string.Holds text) {a : UInt8}
    (ha : a ∈ [AMPERSAND, LESS, GREATER]) {q : List UInt8} (hq : (0 : UInt8) ∉ q)
    (hlen : 1 < q.length) (hsize : (replaced [a] q text).length + 1 < 2 ^ 32) :
    Replaces realloc string [a] q text := by
  have ha0 : (0 : UInt8) ∉ [a] := by
    rw [List.mem_singleton]
    rintro rfl
    exact absurd ha (by decide)
  have heq : countOcc (eqBy tolower) [a] text = countOcc (eqBy id) [a] text :=
    countOcc_congr fun b hb ↦ List.mem_singleton.mp hb ▸ eqBy_tolower_eq a ha
  exact replaces_of_eq hrealloc h (List.cons_ne_nil _ _) ha0 hq hlen heq hsize

/-- The text of a pass is not longer than what the later ones make of it. -/
theorem length_le_replaced (a : UInt8) {q : List UInt8} (hlen : 1 < q.length) (s : List UInt8) :
    s.length ≤ (replaced [a] q s).length :=
  (length_replaced_between (List.cons_ne_nil _ _) q s).1 hlen.le

/-- The copy after the three passes. -/
theorem escapeTag_passes (hrealloc : ∀ n, (realloc n).isSome) (tag : CStr)
    (hsize : (escape tag.1).length + 1 < 2 ^ 32) :
    ∃ esc : Block, esc.Holds (escape tag.1) ∧ ∃ n, ∀ limit ≥ n,
      (do
        let escTag ← modifyString limit realloc (.ofString tag.1) (ascii "&") (ascii "&amp;") 0
        let escTag ← modifyString limit realloc escTag (ascii "<") (ascii "&lt;") 0
        let escTag ← modifyString limit realloc escTag (ascii ">") (ascii "&gt;") 0
        some (some escTag)) = some (some esc) := by
  rw [← replaced_replaced_replaced] at hsize ⊢
  set text₁ := replaced (ascii "&") (ascii "&amp;") tag.1
  set text₂ := replaced (ascii "<") (ascii "&lt;") text₁
  have hle₂ : text₂.length ≤ (replaced (ascii ">") (ascii "&gt;") text₂).length :=
    length_le_replaced GREATER (by decide) _
  have hle₁ : text₁.length ≤ text₂.length := length_le_replaced LESS (by decide) _
  have hle₀ : tag.1.length ≤ text₁.length := length_le_replaced AMPERSAND (by decide) _
  have hcopy := Block.holds_ofString tag.2 (by omega)
  obtain ⟨esc₁, ⟨n₁, hrun₁⟩, hholds₁⟩ : Replaces realloc (.ofString tag.1) (ascii "&")
      (ascii "&amp;") tag.1 :=
    replaces_entity hrealloc hcopy (a := AMPERSAND) (by decide) (by decide) (by decide)
      (show text₁.length + 1 < 2 ^ 32 by omega)
  obtain ⟨esc₂, ⟨n₂, hrun₂⟩, hholds₂⟩ : Replaces realloc esc₁ (ascii "<") (ascii "&lt;") text₁ :=
    replaces_entity hrealloc hholds₁ (a := LESS) (by decide) (by decide) (by decide)
      (show text₂.length + 1 < 2 ^ 32 by omega)
  obtain ⟨esc₃, ⟨n₃, hrun₃⟩, hholds₃⟩ : Replaces realloc esc₂ (ascii ">") (ascii "&gt;") text₂ :=
    replaces_entity hrealloc hholds₂ (a := GREATER) (by decide) (by decide) (by decide) hsize
  refine ⟨esc₃, hholds₃, max n₁ (max n₂ n₃), fun limit hlimit ↦ ?_⟩
  have h₁ := hrun₁ limit (by omega)
  have h₂ := hrun₂ limit (by omega)
  have h₃ := hrun₃ limit (by omega)
  simp only [h₁, h₂, h₃, Option.bind_eq_bind, Option.bind_some]

/-- What can be read back. -/
structure Escaped (tag text : List UInt8) : Prop where
  notMem_less : LESS ∉ text
  notMem_greater : GREATER ∉ text
  entity : ∀ a b, text = a ++ AMPERSAND :: b → ∃ e ∈ entities, e.1 <+: AMPERSAND :: b
  unescape : unescape text = tag

theorem escaped_escape (tag : List UInt8) : Escaped tag (escape tag) where
  notMem_less := (notMem_escape tag).1
  notMem_greater := (notMem_escape tag).2
  entity := fun _ _ ↦ entity_of_escape
  unescape := unescape_escape tag

/-- **Escaping is reversible.** The memory that is asked for is there, and there is enough of it for
the escaped text: what `escape_tag` returns, if anything, is that text, and lies in its block with
everything that has been written. -/
theorem escapeTag_reversible (hrealloc : ∀ n, (realloc n).isSome) (tag : CStr)
    (hsize : (escape tag.1).length + 1 < 2 ^ 32) (forceAlloc : Bool) :
    ∃ ret, (∃ n, ∀ limit ≥ n, escapeTag limit realloc tag.1 forceAlloc = some ret) ∧
      ∀ esc ∈ ret, ∃ text, esc.Holds text ∧ Escaped tag.1 text := by
  by_cases hspecial : (strchr (tag.1 ++ [0]) AMPERSAND).isSome ∨
      (strchr (tag.1 ++ [0]) LESS).isSome ∨ (strchr (tag.1 ++ [0]) GREATER).isSome ∨
      (strchr (tag.1 ++ [0]) QUOTE).isSome
  · obtain ⟨esc, hholds, n, hrun⟩ := escapeTag_passes hrealloc tag hsize
    refine ⟨some esc, ⟨n, fun limit hlimit ↦ ?_⟩, ?_⟩
    · rw [escapeTag, if_pos hspecial]
      exact hrun limit hlimit
    · rintro _ ⟨⟩
      exact ⟨_, hholds, escaped_escape _⟩
  · have hplain : ∀ c ∈ tag.1, c ≠ AMPERSAND ∧ c ≠ LESS ∧ c ≠ GREATER := by
      simp only [not_or, Bool.not_eq_true, Option.isSome_eq_false_iff, Option.isNone_iff_eq_none]
        at hspecial
      obtain ⟨hamp, hless, hgreater, -⟩ := hspecial
      have hfound : ∀ t ∈ tag.1, strchr (tag.1 ++ [0]) t ≠ none := fun t ht ↦ by
        rw [strchr_eq_some tag.2 (.inr ht)]
        exact Option.some_ne_none _
      refine fun c hc ↦ ⟨?_, ?_, ?_⟩ <;> rintro rfl
      · exact hfound _ hc hamp
      · exact hfound _ hc hless
      · exact hfound _ hc hgreater
    cases forceAlloc with
    | true =>
      refine ⟨some (.ofString tag.1), ⟨0, fun limit _ ↦ ?_⟩, ?_⟩
      · rw [escapeTag, if_neg hspecial, if_pos rfl]
      · rintro _ ⟨⟩
        rw [escape_eq_self hplain] at hsize
        refine ⟨tag.1, Block.holds_ofString tag.2 hsize, ?_⟩
        have hescaped := escaped_escape tag.1
        rwa [escape_eq_self hplain] at hescaped
    | false =>
      refine ⟨none, ⟨0, fun limit _ ↦ ?_⟩, by simp⟩
      rw [escapeTag, if_neg hspecial, if_neg Bool.false_ne_true]

theorem escapeTag_reversible_ampersand :
    ∃ ret, (∃ n, ∀ limit ≥ n, escapeTag limit (fun _ ↦ some fun _ ↦ 0) (ascii "a<&b") false
        = some ret) ∧ ∀ esc ∈ ret, ∃ text, esc.Holds text ∧ Escaped (ascii "a<&b") text :=
  escapeTag_reversible (fun _ ↦ rfl) ⟨ascii "a<&b", by decide⟩ (by decide) false

end Ddmz.Utils
