import Ddmz.Foundation.CString
import Ddmz.Terminal.LineEditor

/-!
# Command lines of the shell

`parse_arguments` and `shell_task` of `esp_shell.c`. A line is taken apart in place: the delimiter
behind a word is overwritten with a zero, and the save pointer is put behind it. The save pointer is
null once a word has ended with the line.

## The grammar

`Spells ws text` is that `text` is the words `ws`, each bare or between quotes, with blanks between
them and around them. Reading one word off a text that spells `w :: ws` leaves a text that spells
`ws` behind the save pointer (`parseArguments_word`), and nothing in front of the save pointer is
changed any more, so that the words already read stay what they were (`Stands.congr`).

## The array

`args` has one element more than there may be arguments, and `Args` remembers how far it has been
written. The loop leaves when it is full, and so ends on any line.
-/

namespace Ddmz.Terminal

/-- `'"'`. -/
abbrev DOUBLE_QUOTE : UInt8 := 34

/-- `" \t"`. -/
def BLANKS : List UInt8 := [32, 9]

def SHELL_MAX_ARGUMENTS : ℕ := 10

def SHELL_MAX_LINE_LENGTH : ℕ := 512

/-- `line` and `tokp` of `shell_task`. -/
structure Tokens where
  line : List UInt8
  saveptr : Option ℕ

/-- Where the next argument begins, and what ends it. -/
def argumentStart (line : List UInt8) (p : ℕ) : ℕ × List UInt8 :=
  let p := p + strspn (cstrAt line p) BLANKS
  if line.getD p 0 = DOUBLE_QUOTE then (p + 1, [DOUBLE_QUOTE]) else (p, BLANKS)

/-- `parse_arguments`, with offsets into the line for pointers. -/
def parseArguments (str : Option ℕ) (t : Tokens) : Option ℕ × Tokens :=
  match str.or t.saveptr with
  | none => (none, { t with saveptr := none })
  | some p =>
    let (p, delimiters) := argumentStart t.line p
    let t : Tokens :=
      match strpbrk (cstrAt t.line p) delimiters with
      | some i => ⟨t.line.set (p + i) 0, some (p + i + 1)⟩
      | none => ⟨t.line, none⟩
    (if t.line.getD p 0 ≠ 0 then some p else none, t)

/-- The array `args`, with null pointers for `none`. -/
structure Args where
  cells : ℕ → Option ℕ
  /-- One past the highest index that has been written. -/
  high : ℕ

def Args.set (args : Args) (n : ℕ) (p : Option ℕ) : Args where
  cells := Function.update args.cells n p
  high := max args.high (n + 1)

/-- The loop of `shell_task` over the arguments, with whether it was left for too many of them. -/
def argsLoop : ℕ → Tokens → ℕ → Args → Option (Tokens × ℕ × Args × Bool)
  | 0, _, _, _ => none
  | fuel + 1, t, n, args =>
    match parseArguments none t with
    | (none, t) => some (t, n, args, false)
    | (some lp, t) =>
      if SHELL_MAX_ARGUMENTS ≤ n then some (t, n, args, true)
      else argsLoop fuel t (n + 1) (args.set n (some lp))

/-- A line that has been taken apart. -/
structure ParsedLine where
  line : List UInt8
  cmd : Option ℕ
  argc : ℕ
  args : Args

/-- `shell_task` from the first `parse_arguments` to `args[n] = NULL`. -/
def parseLine (line : List UInt8) (args : Args) : Option ParsedLine :=
  let (lp, t) := parseArguments (some 0) ⟨line, none⟩
  (argsLoop (SHELL_MAX_ARGUMENTS + 2) t 0 args).map fun (t, n, args, tooMany) ↦
    ⟨t.line, if tooMany then none else lp, n, args.set n none⟩

/-- An entry of the command table; its function is called with the line as it is then. -/
structure ShellCommand where
  scName : CStr

/-- `cmdexec`: the command that is executed. -/
def cmdexec (scp : List ShellCommand) (name : List UInt8) : Option ShellCommand :=
  scp.find? fun command ↦ command.scName.1 = name

/-- What is executed is the first entry of the table with the name. -/
theorem cmdexec_eq_some_iff {scp : List ShellCommand} {name : List UInt8}
    {command : ShellCommand} :
    cmdexec scp name = some command ↔ command.scName.1 = name ∧
      ∃ before after, scp = before ++ command :: after ∧
        ∀ other ∈ before, other.scName.1 ≠ name := by
  simp [cmdexec, List.find?_eq_some_iff_append]

/-- Nothing is executed just if no entry has the name. -/
theorem cmdexec_eq_none_iff {scp : List ShellCommand} {name : List UInt8} :
    cmdexec scp name = none ↔ ∀ command ∈ scp, command.scName.1 ≠ name := by
  simp [cmdexec]

/-- What a turn of `shell_task` comes to: the line taken apart, and the command that is executed
with it, if any. -/
def shellLine (scp : List ShellCommand) (line : List UInt8) (args : Args) :
    Option (ParsedLine × Option ShellCommand) :=
  (parseLine line args).map fun parsed ↦
    (parsed, parsed.cmd.bind fun cmd ↦ cmdexec scp (cstrAt parsed.line cmd))

/-- A turn of `shell_task`, with what is left of the input. -/
def shellTask (scp : List ShellCommand) (keys : List UInt8) (line : Buffer) (args : Args) :
    Option ((ParsedLine × Option ShellCommand) × List UInt8) :=
  (shellGetLine SHELL_MAX_LINE_LENGTH keys line).bind fun got ↦
    (shellLine scp (got.line.read 0 SHELL_MAX_LINE_LENGTH) args).map fun r ↦ (r, got.unread)

/-! ## Lines of words -/

def Blank (s : List UInt8) : Prop := ∀ c ∈ s, c ∈ BLANKS

/-- A word, and how it may be written. -/
inductive Writes : List UInt8 → List UInt8 → Prop
  | bare {w : List UInt8} (hne : w ≠ []) (hzero : (0 : UInt8) ∉ w) (hquote : DOUBLE_QUOTE ∉ w)
      (hblank : ∀ c ∈ w, c ∉ BLANKS) : Writes w w
  | quoted {w : List UInt8} (hne : w ≠ []) (hzero : (0 : UInt8) ∉ w) (hquote : DOUBLE_QUOTE ∉ w) :
      Writes w (DOUBLE_QUOTE :: (w ++ [DOUBLE_QUOTE]))

/-- `text` consists of the words, with blanks in front of each and behind the last. -/
inductive Spells : List (List UInt8) → List UInt8 → Prop
  | blank {b : List UInt8} (hb : Blank b) : Spells [] b
  | word {b w v text : List UInt8} {ws : List (List UInt8)} (hb : Blank b) (hw : Writes w v)
      (hsep : ∀ c ∈ text.head?, c ∈ BLANKS) (h : Spells ws text) :
      Spells (w :: ws) (b ++ (v ++ text))

/-- The words that are left in a line, and the line no longer written in front of `cut`. -/
def Tokens.cut (t : Tokens) : ℕ := t.saveptr.getD t.line.length

/-- What is left spells `ws`. -/
inductive Remains (ws : List (List UInt8)) (t : Tokens) : Prop
  | exhausted (hptr : t.saveptr = none) (hws : ws = []) : Remains ws t
  | text {done text junk : List UInt8} (hline : t.line = done ++ (text ++ 0 :: junk))
      (hptr : t.saveptr = some done.length) (hspells : Spells ws text) : Remains ws t

/-- `u` comes after `t`: what is in front of the save pointer is as it was. -/
structure Follows (t u : Tokens) : Prop where
  length : u.line.length = t.line.length
  cut : t.cut ≤ u.cut
  frozen : u.line.take t.cut = t.line.take t.cut

theorem Follows.trans {t u v : Tokens} (h : Follows t u) (h' : Follows u v) : Follows t v where
  length := h'.length.trans h.length
  cut := h.cut.trans h'.cut
  frozen := by
    have htake : ∀ l : List UInt8, l.take t.cut = (l.take u.cut).take t.cut := by
      intro l
      rw [List.take_take, min_eq_left h.cut]
    rw [htake, h'.frozen, ← htake, h.frozen]

section Words

variable {str : Option ℕ} {t : Tokens} {done b w v text junk : List UInt8}
variable {ws : List (List UInt8)} {c : UInt8}

theorem zero_notMem_BLANKS : (0 : UInt8) ∉ BLANKS := by decide

theorem quote_notMem_BLANKS : DOUBLE_QUOTE ∉ BLANKS := by decide

theorem Blank.zero_notMem (hb : Blank b) : (0 : UInt8) ∉ b := fun h ↦ zero_notMem_BLANKS (hb 0 h)

theorem Writes.zero_notMem (hw : Writes w v) : (0 : UInt8) ∉ v := by
  cases hw with
  | bare _ hzero _ _ => exact hzero
  | quoted _ hzero _ => simp [hzero, DOUBLE_QUOTE]

theorem Writes.ne_nil (hw : Writes w v) : v ≠ [] := by
  cases hw with
  | bare hne _ _ _ => exact hne
  | quoted _ _ _ => exact List.cons_ne_nil _ _

theorem Spells.zero_notMem (h : Spells ws text) : (0 : UInt8) ∉ text := by
  induction h with
  | blank hb => exact hb.zero_notMem
  | word hb hw _ _ ih => simp [hb.zero_notMem, hw.zero_notMem, ih]

/-- A blank in front can be left out. -/
theorem Spells.of_cons (h : Spells ws (c :: text)) (hc : c ∈ BLANKS) : Spells ws text := by
  generalize hs : c :: text = s at h
  cases h with
  | blank hb =>
    subst hs
    exact .blank fun d hd ↦ hb d (List.mem_cons_of_mem c hd)
  | @word b w v text' ws hb hw hsep h =>
    cases b with
    | nil =>
      cases hw with
      | bare hne _ _ hblank =>
        obtain ⟨d, w, rfl⟩ := List.exists_cons_of_ne_nil hne
        rw [List.nil_append, List.cons_append, List.cons.injEq] at hs
        exact absurd (hs.1 ▸ hc) (hblank d List.mem_cons_self)
      | quoted _ _ _ =>
        rw [List.nil_append, List.cons_append, List.cons.injEq] at hs
        exact absurd (hs.1 ▸ hc) quote_notMem_BLANKS
    | cons d b =>
      rw [List.cons_append, List.cons.injEq] at hs
      rw [hs.2]
      exact .word (fun d' hd' ↦ hb d' (List.mem_cons_of_mem d hd')) hw hsep h

theorem Spells.eq_nil (h : Spells ws []) : ws = [] := by
  generalize hs : ([] : List UInt8) = s at h
  cases h with
  | blank _ => rfl
  | word _ hw _ _ =>
    obtain ⟨-, h⟩ := List.append_eq_nil_iff.mp hs.symm
    exact absurd (List.append_eq_nil_iff.mp h).1 hw.ne_nil

/-! ## Reading one word -/

/-- The delimiter of the argument is found. -/
theorem parseArguments_cut {p q i : ℕ} {delimiters : List UInt8}
    (hptr : str.or t.saveptr = some p) (hstart : argumentStart t.line p = (q, delimiters))
    (hfind : strpbrk (cstrAt t.line q) delimiters = some i)
    (hbyte : (t.line.set (q + i) 0).getD q 0 ≠ 0) :
    parseArguments str t = (some q, ⟨t.line.set (q + i) 0, some (q + i + 1)⟩) := by
  rw [parseArguments, hptr]
  simp only [hstart, hfind]
  rw [if_pos hbyte]

/-- The line ends first. -/
theorem parseArguments_uncut {p q : ℕ} {delimiters : List UInt8}
    (hptr : str.or t.saveptr = some p) (hstart : argumentStart t.line p = (q, delimiters))
    (hfind : strpbrk (cstrAt t.line q) delimiters = none) :
    parseArguments str t = (if t.line.getD q 0 ≠ 0 then some q else none, ⟨t.line, none⟩) := by
  rw [parseArguments, hptr]
  simp only [hstart, hfind]

theorem getD_append_cons {pre post : List UInt8} :
    (pre ++ c :: post).getD pre.length 0 = c := by simp

theorem set_append_cons {pre post : List UInt8} {d : UInt8} :
    (pre ++ c :: post).set pre.length d = pre ++ d :: post := by simp

/-- Blanks in front are skipped, and a quote is. -/
theorem argumentStart_eq {line : List UInt8} (hb : Blank b) (hzero : (0 : UInt8) ∉ text)
    (hhead : ∀ d ∈ text.head?, d ∉ BLANKS) (hline : line = done ++ (b ++ (text ++ 0 :: junk)))
    (hfirst : (text ++ 0 :: junk).head? = some c) :
    argumentStart line done.length
      = if c = DOUBLE_QUOTE then ((done ++ b).length + 1, [DOUBLE_QUOTE])
        else ((done ++ b).length, BLANKS) := by
  have hskip : strspn (cstrAt line done.length) BLANKS = b.length := by
    have h0 : (0 : UInt8) ∉ b ++ text := by simp [hb.zero_notMem, hzero]
    rw [hline, ← List.append_assoc b, cstrAt_append h0]
    exact strspn_append hb hhead
  have hbyte : line.getD (done ++ b).length 0 = c := by
    rw [hline, ← List.append_assoc]
    generalize text ++ 0 :: junk = rest at hfirst
    cases rest with
    | nil => simp at hfirst
    | cons d tail =>
      rw [getD_append_cons]
      exact Option.some.inj hfirst
  rw [argumentStart, hskip, ← List.length_append, hbyte]

/-- Only blanks are left. -/
theorem parseArguments_blank (hb : Blank b) (hline : t.line = done ++ (b ++ 0 :: junk))
    (hptr : str.or t.saveptr = some done.length) :
    parseArguments str t = (none, ⟨t.line, none⟩) := by
  have hstart : argumentStart t.line done.length = ((done ++ b).length, BLANKS) :=
    (argumentStart_eq hb List.not_mem_nil (by simp) hline rfl).trans (if_neg (by decide))
  have hsplit : t.line = (done ++ b) ++ 0 :: junk := by rw [hline, List.append_assoc]
  have hend : cstrAt t.line (done ++ b).length = [] := by
    rw [hsplit]
    exact cstrAt_append (s := []) List.not_mem_nil
  rw [parseArguments_uncut hptr hstart (by rw [hend]; rfl), hsplit, getD_append_cons,
    if_neg (by decide)]

/-- The word `w` at `q` has been read off `t`, of which the first `n` bytes have been dealt with
before. -/
structure ReadsWord (n : ℕ) (t u : Tokens) (q : ℕ) (w : List UInt8) (ws : List (List UInt8)) :
    Prop where
  stands : Stands u.line u.cut q w
  length : u.line.length = t.line.length
  cut : n ≤ u.cut
  frozen : u.line.take n = t.line.take n
  remains : Remains ws u

/-- A bare word at the end of the line. -/
theorem readsWord_last (hb : Blank b) (hne : w ≠ []) (hzero : (0 : UInt8) ∉ w)
    (hquote : DOUBLE_QUOTE ∉ w) (hblank : ∀ c ∈ w, c ∉ BLANKS)
    (hline : t.line = done ++ (b ++ (w ++ 0 :: junk)))
    (hptr : str.or t.saveptr = some done.length) :
    ∃ q u, parseArguments str t = (some q, u) ∧ ReadsWord done.length t u q w [] := by
  obtain ⟨d, w', rfl⟩ := List.exists_cons_of_ne_nil hne
  have hstart := argumentStart_eq hb hzero (by simpa using hblank d List.mem_cons_self) hline rfl
  rw [if_neg fun h ↦ hquote (by simp [h])] at hstart
  have hsplit : t.line = (done ++ b) ++ (d :: w' ++ 0 :: junk) := by rw [hline, List.append_assoc]
  have hfind : strpbrk (cstrAt t.line (done ++ b).length) BLANKS = none := by
    rw [hsplit, cstrAt_append hzero]
    exact strpbrk_eq_none hblank
  have hbyte : t.line.getD (done ++ b).length 0 = d := by
    rw [hsplit, List.cons_append]
    exact getD_append_cons
  have hd : d ≠ 0 := fun h ↦ hzero (by simp [h])
  refine ⟨(done ++ b).length, ⟨t.line, none⟩, ?_, ?_, rfl, ?_, rfl, .exhausted rfl rfl⟩
  · rw [parseArguments_uncut hptr hstart hfind, hbyte, if_pos hd]
  · exact ⟨hzero, done ++ b, junk, by rw [← hsplit]; exact List.take_length, rfl⟩
  · rw [Tokens.cut, Option.getD_none, hline, List.length_append]
    exact Nat.le_add_right _ _

/-- A word in front of the byte `c` that ends it, which is cut off. -/
theorem readsWord_cut {pre delimiters : List UInt8} (hne : w ≠ []) (hzero : (0 : UInt8) ∉ w)
    (hfree : ∀ d ∈ w, d ∉ delimiters) (hc : c ∈ delimiters) (hc0 : c ≠ 0)
    (hspells : Spells ws text)
    (hline : t.line = (done ++ pre) ++ (w ++ c :: (text ++ 0 :: junk)))
    (hptr : str.or t.saveptr = some done.length)
    (hstart : argumentStart t.line done.length = ((done ++ pre).length, delimiters)) :
    ∃ q u, parseArguments str t = (some q, u) ∧ ReadsWord done.length t u q w ws := by
  have hstring : cstrAt t.line (done ++ pre).length = w ++ c :: text := by
    have h0 : (0 : UInt8) ∉ w ++ c :: text := by simp [hzero, hspells.zero_notMem, hc0.symm]
    have hsplit : t.line = (done ++ pre) ++ ((w ++ c :: text) ++ 0 :: junk) := by simp [hline]
    rw [hsplit]
    exact cstrAt_append h0
  have hset : t.line.set ((done ++ pre).length + w.length) 0
      = (done ++ pre) ++ (w ++ 0 :: (text ++ 0 :: junk)) := by
    rw [hline, ← List.append_assoc (done ++ pre) w, ← List.length_append, set_append_cons,
      List.append_assoc (done ++ pre) w]
  have hbyte :
      (t.line.set ((done ++ pre).length + w.length) 0).getD (done ++ pre).length 0 ≠ 0 := by
    obtain ⟨d, w', rfl⟩ := List.exists_cons_of_ne_nil hne
    rw [hset, List.cons_append, getD_append_cons]
    exact fun h ↦ hzero (by simp [h])
  have hparse := parseArguments_cut hptr hstart
    (by rw [hstring]; exact strpbrk_append hfree hc) hbyte
  rw [hset] at hparse
  refine ⟨_, _, hparse, ?_, ?_, ?_, ?_, ?_⟩
  · exact stands_append hzero
  · simp [hline]
  · simp only [Tokens.cut, Option.getD_some, List.length_append]
    omega
  · rw [hline, List.append_assoc done, List.append_assoc done, List.take_left, List.take_left]
  · have hrest : (done ++ pre) ++ (w ++ 0 :: (text ++ 0 :: junk))
        = (done ++ pre ++ w ++ [0]) ++ (text ++ 0 :: junk) := by simp
    exact .text hrest (by simp [Nat.add_assoc]) hspells

/-- **One word is read** off a text that begins with it. -/
theorem parseArguments_word (h : Spells (w :: ws) text)
    (hline : t.line = done ++ (text ++ 0 :: junk)) (hptr : str.or t.saveptr = some done.length) :
    ∃ q u, parseArguments str t = (some q, u) ∧ ReadsWord done.length t u q w ws := by
  cases h with
  | @word b _ v text _ hb hw hsep h =>
    have hzero : (0 : UInt8) ∉ v ++ text := by simp [hw.zero_notMem, h.zero_notMem]
    have hline' : t.line = done ++ (b ++ ((v ++ text) ++ 0 :: junk)) := by
      rw [hline, List.append_assoc b]
    cases hw with
    | bare hne hw0 hquote hblank =>
      obtain ⟨d, w', hw'⟩ := List.exists_cons_of_ne_nil hne
      have hd : d ∈ w := by simp [hw']
      cases text with
      | nil =>
        rw [h.eq_nil]
        exact readsWord_last hb hne hw0 hquote hblank (by simpa using hline') hptr
      | cons c text =>
        have hc : c ∈ BLANKS := hsep c rfl
        have hstart := argumentStart_eq (c := d) hb hzero (by simpa [hw'] using hblank d hd) hline'
          (by simp [hw'])
        rw [if_neg (show d ≠ DOUBLE_QUOTE from fun hq ↦ hquote (hq ▸ hd))] at hstart
        exact readsWord_cut hne hw0 hblank hc (fun h0 ↦ zero_notMem_BLANKS (h0 ▸ hc)) (h.of_cons hc)
          (by simpa using hline') hptr hstart
    | quoted hne hw0 hquote =>
      have hstart := argumentStart_eq (c := DOUBLE_QUOTE) hb hzero
        (by simpa using quote_notMem_BLANKS) hline' (by simp)
      have hlen : (done ++ b).length + 1 = (done ++ (b ++ [DOUBLE_QUOTE])).length := by
        simp [Nat.add_assoc]
      rw [if_pos rfl, hlen] at hstart
      exact readsWord_cut hne hw0
        (fun d hd hmem ↦ hquote (by rw [← List.mem_singleton.mp hmem]; exact hd))
        List.mem_cons_self (by decide) h (by simpa using hline') hptr hstart

/-- Nothing is left to read. -/
theorem Remains.nil (h : Remains [] t) :
    ∃ u, parseArguments none t = (none, u) ∧ Follows t u := by
  cases h with
  | exhausted hptr _ =>
    refine ⟨⟨t.line, none⟩, ?_, rfl, ?_, rfl⟩
    · rw [parseArguments, Option.none_or, hptr]
    · rw [Tokens.cut, hptr]
      exact le_rfl
  | @text done text junk hline hptr hspells =>
    cases hspells with
    | blank hb =>
      refine ⟨_, parseArguments_blank hb hline (by rw [Option.none_or, hptr]), rfl, ?_, rfl⟩
      rw [Tokens.cut, Tokens.cut, hptr, Option.getD_some, Option.getD_none, hline,
        List.length_append]
      exact Nat.le_add_right _ _

/-- A word is. -/
theorem Remains.cons (h : Remains (w :: ws) t) :
    ∃ q u, parseArguments none t = (some q, u) ∧ Stands u.line u.cut q w ∧ Follows t u ∧
      Remains ws u := by
  cases h with
  | exhausted _ hws => exact absurd hws (List.cons_ne_nil _ _)
  | @text done text junk hline hptr hspells =>
    have hor : (none : Option ℕ).or t.saveptr = some done.length := by rw [Option.none_or, hptr]
    obtain ⟨q, u, hparse, hread⟩ := parseArguments_word hspells hline hor
    have hcut : t.cut = done.length := by rw [Tokens.cut, hptr, Option.getD_some]
    refine ⟨q, u, hparse, hread.stands, ⟨hread.length, ?_, ?_⟩, hread.remains⟩
    · rw [hcut]
      exact hread.cut
    · rw [hcut]
      exact hread.frozen

end Words

/-! ## Any line -/

/-- The save pointer is not behind the terminator at `n`, and what is there has not changed. -/
structure Inside (n : ℕ) (junk : List UInt8) (t : Tokens) : Prop where
  behind : t.line.drop n = 0 :: junk
  saveptr : ∀ p ∈ t.saveptr, p ≤ n

section AnyLine

variable {n : ℕ} {junk : List UInt8} {t : Tokens}

theorem argumentStart_le {line : List UInt8} {p : ℕ} (hbehind : line.drop n = 0 :: junk)
    (hp : p ≤ n) : (argumentStart line p).1 ≤ n := by
  have hskip : p + strspn (cstrAt line p) BLANKS ≤ n :=
    (Nat.add_le_add_left (strspn_le _ _) p).trans (length_cstrAt_le hp hbehind)
  rw [argumentStart]
  split
  · -- the quote is not the terminator
    rename_i hquote
    rcases Nat.eq_or_lt_of_le hskip with heq | hlt
    · have hzero : line.getD n 0 = 0 := by
        rw [List.getD_eq_getElem?_getD, ← List.head?_drop, hbehind]
        rfl
      rw [heq, hzero] at hquote
      exact absurd hquote (by decide)
    · exact hlt
  · exact hskip

theorem Inside.parseArguments (h : Inside n junk t) {str : Option ℕ} (hstr : ∀ p ∈ str, p ≤ n) :
    Inside n junk (parseArguments str t).2 := by
  rw [Terminal.parseArguments]
  cases hptr : str.or t.saveptr with
  | none => exact ⟨h.behind, fun p hp ↦ absurd hp (Option.not_mem_none p)⟩
  | some p =>
    have hp : p ≤ n := by
      rcases Option.or_eq_some_iff.mp hptr with hs | ⟨-, hs⟩
      · exact hstr p hs
      · exact h.saveptr p hs
    have hq := argumentStart_le h.behind hp
    simp only
    cases hfind : strpbrk (cstrAt t.line (argumentStart t.line p).1) (argumentStart t.line p).2 with
    | none => exact ⟨h.behind, fun p hp ↦ absurd hp (Option.not_mem_none p)⟩
    | some i =>
      have hi : (argumentStart t.line p).1 + i < n :=
        lt_of_lt_of_le (Nat.add_lt_add_left (strpbrk_lt hfind) _) (length_cstrAt_le hq h.behind)
      refine ⟨?_, fun p hp ↦ ?_⟩
      · rw [List.drop_set_of_lt hi]
        exact h.behind
      · rw [← Option.mem_some_iff.mp hp]
        exact hi

end AnyLine

/-! ## The arguments -/

section Arguments

variable {t u : Tokens} {ws : List (List UInt8)} {n fuel : ℕ} {args : Args}

/-- From `args[n]` on the pointers are to these strings. -/
def Points (line : List UInt8) (args : Args) (n : ℕ) (ws : List (List UInt8)) : Prop :=
  ∀ i (h : i < ws.length), ∃ q, args.cells (n + i) = some q ∧ cstrAt line q = ws[i]

/-- The loop reads all words that there is room for. -/
theorem argsLoop_words :
    ∀ {t : Tokens} (n fuel : ℕ) (args : Args), Remains ws t →
      n + ws.length ≤ SHELL_MAX_ARGUMENTS → ws.length < fuel →
      ∃ u args', argsLoop fuel t n args = some (u, n + ws.length, args', false) ∧ Follows t u ∧
        (∀ i < n, args'.cells i = args.cells i) ∧ Points u.line args' n ws := by
  induction ws with
  | nil =>
    intro t n fuel args hrem _ hfuel
    obtain ⟨fuel, rfl⟩ : ∃ m, fuel = m + 1 := ⟨fuel - 1, by simp at hfuel; omega⟩
    obtain ⟨u, hparse, hfollows⟩ := hrem.nil
    refine ⟨u, args, ?_, hfollows, fun _ _ ↦ rfl, fun i hi ↦ absurd hi (Nat.not_lt_zero i)⟩
    rw [argsLoop, hparse]
    rfl
  | cons w ws ih =>
    intro t n fuel args hrem hroom hfuel
    obtain ⟨fuel, rfl⟩ : ∃ m, fuel = m + 1 := ⟨fuel - 1, by simp at hfuel; omega⟩
    rw [List.length_cons] at hroom hfuel
    obtain ⟨q, v, hparse, hstands, hfollows, hrem'⟩ := hrem.cons
    obtain ⟨u, args', hloop, hfollows', hkept, hpoints⟩ :=
      ih (n + 1) fuel (args.set n (some q)) hrem' (by omega) (by omega)
    have hn : args'.cells n = some q := by
      rw [hkept n (Nat.lt_succ_self n), Args.set]
      exact Function.update_self _ _ _
    refine ⟨u, args', ?_, hfollows.trans hfollows', ?_, ?_⟩
    · rw [argsLoop, hparse]
      simp only
      rw [if_neg (by omega), hloop, List.length_cons, Nat.add_right_comm, Nat.add_assoc]
    · intro i hi
      rw [hkept i (by omega), Args.set]
      exact Function.update_of_ne (by omega) _ _
    · intro i hi
      cases i with
      | zero => exact ⟨q, hn, (hstands.congr hfollows'.frozen).cstrAt⟩
      | succ i =>
        obtain ⟨q', hq', hstring⟩ := hpoints i (by simpa using hi)
        refine ⟨q', ?_, hstring⟩
        rw [← hq']
        congr 1
        omega

/-- One word too many leaves the loop. -/
theorem argsLoop_tooMany :
    ∀ {t : Tokens} (n fuel : ℕ) (args : Args), Remains ws t → n ≤ SHELL_MAX_ARGUMENTS →
      SHELL_MAX_ARGUMENTS < n + ws.length → SHELL_MAX_ARGUMENTS < n + fuel →
      ∃ u m args', argsLoop fuel t n args = some (u, m, args', true) := by
  induction ws with
  | nil =>
    intro t n fuel args _ hn hmany _
    exact absurd hmany (by simpa using hn)
  | cons w ws ih =>
    intro t n fuel args hrem hn hmany hfuel
    obtain ⟨fuel, rfl⟩ : ∃ m, fuel = m + 1 := ⟨fuel - 1, by omega⟩
    rw [List.length_cons] at hmany
    obtain ⟨q, v, hparse, -, -, hrem'⟩ := hrem.cons
    rw [argsLoop, hparse]
    simp only
    by_cases hfull : SHELL_MAX_ARGUMENTS ≤ n
    · rw [if_pos hfull]
      exact ⟨v, n, args, rfl⟩
    · rw [if_neg hfull]
      exact ih (n + 1) fuel _ hrem' (by omega) (by omega) (by omega)

/-- On any line the loop ends inside of it, and leaves room for the null pointer. -/
theorem argsLoop_ends {l : ℕ} {junk : List UInt8} :
    ∀ (fuel : ℕ) {t : Tokens} (n : ℕ) (args : Args), Inside l junk t → n ≤ SHELL_MAX_ARGUMENTS →
      SHELL_MAX_ARGUMENTS + 1 < n + fuel → args.high ≤ SHELL_MAX_ARGUMENTS + 1 →
      ∃ u m args' tooMany, argsLoop fuel t n args = some (u, m, args', tooMany) ∧
        Inside l junk u ∧ m ≤ SHELL_MAX_ARGUMENTS ∧ args'.high ≤ SHELL_MAX_ARGUMENTS + 1 := by
  intro fuel
  induction fuel with
  | zero =>
    intro t n args _ hn hfuel _
    omega
  | succ fuel ih =>
    intro t n args ht hn hfuel hhigh
    have hu : Inside l junk (parseArguments none t).2 :=
      ht.parseArguments fun p hp ↦ absurd hp (Option.not_mem_none p)
    rw [argsLoop]
    generalize parseArguments none t = r at hu ⊢
    rcases r with ⟨_ | lp, u⟩
    · exact ⟨u, n, args, false, rfl, hu, hn, hhigh⟩
    · simp only
      by_cases hfull : SHELL_MAX_ARGUMENTS ≤ n
      · rw [if_pos hfull]
        exact ⟨u, n, args, true, rfl, hu, hn, hhigh⟩
      · rw [if_neg hfull]
        refine ih (n + 1) _ hu (by omega) (by omega) ?_
        rw [Args.set]
        exact max_le hhigh (by omega)

end Arguments

/-! ## Command lines -/

/-- What a line of words is taken apart into. -/
structure TakesApart (w : List UInt8) (ws : List (List UInt8)) (r : ParsedLine) : Prop where
  cmd : ∃ p, r.cmd = some p ∧ cstrAt r.line p = w
  argc : r.argc = ws.length
  args : Points r.line r.args 0 ws
  null : r.args.cells r.argc = none

theorem parseArguments_first {w text : List UInt8} {ws : List (List UInt8)} (junk : List UInt8)
    (h : Spells (w :: ws) text) :
    ∃ q t, parseArguments (some 0) ⟨text ++ 0 :: junk, none⟩ = (some q, t) ∧
      ReadsWord 0 ⟨text ++ 0 :: junk, none⟩ t q w ws := by
  have hline : text ++ 0 :: junk = [] ++ (text ++ 0 :: junk) := rfl
  have hptr : (some 0).or none = some ([] : List UInt8).length := rfl
  exact parseArguments_word (t := ⟨text ++ 0 :: junk, none⟩) h hline hptr

theorem parseLine_words {w text : List UInt8} {ws : List (List UInt8)} (junk : List UInt8)
    (args : Args) (h : Spells (w :: ws) text) (hroom : ws.length ≤ SHELL_MAX_ARGUMENTS) :
    ∃ r, parseLine (text ++ 0 :: junk) args = some r ∧ TakesApart w ws r := by
  obtain ⟨q, t, hparse, hread⟩ := parseArguments_first junk h
  obtain ⟨u, args', hloop, hfollows, -, hpoints⟩ := argsLoop_words 0
    (SHELL_MAX_ARGUMENTS + 2) args hread.remains (by omega) (by omega)
  rw [Nat.zero_add] at hloop
  refine ⟨⟨u.line, some q, ws.length, args'.set ws.length none⟩, ?_, ?_, rfl, ?_, ?_⟩
  · rw [parseLine, hparse]
    simp only [hloop]
    rfl
  · exact ⟨q, rfl, (hread.stands.congr hfollows.frozen).cstrAt⟩
  · intro i hi
    obtain ⟨p, hp, hstring⟩ := hpoints i hi
    refine ⟨p, ?_, hstring⟩
    rw [← hp]
    exact Function.update_of_ne (by simpa using hi.ne) _ _
  · exact Function.update_self _ _ _

theorem parseLine_tooMany {w text : List UInt8} {ws : List (List UInt8)} (junk : List UInt8)
    (args : Args) (h : Spells (w :: ws) text) (hmany : SHELL_MAX_ARGUMENTS < ws.length) :
    ∃ r, parseLine (text ++ 0 :: junk) args = some r ∧ r.cmd = none := by
  obtain ⟨q, t, hparse, hread⟩ := parseArguments_first junk h
  obtain ⟨u, m, args', hloop⟩ := argsLoop_tooMany 0 (SHELL_MAX_ARGUMENTS + 2)
    args hread.remains (Nat.zero_le _) (by omega) (by omega)
  refine ⟨⟨u.line, none, m, args'.set m none⟩, ?_, rfl⟩
  rw [parseLine, hparse]
  simp only [hloop]
  rfl

theorem parseLine_ends (text junk : List UInt8) (cells : ℕ → Option ℕ) :
    ∃ r, parseLine (text ++ 0 :: junk) ⟨cells, 0⟩ = some r ∧
      r.args.high ≤ SHELL_MAX_ARGUMENTS + 1 ∧ r.line.drop text.length = 0 :: junk := by
  have hline : Inside text.length junk ⟨text ++ 0 :: junk, none⟩ :=
    ⟨List.drop_left, fun p hp ↦ absurd hp (Option.not_mem_none p)⟩
  have hzero : ∀ p ∈ some 0, p ≤ text.length := by
    intro p hp
    rw [← Option.mem_some_iff.mp hp]
    exact Nat.zero_le _
  have ht := hline.parseArguments hzero
  rw [parseLine]
  generalize parseArguments (some 0) ⟨text ++ 0 :: junk, none⟩ = r at ht ⊢
  obtain ⟨lp, t⟩ := r
  obtain ⟨u, m, args', tooMany, hloop, hu, hm, hhigh⟩ := argsLoop_ends
    (SHELL_MAX_ARGUMENTS + 2) 0 ⟨cells, 0⟩ ht (Nat.zero_le _) (by omega) (Nat.zero_le _)
  simp only [hloop]
  exact ⟨_, rfl, max_le hhigh (Nat.succ_le_succ hm), hu.behind⟩

/-- **A line of words is taken apart into these words**: the first is the command that is looked up,
and the others are its arguments, in order and with a null pointer behind them. If there are more
than fit no command is executed. On any line at all the parsing ends without touching what is behind
the line, and `args` is written in its bounds. -/
theorem shellLine_words (scp : List ShellCommand) (cells : ℕ → Option ℕ) :
    (∀ (w : List UInt8) (ws : List (List UInt8)) (text junk : List UInt8), Spells (w :: ws) text →
      (ws.length ≤ SHELL_MAX_ARGUMENTS → ∃ r, TakesApart w ws r ∧
        shellLine scp (text ++ 0 :: junk) ⟨cells, 0⟩ = some (r, cmdexec scp w)) ∧
      (SHELL_MAX_ARGUMENTS < ws.length → ∃ r,
        shellLine scp (text ++ 0 :: junk) ⟨cells, 0⟩ = some (r, none))) ∧
    ∀ text junk, ∃ r, shellLine scp (text ++ 0 :: junk) ⟨cells, 0⟩ = some r ∧
      r.1.args.high ≤ SHELL_MAX_ARGUMENTS + 1 ∧ r.1.line.drop text.length = 0 :: junk := by
  refine ⟨fun w ws text junk h ↦ ⟨fun hroom ↦ ?_, fun hmany ↦ ?_⟩, fun text junk ↦ ?_⟩
  · obtain ⟨r, hr, hapart⟩ := parseLine_words junk ⟨cells, 0⟩ h hroom
    obtain ⟨p, hp, hstring⟩ := hapart.cmd
    refine ⟨r, hapart, ?_⟩
    rw [shellLine, hr, Option.map_some, hp, Option.bind_some, hstring]
  · obtain ⟨r, hr, hcmd⟩ := parseLine_tooMany junk ⟨cells, 0⟩ h hmany
    refine ⟨r, ?_⟩
    rw [shellLine, hr, Option.map_some, hcmd, Option.bind_none]
  · obtain ⟨r, hr, hbounds⟩ := parseLine_ends text junk cells
    exact ⟨_, by rw [shellLine, hr, Option.map_some], hbounds⟩

/-- ` a`, a tab, and `"b c"`. -/
def quotedLine : List UInt8 := [32, 97, 9, 34, 98, 32, 99, 34]

theorem spells_quotedLine : Spells [[97], [98, 32, 99]] quotedLine := by
  have hlast : Spells [[98, 32, 99]] ([9] ++ ((DOUBLE_QUOTE :: ([98, 32, 99] ++ [DOUBLE_QUOTE])) ++
      [])) :=
    .word (by simp [Blank, BLANKS]) (.quoted (by decide) (by decide) (by decide)) (by simp)
      (.blank (by simp [Blank]))
  exact .word (b := [32]) (by simp [Blank, BLANKS])
    (.bare (w := [97]) (by decide) (by decide) (by decide) (by simp [BLANKS])) (by simp [BLANKS])
    hlast

theorem shellLine_words_quotedLine : ∃ r, TakesApart [97] [[98, 32, 99]] r ∧
    shellLine [⟨cstr "a"⟩] (quotedLine ++ 0 :: []) ⟨fun _ ↦ none, 0⟩
      = some (r, some ⟨cstr "a"⟩) :=
  ((shellLine_words [⟨cstr "a"⟩] fun _ ↦ none).1 [97] [[98, 32, 99]] quotedLine []
    spells_quotedLine).1 (by decide)

/-- **What is typed is executed**: if the line that the editor leaves is one of words, of which
there are not too many, a turn of the task executes the first entry of the table that has the first
word for its name, with the other words for arguments, and nothing if there is none. -/
theorem shellTask_typed (scp : List ShellCommand) (cells : ℕ → Option ℕ) (memory : ℕ → UInt8)
    {keys unread w : List UInt8} {ws : List (List UInt8)} {e : UInt8}
    (hkeys : ∀ c ∈ keys, ¬EndsLine c) (he : EndsLine e)
    (h : Spells (w :: ws) (editLine SHELL_MAX_LINE_LENGTH keys))
    (hroom : ws.length ≤ SHELL_MAX_ARGUMENTS) :
    ∃ r executed, TakesApart w ws r ∧
      shellTask scp (keys ++ e :: unread) ⟨memory, 0⟩ ⟨cells, 0⟩ = some ((r, executed), unread) ∧
      (∀ command, executed = some command ↔ command.scName.1 = w ∧
        ∃ before after, scp = before ++ command :: after ∧
          ∀ other ∈ before, other.scName.1 ≠ w) ∧
      (executed = none ↔ ∀ command ∈ scp, command.scName.1 ≠ w) := by
  have hsize : 1 ≤ SHELL_MAX_LINE_LENGTH := by decide
  obtain ⟨line, hholds, hget⟩ :=
    shellGetLineLoop_eq hkeys he unread [] (holds_nil hsize memory)
  obtain ⟨junk, hread⟩ := hholds.terminate
  obtain ⟨r, hr, hapart⟩ := parseLine_words junk ⟨cells, 0⟩ h hroom
  obtain ⟨p, hp, hstring⟩ := hapart.cmd
  have hgot : shellGetLine SHELL_MAX_LINE_LENGTH (keys ++ e :: unread) ⟨memory, 0⟩ = _ := hget
  have hline : editLine SHELL_MAX_LINE_LENGTH keys ++ 0 :: junk = _ := hread.symm
  refine ⟨r, cmdexec scp w, hapart, ?_, fun _ ↦ cmdexec_eq_some_iff, cmdexec_eq_none_iff⟩
  rw [hline] at hr
  rw [shellTask, hgot, Option.bind_some, shellLine, hr]
  simp only [Option.map_some, hp, Option.bind_some, hstring]

end Ddmz.Terminal
