import Ddmz.Alarm.CatchUp

/-!
# The texts of alarms

The text of an alarm is `ABS Y-M-D h:m:s` or `PER Y-M-D h:m:s Y-M-D h:m:s`, with more text behind
it. `parseAlarm` blanks the separators in the first 20 characters behind the type, or in the first
38, reads a date, and takes the period to begin with the twentieth character; but the fields need
not be padded with zeros. It lets a month and a day 0 and an hour 24 through, and it takes a date
that a `time_t` cannot hold for one that is over.

`parses_iff` says which texts it understands all the same. Where the date is padded, as in the
examples of `AlarmService.h`, it is the numbers alone that decide: `perFits_iff_of_layout`.
-/

namespace Ddmz.Alarm

/-! ## Numbers and dates in a text -/

/-- A number in decimal digits. -/
abbrev Numeral := {digits : List UInt8 // digits ≠ [] ∧ ∀ c ∈ digits, isDigit c = true}

def Numeral.value (a : Numeral) : ℕ := a.1.foldl (fun v c ↦ 10 * v + (c.toNat - 48)) 0

/-- What an `int` makes of it. -/
def Numeral.int (a : Numeral) : ℤ := clampInt a.value

/-- A date, or a period, as it is written. -/
structure DateText where
  y : Numeral
  m : Numeral
  d : Numeral
  h : Numeral
  mi : Numeral
  s : Numeral

namespace DateText

variable (x : DateText)

/-- What is in front of the last separator. -/
def front : List UInt8 :=
  x.y.1 ++ 45 :: (x.m.1 ++ 45 :: (x.d.1 ++ 32 :: (x.h.1 ++ 58 :: x.mi.1)))

/-- `Y-M-D h:m:s`. -/
def text : List UInt8 := x.front ++ 58 :: x.s.1

/-- The numbers that are written. -/
def date : Date := ⟨x.y.value, x.m.value, x.d.value, x.h.value, x.mi.value, x.s.value⟩

/-- The numbers that are read. -/
def read : Date := ⟨x.y.int, x.m.int, x.d.int, x.h.int, x.mi.int, x.s.int⟩

/-- The text with its separators blanked. -/
def blanked : List UInt8 :=
  x.y.1 ++ 32 :: (x.m.1 ++ 32 :: (x.d.1 ++ 32 :: (x.h.1 ++ 32 :: (x.mi.1 ++ 32 :: x.s.1))))

end DateText

/-! ## Reading them -/

section Reading

variable {a : Numeral} {x : DateText} {rest source : List UInt8} {n : ℕ}

/-- A digit is no blank and no sign. -/
theorem isDigit_ne {c : UInt8} (h : isDigit c = true) :
    isSpace c = false ∧ c ≠ 45 ∧ c ≠ 43 ∧ c ≠ 58 := by
  rw [isDigit, decide_eq_true_eq] at h
  refine ⟨?_, ?_, ?_, ?_⟩
  · rw [isSpace, decide_eq_false_iff_not]
    rintro (rfl | hc)
    · exact absurd h.1 (by decide)
    · exact absurd (UInt8.le_trans h.1 hc.2) (by decide)
  all_goals
    rintro rfl
    revert h
    decide

theorem scanSign_of_isDigit {c : UInt8} (h : isDigit c = true) :
    scanSign (c :: source) = (false, c :: source) := by
  obtain ⟨-, hminus, hplus, -⟩ := isDigit_ne h
  rw [scanSign.eq_def]
  split
  · case _ heq => exact absurd (List.cons.inj heq).1 hminus
  · case _ heq => exact absurd (List.cons.inj heq).1 hplus
  · rfl

/-- The digits of a number, up to what follows. -/
theorem takeWhile_numeral (hrest : ∀ c ∈ rest.head?, isDigit c = false) :
    (a.1 ++ rest).takeWhile isDigit = a.1 ∧ (a.1 ++ rest).dropWhile isDigit = rest := by
  rw [List.takeWhile_append_of_pos a.2.2, List.dropWhile_append_of_pos a.2.2]
  cases rest with
  | nil => exact ⟨List.append_nil _, rfl⟩
  | cons c rest =>
    have hc := hrest c rfl
    rw [List.takeWhile_cons_of_neg (by rw [hc]; decide),
      List.dropWhile_cons_of_neg (by rw [hc]; decide), List.append_nil]
    exact ⟨rfl, rfl⟩

theorem scanInt_numeral (hrest : ∀ c ∈ rest.head?, isDigit c = false) :
    scanInt (a.1 ++ rest) = some (a.int, rest) := by
  obtain ⟨c, cs, hcons⟩ := List.exists_cons_of_ne_nil a.2.1
  have hdigit : isDigit c = true := a.2.2 c (hcons ▸ List.mem_cons_self)
  have hspace : (a.1 ++ rest).dropWhile isSpace = a.1 ++ rest := by
    rw [hcons, List.cons_append,
      List.dropWhile_cons_of_neg (by rw [(isDigit_ne hdigit).1]; decide)]
  have hsign : scanSign (a.1 ++ rest) = (false, a.1 ++ rest) := by
    rw [hcons, List.cons_append, scanSign_of_isDigit hdigit]
  obtain ⟨htake, hdrop⟩ := takeWhile_numeral (a := a) hrest
  simp only [scanInt, hspace, hsign, htake, hdrop, if_neg a.2.1, Bool.false_eq_true, if_false]
  rfl

theorem scanInt_blank : scanInt (32 :: source) = scanInt source := by
  rw [scanInt, scanInt, List.dropWhile_cons_of_pos (by decide)]

/-- A `-` that stays where it is makes a number negative. -/
theorem scanInt_minus (hrest : ∀ c ∈ rest.head?, isDigit c = false) :
    scanInt (45 :: (a.1 ++ rest)) = some (clampInt (-a.value), rest) := by
  obtain ⟨htake, hdrop⟩ := takeWhile_numeral (a := a) hrest
  have hspace : (45 :: (a.1 ++ rest)).dropWhile isSpace = 45 :: (a.1 ++ rest) :=
    List.dropWhile_cons_of_neg (by decide)
  simp only [scanInt, hspace, scanSign, htake, hdrop, if_neg a.2.1, if_true]
  rfl

theorem scanInt_colon : scanInt (58 :: source) = none := by
  have hspace : (58 :: source).dropWhile isSpace = 58 :: source :=
    List.dropWhile_cons_of_neg (by decide)
  have hsign : scanSign (58 :: source) = (false, 58 :: source) := rfl
  simp only [scanInt, hspace, hsign]
  exact if_pos (List.takeWhile_cons_of_neg (by decide))

/-- A number ends at a separator. -/
theorem head_separator {b : UInt8} (hb : isDigit b = false) :
    ∀ c ∈ (b :: rest).head?, isDigit c = false := fun _ hc ↦ Option.some.inj hc ▸ hb

/-- A date with blanks between its numbers is read. -/
theorem scanDate_blanked (hrest : ∀ c ∈ rest.head?, isDigit c = false) :
    scanDate (x.blanked ++ rest) = some x.read := by
  have hblank : isDigit 32 = false := by decide
  simp only [DateText.blanked, List.append_assoc, List.cons_append, scanDate,
    scanInt_blank, scanInt_numeral (head_separator hblank), scanInt_numeral hrest,
    Option.bind_eq_bind, Option.bind_some]
  rfl

/-! ## Blanking the separators -/

theorem removeTokens_append (p q : List UInt8) :
    removeTokens n (p ++ q) = removeTokens n p ++ removeTokens (n - p.length) q := by
  rw [removeTokens, removeTokens, removeTokens, List.take_append, List.drop_append, List.map_append]
  obtain hle | hlt := le_total n p.length
  · rw [Nat.sub_eq_zero_of_le hle, List.take_zero, List.map_nil, List.append_nil, List.drop_zero,
      List.nil_append, List.append_assoc]
  · rw [List.drop_of_length_le hlt, List.append_nil, List.nil_append, List.append_assoc]

theorem removeTokens_cons_pos (c : UInt8) (h : 0 < n) : removeTokens n (c :: source)
    = (if c = 45 ∨ c = 58 then 32 else c) :: removeTokens (n - 1) source := by
  obtain ⟨n, rfl⟩ := Nat.exists_eq_succ_of_ne_zero (Nat.ne_zero_of_lt h)
  rfl

theorem removeTokens_zero : removeTokens 0 source = source := rfl

/-- There are no separators in a number. -/
theorem removeTokens_numeral : removeTokens n a.1 = a.1 := by
  have hmap : (a.1.take n).map (fun c ↦ if c = 45 ∨ c = 58 then 32 else c) = a.1.take n := by
    refine (List.map_congr_left fun c hc ↦ ?_).trans (List.map_id _)
    obtain ⟨-, hminus, -, hcolon⟩ := isDigit_ne (a.2.2 c (List.mem_of_mem_take hc))
    exact if_neg (not_or.mpr ⟨hminus, hcolon⟩)
  rw [removeTokens, hmap, List.take_append_drop]

/-- A separator is blanked, or it stays where it is. -/
theorem removeTokens_separator (n : ℕ) (a : Numeral) (b : UInt8) (source : List UInt8) :
    ∃ b' n', (b' = 32 ∨ b' = b) ∧
      removeTokens n (a.1 ++ b :: source) = a.1 ++ b' :: removeTokens n' source := by
  rw [removeTokens_append, removeTokens_numeral]
  cases n - a.1.length with
  | zero => exact ⟨b, 0, .inr rfl, rfl⟩
  | succ n =>
    rw [removeTokens_cons_pos b (Nat.succ_pos n)]
    refine ⟨_, _, ?_, rfl⟩
    split_ifs
    · exact .inl rfl
    · exact .inr rfl

theorem removeTokens_blanked {b : UInt8} (hb : b = 45 ∨ b = 58) (h : a.1.length < n) :
    removeTokens n (a.1 ++ b :: source)
      = a.1 ++ 32 :: removeTokens (n - (a.1.length + 1)) source := by
  rw [removeTokens_append, removeTokens_numeral, removeTokens_cons_pos b (by omega), if_pos hb,
    Nat.sub_sub]

theorem removeTokens_blank : removeTokens n (a.1 ++ 32 :: source)
    = a.1 ++ 32 :: removeTokens (n - (a.1.length + 1)) source := by
  rw [removeTokens_append, removeTokens_numeral, ← Nat.sub_sub]
  cases n - a.1.length with
  | zero => rfl
  | succ n => rfl

/-- The text behind a number stays behind it. -/
theorem head_removeTokens (hrest : ∀ c ∈ rest.head?, isDigit c = false) :
    ∀ c ∈ (removeTokens n rest).head?, isDigit c = false := by
  cases rest with
  | nil => rwa [removeTokens, List.take_nil, List.drop_nil]
  | cons c rest =>
    cases n with
    | zero => rwa [removeTokens_zero]
    | succ n =>
      rw [removeTokens_cons_pos c (Nat.succ_pos n)]
      refine head_separator ?_
      split_ifs
      · decide
      · exact hrest c rfl

theorem DateText.length_front : x.front.length = x.y.1.length + x.m.1.length + x.d.1.length +
    x.h.1.length + x.mi.1.length + 4 := by
  simp only [DateText.front, List.length_append, List.length_cons]
  omega

theorem DateText.eleven_le_length (x : DateText) : 11 ≤ x.text.length := by
  have hpos : ∀ a : Numeral, 1 ≤ a.1.length := fun a ↦ List.length_pos_iff.mpr a.2.1
  have hlength := x.length_front
  have := hpos x.y
  have := hpos x.m
  have := hpos x.d
  have := hpos x.h
  have := hpos x.mi
  have := hpos x.s
  rw [DateText.text, List.length_append, List.length_cons]
  omega

theorem length_removeTokens : (removeTokens n source).length = source.length := by
  rw [removeTokens, List.length_append, List.length_map, ← List.length_append,
    List.take_append_drop]

/-- All separators are blanked if the last one is. -/
theorem removeTokens_text (h : x.front.length < n) :
    removeTokens n (x.text ++ rest) = x.blanked ++ removeTokens (n - x.text.length) rest := by
  have hlength := x.length_front
  have htext : x.text.length = x.front.length + 1 + x.s.1.length := by
    rw [DateText.text, List.length_append, List.length_cons]
    omega
  have hrest : n - (x.y.1.length + 1) - (x.m.1.length + 1) - (x.d.1.length + 1) -
      (x.h.1.length + 1) - (x.mi.1.length + 1) - x.s.1.length = n - x.text.length := by
    omega
  rw [← hrest]
  simp only [DateText.text, DateText.front, DateText.blanked, List.append_assoc, List.cons_append]
  rw [removeTokens_blanked (.inl rfl) (by omega), removeTokens_blanked (.inl rfl) (by omega),
    removeTokens_blank, removeTokens_blanked (.inr rfl) (by omega),
    removeTokens_blanked (.inr rfl) (by omega), removeTokens_append, removeTokens_numeral]

/-- What becomes of the text in front of the last separator. -/
theorem removeTokens_front (n : ℕ) (x : DateText) : ∃ b₁ b₂ b₃, (b₁ = 32 ∨ b₁ = 45) ∧
    (b₂ = 32 ∨ b₂ = 45) ∧ (b₃ = 32 ∨ b₃ = 58) ∧ removeTokens n x.front =
      x.y.1 ++ b₁ :: (x.m.1 ++ b₂ :: (x.d.1 ++ 32 :: (x.h.1 ++ b₃ :: x.mi.1))) := by
  rw [DateText.front]
  obtain ⟨b₁, n₁, hb₁, h₁⟩ := removeTokens_separator n x.y 45
    (x.m.1 ++ 45 :: (x.d.1 ++ 32 :: (x.h.1 ++ 58 :: x.mi.1)))
  obtain ⟨b₂, n₂, hb₂, h₂⟩ := removeTokens_separator n₁ x.m 45
    (x.d.1 ++ 32 :: (x.h.1 ++ 58 :: x.mi.1))
  obtain ⟨b₃, n₃, hb₃, h₃⟩ := removeTokens_separator (n₂ - (x.d.1.length + 1)) x.h 58 x.mi.1
  refine ⟨b₁, b₂, b₃, hb₁, hb₂, hb₃, ?_⟩
  rw [h₁, h₂, removeTokens_blank, h₃, removeTokens_numeral]

/-- A `:` that stays where it is keeps the date from being read. -/
theorem scanDate_removeTokens_none (h : n ≤ x.front.length) :
    scanDate (removeTokens n (x.text ++ rest)) = none := by
  obtain ⟨b₁, b₂, b₃, hb₁, hb₂, hb₃, hfront⟩ := removeTokens_front n x
  have hblank : isDigit 32 = false := by decide
  have hcolon : isDigit 58 = false := by decide
  have hminus : isDigit 45 = false := by decide
  rw [DateText.text, List.append_assoc, List.cons_append, removeTokens_append,
    Nat.sub_eq_zero_of_le h, removeTokens_zero, hfront]
  rcases hb₁ with rfl | rfl <;> rcases hb₂ with rfl | rfl <;> rcases hb₃ with rfl | rfl <;>
    simp only [List.append_assoc, List.cons_append, scanDate, scanInt_blank, scanInt_colon,
      scanInt_numeral (head_separator hblank), scanInt_numeral (head_separator hminus),
      scanInt_numeral (head_separator hcolon), scanInt_minus (head_separator hblank),
      scanInt_minus (head_separator hminus), Option.bind_eq_bind, Option.bind_some,
      Option.bind_none]

end Reading

/-! ## What the parser accepts -/

/-- What `get_Date` lets through. -/
structure Date.Checked (date : Date) : Prop where
  y : 2016 ≤ date.y
  m : 0 ≤ date.m ∧ date.m ≤ 12
  d : 0 ≤ date.d ∧ date.d ≤ 31
  h : 0 ≤ date.h ∧ date.h ≤ 24
  mi : 0 ≤ date.mi ∧ date.mi ≤ 59
  s : 0 ≤ date.s ∧ date.s ≤ 59

/-- The sum that `get_Period_Date` looks at. -/
def Date.sum (pdate : Date) : ℤ :=
  Int.bmod (pdate.y + pdate.m + pdate.d + pdate.h + pdate.mi + pdate.s) (2 ^ 32)

section Accepting

variable {x p : DateText} {source rest rest' : List UInt8} {n : ℕ} {clock : ℕ → ℤ}
  {date pdate : Date} {alarm : AlarmT}

theorem getDate_ok_iff : getDate source = .ok (date, rest) ↔
    scanDate source = some date ∧ date.Checked ∧ rest = chopN source 20 := by
  constructor
  · intro h
    obtain ⟨hscan, -, hrest⟩ := getDate_ok h
    refine ⟨hscan, ?_, hrest⟩
    rw [getDate, hscan] at h
    dsimp only at h
    split_ifs at h with hy hm hd hh hmi hs
    exact ⟨by omega, by omega, by omega, by omega, by omega, by omega⟩
  · rintro ⟨hscan, ⟨hy, hm, hd, hh, hmi, hs⟩, rfl⟩
    rw [getDate, hscan]
    dsimp only
    rw [if_neg (by omega), if_neg (by omega), if_neg (by omega), if_neg (by omega),
      if_neg (by omega), if_neg (by omega)]

theorem getPeriodDate_ok_iff : getPeriodDate source = .ok (pdate, rest) ↔
    scanDate source = some pdate ∧ pdate.sum ≠ 0 ∧ rest = chopN source 18 := by
  rw [getPeriodDate]
  cases scanDate source with
  | none => exact iff_of_false (fun h ↦ by cases h) fun h ↦ Option.some_ne_none _ h.1.symm
  | some pdate' =>
    dsimp only
    split_ifs with hsum
    · refine iff_of_false (fun h ↦ by cases h) ?_
      rintro ⟨heq, hne, -⟩
      exact hne (Option.some.inj heq ▸ hsum)
    · rw [Except.ok.injEq, Prod.mk.injEq, Option.some.injEq]
      constructor
      · rintro ⟨rfl, rfl⟩
        exact ⟨rfl, hsum, rfl⟩
      · rintro ⟨rfl, -, rfl⟩
        exact ⟨rfl, rfl⟩

theorem parseAlarm_iff :
    parseAlarm n clock source = some (.ok alarm) ↔ Accepts n clock source alarm := by
  refine ⟨parseAlarm_accepts, fun h ↦ ?_⟩
  cases h with
  | abs htype hdate hdiff =>
    rw [parseAlarm, htype]
    dsimp only
    rw [hdate]
    exact if_neg (not_lt.mpr hdiff)
  | per htype hdate hperiod hcatchUp =>
    rw [parseAlarm, htype]
    dsimp only
    rw [hdate]
    dsimp only
    rw [hperiod]
    dsimp only
    rw [hcatchUp]
    rfl

theorem getType_abs : getType (65 :: 66 :: 83 :: 32 :: source) = .ok (.ABS, source) := rfl

theorem getType_per : getType (80 :: 69 :: 82 :: 32 :: source) = .ok (.PER, source) := rfl

theorem accepts_abs (hrest : ∀ c ∈ rest.head?, isDigit c = false) :
    Accepts n clock (65 :: 66 :: 83 :: 32 :: (x.text ++ rest)) alarm ↔
      x.front.length < ABS_FORMAT_LEN ∧ x.read.Checked ∧ diffTime (clock 0) x.read ≤ 0 ∧
        alarm = ⟨.ABS, x.read, ⟨0, 0, 0, 0, 0, 0⟩⟩ := by
  have hscan : x.front.length < ABS_FORMAT_LEN →
      scanDate (remove_TESP_OKens_ABS (x.text ++ rest)) = some x.read := by
    intro hfront
    rw [remove_TESP_OKens_ABS, removeTokens_text hfront]
    exact scanDate_blanked (head_removeTokens hrest)
  constructor
  · intro h
    cases h with
    | abs htype hdate hdiff =>
      rw [getType_abs] at htype
      obtain ⟨-, rfl⟩ := Prod.mk.inj (Except.ok.inj htype)
      obtain ⟨hdate, hchecked, -⟩ := getDate_ok_iff.mp hdate
      have hfront : x.front.length < ABS_FORMAT_LEN := by
        refine not_le.mp fun hle ↦ ?_
        rw [remove_TESP_OKens_ABS, scanDate_removeTokens_none hle] at hdate
        exact absurd hdate.symm (Option.some_ne_none _)
      obtain rfl := Option.some.inj ((hscan hfront).symm.trans hdate)
      exact ⟨hfront, hchecked, hdiff, rfl⟩
    | per htype => cases htype
  · rintro ⟨hfront, hchecked, hdiff, rfl⟩
    exact .abs getType_abs (getDate_ok_iff.mpr ⟨hscan hfront, hchecked, rfl⟩) hdiff

/-- What `get_Period_Date` gets to read. -/
def periodText (x p : DateText) (rest : List UInt8) : List UInt8 :=
  (remove_TESP_OKens_PER (x.text ++ 32 :: (p.text ++ rest))).drop 20

theorem DateText.length_blanked (x : DateText) : x.blanked.length = x.text.length := by
  simp only [DateText.blanked, DateText.text, DateText.front, List.length_append, List.length_cons]
  omega

theorem scanDate_blank : scanDate (32 :: source) = scanDate source := by
  rw [scanDate, scanDate, scanInt_blank]

/-- The period is found behind a date that is padded, or has one zero too many. -/
theorem scanDate_periodText (hx : x.text.length = 19 ∨ x.text.length = 20)
    (hp : p.front.length < 17) (hrest : ∀ c ∈ rest.head?, isDigit c = false) :
    scanDate (periodText x p rest) = some p.read := by
  have hfront : x.front.length < PER_FORMAT_LEN := by
    rw [DateText.text, List.length_append, List.length_cons] at hx
    rw [PER_FORMAT_LEN]
    omega
  have hlength := x.length_blanked
  have hblank : removeTokens (PER_FORMAT_LEN - x.text.length) (32 :: (p.text ++ rest))
      = 32 :: (p.blanked ++
        removeTokens (PER_FORMAT_LEN - x.text.length - 1 - p.text.length) rest) := by
    rw [removeTokens_cons_pos _ (by rw [PER_FORMAT_LEN]; omega), if_neg (by decide),
      removeTokens_text (by rw [PER_FORMAT_LEN]; omega)]
  rw [periodText, remove_TESP_OKens_PER, removeTokens_text hfront, hblank]
  rcases hx with hx | hx
  · rw [List.drop_append, List.drop_of_length_le (by omega), hlength, hx]
    exact scanDate_blanked (head_removeTokens hrest)
  · rw [List.drop_append, List.drop_of_length_le (by omega), hlength, hx]
    exact scanDate_blank.trans (scanDate_blanked (head_removeTokens hrest))

theorem accepts_per (hlength : (x.text ++ 32 :: (p.text ++ rest)).length ≤ PER_FORMAT_LEN) :
    Accepts n clock (80 :: 69 :: 82 :: 32 :: (x.text ++ 32 :: (p.text ++ rest))) alarm ↔
      x.read.Checked ∧ ∃ q date, scanDate (periodText x p rest) = some q ∧ q.sum ≠ 0 ∧
        catchUp clock q n 0 x.read = some date ∧ alarm = ⟨.PER, date, q⟩ := by
  have hlower := x.eleven_le_length
  have hlower' := p.eleven_le_length
  rw [List.length_append, List.length_cons, List.length_append] at hlength
  have hfront : x.front.length < PER_FORMAT_LEN := by
    rw [DateText.text, List.length_append, List.length_cons] at hlength
    omega
  have hscan : scanDate (remove_TESP_OKens_PER (x.text ++ 32 :: (p.text ++ rest)))
      = some x.read := by
    rw [remove_TESP_OKens_PER, removeTokens_text hfront]
    exact scanDate_blanked (head_removeTokens (head_separator (by decide)))
  have hchop : chopN (remove_TESP_OKens_PER (x.text ++ 32 :: (p.text ++ rest))) 20
      = periodText x p rest := by
    rw [chopN, remove_TESP_OKens_PER, length_removeTokens, List.length_append, List.length_cons,
      List.length_append]
    exact if_neg (by omega)
  constructor
  · intro h
    cases h with
    | abs htype => cases htype
    | per htype hdate hperiod hcatchUp =>
      rw [getType_per] at htype
      obtain ⟨-, rfl⟩ := Prod.mk.inj (Except.ok.inj htype)
      obtain ⟨hread, hchecked, rfl⟩ := getDate_ok_iff.mp hdate
      obtain rfl := Option.some.inj (hscan.symm.trans hread)
      obtain ⟨hperiod, hsum, -⟩ := getPeriodDate_ok_iff.mp hperiod
      exact ⟨hchecked, _, _, hchop ▸ hperiod, hsum, hcatchUp, rfl⟩
  · rintro ⟨hchecked, q, date, hperiod, hsum, hcatchUp, rfl⟩
    exact .per getType_per (getDate_ok_iff.mpr ⟨hscan, hchecked, hchop.symm⟩)
      (getPeriodDate_ok_iff.mpr ⟨hperiod, hsum, rfl⟩) hcatchUp

/-! ## Numbers that are too large -/

theorem Numeral.int_eq {a : Numeral} (h : a.int < 2 ^ 31 - 1 ∨ (a.value : ℤ) < 2 ^ 31) :
    a.int = a.value := by
  rw [Numeral.int, clampInt] at *
  omega

/-- A year that an `int` cannot hold is none that a `time_t` can hold. -/
theorem Date.y_lt_of_fits (hzero : Date.FieldsLE ⟨0, 0, 0, 0, 0, 0⟩ date) (h : date.Fits) :
    date.y < 2 ^ 31 - 1 := by
  refine not_le.mp fun hle ↦ ?_
  have hfields : Date.FieldsLE ⟨2 ^ 31 - 1, 0, 0, 0, 0, 0⟩ date :=
    ⟨hle, hzero.m, hzero.d, hzero.h, hzero.mi, hzero.s⟩
  have hdue : 2 ^ 31 < (⟨2 ^ 31 - 1, 0, 0, 0, 0, 0⟩ : Date).due := by decide
  exact absurd h.2 (not_lt.mpr (by have := hfields.due_le_due; omega))

theorem foldl_digits_lt {digits : List UInt8} (h : ∀ c ∈ digits, isDigit c = true) (v : ℕ) :
    digits.foldl (fun v c ↦ 10 * v + (c.toNat - 48)) v < (v + 1) * 10 ^ digits.length := by
  induction digits generalizing v with
  | nil => exact (Nat.lt_succ_self v).trans_eq (Nat.mul_one _).symm
  | cons c digits ih =>
    have hc : c.toNat - 48 ≤ 9 := by
      have hdigit := h c List.mem_cons_self
      rw [isDigit, decide_eq_true_eq, UInt8.le_iff_toNat_le, UInt8.le_iff_toNat_le] at hdigit
      have hle : c.toNat ≤ 57 := hdigit.2
      omega
    calc (c :: digits).foldl (fun v c ↦ 10 * v + (c.toNat - 48)) v
        < (10 * v + (c.toNat - 48) + 1) * 10 ^ digits.length :=
          ih (fun c hc ↦ h c (List.mem_cons_of_mem _ hc)) _
      _ ≤ (v + 1) * 10 * 10 ^ digits.length := Nat.mul_le_mul_right _ (by omega)
      _ = (v + 1) * 10 ^ (c :: digits).length := by
          rw [List.length_cons, Nat.pow_succ', Nat.mul_assoc]

/-- A number that an `int` can hold, by the number of its digits. -/
theorem Numeral.value_le {a : Numeral} (h : a.value < 2 ^ 31) :
    a.value + 238609300 ≤ 10 + 238609300 * a.1.length := by
  have hpos : 1 ≤ a.1.length := List.length_pos_iff.mpr a.2.1
  have hlt : a.value < (0 + 1) * 10 ^ a.1.length := foldl_digits_lt a.2.2 0
  by_cases hten : 10 ≤ a.1.length
  · omega
  · generalize a.1.length = l at *
    interval_cases l <;> omega

/-- The fields of a period do not add up to a multiple of `2 ^ 32`: there is no room for it. -/
theorem DateText.sum_ne_zero (hlength : p.text.length ≤ 25) (hint : p.date.IsInt)
    (hne : p.date ≠ ⟨0, 0, 0, 0, 0, 0⟩) : p.date.sum ≠ 0 := by
  intro hsum
  have hfront := p.length_front
  rw [DateText.text, List.length_append, List.length_cons] at hlength
  have hvalue : ∀ a : Numeral, Alarm.IsInt a.value →
      a.value + 238609300 ≤ 10 + 238609300 * a.1.length :=
    fun a ha ↦ a.value_le (Int.ofNat_lt.mp ha.2)
  have hy := hvalue _ hint.y
  have hm := hvalue _ hint.m
  have hd := hvalue _ hint.d
  have hh := hvalue _ hint.h
  have hmi := hvalue _ hint.mi
  have hs := hvalue _ hint.s
  have hdvd := Int.dvd_of_bmod_eq_zero hsum
  simp only [DateText.date] at hdvd
  refine hne (Date.mk.injEq .. |>.mpr ⟨?_, ?_, ?_, ?_, ?_, ?_⟩) <;> omega

theorem Numeral.value_lt {a : Numeral} (h : a.1.length ≤ 9) : (a.value : ℤ) < 2 ^ 31 := by
  have hlt : a.value < (0 + 1) * 10 ^ a.1.length := foldl_digits_lt a.2.2 0
  have hpow : 10 ^ a.1.length ≤ 10 ^ 9 := Nat.pow_le_pow_right (by decide) h
  omega

/-- The numbers of a short text are read as they are written. -/
theorem DateText.read_eq_of_length (h : x.text.length ≤ 19) : x.read = x.date := by
  have hpos (a : Numeral) : 1 ≤ a.1.length := List.length_pos_iff.mpr a.2.1
  have hfront := x.length_front
  have := hpos x.y
  have := hpos x.m
  have := hpos x.d
  have := hpos x.h
  have := hpos x.mi
  have := hpos x.s
  rw [DateText.text, List.length_append, List.length_cons] at h
  exact Date.mk.injEq .. |>.mpr ⟨Numeral.int_eq (.inr (Numeral.value_lt (by omega))),
    Numeral.int_eq (.inr (Numeral.value_lt (by omega))),
    Numeral.int_eq (.inr (Numeral.value_lt (by omega))),
    Numeral.int_eq (.inr (Numeral.value_lt (by omega))),
    Numeral.int_eq (.inr (Numeral.value_lt (by omega))),
    Numeral.int_eq (.inr (Numeral.value_lt (by omega)))⟩

theorem DateText.date_nonneg (x : DateText) : Date.FieldsLE ⟨0, 0, 0, 0, 0, 0⟩ x.date where
  y := Int.natCast_nonneg _
  m := Int.natCast_nonneg _
  d := Int.natCast_nonneg _
  h := Int.natCast_nonneg _
  mi := Int.natCast_nonneg _
  s := Int.natCast_nonneg _

theorem DateText.read_nonneg (x : DateText) : Date.FieldsLE ⟨0, 0, 0, 0, 0, 0⟩ x.read where
  y := clampInt_nonneg (Int.natCast_nonneg _)
  m := clampInt_nonneg (Int.natCast_nonneg _)
  d := clampInt_nonneg (Int.natCast_nonneg _)
  h := clampInt_nonneg (Int.natCast_nonneg _)
  mi := clampInt_nonneg (Int.natCast_nonneg _)
  s := clampInt_nonneg (Int.natCast_nonneg _)

theorem Date.Forward.le_after (h : pdate.Forward) (date : Date) (k : ℕ) :
    date.FieldsLE (date.after pdate k) where
  y := Int.le_add_of_nonneg_right (mul_nonneg (Int.natCast_nonneg k) h.y)
  m := Int.le_add_of_nonneg_right (mul_nonneg (Int.natCast_nonneg k) h.m)
  d := Int.le_add_of_nonneg_right (mul_nonneg (Int.natCast_nonneg k) h.d)
  h := Int.le_add_of_nonneg_right (mul_nonneg (Int.natCast_nonneg k) h.h)
  mi := Int.le_add_of_nonneg_right (mul_nonneg (Int.natCast_nonneg k) h.mi)
  s := Int.le_add_of_nonneg_right (mul_nonneg (Int.natCast_nonneg k) h.s)

theorem DateText.read_eq_of_read (h : x.read.Checked) (hy : x.read.y < 2 ^ 31 - 1) :
    x.read = x.date := by
  obtain ⟨-, hm, hd, hh, hmi, hs⟩ := h
  exact Date.mk.injEq .. |>.mpr ⟨Numeral.int_eq (.inl hy),
    Numeral.int_eq (.inl (hm.2.trans_lt (by decide))),
    Numeral.int_eq (.inl (hd.2.trans_lt (by decide))),
    Numeral.int_eq (.inl (hh.2.trans_lt (by decide))),
    Numeral.int_eq (.inl (hmi.2.trans_lt (by decide))),
    Numeral.int_eq (.inl (hs.2.trans_lt (by decide)))⟩

theorem DateText.read_eq_of_date (h : x.date.Checked) (hy : x.date.y < 2 ^ 31 - 1) :
    x.read = x.date := by
  obtain ⟨-, hm, hd, hh, hmi, hs⟩ := h
  exact Date.mk.injEq .. |>.mpr ⟨Numeral.int_eq (.inr (hy.trans (by decide))),
    Numeral.int_eq (.inr (hm.2.trans_lt (by decide))),
    Numeral.int_eq (.inr (hd.2.trans_lt (by decide))),
    Numeral.int_eq (.inr (hh.2.trans_lt (by decide))),
    Numeral.int_eq (.inr (hmi.2.trans_lt (by decide))),
    Numeral.int_eq (.inr (hs.2.trans_lt (by decide)))⟩

/-- The loop ends with a date that a `time_t` can hold, so it began with one. -/
theorem y_lt_of_catchUp (hclock : ∀ k, 0 ≤ clock k) (hforward : pdate.Forward)
    (hzero : Date.FieldsLE ⟨0, 0, 0, 0, 0, 0⟩ date) {date' : Date}
    (h : catchUp clock pdate n 0 date = some date') : date.y < 2 ^ 31 - 1 := by
  obtain ⟨k, -, rfl, hle, -⟩ := catchUp_iff.mp h
  have hafter := hforward.le_after date k
  have hfits := ((diffTime_nonpos (hclock _)).mp hle).1
  refine lt_of_le_of_lt hafter.y (Date.y_lt_of_fits ?_ hfits)
  exact ⟨hzero.y.trans hafter.y, hzero.m.trans hafter.m, hzero.d.trans hafter.d,
    hzero.h.trans hafter.h, hzero.mi.trans hafter.mi, hzero.s.trans hafter.s⟩

/-- **A text for one date is accepted** with the date that is written. -/
theorem accepts_abs_iff (hclock : ∀ k, 0 ≤ clock k)
    (hrest : ∀ c ∈ rest.head?, isDigit c = false) :
    Accepts n clock (65 :: 66 :: 83 :: 32 :: (x.text ++ rest)) alarm ↔
      (x.front.length < ABS_FORMAT_LEN ∧ x.date.Checked ∧ x.date.Fits ∧ clock 0 < x.date.due) ∧
        alarm = ⟨.ABS, x.date, ⟨0, 0, 0, 0, 0, 0⟩⟩ := by
  rw [accepts_abs hrest, diffTime_nonpos (hclock 0)]
  constructor
  · rintro ⟨hfront, hchecked, ⟨hfits, hfuture⟩, rfl⟩
    have hread := x.read_eq_of_read hchecked (Date.y_lt_of_fits x.read_nonneg hfits)
    rw [hread] at hchecked hfits hfuture ⊢
    exact ⟨⟨hfront, hchecked, hfits, hfuture⟩, rfl⟩
  · rintro ⟨⟨hfront, hchecked, hfits, hfuture⟩, rfl⟩
    rw [x.read_eq_of_date hchecked (Date.y_lt_of_fits x.date_nonneg hfits)]
    exact ⟨hfront, hchecked, ⟨hfits, hfuture⟩, rfl⟩

/-- **A text for a date and a period is accepted** with the date that is written, and what is read
for a period. -/
theorem accepts_per_iff (hclock : ∀ k, 0 ≤ clock k)
    (hlength : (x.text ++ 32 :: (p.text ++ rest)).length ≤ PER_FORMAT_LEN) :
    Accepts n clock (80 :: 69 :: 82 :: 32 :: (x.text ++ 32 :: (p.text ++ rest))) alarm ↔
      x.date.Checked ∧ ∃ q date, scanDate (periodText x p rest) = some q ∧ q.sum ≠ 0 ∧
        catchUp clock q n 0 x.date = some date ∧ alarm = ⟨.PER, date, q⟩ := by
  have hforward : ∀ q, scanDate (periodText x p rest) = some q → q.Forward := fun q hq ↦
    scanDate_forward (fun hmem ↦ notMem_removeTokens hlength (List.mem_of_mem_drop hmem)) hq
  rw [accepts_per hlength]
  constructor
  · rintro ⟨hchecked, q, date, hscan, hsum, hcatchUp, rfl⟩
    have hy := y_lt_of_catchUp hclock (hforward q hscan) x.read_nonneg hcatchUp
    have hread := x.read_eq_of_read hchecked hy
    rw [hread] at hchecked hcatchUp
    exact ⟨hchecked, q, date, hscan, hsum, hcatchUp, rfl⟩
  · rintro ⟨hchecked, q, date, hscan, hsum, hcatchUp, rfl⟩
    have hy := y_lt_of_catchUp hclock (hforward q hscan) x.date_nonneg hcatchUp
    rw [x.read_eq_of_date hchecked hy]
    exact ⟨hchecked, q, date, hscan, hsum, hcatchUp, rfl⟩

end Accepting

/-! ## Texts -/

/-- The months, days, hours, minutes and seconds are those of a calendar. -/
structure Date.Valid (date : Date) : Prop where
  m : 1 ≤ date.m ∧ date.m ≤ 12
  d : 1 ≤ date.d ∧ date.d ≤ 31
  h : 0 ≤ date.h ∧ date.h ≤ 23
  mi : 0 ≤ date.mi ∧ date.mi ≤ 59
  s : 0 ≤ date.s ∧ date.s ≤ 59

/-- No month or day 0, and no hour 24. -/
def Date.Strict (date : Date) : Prop := date.m ≠ 0 ∧ date.d ≠ 0 ∧ date.h ≠ 24

theorem Date.Valid.strict {date : Date} (h : date.Valid) : date.Strict := by
  obtain ⟨hm, hd, hh, -, -⟩ := h
  exact ⟨by omega, by omega, by omega⟩

theorem Date.Checked.valid {date : Date} (h : date.Checked) (hstrict : date.Strict) :
    date.Valid := by
  obtain ⟨-, hm, hd, hh, hmi, hs⟩ := h
  obtain ⟨hm0, hd0, hh24⟩ := hstrict
  exact ⟨by omega, by omega, by omega, hmi, hs⟩

theorem Date.Valid.checked {date : Date} (h : date.Valid) (hy : 2016 ≤ date.y) :
    date.Checked := by
  obtain ⟨hm, hd, hh, hmi, hs⟩ := h
  exact ⟨hy, by omega, by omega, by omega, hmi, hs⟩

/-- Text behind a number. -/
abbrev Remainder := {rest : List UInt8 // ∀ c ∈ rest.head?, isDigit c = false}

/-- The text of an alarm. -/
inductive AlarmText
  | abs (date : DateText) (rest : Remainder)
  | per (date period : DateText) (rest : Remainder)

namespace AlarmText

def text : AlarmText → List UInt8
  | abs date rest => 65 :: 66 :: 83 :: 32 :: (date.text ++ rest.1)
  | per date period rest => 80 :: 69 :: 82 :: 32 :: (date.text ++ 32 :: (period.text ++ rest.1))

/-- `parseAlarm` accepts the text with the numbers that are in it if it accepts it at all, and the
date is one of the calendar; and it does so if the date is, and is still to come or there is a
period. -/
def Parses (clock : ℕ → ℤ) (x : AlarmText) : Prop :=
  match x with
  | abs date _ =>
    (∀ n alarm, parseAlarm n clock x.text = some (.ok alarm) →
      alarm = ⟨.ABS, date.date, ⟨0, 0, 0, 0, 0, 0⟩⟩ ∧ date.date.Valid) ∧
    (date.date.Valid → clock 0 < date.date.due →
      ∃ n alarm, parseAlarm n clock x.text = some (.ok alarm))
  | per date period _ =>
    (∀ n alarm, parseAlarm n clock x.text = some (.ok alarm) →
      (alarm.alarmType = .PER ∧ alarm.pdate = period.date ∧
        catchUp clock period.date n 0 date.date = some alarm.date) ∧ date.date.Valid) ∧
    (date.date.Valid → period.date ≠ ⟨0, 0, 0, 0, 0, 0⟩ →
      ∃ n alarm, parseAlarm n clock x.text = some (.ok alarm))

/-- What `parseAlarm` looks at in a text for one date. -/
structure AbsAccepted (clock : ℕ → ℤ) (date : DateText) : Prop where
  separators : date.front.length < ABS_FORMAT_LEN
  checked : date.date.Checked
  fits : date.date.Fits
  future : clock 0 < date.date.due

/-- What it looks at in a text with a period, for which it takes `q`. -/
structure PerAccepted (clock : ℕ → ℤ) (date period : DateText) (rest : Remainder) (q : Date) :
    Prop where
  scan : scanDate (periodText date period rest.1) = some q
  checked : date.date.Checked
  sum : q.sum ≠ 0
  ends : ∃ k, diffTime (clock k) (date.date.after q k) ≤ 0

/-- The texts for one date that are understood. -/
structure AbsFits (clock : ℕ → ℤ) (date : DateText) : Prop where
  strict : AbsAccepted clock date → date.date.Strict
  /-- The last separator is among the first 20 characters behind the type. -/
  separators : date.date.Valid → clock 0 < date.date.due → date.front.length < 20
  year : date.date.Valid → clock 0 < date.date.due → 2016 ≤ date.date.y
  fits : date.date.Valid → clock 0 < date.date.due → date.date.Fits

/-- The texts with a period that are understood. -/
structure PerFits (clock : ℕ → ℤ) (date period : DateText) (rest : Remainder) : Prop where
  strict : ∀ q, PerAccepted clock date period rest q → date.date.Strict
  /-- Nothing else is taken for the period. -/
  nothingElse : ∀ q, PerAccepted clock date period rest q → q = period.date
  /-- What stands from the twentieth character on reads as the period. -/
  scan : date.date.Valid → period.date ≠ ⟨0, 0, 0, 0, 0, 0⟩ →
    scanDate (periodText date period rest.1) = some period.date
  year : date.date.Valid → period.date ≠ ⟨0, 0, 0, 0, 0, 0⟩ → 2016 ≤ date.date.y
  /-- One of the dates is later than the clock, and a `time_t` can hold it. -/
  ends : date.date.Valid → period.date ≠ ⟨0, 0, 0, 0, 0, 0⟩ →
    ∃ k, diffTime (clock k) (date.date.after period.date k) ≤ 0

/-- The texts with a period that are understood, by the numbers in them alone. -/
structure PerNumbers (clock : ℕ → ℤ) (date period : Date) : Prop where
  strict : date.Checked → period ≠ ⟨0, 0, 0, 0, 0, 0⟩ →
    (∃ k, diffTime (clock k) (date.after period k) ≤ 0) → date.Strict
  year : date.Valid → period ≠ ⟨0, 0, 0, 0, 0, 0⟩ → 2016 ≤ date.y
  ends : date.Valid → period ≠ ⟨0, 0, 0, 0, 0, 0⟩ →
    ∃ k, diffTime (clock k) (date.after period k) ≤ 0

def Fits (clock : ℕ → ℤ) : AlarmText → Prop
  | abs date _ => AbsFits clock date
  | per date period rest => PerFits clock date period rest

section Understood

variable {clock : ℕ → ℤ} {date period : DateText} {rest : Remainder} {x : AlarmText}

theorem abs_parses_iff (hclock : ∀ k, 0 ≤ clock k) :
    (abs date rest).Parses clock ↔ AbsFits clock date := by
  have hok : ∀ n alarm, parseAlarm n clock (abs date rest).text = some (.ok alarm) ↔
      AbsAccepted clock date ∧ alarm = ⟨.ABS, date.date, ⟨0, 0, 0, 0, 0, 0⟩⟩ := by
    intro n alarm
    rw [parseAlarm_iff, text, accepts_abs_iff hclock rest.2]
    exact and_congr_left' ⟨fun h ↦ ⟨h.1, h.2.1, h.2.2.1, h.2.2.2⟩,
      fun h ↦ ⟨h.separators, h.checked, h.fits, h.future⟩⟩
  constructor
  · rintro ⟨hsound, hcomplete⟩
    have haccepted : date.date.Valid → clock 0 < date.date.due → AbsAccepted clock date := by
      intro hvalid hfuture
      obtain ⟨n, alarm, h⟩ := hcomplete hvalid hfuture
      exact ((hok n alarm).mp h).1
    exact ⟨fun h ↦ (hsound 0 _ ((hok 0 _).mpr ⟨h, rfl⟩)).2.strict,
      fun hvalid hfuture ↦ (haccepted hvalid hfuture).separators,
      fun hvalid hfuture ↦ (haccepted hvalid hfuture).checked.y,
      fun hvalid hfuture ↦ (haccepted hvalid hfuture).fits⟩
  · intro h
    constructor
    · intro n alarm hparse
      obtain ⟨haccepted, rfl⟩ := (hok n alarm).mp hparse
      exact ⟨rfl, haccepted.checked.valid (h.strict haccepted)⟩
    · intro hvalid hfuture
      exact ⟨0, _, (hok 0 _).mpr ⟨⟨h.separators hvalid hfuture,
        hvalid.checked (h.year hvalid hfuture), h.fits hvalid hfuture, hfuture⟩, rfl⟩⟩

theorem per_parses_iff (hclock : ∀ k, 0 ≤ clock k)
    (hlength : (per date period rest).text.length ≤ 41) :
    (per date period rest).Parses clock ↔ PerFits clock date period rest := by
  have hshort : (date.text ++ 32 :: (period.text ++ rest.1)).length ≤ 37 := by
    rw [text] at hlength
    simp only [List.length_cons] at hlength
    omega
  have hok : ∀ n alarm, parseAlarm n clock (per date period rest).text = some (.ok alarm) ↔
      date.date.Checked ∧ ∃ q date', scanDate (periodText date period rest.1) = some q ∧
        q.sum ≠ 0 ∧ catchUp clock q n 0 date.date = some date' ∧ alarm = ⟨.PER, date', q⟩ := by
    intro n alarm
    rw [parseAlarm_iff, text, accepts_per_iff hclock (hshort.trans (by decide))]
  have hends (q : Date) (h : PerAccepted clock date period rest q) :
      ∃ n date', catchUp clock q n 0 date.date = some date' := exists_catchUp_iff.mpr h.ends
  constructor
  · rintro ⟨hsound, hcomplete⟩
    have hsound' : ∀ q, PerAccepted clock date period rest q →
        q = period.date ∧ date.date.Valid := by
      intro q h
      obtain ⟨n, date', hcatchUp⟩ := hends q h
      have hparse := (hok n _).mpr ⟨h.checked, q, date', h.scan, h.sum, hcatchUp, rfl⟩
      exact ⟨(hsound n _ hparse).1.2.1, (hsound n _ hparse).2⟩
    have haccepted : date.date.Valid → period.date ≠ ⟨0, 0, 0, 0, 0, 0⟩ →
        PerAccepted clock date period rest period.date := by
      intro hvalid hne
      obtain ⟨n, alarm, h⟩ := hcomplete hvalid hne
      obtain ⟨hchecked, q, date', hscan, hsum, hcatchUp, -⟩ := (hok n alarm).mp h
      have hq : PerAccepted clock date period rest q :=
        ⟨hscan, hchecked, hsum, exists_catchUp_iff.mp ⟨n, date', hcatchUp⟩⟩
      exact (hsound' q hq).1 ▸ hq
    exact ⟨fun q h ↦ (hsound' q h).2.strict, fun q h ↦ (hsound' q h).1,
      fun hvalid hne ↦ (haccepted hvalid hne).scan,
      fun hvalid hne ↦ (haccepted hvalid hne).checked.y,
      fun hvalid hne ↦ (haccepted hvalid hne).ends⟩
  · intro h
    constructor
    · intro n alarm hparse
      obtain ⟨hchecked, q, date', hscan, hsum, hcatchUp, rfl⟩ := (hok n alarm).mp hparse
      have hq : PerAccepted clock date period rest q :=
        ⟨hscan, hchecked, hsum, exists_catchUp_iff.mp ⟨n, date', hcatchUp⟩⟩
      obtain rfl := h.nothingElse q hq
      exact ⟨⟨rfl, rfl, hcatchUp⟩, hchecked.valid (h.strict _ hq)⟩
    · intro hvalid hne
      have hscan := h.scan hvalid hne
      have hperiod : period.text.length ≤ 25 := by
        have hlower := date.eleven_le_length
        rw [List.length_append, List.length_cons, List.length_append] at hshort
        omega
      have haccepted : PerAccepted clock date period rest period.date :=
        ⟨hscan, hvalid.checked (h.year hvalid hne),
          period.sum_ne_zero hperiod (isInt_scanDate hscan) hne, h.ends hvalid hne⟩
      obtain ⟨n, date', hcatchUp⟩ := hends _ haccepted
      exact ⟨n, _, (hok n _).mpr ⟨haccepted.checked, _, date', haccepted.scan, haccepted.sum,
        hcatchUp, rfl⟩⟩

/-- **Behind a date that is padded the period is found**, and so it is behind one with one zero too
many: there only the numbers matter. -/
theorem perFits_iff_of_layout (hlength : (per date period rest).text.length ≤ 41)
    (hdate : date.text.length = 19 ∨ date.text.length = 20) :
    PerFits clock date period rest ↔ PerNumbers clock date.date period.date := by
  simp only [text, List.length_cons, List.length_append] at hlength
  have hperiod : period.text.length ≤ 17 := by omega
  have hfront : period.front.length < 17 := by
    rw [DateText.text, List.length_append, List.length_cons] at hperiod
    omega
  have hscan : scanDate (periodText date period rest.1) = some period.date :=
    (scanDate_periodText hdate hfront rest.2).trans
      (congrArg some (period.read_eq_of_length (hperiod.trans (by decide))))
  have hsum : period.date.sum ≠ 0 ↔ period.date ≠ ⟨0, 0, 0, 0, 0, 0⟩ :=
    ⟨fun hsum hzero ↦ hsum (hzero ▸ rfl),
      period.sum_ne_zero (hperiod.trans (by decide)) (isInt_scanDate hscan)⟩
  have hfound (q : Date) (h : PerAccepted clock date period rest q) : q = period.date :=
    Option.some.inj (h.scan.symm.trans hscan)
  constructor
  · intro h
    exact ⟨fun hchecked hne hends ↦ h.strict _ ⟨hscan, hchecked, hsum.mpr hne, hends⟩, h.year,
      h.ends⟩
  · intro h
    refine ⟨fun q hq ↦ ?_, hfound, fun _ _ ↦ hscan, h.year, h.ends⟩
    obtain rfl := hfound q hq
    exact h.strict hq.checked (hsum.mp hq.sum) hq.ends

/-- **The texts that `parseAlarm` understands.** -/
theorem parses_iff (hclock : ∀ k, 0 ≤ clock k) (hlength : x.text.length ≤ 41) :
    x.Parses clock ↔ x.Fits clock := by
  cases x with
  | abs date rest => exact abs_parses_iff hclock
  | per date period rest => exact per_parses_iff hclock hlength

def numeral (c : UInt8) (cs : List UInt8) (h : (c :: cs).all isDigit = true) : Numeral :=
  ⟨c :: cs, List.cons_ne_nil c cs, List.all_eq_true.mp h⟩

/-- `"2017-12-16 11:10:07"`. -/
def padded : DateText :=
  ⟨numeral 50 [48, 49, 55] rfl, numeral 49 [50] rfl, numeral 49 [54] rfl, numeral 49 [49] rfl,
    numeral 49 [48] rfl, numeral 48 [55] rfl⟩

/-- `"2017-12-16 1:1:1"`. -/
def unpadded : DateText :=
  ⟨numeral 50 [48, 49, 55] rfl, numeral 49 [50] rfl, numeral 49 [54] rfl, numeral 49 [] rfl,
    numeral 49 [] rfl, numeral 49 [] rfl⟩

/-- `"00-00-00 00:01:03"`. -/
def minutely : DateText :=
  ⟨numeral 48 [48] rfl, numeral 48 [48] rfl, numeral 48 [48] rfl, numeral 48 [48] rfl,
    numeral 48 [49] rfl, numeral 48 [51] rfl⟩

/-- `"PER 2017-12-16 11:10:07 00-00-00 00:01:03"` is understood, also when its date is past. -/
theorem parses_padded : (per padded minutely ⟨[], nofun⟩).Parses fun _ ↦ 1513393877 := by
  refine (parses_iff (fun _ ↦ by decide) (by decide)).mpr ?_
  refine (perFits_iff_of_layout (by decide) (.inl rfl)).mpr ⟨fun _ _ _ ↦ ?_, fun _ _ ↦ ?_,
    fun _ _ ↦ ⟨2, by decide⟩⟩
  · exact ⟨by decide, by decide, by decide⟩
  · decide

/-- Without the zeros, three characters of the period are cut off. -/
theorem not_parses_unpadded : ¬∀ (clock : ℕ → ℤ) (x : AlarmText), (∀ k, 1451577600 ≤ clock k) →
    x.text.length ≤ 41 → x.Parses clock := by
  intro h
  have hparses := h (fun _ ↦ 1513393877) (per unpadded minutely ⟨[], nofun⟩) (fun _ ↦ by decide)
    (by decide)
  obtain ⟨n, alarm, hok⟩ := hparses.2 ⟨by decide, by decide, by decide, by decide, by decide⟩
    (by decide)
  have herror : parseAlarm n (fun _ ↦ 1513393877) (per unpadded minutely ⟨[], nofun⟩).text
      = some (.error .E_ALARM_ARG) := rfl
  exact absurd (Option.some.inj (herror.symm.trans hok)) nofun

end Understood

end AlarmText

end Ddmz.Alarm
