import Ddmz.Foundation.Buffer

/-!
# The line editor of the shell

`shellGetLine` of `esp_shell.c` reads bytes from the serial port until a line feed or a carriage
return, and keeps the line in a buffer under a pointer that moves both ways. `char` is unsigned on
the target, so the bytes from `0x80` on are text.

The editor it should be is a stack of bytes. What a byte does to the stack, its `KeyEffect`, decides
both what is on it afterwards and what is echoed, and `shellGetLine_eq` says that the buffer under
the pointer is that stack throughout. A byte that is rubbed out stays in the buffer behind the
pointer until it is overwritten.
-/

namespace Ddmz.Terminal

/-- `'\n'`. -/
abbrev NEWLINE : UInt8 := 10

/-- `'\r'`. -/
abbrev RETURN : UInt8 := 13

/-- What `shellGetLine` returns, what it leaves in the line, what it has written to the port, and
what has not been read from there. -/
structure GotLine where
  ret : Bool
  line : Buffer
  echo : List UInt8
  unread : List UInt8

/-- The loop of `shellGetLine` with the pointer at `p`; it waits for as long as nothing is
received. -/
def shellGetLineLoop (size : ℕ) : List UInt8 → ℕ → Buffer → List UInt8 → Option GotLine
  | [], _, _, _ => none
  | c :: keys, p, line, echo =>
    if c = 8 ∨ c = 127 then
      if p ≠ 0 then shellGetLineLoop size keys (p - 1) line (echo ++ [c, 0x20, c])
      else shellGetLineLoop size keys p line echo
    else if c = NEWLINE ∨ c = RETURN then
      some ⟨false, line.write p [0], echo ++ [c], keys⟩
    else if c < 0x20 then shellGetLineLoop size keys p line echo
    else if p < size - 1 then
      shellGetLineLoop size keys (p + 1) (line.write p [c]) (echo ++ [c])
    else shellGetLineLoop size keys p line echo

def shellGetLine (size : ℕ) (keys : List UInt8) (line : Buffer) : Option GotLine :=
  shellGetLineLoop size keys 0 line []

/-! ## The stack editor -/

inductive KeyEffect
  | stored
  | popped
  | ignored
  /-- There is no room. -/
  | refused
  deriving DecidableEq, Repr

def keyEffect (size : ℕ) (stack : List UInt8) (c : UInt8) : KeyEffect :=
  if c = 8 ∨ c = 127 then if stack = [] then .ignored else .popped
  else if c < 0x20 then .ignored
  else if stack.length < size - 1 then .stored
  else .refused

/-- The stack after a byte. -/
def edit (size : ℕ) (stack : List UInt8) (c : UInt8) : List UInt8 :=
  match keyEffect size stack c with
  | .stored => stack ++ [c]
  | .popped => stack.dropLast
  | .ignored | .refused => stack

/-- What is echoed for it. -/
def keyEcho (size : ℕ) (stack : List UInt8) (c : UInt8) : List UInt8 :=
  match keyEffect size stack c with
  | .stored => [c]
  | .popped => [c, 0x20, c]
  | .ignored | .refused => []

def editLine (size : ℕ) (keys : List UInt8) : List UInt8 := keys.foldl (edit size) []

def echoLine (size : ℕ) : List UInt8 → List UInt8 → List UInt8
  | _, [] => []
  | stack, c :: keys => keyEcho size stack c ++ echoLine size (edit size stack c) keys

/-- A byte that ends the line. -/
def EndsLine (c : UInt8) : Prop := c = NEWLINE ∨ c = RETURN

instance (c : UInt8) : Decidable (EndsLine c) :=
  inferInstanceAs (Decidable (c = NEWLINE ∨ c = RETURN))

/-! ## The buffer is the stack -/

/-- The bytes in front of the pointer are the stack, and there is room for a terminator. -/
structure Holds (size : ℕ) (stack : List UInt8) (line : Buffer) : Prop where
  contents : line.read 0 stack.length = stack
  text : (0 : UInt8) ∉ stack
  room : stack.length < size
  inBounds : line.high ≤ size

variable {size : ℕ} {stack : List UInt8} {line : Buffer} {c e : UInt8}

theorem Holds.store (h : Holds size stack line) (hroom : stack.length < size - 1)
    (hc : ¬c < 0x20) : Holds size (stack ++ [c]) (line.write stack.length [c]) where
  contents := by rw [List.length_append, Buffer.read_zero_write_append, h.contents]
  text := by
    have hc0 : c ≠ 0 := fun h0 ↦ hc (by rw [h0]; decide)
    simp [h.text, hc0.symm]
  room := by
    rw [List.length_append, List.length_singleton]
    omega
  inBounds := by
    have := h.inBounds
    rw [Buffer.high_write, List.length_singleton]
    omega

theorem Holds.pop (h : Holds size stack line) : Holds size stack.dropLast line where
  contents := by
    rw [Buffer.read_prefix h.contents (by simp), List.length_dropLast, List.dropLast_eq_take]
  text := fun h0 ↦ h.text (List.mem_of_mem_dropLast h0)
  room := by
    have := h.room
    rw [List.length_dropLast]
    omega
  inBounds := h.inBounds

theorem holds_nil (hsize : 1 ≤ size) (memory : ℕ → UInt8) : Holds size [] ⟨memory, 0⟩ where
  contents := rfl
  text := List.not_mem_nil
  room := hsize
  inBounds := Nat.zero_le size

/-- The terminator makes the stack the string in the buffer. -/
theorem Holds.terminate (h : Holds size stack line) :
    ∃ junk, (line.write stack.length [0]).read 0 size = stack ++ 0 :: junk := by
  obtain ⟨n, rfl⟩ := Nat.exists_eq_add_of_lt h.room
  have hend : (line.write stack.length [0]).cells (0 + stack.length) = 0 := by
    rw [Nat.zero_add]
    exact Buffer.cells_write_singleton
  rw [Nat.add_assoc, Buffer.read_add, Buffer.read_write_before (by rw [Nat.zero_add]), h.contents,
    Buffer.read_succ, hend]
  exact ⟨_, rfl⟩

/-- One byte that does not end the line. -/
theorem shellGetLineLoop_cons (h : Holds size stack line) (hc : ¬EndsLine c) (keys : List UInt8)
    (echo : List UInt8) : ∃ line', Holds size (edit size stack c) line' ∧
      shellGetLineLoop size (c :: keys) stack.length line echo
        = shellGetLineLoop size keys (edit size stack c).length line'
            (echo ++ keyEcho size stack c) := by
  rw [shellGetLineLoop, edit, keyEcho, keyEffect]
  by_cases hrub : c = 8 ∨ c = 127
  · rw [if_pos hrub, if_pos hrub]
    by_cases hnil : stack = []
    · subst hnil
      exact ⟨line, h, by simp⟩
    · have hlen : stack.length ≠ 0 := by simpa using hnil
      rw [if_pos hlen, if_neg hnil]
      exact ⟨line, h.pop, by simp only [List.length_dropLast]⟩
  · rw [if_neg hrub, if_neg hrub, if_neg (show ¬(c = NEWLINE ∨ c = RETURN) from hc)]
    by_cases hcontrol : c < 0x20
    · rw [if_pos hcontrol, if_pos hcontrol]
      exact ⟨line, h, by simp⟩
    · rw [if_neg hcontrol, if_neg hcontrol]
      by_cases hroom : stack.length < size - 1
      · rw [if_pos hroom, if_pos hroom]
        exact ⟨line.write stack.length [c], h.store hroom hcontrol, by simp⟩
      · rw [if_neg hroom, if_neg hroom]
        exact ⟨line, h, by simp⟩

/-- The loop from any stack on, by induction on the bytes. -/
theorem shellGetLineLoop_eq {keys : List UInt8} (hkeys : ∀ c ∈ keys, ¬EndsLine c)
    (he : EndsLine e) (unread : List UInt8) :
    ∀ {stack : List UInt8} {line : Buffer} (echo : List UInt8), Holds size stack line →
      ∃ line', Holds size (keys.foldl (edit size) stack) line' ∧
        shellGetLineLoop size (keys ++ e :: unread) stack.length line echo
          = some ⟨false, line'.write (keys.foldl (edit size) stack).length [0],
              echo ++ echoLine size stack keys ++ [e], unread⟩ := by
  induction keys with
  | nil =>
    intro stack line echo h
    refine ⟨line, h, ?_⟩
    have hrub : ¬(e = 8 ∨ e = 127) := by
      rcases he with rfl | rfl <;> decide
    rw [List.nil_append, shellGetLineLoop, if_neg hrub,
      if_pos (show e = NEWLINE ∨ e = RETURN from he), echoLine, List.append_nil]
    rfl
  | cons c keys ih =>
    intro stack line echo h
    obtain ⟨hc, hkeys⟩ := List.forall_mem_cons.mp hkeys
    obtain ⟨line', h', hstep⟩ := shellGetLineLoop_cons h hc (keys ++ e :: unread) echo
    obtain ⟨line'', h'', hrest⟩ := ih hkeys (echo ++ keyEcho size stack c) h'
    refine ⟨line'', h'', ?_⟩
    rw [List.cons_append, hstep, hrest, echoLine, List.foldl_cons]
    simp only [List.append_assoc]

/-- **`shellGetLine` is the stack editor**: it returns `false` at the first line end, with the stack
as a string in the buffer, without a write outside of it, and with the echo of the editor. -/
theorem shellGetLine_eq (size : ℕ) (hsize : 1 ≤ size) (memory : ℕ → UInt8)
    (keys unread : List UInt8) (e : UInt8) (hkeys : ∀ c ∈ keys, ¬EndsLine c) (he : EndsLine e) :
    ∃ line, shellGetLine size (keys ++ e :: unread) ⟨memory, 0⟩
        = some ⟨false, line, echoLine size [] keys ++ [e], unread⟩ ∧
      line.high ≤ size ∧
      line.read 0 (editLine size keys).length = editLine size keys ∧
      line.cells (editLine size keys).length = 0 ∧ (0 : UInt8) ∉ editLine size keys := by
  obtain ⟨line, h, heq⟩ := shellGetLineLoop_eq hkeys he unread [] (holds_nil hsize memory)
  refine ⟨line.write (editLine size keys).length [0], heq, ?_, ?_, ?_, h.text⟩
  · have hroom := h.room
    have hhigh := h.inBounds
    rw [Buffer.high_write, List.length_singleton]
    exact max_le hhigh hroom
  · rw [Buffer.read_write_before (by rw [Nat.zero_add])]
    exact h.contents
  · exact Buffer.cells_write_singleton

/-- A byte too many between two deletions. -/
def deletions : List UInt8 := [97, 98, 8, 99, 100, 127]

theorem shellGetLine_deletions : ∃ line, shellGetLine 3 (deletions ++ RETURN :: []) ⟨fun _ ↦ 255, 0⟩
      = some ⟨false, line, echoLine 3 [] deletions ++ [RETURN], []⟩ ∧
    line.high ≤ 3 ∧
    line.read 0 (editLine 3 deletions).length = editLine 3 deletions ∧
    line.cells (editLine 3 deletions).length = 0 ∧ (0 : UInt8) ∉ editLine 3 deletions :=
  shellGetLine_eq 3 (by decide) (fun _ ↦ 255) deletions [] RETURN
    (by simp [deletions, EndsLine, NEWLINE, RETURN])
    (Or.inr rfl)

end Ddmz.Terminal
