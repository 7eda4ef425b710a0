import Ddmz.Alarm.Parser
import Ddmz.Foundation.Buffer

/-!
# Adding an alarm

`esp_alarm_add` checks its arguments, allocates an entry, copies the text into a buffer of 42 bytes
on its stack, and has it parsed there. A text of 42 characters is let through, but leaves no room
for a terminator, so that the parser reads on behind the buffer; and an entry that cannot be parsed
is never freed.

With `Fits` a call that fails changes nothing and the parser gets a terminated string, and without
it one of the two goes wrong: `atomic_iff`.
-/

namespace Ddmz.Alarm

/-- A call of `esp_alarm_add`, with its text and what its environment answers. -/
structure AddRequest where
  /-- `alarm_buf`, or `none` for a null pointer. -/
  alarmBuf : Option CStr
  /-- `handle` is not null. -/
  handleGiven : Bool
  /-- `tm_year` of the current time. -/
  tmYear : ℤ
  /-- The result of `calloc`. -/
  newEntry : Option ℕ
  /-- The stack from `buff` on. -/
  stack : ℕ → UInt8
  /-- How much there is of it. -/
  stackSize : ℕ
  stackSize_gt : MAX_FORMAT_LEN < stackSize
  /-- The readings of the clock while the text is parsed. -/
  clock : ℕ → ℤ
  /-- The rounds after which the parser is cut off. -/
  rounds : ℕ

namespace AddRequest

variable (x : AddRequest)

/-- The text, if `esp_alarm_add` has it parsed. -/
def passed : Option CStr :=
  match x.alarmBuf with
  | none => none
  | some buf =>
    if x.handleGiven = false then none
    else if MAX_FORMAT_LEN < buf.1.length then none
    else if x.tmYear < 2016 - 1900 then none
    else x.newEntry.map fun _ ↦ buf

/-- `buff` with the text in it, after `bzero` and `memcpy`. -/
def buff (buf : CStr) : Buffer := ((⟨x.stack, 0⟩ : Buffer).clear MAX_FORMAT_LEN).write 0 buf.1

/-- The string that `parseAlarm` finds in it. -/
def source (buf : CStr) : List UInt8 :=
  (x.buff buf).read 0 ((x.buff buf).strlen 0 x.stackSize)

/-- The call without its text, with what the parser answers. -/
def call (parsed : Except AlarmCode AlarmT) : AddCall where
  alarmBuf := x.alarmBuf.map Subtype.val
  handleGiven := x.handleGiven
  tmYear := x.tmYear
  newEntry := x.newEntry
  parseAlarm := parsed

/-- `esp_alarm_add` with its buffer. If the text is not parsed, it does not matter what the parser
would answer. -/
def espAlarmAdd (c : AlarmStore) : Option (AlarmReply (Entry ℕ EspAlarmInfo) × AlarmStore) :=
  match x.passed with
  | none => some (Alarm.espAlarmAdd (x.call (.error .E_ALARM_ARG)) c)
  | some buf => (parseAlarm x.rounds x.clock (x.source buf)).map fun parsed ↦
      Alarm.espAlarmAdd (x.call parsed) c

/-- `calloc` returns memory that is not in use. -/
def AllocatesUnused (c : AlarmStore) : Prop :=
  ∀ p, x.newEntry = some p → c.list.entries p = none

/-- A call that fails leaves the service, its memory and the handle alone, and the parser gets a
string that ends in the buffer. -/
structure Atomic (c : AlarmStore) : Prop where
  unchanged : ∀ r, x.espAlarmAdd c = some r → r.1.code ≠ .E_ALARM_OK → r.1.handle = none ∧ r.2 = c
  inside : ∀ buf, x.passed = some buf → (x.buff buf).high ≤ MAX_FORMAT_LEN
  terminated : ∀ buf, x.passed = some buf → ∃ k < MAX_FORMAT_LEN, (x.buff buf).cells k = 0

/-- A text that is parsed has at most 41 characters, and the parser does not reject it. -/
def Fits : Prop := ∀ buf, x.passed = some buf → buf.1.length < MAX_FORMAT_LEN ∧
  ∀ code, parseAlarm x.rounds x.clock buf.1 ≠ some (.error code)

section Adding

variable {x} {buf : CStr} {c : AlarmStore} {parsed : Except AlarmCode AlarmT}

/-- The checks that a text has passed. -/
theorem checks_of_passed (h : x.passed = some buf) : x.alarmBuf = some buf ∧
    ¬x.handleGiven = false ∧ ¬MAX_FORMAT_LEN < buf.1.length ∧ ¬x.tmYear < 2016 - 1900 ∧
      ∃ p, x.newEntry = some p := by
  rw [passed] at h
  split at h
  · exact absurd h.symm (Option.some_ne_none _)
  · case _ hbuf =>
    split_ifs at h with hgiven hlength hyear
    obtain ⟨p, hp, rfl⟩ := Option.map_eq_some_iff.mp h
    exact ⟨hbuf, hgiven, hlength, hyear, p, hp⟩

theorem length_le_of_passed (h : x.passed = some buf) : buf.1.length ≤ MAX_FORMAT_LEN :=
  not_lt.mp (checks_of_passed h).2.2.1

/-- The buffer is not overrun. -/
theorem high_buff (h : buf.1.length ≤ MAX_FORMAT_LEN) : (x.buff buf).high = MAX_FORMAT_LEN := by
  rw [buff, Buffer.high_write, Buffer.high_clear, Nat.zero_add, Nat.zero_max]
  exact max_eq_left h

/-- There is a terminator in the buffer exactly if there is room for one. -/
theorem terminated_iff (h : buf.1.length ≤ MAX_FORMAT_LEN) :
    (∃ k < MAX_FORMAT_LEN, (x.buff buf).cells k = 0) ↔ buf.1.length < MAX_FORMAT_LEN := by
  constructor
  · rintro ⟨k, hk, hzero⟩
    refine lt_of_le_of_ne h fun heq ↦ ?_
    have hlt : k < buf.1.length := by omega
    have hcell : (x.buff buf).cells k = buf.1[k] := by
      rw [buff, Buffer.write]
      exact (if_pos ⟨Nat.zero_le k, by omega⟩).trans (List.getD_eq_getElem _ _ hlt)
    have hmem := List.getElem_mem hlt
    rw [← hcell, hzero] at hmem
    exact buf.2 hmem
  · intro hlt
    refine ⟨buf.1.length, hlt, ?_⟩
    rw [buff, Buffer.cells_write_behind (by omega), Buffer.cells_clear hlt]

/-- What is parsed is the text. -/
theorem source_eq (h : buf.1.length < MAX_FORMAT_LEN) : x.source buf = buf.1 := by
  have hread : (x.buff buf).read 0 buf.1.length = buf.1 := Buffer.read_write _ _ _
  have hend : (x.buff buf).cells (0 + buf.1.length) = 0 := by
    rw [buff, Buffer.cells_write_behind (by omega), Buffer.cells_clear (by omega)]
  rw [source, Buffer.strlen_eq hread buf.2 hend (h.trans x.stackSize_gt), hread]

/-- A call that does not come to the parser fails and changes nothing. -/
theorem espAlarmAdd_of_not_passed (h : x.passed = none) :
    (Alarm.espAlarmAdd (x.call parsed) c).1.handle = none ∧
      (Alarm.espAlarmAdd (x.call parsed) c).2 = c := by
  rw [passed] at h
  rw [Alarm.espAlarmAdd, call]
  cases hbuf : x.alarmBuf with
  | none => exact ⟨rfl, rfl⟩
  | some buf =>
    rw [hbuf] at h
    dsimp only [Option.map_some] at h ⊢
    split_ifs at h ⊢
    · exact ⟨rfl, rfl⟩
    · exact ⟨rfl, rfl⟩
    · exact ⟨rfl, rfl⟩
    · rw [Option.map_eq_none_iff.mp h]
      exact ⟨rfl, rfl⟩

/-- What the parser rejects stays allocated. -/
theorem espAlarmAdd_rejected (h : x.passed = some buf) (code : AlarmCode) :
    ∃ p, x.newEntry = some p ∧ Alarm.espAlarmAdd (x.call (.error code)) c =
      ({ code }, { c with list := c.list.put p ⟨.zero, none, none⟩ }) := by
  obtain ⟨hbuf, hgiven, hlength, hyear, p, hp⟩ := checks_of_passed h
  refine ⟨p, hp, ?_⟩
  rw [Alarm.espAlarmAdd, call, hbuf]
  dsimp only [Option.map_some]
  rw [if_neg hgiven, if_neg hlength, if_neg hyear, hp]

theorem espAlarmAdd_accepted (h : x.passed = some buf) {alarm : AlarmT} :
    (Alarm.espAlarmAdd (x.call (.ok alarm)) c).1.code = .E_ALARM_OK := by
  obtain ⟨hbuf, hgiven, hlength, hyear, p, hp⟩ := checks_of_passed h
  rw [Alarm.espAlarmAdd, call, hbuf]
  dsimp only [Option.map_some]
  rw [if_neg hgiven, if_neg hlength, if_neg hyear, hp]

/-- `parseAlarm` has one code for all its errors. -/
theorem parseAlarm_error {n : ℕ} {clock : ℕ → ℤ} {source : List UInt8} {code : AlarmCode}
    (h : parseAlarm n clock source = some (.error code)) : code = .E_ALARM_ARG := by
  have hcode : ∀ {code : AlarmCode}, some (.error .E_ALARM_ARG) =
      (some (.error code) : Option (Except AlarmCode AlarmT)) → code = .E_ALARM_ARG :=
    fun h ↦ (Except.error.inj (Option.some.inj h)).symm
  rw [parseAlarm] at h
  split at h
  · exact hcode h
  · split at h
    · exact hcode h
    · split_ifs at h
      · exact hcode h
      · exact absurd (Option.some.inj h) nofun
  · split at h
    · exact hcode h
    · split at h
      · exact hcode h
      · obtain ⟨date, -, hdate⟩ := Option.map_eq_some_iff.mp h
        exact absurd hdate nofun

/-- **A call is atomic** if and only if its text fits. -/
theorem atomic_iff (hunused : x.AllocatesUnused c) : x.Atomic c ↔ x.Fits := by
  constructor
  · intro h buf hbuf
    have hlength := (terminated_iff (length_le_of_passed hbuf)).mp (h.terminated buf hbuf)
    refine ⟨hlength, fun code hcode ↦ ?_⟩
    obtain ⟨p, hp, hadd⟩ := espAlarmAdd_rejected (c := c) hbuf code
    have hcall : x.espAlarmAdd c =
        some ({ code }, { c with list := c.list.put p ⟨.zero, none, none⟩ }) := by
      rw [espAlarmAdd, hbuf]
      dsimp only
      rw [source_eq hlength, hcode, Option.map_some, hadd]
    have hne : code ≠ .E_ALARM_OK := by
      rw [parseAlarm_error hcode]
      decide
    have hsame := (h.unchanged _ hcall hne).2
    have hentry := congrArg (fun c ↦ c.list.entries p) hsame
    dsimp only at hentry
    rw [ListMem.entries_put_self, hunused p hp] at hentry
    exact Option.some_ne_none _ hentry
  · intro h
    refine ⟨fun r hr hcode ↦ ?_, fun buf hbuf ↦ (high_buff (length_le_of_passed hbuf)).le,
      fun buf hbuf ↦ (terminated_iff (length_le_of_passed hbuf)).mpr (h buf hbuf).1⟩
    rw [espAlarmAdd] at hr
    cases hpassed : x.passed with
    | none =>
      rw [hpassed] at hr
      obtain rfl := Option.some.inj hr
      exact espAlarmAdd_of_not_passed hpassed
    | some buf =>
      rw [hpassed] at hr
      obtain ⟨hlength, haccepts⟩ := h buf hpassed
      obtain ⟨parsed, hparsed, rfl⟩ := Option.map_eq_some_iff.mp hr
      rw [source_eq hlength] at hparsed
      cases parsed with
      | error code => exact absurd hparsed (haccepts code)
      | ok alarm => exact absurd (espAlarmAdd_accepted hpassed) hcode

/-- A request for the text `buf`, with a clock that is set. -/
def requestOf (buf : CStr) : AddRequest where
  alarmBuf := some buf
  handleGiven := true
  tmYear := 117
  newEntry := some 1
  stack _ := 0
  stackSize := 64
  stackSize_gt := by decide
  clock _ := 1513393800
  rounds := 2

/-- `"ABS 2017-12-16 11:10:07"`, seven seconds before. -/
theorem atomic_future : (requestOf (cstr "ABS 2017-12-16 11:10:07")).Atomic .init := by
  refine (atomic_iff fun _ _ ↦ rfl).mpr fun buf hbuf ↦ ?_
  obtain rfl := Option.some.inj hbuf
  have hparse : parseAlarm 2 (fun _ ↦ 1513393800) (cstr "ABS 2017-12-16 11:10:07").1
      = some (.ok ⟨.ABS, ⟨2017, 12, 16, 11, 10, 7⟩, ⟨0, 0, 0, 0, 0, 0⟩⟩) := rfl
  refine ⟨by decide, fun code hcode ↦ ?_⟩
  exact absurd (Option.some.inj (hparse.symm.trans hcode)) nofun

/-- The type is wrong. -/
theorem not_atomic_wrongType : ¬∀ (x : AddRequest) c, x.AllocatesUnused c → x.Atomic c := by
  intro h
  have hcall : (requestOf (cstr "abc")).espAlarmAdd .init = some ({ code := .E_ALARM_ARG },
      { AlarmStore.init with list := AlarmStore.init.list.put 1 ⟨.zero, none, none⟩ }) := rfl
  have hsame := ((h _ .init fun _ _ ↦ rfl).unchanged _ hcall (by decide)).2
  have hentry := congrArg (fun c ↦ (c.list.entries 1).isSome) hsame
  exact absurd hentry (by decide)

end Adding

end AddRequest

end Ddmz.Alarm
