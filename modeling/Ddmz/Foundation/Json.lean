import Ddmz.Foundation.Buffer
import Ddmz.Foundation.FormUrl

/-!
# JSON

A value of JSON as `cJSON` has it: a tree of nodes, each with its type, the string and the number
that it stands for and the name that it has in an object.

`JsonReads part input vs rest` is that a part of the grammar reads the values `vs` from the bytes
`input` and leaves `rest`. It takes in what parsers are lenient about: blanks are all bytes up to
the space, an escape may be of any byte, and what comes after a value does not matter. The strings
of a value are in its text, each between quotes, so they are no longer than the text:
`JsonDocument.stringBytes_le`.
-/

namespace Ddmz

/-! ## Values -/

/-- The `type` of a `cJSON`. -/
inductive CJsonType
  | False
  | True
  | NULL
  | Number
  | String
  | Array
  | Object
  deriving DecidableEq

/-- A `cJSON`, with a list for its children. -/
structure CJson where
  type : CJsonType
  /-- A null pointer if it is not a string. -/
  valuestring : Option CStr
  valueint : ℤ
  /-- The name of the value, if it is in an object. -/
  string : Option CStr
  child : List CJson

/-- A letter in lower case. -/
def lower (c : UInt8) : UInt8 := if 65 ≤ c ∧ c ≤ 90 then c + 32 else c

/-- `cJSON_GetObjectItem`, which takes no account of the case of letters. -/
def CJson.getObjectItem (object : CJson) (name : String) : Option CJson :=
  object.child.find? fun item ↦
    item.string.any fun string ↦ string.1.map lower = (ascii name).map lower

mutual

/-- The bytes of the strings in a value, with a terminator for each. -/
def CJson.stringBytes : CJson → ℕ
  | ⟨_, valuestring, _, _, child⟩ =>
    (valuestring.elim 0 fun s ↦ s.1.length + 1) + stringBytesAll child

def stringBytesAll : List CJson → ℕ
  | [] => 0
  | v :: vs => v.stringBytes + stringBytesAll vs

end

mutual

/-- The number of nodes in a value, itself included. -/
def CJson.nodes : CJson → ℕ
  | ⟨_, _, _, _, child⟩ => nodesAll child + 1

def nodesAll : List CJson → ℕ
  | [] => 0
  | v :: vs => v.nodes + nodesAll vs

end

theorem CJson.nodes_eq (v : CJson) : v.nodes = nodesAll v.child + 1 := by
  obtain ⟨type, valuestring, valueint, string, child⟩ := v
  rw [CJson.nodes]

/-- A value of one node has nothing in it. -/
theorem CJson.getObjectItem_of_nodes {v : CJson} (h : v.nodes = 1) (name : String) :
    v.getObjectItem name = none := by
  have hchild : v.child = [] := by
    rw [CJson.nodes_eq] at h
    cases hv : v.child with
    | nil => rfl
    | cons w vs =>
      rw [hv, nodesAll, CJson.nodes_eq] at h
      omega
  rw [CJson.getObjectItem, hchild]
  rfl

/-! ## Texts -/

/-- `'"'`. -/
abbrev QUOTE : UInt8 := 34

/-- `'\\'`. -/
abbrev BACKSLASH : UInt8 := 92

/-- What an escaped byte stands for. -/
def unescape (b : UInt8) : UInt8 :=
  if b = 98 then 8 else if b = 102 then 12 else if b = 110 then 10 else if b = 114 then 13
  else if b = 116 then 9 else b

/-- The number of four hexadecimal digits. -/
def hex4 (d₁ d₂ d₃ d₄ : UInt8) : Option ℕ :=
  [d₁, d₂, d₃, d₄].foldlM (fun n d ↦ (hexVal d).map (16 * n + ·)) 0

/-- The bytes of a string, up to its closing quote. -/
inductive JsonChars : List UInt8 → List UInt8 → List UInt8 → Prop
  | close {rest : List UInt8} : JsonChars (QUOTE :: rest) [] rest
  | plain {b : UInt8} {input s rest : List UInt8} (hquote : b ≠ QUOTE) (hescape : b ≠ BACKSLASH)
      (h : JsonChars input s rest) : JsonChars (b :: input) (b :: s) rest
  | escape {b : UInt8} {input s rest : List UInt8} (h : JsonChars input s rest) :
      JsonChars (BACKSLASH :: b :: input) (unescape b :: s) rest
  | unicode {d₁ d₂ d₃ d₄ : UInt8} {c : Char} {input s rest : List UInt8}
      (hc : hex4 d₁ d₂ d₃ d₄ = some c.toNat) (h : JsonChars input s rest) :
      JsonChars (BACKSLASH :: 117 :: d₁ :: d₂ :: d₃ :: d₄ :: input)
        (String.utf8EncodeChar c ++ s) rest
  /-- A character that takes two, the first from `0xD800` on and the second from `0xDC00` on. -/
  | surrogates {d₁ d₂ d₃ d₄ e₁ e₂ e₃ e₄ : UInt8} {high low : ℕ} {c : Char}
      {input s rest : List UInt8} (hhigh : hex4 d₁ d₂ d₃ d₄ = some high)
      (hlow : hex4 e₁ e₂ e₃ e₄ = some low)
      (hc : c.toNat = 0x10000 + (high - 0xD800) * 0x400 + (low - 0xDC00))
      (h : JsonChars input s rest) :
      JsonChars (BACKSLASH :: 117 :: d₁ :: d₂ :: d₃ :: d₄ :: BACKSLASH :: 117 :: e₁ :: e₂ :: e₃ ::
        e₄ :: input) (String.utf8EncodeChar c ++ s) rest

/-- The parts of the grammar; what is in an object is `named`. -/
inductive JsonPart
  | value
  | item (named : Bool)
  /-- What follows a name. -/
  | colon
  /-- What follows an opening bracket. -/
  | items (named : Bool)
  /-- What follows an item. -/
  | more (named : Bool)

/-- The bracket that closes an array or an object. -/
def closing (named : Bool) : UInt8 := if named then 125 else 93

inductive JsonReads : JsonPart → List UInt8 → List CJson → List UInt8 → Prop
  | blank {part : JsonPart} {c : UInt8} {input rest : List UInt8} {vs : List CJson}
      (hc : c ≤ SPACE) (h : JsonReads part input vs rest) : JsonReads part (c :: input) vs rest
  | null {rest : List UInt8} :
      JsonReads .value (ascii "null" ++ rest) [⟨.NULL, none, 0, none, []⟩] rest
  | false {rest : List UInt8} :
      JsonReads .value (ascii "false" ++ rest) [⟨.False, none, 0, none, []⟩] rest
  | true {rest : List UInt8} :
      JsonReads .value (ascii "true" ++ rest) [⟨.True, none, 1, none, []⟩] rest
  /-- What number the bytes stand for is left open. -/
  | number {c : UInt8} {rest : List UInt8} {n : ℤ} :
      JsonReads .value (c :: rest) [⟨.Number, none, n, none, []⟩] rest
  | digit {c : UInt8} {input rest : List UInt8} {m n : ℤ}
      (h : JsonReads .value input [⟨.Number, none, m, none, []⟩] rest) :
      JsonReads .value (c :: input) [⟨.Number, none, n, none, []⟩] rest
  | string {input rest : List UInt8} {s : CStr} (hs : JsonChars input s.1 rest) :
      JsonReads .value (QUOTE :: input) [⟨.String, some s, 0, none, []⟩] rest
  | array {input rest : List UInt8} {vs : List CJson}
      (h : JsonReads (.items .false) input vs rest) :
      JsonReads .value (91 :: input) [⟨.Array, none, 0, none, vs⟩] rest
  | object {input rest : List UInt8} {vs : List CJson}
      (h : JsonReads (.items .true) input vs rest) :
      JsonReads .value (123 :: input) [⟨.Object, none, 0, none, vs⟩] rest
  | unnamed {input rest : List UInt8} {v : CJson} (h : JsonReads .value input [v] rest) :
      JsonReads (.item .false) input [v] rest
  | named {input next rest : List UInt8} {name : CStr} {v : CJson}
      (hname : JsonChars input name.1 next) (h : JsonReads .colon next [v] rest) :
      JsonReads (.item .true) (QUOTE :: input) [{ v with string := some name }] rest
  | colon {input rest : List UInt8} {v : CJson} (h : JsonReads .value input [v] rest) :
      JsonReads .colon (58 :: input) [v] rest
  | empty {named : Bool} {rest : List UInt8} :
      JsonReads (.items named) (closing named :: rest) [] rest
  | first {named : Bool} {input next rest : List UInt8} {v : CJson} {vs : List CJson}
      (hv : JsonReads (.item named) input [v] next) (h : JsonReads (.more named) next vs rest) :
      JsonReads (.items named) input (v :: vs) rest
  | last {named : Bool} {rest : List UInt8} :
      JsonReads (.more named) (closing named :: rest) [] rest
  | comma {named : Bool} {input next rest : List UInt8} {v : CJson} {vs : List CJson}
      (hv : JsonReads (.item named) input [v] next) (h : JsonReads (.more named) next vs rest) :
      JsonReads (.more named) (44 :: input) (v :: vs) rest

/-- A string without quotes and escapes stands for itself. -/
theorem JsonChars.of_plain {s : List UInt8} (hs : ∀ b ∈ s, b ≠ QUOTE ∧ b ≠ BACKSLASH)
    (rest : List UInt8) : JsonChars (s ++ QUOTE :: rest) s rest := by
  induction s with
  | nil => exact .close
  | cons b s ih =>
    obtain ⟨hb, hs⟩ := List.forall_mem_cons.mp hs
    exact .plain hb.1 hb.2 (ih hs)

theorem JsonReads.field (name : CStr) (hname : ∀ b ∈ name.1, b ≠ QUOTE ∧ b ≠ BACKSLASH)
    {input rest : List UInt8} {v : CJson} (h : JsonReads .value input [v] rest) :
    JsonReads (.item .true) (QUOTE :: (name.1 ++ QUOTE :: 58 :: input))
      [{ v with string := some name }] rest :=
  .named (.of_plain hname _) (.colon h)

/-! ## Lengths -/

section Lengths

variable {v w : CJson} {vs : List CJson}

theorem length_utf8EncodeChar_le (c : Char) : (String.utf8EncodeChar c).length ≤ 4 := by
  rw [String.length_utf8EncodeChar]
  exact Char.utf8Size_le_four c

/-- A string takes its bytes and a quote. -/
theorem JsonChars.length_lt {input s rest : List UInt8} (h : JsonChars input s rest) :
    s.length + rest.length < input.length := by
  induction h with
  | close => simp
  | plain _ _ _ ih | escape _ ih =>
    simp only [List.length_cons]
    omega
  | unicode _ _ ih | surrogates _ _ _ _ ih =>
    simp only [List.length_cons, List.length_append]
    have hle := length_utf8EncodeChar_le
    grind

end Lengths

end Ddmz
