import Mathlib

/-!
# Intrusive doubly linked lists

The lists of the BSD `queue.h`: the entries are linked through fields of their own, forward by the
address of the next entry and backward by the address of the *link* to the entry, which is either
the head of the list or the `le_next` of its predecessor. So an entry can be removed without
knowing the list it is in.

`ListMem` is the memory that holds the entries, `insertHead`, `remove`, `find` and `traverse` are
what programs do with it, and `Chain` says which list is found in it from a link on. The lemmas are
about lists without repeated addresses, `Holds`, and reduce every operation to one on the list of
addresses and values.
-/

namespace Ddmz

/-- Where a link is stored. -/
inductive Slot (ι : Type*)
  | head
  | next (p : ι)

/-- An entry with its links. A null `le_prev` is `none`. -/
structure Entry (ι α : Type*) where
  val : α
  leNext : Option ι
  lePrev : Option (Slot ι)

/-- A list head and the live entries by their addresses. -/
structure ListMem (ι α : Type*) where
  lhFirst : Option ι
  entries : ι → Option (Entry ι α)

namespace ListMem

variable {ι α β : Type*}

/-! ## The list in memory -/

/-- The contents of a link. -/
def load (m : ListMem ι α) : Slot ι → Option ι
  | .head => m.lhFirst
  | .next p => (m.entries p).bind Entry.leNext

/-- Whether a link can be written. -/
def isLive (m : ListMem ι α) : Slot ι → Bool
  | .head => true
  | .next p => (m.entries p).isSome

/-- The entries from the link `s` on, with their values, up to a null link. -/
def Chain (m : ListMem ι α) : Slot ι → List (ι × α) → Prop
  | s, [] => m.load s = none
  | s, (p, v) :: l => m.load s = some p ∧ m.entries p = some ⟨v, m.load (.next p), some s⟩ ∧
      Chain m (.next p) l

/-- The entries from the link `s` on, whatever follows them. -/
def Path (m : ListMem ι α) : Slot ι → List (ι × α) → Prop
  | _, [] => True
  | s, (p, v) :: l => m.load s = some p ∧ m.entries p = some ⟨v, m.load (.next p), some s⟩ ∧
      Path m (.next p) l

/-- The link behind the entries of `l`. -/
def lastSlot : Slot ι → List (ι × α) → Slot ι
  | s, [] => s
  | _, (p, _) :: l => lastSlot (.next p) l

/-- The memory holds the list `l`. -/
structure Holds (m : ListMem ι α) (l : List (ι × α)) : Prop where
  chain : m.Chain .head l
  nodup : (l.map Prod.fst).Nodup

/-- A link that is in none of these entries. -/
def Outside (s : Slot ι) (l : List (ι × α)) : Prop := ∀ x ∈ l, s ≠ .next x.1

variable {m m' : ListMem ι α} {s t : Slot ι} {l l₁ l₂ : List (ι × α)} {p q : ι} {v : α}

theorem chain_append :
    m.Chain s (l₁ ++ l₂) ↔ m.Path s l₁ ∧ m.Chain (lastSlot s l₁) l₂ := by
  induction l₁ generalizing s with
  | nil => simp [Path, lastSlot]
  | cons x l₁ ih =>
    rw [List.cons_append, Chain, Path, lastSlot, ih]
    tauto

theorem load_congr (hhead : m'.lhFirst = m.lhFirst)
    (hentries : ∀ q, s = .next q → m'.entries q = m.entries q) : m'.load s = m.load s := by
  cases s with
  | head => exact hhead
  | next q => rw [load, load, hentries q rfl]

theorem load_next {e : Entry ι α} (h : m.entries p = some e) : m.load (.next p) = e.leNext := by
  rw [load, h, Option.bind_some]

theorem load_next_congr (h : m'.entries p = m.entries p) :
    m'.load (.next p) = m.load (.next p) := by
  rw [load, load, h]

theorem isLive_of_load (h : m.load s = some p) : m.isLive s = true := by
  cases s with
  | head => rfl
  | next q =>
    rw [load] at h
    obtain ⟨e, he, -⟩ := Option.bind_eq_some_iff.mp h
    rw [isLive, he]
    rfl

/-- A link into a list is the address of one of its entries, which is live. -/
theorem Chain.mem_of_load (h : m.Chain s l) (hq : m.load s = some q) :
    q ∈ l.map Prod.fst ∧ m.isLive (.next q) = true := by
  cases l with
  | nil => exact absurd (h.symm.trans hq) nofun
  | cons x l =>
    obtain ⟨hs, hx, -⟩ := h
    obtain rfl : x.1 = q := Option.some.inj (hs.symm.trans hq)
    exact ⟨List.mem_cons_self, by rw [isLive, hx]; rfl⟩

theorem Chain.entry_of_mem (h : m.Chain s l) {x : ι × α} (hx : x ∈ l) :
    ∃ n t, m.entries x.1 = some ⟨x.2, n, t⟩ := by
  induction l generalizing s with
  | nil => cases hx
  | cons y l ih =>
    rcases List.mem_cons.mp hx with rfl | hx
    · exact ⟨_, _, h.2.1⟩
    · exact ih h.2.2 hx

/-- Only the link and the entries matter. -/
theorem Chain.congr (h : m.Chain s l) (hload : m'.load s = m.load s)
    (hentries : ∀ x ∈ l, m'.entries x.1 = m.entries x.1) : m'.Chain s l := by
  induction l generalizing s with
  | nil => exact hload.trans h
  | cons x l ih =>
    obtain ⟨hs, hx, hl⟩ := h
    have hnext := load_next_congr (hentries x List.mem_cons_self)
    refine ⟨hload.trans hs, ?_, ih hl hnext fun y hy ↦ hentries y (List.mem_cons_of_mem _ hy)⟩
    rw [hentries x List.mem_cons_self, hnext]
    exact hx

theorem Path.congr (h : m.Path s l) (hload : m'.load s = m.load s)
    (hentries : ∀ x ∈ l, m'.entries x.1 = m.entries x.1) : m'.Path s l := by
  induction l generalizing s with
  | nil => trivial
  | cons x l ih =>
    obtain ⟨hs, hx, hl⟩ := h
    have hnext := load_next_congr (hentries x List.mem_cons_self)
    refine ⟨hload.trans hs, ?_, ih hl hnext fun y hy ↦ hentries y (List.mem_cons_of_mem _ hy)⟩
    rw [hentries x List.mem_cons_self, hnext]
    exact hx

/-- The values may be replaced. -/
theorem Chain.mapVal {g : ι × α → α} (h : m.Chain s l) (hload : m'.load s = m.load s)
    (hentries : ∀ x ∈ l, ∀ n t, m.entries x.1 = some ⟨x.2, n, t⟩ →
      m'.entries x.1 = some ⟨g x, n, t⟩) : m'.Chain s (l.map fun x ↦ (x.1, g x)) := by
  induction l generalizing s with
  | nil => exact hload.trans h
  | cons x l ih =>
    obtain ⟨hs, hx, hl⟩ := h
    have hx' := hentries x List.mem_cons_self _ _ hx
    have hnext : m'.load (.next x.1) = m.load (.next x.1) := load_next hx'
    refine ⟨hload.trans hs, ?_, ih hl hnext fun y hy ↦ hentries y (List.mem_cons_of_mem _ hy)⟩
    rw [hx', hnext]

theorem lastSlot_eq_next (s : Slot ι) (x : ι × α) (l : List (ι × α)) :
    ∃ y ∈ x :: l, lastSlot s (x :: l) = .next y.1 := by
  induction l generalizing s x with
  | nil => exact ⟨x, List.mem_cons_self, rfl⟩
  | cons y l ih =>
    obtain ⟨z, hz, hlast⟩ := ih (.next x.1) y
    exact ⟨z, List.mem_cons_of_mem _ hz, hlast⟩

theorem outside_head (l : List (ι × α)) : Outside .head l := fun _ _ ↦ nofun

/-- The link behind a list is outside any entries that are not in it. -/
theorem outside_lastSlot (hs : Outside s l₂) (hdisjoint : ∀ x ∈ l₁, ∀ y ∈ l₂, x.1 ≠ y.1) :
    Outside (lastSlot s l₁) l₂ := by
  cases l₁ with
  | nil => exact hs
  | cons x l₁ =>
    obtain ⟨z, hz, hlast⟩ := lastSlot_eq_next s x l₁
    intro y hy heq
    rw [hlast] at heq
    exact hdisjoint z hz y hy (Slot.next.inj heq)

/-! ## Searching -/

/-- The first entry from `it` on whose value satisfies `P`, as a loop over the list looks for it:
no result if the fuel runs out or an entry is not live, and otherwise the entry or a null
pointer. -/
def find (m : ListMem ι α) (P : α → Bool) : ℕ → Option ι → Option (Option ι)
  | 0, _ => none
  | _ + 1, none => some none
  | n + 1, some p =>
    match m.entries p with
    | none => none
    | some e => if P e.val then some (some p) else find m P n e.leNext

/-- The bound on a search that ends does not matter. -/
theorem find_unique {P : α → Bool} {n n' : ℕ} {it : Option ι} {o o' : Option ι}
    (h : m.find P n it = some o) (h' : m.find P n' it = some o') : o = o' := by
  induction n generalizing n' it with
  | zero => cases h
  | succ n ih =>
    cases n' with
    | zero => cases h'
    | succ n' =>
      cases it with
      | none => exact Option.some.inj (h.symm.trans h')
      | some p =>
        rw [find] at h h'
        cases he : m.entries p with
        | none =>
          rw [he] at h
          cases h
        | some e =>
          rw [he] at h h'
          dsimp only at h h'
          split_ifs at h h'
          · exact Option.some.inj (h.symm.trans h')
          · exact ih h h'

theorem find_eq {P : α → Bool} {n : ℕ} (h : m.Chain s l) (hn : l.length < n) :
    m.find P n (m.load s) = some ((l.find? (fun x ↦ P x.2)).map Prod.fst) := by
  induction l generalizing s n with
  | nil =>
    obtain ⟨n, rfl⟩ := Nat.exists_eq_succ_of_ne_zero (Nat.ne_zero_of_lt hn)
    rw [Chain] at h
    rw [h]
    rfl
  | cons x l ih =>
    obtain ⟨n, rfl⟩ := Nat.exists_eq_succ_of_ne_zero (Nat.ne_zero_of_lt hn)
    obtain ⟨hs, hx, hl⟩ := h
    rw [hs, find, hx]
    dsimp only
    by_cases hP : P x.2 = true
    · rw [if_pos hP, List.find?_cons_of_pos (p := fun x : ι × α ↦ P x.2) hP]
      rfl
    · rw [if_neg hP, List.find?_cons_of_neg (p := fun x : ι × α ↦ P x.2) hP]
      exact ih hl (Nat.lt_of_succ_lt_succ hn)

/-! ## Changing entries -/

variable [DecidableEq ι]

/-- Allocate or overwrite an entry. -/
def put (m : ListMem ι α) (p : ι) (e : Entry ι α) : ListMem ι α :=
  { m with entries := Function.update m.entries p (some e) }

def free (m : ListMem ι α) (p : ι) : ListMem ι α :=
  { m with entries := Function.update m.entries p none }

def modify (m : ListMem ι α) (p : ι) (f : Entry ι α → Entry ι α) : ListMem ι α :=
  { m with entries := Function.update m.entries p ((m.entries p).map f) }

/-- Change the value of an entry. -/
def setVal (m : ListMem ι α) (p : ι) (f : α → α) : ListMem ι α :=
  m.modify p fun e ↦ { e with val := f e.val }

/-- Write a link. -/
def store (m : ListMem ι α) (q : Option ι) : Slot ι → ListMem ι α
  | .head => { m with lhFirst := q }
  | .next p => m.modify p fun e ↦ { e with leNext := q }

/-- Set the back link of an entry, if there is one. -/
def setPrev (m : ListMem ι α) (s : Slot ι) : Option ι → ListMem ι α
  | none => m
  | some q => m.modify q fun e ↦ { e with lePrev := some s }

theorem put_put (e e' : Entry ι α) : (m.put p e).put p e' = m.put p e' := by
  rw [put, put, put, Function.update_idem]

theorem entries_put_self (e : Entry ι α) : (m.put p e).entries p = some e :=
  Function.update_self _ _ _

theorem entries_put_ne (e : Entry ι α) (h : q ≠ p) : (m.put p e).entries q = m.entries q :=
  Function.update_of_ne h _ _

theorem entries_free_ne (h : q ≠ p) : (m.free p).entries q = m.entries q :=
  Function.update_of_ne h _ _

theorem entries_modify_self (f : Entry ι α → Entry ι α) :
    (m.modify p f).entries p = (m.entries p).map f := Function.update_self _ _ _

theorem entries_modify_ne (f : Entry ι α → Entry ι α) (h : q ≠ p) :
    (m.modify p f).entries q = m.entries q := Function.update_of_ne h _ _

theorem entries_setPrev_ne {o : Option ι} (h : o ≠ some q) :
    (m.setPrev s o).entries q = m.entries q := by
  cases o with
  | none => rfl
  | some r => exact entries_modify_ne _ fun heq ↦ h (congrArg some heq.symm)

theorem entries_setPrev_self {e : Entry ι α} (h : m.entries q = some e) :
    (m.setPrev s (some q)).entries q = some ⟨e.val, e.leNext, some s⟩ := by
  rw [setPrev, entries_modify_self, h]
  rfl

@[simp] theorem load_setPrev (o : Option ι) : (m.setPrev s o).load t = m.load t := by
  cases o with
  | none => rfl
  | some q =>
    cases t with
    | head => rfl
    | next r =>
      by_cases hr : r = q
      · rw [load, load, setPrev, hr, entries_modify_self]
        cases m.entries q <;> rfl
      · rw [load, load, setPrev, entries_modify_ne _ hr]

@[simp] theorem isLive_setPrev (o : Option ι) : (m.setPrev s o).isLive t = m.isLive t := by
  cases o with
  | none => rfl
  | some q =>
    cases t with
    | head => rfl
    | next r =>
      by_cases hr : r = q
      · rw [isLive, isLive, setPrev, hr, entries_modify_self, Option.isSome_map]
      · rw [isLive, isLive, setPrev, entries_modify_ne _ hr]

theorem load_free_ne (h : s ≠ .next p) : (m.free p).load s = m.load s :=
  load_congr rfl fun _ hq ↦ entries_free_ne fun heq ↦ h (hq.trans (congrArg Slot.next heq))

theorem entries_store_ne {o : Option ι} (h : s ≠ .next q) :
    (m.store o s).entries q = m.entries q := by
  cases s with
  | head => rfl
  | next r => exact entries_modify_ne _ fun heq ↦ h (congrArg Slot.next heq.symm)

theorem load_store_self {o : Option ι} (h : m.isLive s = true) : (m.store o s).load s = o := by
  cases s with
  | head => rfl
  | next r =>
    obtain ⟨e, he⟩ := Option.isSome_iff_exists.mp h
    rw [load, store, entries_modify_self, he]
    rfl

theorem load_store_ne {o : Option ι} (h : t ≠ s) : (m.store o s).load t = m.load t := by
  cases s with
  | head =>
    cases t with
    | head => exact absurd rfl h
    | next q => rfl
  | next r => exact load_congr rfl fun q hq ↦ entries_store_ne fun heq ↦ h (hq.trans heq.symm)

/-- Writing a link leaves everything else of an entry as it is. -/
theorem entries_store {o : Option ι} {n : Option ι} {t' : Option (Slot ι)}
    (h : m.entries q = some ⟨v, n, t'⟩) :
    (m.store o s).entries q = some ⟨v, (m.store o s).load (.next q), t'⟩ := by
  by_cases hs : s = .next q
  · rw [load, hs, store, entries_modify_self, h]
    rfl
  · rw [load, entries_store_ne hs, h]
    rfl

/-- The link behind a path can be written. -/
theorem Path.store {o : Option ι} (h : m.Path s l) (hs : Outside s l)
    (hnodup : (l.map Prod.fst).Nodup) : (m.store o (lastSlot s l)).Path s l := by
  induction l generalizing s with
  | nil => trivial
  | cons x l ih =>
    obtain ⟨hload, hx, hl⟩ := h
    obtain ⟨y, hy, hlast⟩ := lastSlot_eq_next s x l
    rw [List.map_cons, List.nodup_cons] at hnodup
    refine ⟨?_, entries_store hx, ih hl (fun z hz heq ↦ ?_) hnodup.2⟩
    · rw [hlast, load_store_ne (hs y hy), hload]
    · exact hnodup.1 (Slot.next.inj heq ▸ List.mem_map_of_mem hz)

theorem Holds.setVal (h : m.Holds l) (p : ι) (f : α → α) :
    (m.setVal p f).Holds (l.map fun x ↦ (x.1, if x.1 = p then f x.2 else x.2)) where
  chain := by
    refine h.chain.mapVal rfl fun x hx n t hentry ↦ ?_
    by_cases hp : x.1 = p
    · rw [if_pos hp, ListMem.setVal, hp, entries_modify_self, ← hp, hentry]
      rfl
    · rw [if_neg hp, ListMem.setVal, entries_modify_ne _ hp, hentry]
  nodup := by
    rw [List.map_map]
    exact h.nodup

/-! ## Inserting at the head -/

/-- `LIST_INSERT_HEAD`. -/
def insertHead (m : ListMem ι α) (p : ι) : ListMem ι α :=
  let m₁ := m.store m.lhFirst (.next p)
  let m₂ := m₁.setPrev (.next p) m.lhFirst
  ({ m₂ with lhFirst := some p } : ListMem ι α).modify p fun e ↦ { e with lePrev := some .head }

theorem entries_insertHead_self {e : Entry ι α} (he : m.entries p = some e)
    (hfirst : m.lhFirst ≠ some p) :
    (m.insertHead p).entries p = some ⟨e.val, m.lhFirst, some .head⟩ := by
  have hstore : (m.store m.lhFirst (.next p)).entries p = some ⟨e.val, m.lhFirst, e.lePrev⟩ := by
    rw [ListMem.store, entries_modify_self, he]
    rfl
  have hprev : ((m.store m.lhFirst (.next p)).setPrev (.next p) m.lhFirst).entries p
      = some ⟨e.val, m.lhFirst, e.lePrev⟩ := (entries_setPrev_ne hfirst).trans hstore
  rw [insertHead, entries_modify_self]
  exact congrArg (Option.map _) hprev

theorem entries_insertHead_ne (hq : q ≠ p) (hfirst : m.lhFirst ≠ some q) :
    (m.insertHead p).entries q = m.entries q := by
  rw [insertHead, entries_modify_ne _ hq]
  exact (entries_setPrev_ne hfirst).trans (entries_store_ne fun h ↦ hq (Slot.next.inj h).symm)

/-- The entry that was the first one gets a new back link. -/
theorem entries_insertHead_first {e : Entry ι α} (hq : q ≠ p) (he : m.entries q = some e)
    (hfirst : m.lhFirst = some q) :
    (m.insertHead p).entries q = some ⟨e.val, e.leNext, some (.next p)⟩ := by
  have hstore : (m.store m.lhFirst (.next p)).entries q = some e := by
    rw [entries_store_ne fun h ↦ hq (Slot.next.inj h).symm, he]
  have hprev : ((m.store m.lhFirst (.next p)).setPrev (.next p) m.lhFirst).entries q
      = some ⟨e.val, e.leNext, some (.next p)⟩ := by
    rw [hfirst] at hstore ⊢
    exact entries_setPrev_self hstore
  rw [insertHead, entries_modify_ne _ hq]
  exact hprev

/-- **Inserting an entry that is not in the list puts it in front.** -/
theorem Holds.insertHead (h : m.Holds l) {e : Entry ι α} (he : m.entries p = some e)
    (hp : p ∉ l.map Prod.fst) : (m.insertHead p).Holds ((p, e.val) :: l) := by
  refine ⟨?_, List.nodup_cons.mpr ⟨hp, h.nodup⟩⟩
  have hchain := h.chain
  cases l with
  | nil =>
    have hself := entries_insertHead_self he (by rw [show m.lhFirst = none from hchain]; nofun)
    have hnext : (m.insertHead p).load (.next p) = m.lhFirst := load_next hself
    exact ⟨rfl, by rw [hnext]; exact hself, hnext.trans hchain⟩
  | cons x l =>
    obtain ⟨hfirst, hx, hl⟩ := hchain
    rw [List.map_cons, List.mem_cons, not_or] at hp
    have hfirst' : m.lhFirst = some x.1 := hfirst
    have hself := entries_insertHead_self he
      (by rw [hfirst']; exact fun heq ↦ hp.1 (Option.some.inj heq).symm)
    have hnext : (m.insertHead p).load (.next p) = m.lhFirst := load_next hself
    have hx' := entries_insertHead_first (p := p) (fun heq ↦ hp.1 heq.symm) hx hfirst'
    have hxnext : (m.insertHead p).load (.next x.1) = m.load (.next x.1) := load_next hx'
    refine ⟨rfl, by rw [hnext]; exact hself, hnext.trans hfirst', by rw [hxnext]; exact hx',
      hl.congr hxnext fun y hy ↦ entries_insertHead_ne ?_ ?_⟩
    · exact fun heq ↦ hp.2 (heq ▸ List.mem_map_of_mem hy)
    · rw [hfirst']
      exact fun heq ↦ (List.nodup_cons.mp h.nodup).1
        (Option.some.inj heq ▸ List.mem_map_of_mem hy)

/-! ## Removing -/

/-- `LIST_REMOVE`. It has no result if it would write to memory that is not live. -/
def remove (m : ListMem ι α) (p : ι) : Option (ListMem ι α) :=
  match m.entries p with
  | none => none
  | some e =>
    match e.lePrev with
    | none => none
    | some s =>
      if (e.leNext.map fun q ↦ m.isLive (.next q)) ≠ some false ∧ m.isLive s then
        some ((m.setPrev s e.leNext).store e.leNext s)
      else none

/-- What follows a removed entry follows the link to it. -/
theorem Chain.unlink (h : m.Chain (.next p) l) (hlive : m.isLive s = true) (hsp : s ≠ .next p)
    (hs : Outside s l) (hp : p ∉ l.map Prod.fst) (hnodup : (l.map Prod.fst).Nodup) :
    (((m.setPrev s (m.load (.next p))).store (m.load (.next p)) s).free p).Chain s l := by
  have hlive' : (m.setPrev s (m.load (.next p))).isLive s = true :=
    (isLive_setPrev _).trans hlive
  have hload : (((m.setPrev s (m.load (.next p))).store (m.load (.next p)) s).free p).load s
      = m.load (.next p) := (load_free_ne hsp).trans (load_store_self hlive')
  have hentries : ∀ x ∈ l, (((m.setPrev s (m.load (.next p))).store (m.load (.next p)) s).free
      p).entries x.1 = (m.setPrev s (m.load (.next p))).entries x.1 := by
    intro x hx
    have hxp : x.1 ≠ p := fun heq ↦ hp (List.mem_map.mpr ⟨x, hx, heq⟩)
    rw [entries_free_ne hxp, entries_store_ne (hs x hx)]
  cases l with
  | nil => exact hload.trans h
  | cons x l =>
    obtain ⟨hnext, hx, hl⟩ := h
    rw [List.map_cons, List.nodup_cons] at hnodup
    have hx' : (m.setPrev s (m.load (.next p))).entries x.1
        = some ⟨x.2, m.load (.next x.1), some s⟩ := by
      rw [hnext]
      exact entries_setPrev_self hx
    have hxnext : (((m.setPrev s (m.load (.next p))).store (m.load (.next p)) s).free p).load
        (.next x.1) = m.load (.next x.1) :=
      (load_next_congr (hentries x List.mem_cons_self)).trans (load_next hx')
    refine ⟨hload.trans hnext, ?_, hl.congr hxnext fun y hy ↦ ?_⟩
    · rw [hentries x List.mem_cons_self, hxnext]
      exact hx'
    · rw [hentries y (List.mem_cons_of_mem _ hy), hnext]
      refine entries_setPrev_ne fun heq ↦ hnodup.1 (List.mem_map.mpr ⟨y, hy, ?_⟩)
      exact (Option.some.inj heq).symm

/-- **Removing an entry of the list leaves the others**, whether or not it is freed then. -/
theorem Holds.remove (h : m.Holds (l₁ ++ (p, v) :: l₂)) :
    ∃ m', m.remove p = some m' ∧ (m'.free p).Holds (l₁ ++ l₂) := by
  obtain ⟨hpath, hload, hp, htail⟩ := chain_append.mp h.chain
  set s := lastSlot .head l₁ with hs
  have hnodup := h.nodup
  rw [List.map_append, List.map_cons, List.nodup_append, List.nodup_cons] at hnodup
  obtain ⟨hnodup₁, ⟨hp₂, hnodup₂⟩, hdisjoint⟩ := hnodup
  have hp₁ : ∀ x ∈ l₁, x.1 ≠ p := fun x hx ↦
    hdisjoint _ (List.mem_map_of_mem hx) _ List.mem_cons_self
  have h₁₂ : ∀ x ∈ l₁, ∀ y ∈ l₂, x.1 ≠ y.1 := fun x hx y hy ↦
    hdisjoint _ (List.mem_map_of_mem hx) _ (List.mem_cons_of_mem _ (List.mem_map_of_mem hy))
  have hlive : m.isLive s = true := isLive_of_load hload
  have hout : Outside s [(p, v)] := outside_lastSlot (outside_head _) fun x hx y hy ↦ by
    rw [List.mem_singleton.mp hy]
    exact hp₁ x hx
  have hsp : s ≠ .next p := hout _ (List.mem_singleton_self _)
  have hs₂ : Outside s l₂ := outside_lastSlot (outside_head _) h₁₂
  have hlink : ∀ x ∈ l₁, m.load (.next p) ≠ some x.1 := by
    intro x hx hload
    obtain ⟨y, hy, heq⟩ := List.mem_map.mp (htail.mem_of_load hload).1
    exact h₁₂ x hx y hy heq.symm
  have hnextLive : ((m.load (.next p)).map fun q ↦ m.isLive (.next q)) ≠ some false := by
    intro hdead
    obtain ⟨q, hq, hfalse⟩ := Option.map_eq_some_iff.mp hdead
    rw [(htail.mem_of_load hq).2] at hfalse
    cases hfalse
  refine ⟨(m.setPrev s (m.load (.next p))).store (m.load (.next p)) s, ?_, ?_, ?_⟩
  · rw [ListMem.remove, hp]
    exact if_pos ⟨hnextLive, hlive⟩
  · refine chain_append.mpr ⟨?_, ?_⟩
    · have hpath₁ : (m.setPrev s (m.load (.next p))).Path .head l₁ :=
        hpath.congr (load_setPrev _) fun x hx ↦ entries_setPrev_ne (hlink x hx)
      refine (hpath₁.store (outside_head _) hnodup₁).congr rfl fun x hx ↦ ?_
      exact entries_free_ne (hp₁ x hx)
    · exact htail.unlink hlive hsp hs₂ hp₂ hnodup₂
  · rw [List.map_append, List.nodup_append]
    exact ⟨hnodup₁, hnodup₂, fun a ha b hb ↦ hdisjoint a ha b (List.mem_cons_of_mem _ hb)⟩

/-! ## Loops over the whole list -/

/-- A loop over the list from `it` on that overwrites every entry it visits, and goes on with the
link of what it has written. -/
def traverse (f : β → Entry ι α → β × Entry ι α) :
    ℕ → ListMem ι α → Option ι → β → Option (β × ListMem ι α)
  | 0, _, _, _ => none
  | _ + 1, m, none, b => some (b, m)
  | n + 1, m, some p, b =>
    match m.entries p with
    | none => none
    | some e => traverse f n (m.put p (f b e).2) (f b e).2.leNext (f b e).1

/-- The same on the values. -/
def mapState (g : β → α → β × α) : β → List α → β × List α
  | b, [] => (b, [])
  | b, v :: vs => ((mapState g (g b v).1 vs).1, (g b v).2 :: (mapState g (g b v).1 vs).2)

/-- The bound on a loop that ends does not matter. -/
theorem traverse_unique {f : β → Entry ι α → β × Entry ι α} {n n' : ℕ} {it : Option ι} {b : β}
    {r r' : β × ListMem ι α} (h : traverse f n m it b = some r)
    (h' : traverse f n' m it b = some r') : r = r' := by
  induction n generalizing n' m it b with
  | zero => cases h
  | succ n ih =>
    cases n' with
    | zero => cases h'
    | succ n' =>
      cases it with
      | none => exact Option.some.inj (h.symm.trans h')
      | some p =>
        rw [traverse] at h h'
        cases he : m.entries p with
        | none =>
          rw [he] at h
          cases h
        | some e =>
          rw [he] at h h'
          exact ih h h'

/-- **A loop that leaves the links alone visits every entry once.** -/
theorem traverse_eq {f : β → Entry ι α → β × Entry ι α} {g : β → α → β × α}
    (hf : ∀ x ∈ l, ∀ b n t, m.entries x.1 = some ⟨x.2, n, t⟩ →
      f b ⟨x.2, n, t⟩ = ((g b x.2).1, ⟨(g b x.2).2, n, t⟩)) {n : ℕ} (h : m.Chain s l)
    (hnodup : (l.map Prod.fst).Nodup) (hs : Outside s l) (hn : l.length < n) (b : β) :
    ∃ m' l', traverse f n m (m.load s) b = some ((mapState g b (l.map Prod.snd)).1, m') ∧
      m'.Chain s l' ∧ l'.map Prod.fst = l.map Prod.fst ∧
      l'.map Prod.snd = (mapState g b (l.map Prod.snd)).2 ∧ m'.lhFirst = m.lhFirst ∧
      ∀ q ∉ l.map Prod.fst, m'.entries q = m.entries q := by
  induction l generalizing m s n b with
  | nil =>
    obtain ⟨n, rfl⟩ := Nat.exists_eq_succ_of_ne_zero (Nat.ne_zero_of_lt hn)
    refine ⟨m, [], ?_, h, rfl, rfl, rfl, fun _ _ ↦ rfl⟩
    rw [show m.load s = none from h]
    rfl
  | cons x l ih =>
    obtain ⟨n, rfl⟩ := Nat.exists_eq_succ_of_ne_zero (Nat.ne_zero_of_lt hn)
    obtain ⟨hload, hx, hl⟩ := h
    rw [List.map_cons, List.nodup_cons] at hnodup
    set m₁ := m.put x.1 ⟨(g b x.2).2, m.load (.next x.1), some s⟩ with hm₁
    have hnext : m₁.load (.next x.1) = m.load (.next x.1) := load_next (entries_put_self _)
    have hsame₁ : ∀ y ∈ l, m₁.entries y.1 = m.entries y.1 := fun y hy ↦
      entries_put_ne _ fun heq ↦ hnodup.1 (List.mem_map.mpr ⟨y, hy, heq⟩)
    have hl₁ : m₁.Chain (.next x.1) l := hl.congr hnext hsame₁
    have hs₁ : Outside (.next x.1) l := fun y hy heq ↦
      hnodup.1 (List.mem_map.mpr ⟨y, hy, (Slot.next.inj heq).symm⟩)
    obtain ⟨m', l', hrun, hchain, hfst, hsnd, hfirst, hframe⟩ :=
      ih (fun y hy b n t hentry ↦
          hf y (List.mem_cons_of_mem _ hy) b n t ((hsame₁ y hy).symm.trans hentry))
        hl₁ hnodup.2 hs₁ (Nat.lt_of_succ_lt_succ hn) (g b x.2).1
    have hx' : m'.entries x.1 = some ⟨(g b x.2).2, m.load (.next x.1), some s⟩ := by
      rw [hframe _ hnodup.1, hm₁, entries_put_self]
    have hxnext : m'.load (.next x.1) = m.load (.next x.1) := load_next hx'
    refine ⟨m', (x.1, (g b x.2).2) :: l', ?_, ⟨?_, by rw [hxnext]; exact hx', hchain⟩, ?_, ?_,
      hfirst, fun q hq ↦ ?_⟩
    · rw [hload, traverse, hx]
      dsimp only
      rw [hf x List.mem_cons_self _ _ _ hx]
      rwa [hnext] at hrun
    · have hqx : ∀ q, s = .next q → ∀ y ∈ x :: l, q ≠ y.1 := fun q hq y hy heq ↦
        hs y hy (hq.trans (congrArg Slot.next heq))
      have hsame : m'.load s = m.load s := load_congr hfirst fun q hq ↦ by
        have hql : q ∉ l.map Prod.fst := fun hmem ↦ by
          obtain ⟨y, hy, heq⟩ := List.mem_map.mp hmem
          exact hqx q hq y (List.mem_cons_of_mem _ hy) heq.symm
        rw [hframe q hql, hm₁, entries_put_ne _ (hqx q hq x List.mem_cons_self)]
      exact hsame.trans hload
    · rw [List.map_cons, hfst, List.map_cons]
    · rw [List.map_cons, hsnd, List.map_cons, mapState]
    · rw [List.map_cons, List.mem_cons, not_or] at hq
      rw [hframe q hq.2, hm₁, entries_put_ne _ hq.1]

theorem Holds.traverse {f : β → Entry ι α → β × Entry ι α} {g : β → α → β × α}
    (hf : ∀ x ∈ l, ∀ b n t, m.entries x.1 = some ⟨x.2, n, t⟩ →
      f b ⟨x.2, n, t⟩ = ((g b x.2).1, ⟨(g b x.2).2, n, t⟩)) {n : ℕ} (h : m.Holds l)
    (hn : l.length < n) (b : β) :
    ∃ m' l', traverse f n m m.lhFirst b = some ((mapState g b (l.map Prod.snd)).1, m') ∧
      m'.Holds l' ∧ l'.map Prod.fst = l.map Prod.fst ∧
      l'.map Prod.snd = (mapState g b (l.map Prod.snd)).2 := by
  obtain ⟨m', l', hrun, hchain, hfst, hsnd, -, -⟩ :=
    traverse_eq hf h.chain h.nodup (outside_head _) hn b
  exact ⟨m', l', hrun, ⟨hchain, hfst ▸ h.nodup⟩, hfst, hsnd⟩

theorem mapState_map (f : α → α) (b : β) (vs : List α) :
    mapState (fun b v ↦ (b, f v)) b vs = (b, vs.map f) := by
  induction vs with
  | nil => rfl
  | cons v vs ih => rw [mapState, ih, List.map_cons]

theorem mapState_id (b : β) (vs : List α) : mapState (fun b v ↦ (b, v)) b vs = (b, vs) :=
  (mapState_map id b vs).trans (by rw [List.map_id])

omit [DecidableEq ι] in
/-- What becomes of a value when its entry is visited. -/
theorem mem_of_mapState {g : β → α → β × α} {b : β} {l' : List (ι × α)}
    (hfst : l'.map Prod.fst = l.map Prod.fst)
    (hsnd : l'.map Prod.snd = (mapState g b (l.map Prod.snd)).2) (hmem : (p, v) ∈ l) :
    ∃ b', (p, (g b' v).2) ∈ l' := by
  induction l generalizing l' b with
  | nil => cases hmem
  | cons x l ih =>
    cases l' with
    | nil => cases hfst
    | cons x' l' =>
      rw [List.map_cons, List.map_cons, mapState] at hsnd
      obtain ⟨hx', hl'⟩ := List.cons.inj hfst
      obtain ⟨hv', hvs'⟩ := List.cons.inj hsnd
      rcases List.mem_cons.mp hmem with rfl | hmem
      · have hself : (p, (g b v).2) = x' := Prod.ext hx'.symm hv'.symm
        exact ⟨b, hself ▸ List.mem_cons_self⟩
      · obtain ⟨b', hb'⟩ := ih hl' hvs' hmem
        exact ⟨b', List.mem_cons_of_mem _ hb'⟩

/-- Memory that is not in the list may be overwritten. -/
theorem Holds.put (h : m.Holds l) (hp : m.entries p = none) (e : Entry ι α) :
    (m.put p e).Holds l := by
  refine ⟨h.chain.congr rfl fun x hx ↦ entries_put_ne _ fun heq ↦ ?_, h.nodup⟩
  obtain ⟨n, t, hentry⟩ := h.chain.entry_of_mem hx
  rw [heq, hp] at hentry
  cases hentry

/-! ## Memory that is not in use -/

theorem entries_modify_none {f : Entry ι α → Entry ι α} (h : m.entries q = none) :
    (m.modify p f).entries q = none := by
  by_cases hq : q = p
  · rw [← hq, entries_modify_self, h]
    rfl
  · rw [entries_modify_ne f hq, h]

theorem entries_setPrev_none {o : Option ι} (h : m.entries q = none) :
    (m.setPrev s o).entries q = none := by
  cases o with
  | none => exact h
  | some r => exact entries_modify_none h

theorem entries_store_none {o : Option ι} (h : m.entries q = none) :
    (m.store o s).entries q = none := by
  cases s with
  | head => exact h
  | next r => exact entries_modify_none h

theorem entries_free_self : (m.free p).entries p = none := Function.update_self _ _ _

theorem entries_free_none (h : m.entries q = none) : (m.free p).entries q = none := by
  by_cases hq : q = p
  · rw [hq]
    exact entries_free_self
  · rw [entries_free_ne hq, h]

theorem entries_remove_none (h : m.entries q = none) (hremove : m.remove p = some m') :
    m'.entries q = none := by
  rw [remove] at hremove
  split at hremove
  · cases hremove
  · split at hremove
    · cases hremove
    · split_ifs at hremove
      rw [← Option.some.inj hremove]
      exact entries_store_none (entries_setPrev_none h)

theorem entries_insertHead_none (h : m.entries q = none) : (m.insertHead p).entries q = none :=
  entries_modify_none (entries_setPrev_none (entries_store_none h))

end ListMem

end Ddmz
