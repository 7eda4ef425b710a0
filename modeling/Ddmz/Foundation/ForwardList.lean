import Ddmz.Foundation.LinkedList

/-!
# Singly linked lists

A node holds a value and the address of the next node; the head of a list is a link of its own.
`Holds` says which nodes, by their addresses, are found from the head on.

Programs walk over such a list in two ways: `scan` looks at a node before it goes on, `scanBehind`
goes on first, and so looks behind the node it is given. They end because the addresses of a list
that ends are all different, `Leads.nodup`. `insertLast` and `remove` walk over the links to nodes,
and reduce to operations on the list of addresses.
-/

namespace Ddmz

/-- A node. -/
structure Link (ι α : Type*) where
  next : Option ι
  val : α

/-- The link to the first node, and the live nodes by their addresses. -/
structure ForwardList (ι α : Type*) where
  first : Option ι
  nodes : ι → Option (Link ι α)

namespace ForwardList

variable {ι α : Type*}

/-! ## The list in memory -/

/-- The nodes from a pointer on, up to a null pointer. -/
def Leads (m : ForwardList ι α) : Option ι → List ι → Prop
  | o, [] => o = none
  | o, p :: l => o = some p ∧ ∃ x, m.nodes p = some x ∧ m.Leads x.next l

/-- The memory holds the list `l`. -/
def Holds (m : ForwardList ι α) (l : List ι) : Prop := m.Leads m.first l

variable {m m' : ForwardList ι α} {o : Option ι} {l l' l₁ l₂ : List ι} {p q : ι} {n : ℕ}

theorem Leads.unique (h : m.Leads o l) (h' : m.Leads o l') : l = l' := by
  induction l generalizing o l' with
  | nil =>
    cases l' with
    | nil => rfl
    | cons p' l' => exact absurd (h.symm.trans h'.1) nofun
  | cons p l ih =>
    obtain ⟨rfl, x, hx, hl⟩ := h
    cases l' with
    | nil => exact absurd h' nofun
    | cons p' l' =>
      obtain ⟨hp, x', hx', hl'⟩ := h'
      obtain rfl := Option.some.inj hp
      obtain rfl := Option.some.inj (hx.symm.trans hx')
      rw [ih hl hl']

/-- Every node of a list is the start of what follows. -/
theorem Leads.tail (h : m.Leads o (l₁ ++ p :: l₂)) : m.Leads (some p) (p :: l₂) := by
  induction l₁ generalizing o with
  | nil =>
    obtain ⟨-, hl⟩ := h
    exact ⟨rfl, hl⟩
  | cons q l₁ ih =>
    obtain ⟨-, x, -, hl⟩ := h
    exact ih hl

/-- **A list that ends has no node twice**, or it would lead back to it again and again. -/
theorem Leads.nodup (h : m.Leads o l) : l.Nodup := by
  induction l generalizing o with
  | nil => exact List.nodup_nil
  | cons p l ih =>
    obtain ⟨rfl, x, hx, hl⟩ := h
    refine List.nodup_cons.mpr ⟨fun hp ↦ ?_, ih hl⟩
    obtain ⟨l₁, l₂, rfl⟩ := List.append_of_mem hp
    have hshort : m.Leads (some p) (p :: l₂) := hl.tail
    have hlong : m.Leads (some p) (p :: (l₁ ++ p :: l₂)) := ⟨rfl, x, hx, hl⟩
    have hlength := congrArg List.length (hshort.unique hlong)
    rw [List.length_cons, List.length_cons, List.length_append, List.length_cons] at hlength
    omega

/-- Only the nodes of the list matter. -/
theorem Leads.congr (h : m.Leads o l) (hnodes : ∀ p ∈ l, m'.nodes p = m.nodes p) :
    m'.Leads o l := by
  induction l generalizing o with
  | nil => exact h
  | cons p l ih =>
    obtain ⟨rfl, x, hx, hl⟩ := h
    have hx' : m'.nodes p = some x := (hnodes p List.mem_cons_self).trans hx
    exact ⟨rfl, x, hx', ih hl fun q hq ↦ hnodes q (List.mem_cons_of_mem _ hq)⟩

/-! ## Searching -/

section Search

/-- The first node from `it` on that passes the test, as a loop looks for it: no result if the fuel
runs out, the test fails to give one, or a node is not live, and otherwise the node or a null
pointer. -/
def scan (m : ForwardList ι α) (test : ι → Option Bool) : ℕ → Option ι → Option (Option ι)
  | 0, _ => none
  | _ + 1, none => some none
  | n + 1, some p =>
    (test p).bind fun found ↦
      if found then some (some p) else (m.nodes p).bind fun x ↦ scan m test n x.next

/-- The same for a loop that goes on before it tests. -/
def scanBehind (m : ForwardList ι α) (test : ι → Option Bool) : ℕ → Option ι → Option (Option ι)
  | 0, _ => none
  | _ + 1, none => some none
  | n + 1, some p =>
    (m.nodes p).bind fun x ↦
      match x.next with
      | none => scanBehind m test n none
      | some q =>
        (test q).bind fun found ↦
          if found then some (some q) else scanBehind m test n (some q)

variable {test : ι → Option Bool} {P : ι → Bool}

theorem scan_eq (h : m.Leads o l) (htest : ∀ p ∈ l, test p = some (P p)) (hn : l.length < n) :
    m.scan test n o = some (l.find? P) := by
  induction l generalizing o n with
  | nil =>
    obtain ⟨n, rfl⟩ := Nat.exists_eq_succ_of_ne_zero (Nat.ne_zero_of_lt hn)
    rw [show o = none from h]
    rfl
  | cons p l ih =>
    obtain ⟨n, rfl⟩ := Nat.exists_eq_succ_of_ne_zero (Nat.ne_zero_of_lt hn)
    obtain ⟨rfl, x, hx, hl⟩ := h
    rw [scan, htest p List.mem_cons_self, Option.bind_some]
    by_cases hP : P p = true
    · rw [if_pos hP, List.find?_cons_of_pos hP]
    · rw [if_neg hP, List.find?_cons_of_neg hP, hx, Option.bind_some]
      exact ih hl (fun q hq ↦ htest q (List.mem_cons_of_mem _ hq)) (Nat.lt_of_succ_lt_succ hn)

theorem scanBehind_eq (h : m.Leads (some p) (p :: l)) (htest : ∀ q ∈ l, test q = some (P q))
    (hn : (p :: l).length < n) : m.scanBehind test n (some p) = some (l.find? P) := by
  induction l generalizing p n with
  | nil =>
    obtain ⟨n, rfl⟩ := Nat.exists_eq_add_of_lt hn
    obtain ⟨-, x, hx, hnext⟩ := h
    rw [Leads] at hnext
    rw [List.length_singleton, Nat.add_comm 1 n, scanBehind, hx, Option.bind_some, hnext]
    rfl
  | cons q l ih =>
    obtain ⟨n, rfl⟩ := Nat.exists_eq_succ_of_ne_zero (Nat.ne_zero_of_lt hn)
    obtain ⟨-, x, hx, hnext, hl⟩ := h
    rw [scanBehind, hx, Option.bind_some, hnext]
    dsimp only
    rw [htest q List.mem_cons_self, Option.bind_some]
    by_cases hP : P q = true
    · rw [if_pos hP, List.find?_cons_of_pos hP]
    · rw [if_neg hP, List.find?_cons_of_neg hP]
      exact ih ⟨rfl, hl⟩ (fun r hr ↦ htest r (List.mem_cons_of_mem _ hr))
        (Nat.lt_of_succ_lt_succ hn)

end Search

/-! ## Walking over the links -/

section Links

variable {s t : Slot ι}

/-- The contents of a link, if it is live. -/
def load (m : ForwardList ι α) : Slot ι → Option (Option ι)
  | .head => some m.first
  | .next p => (m.nodes p).map Link.next

/-- The null link at the end, as a loop looks for it from the link `s` on. -/
def lastLink (m : ForwardList ι α) : ℕ → Slot ι → Option (Slot ι)
  | 0, _ => none
  | n + 1, s =>
    (m.load s).bind fun o ↦
      match o with
      | none => some s
      | some p => lastLink m n (.next p)

/-- The link behind the nodes of `l`. -/
def endLink : Slot ι → List ι → Slot ι
  | s, [] => s
  | _, p :: l => endLink (.next p) l

/-- The link is in none of these nodes. -/
def Outside (s : Slot ι) (l : List ι) : Prop := ∀ p ∈ l, s ≠ .next p

theorem outside_head (l : List ι) : Outside .head l := fun _ _ ↦ nofun

theorem outside_cons : Outside s (p :: l) ↔ s ≠ .next p ∧ Outside s l := List.forall_mem_cons

theorem outside_next (hp : p ∉ l) : Outside (.next p) l := fun _ hq heq ↦
  hp (Slot.next.inj heq ▸ hq)

theorem ne_endLink (hs : t ≠ s) (hl : Outside t l) : t ≠ endLink s l := by
  induction l generalizing s with
  | nil => exact hs
  | cons p l ih =>
    obtain ⟨hp, hl⟩ := outside_cons.mp hl
    exact ih hp hl

theorem load_head : m.load .head = some m.first := rfl

theorem load_next {x : Link ι α} (h : m.nodes p = some x) : m.load (.next p) = some x.next := by
  rw [load, h, Option.map_some]

/-- What a link leads to is what the node with the link leads to, without the node. -/
theorem leads_cons (hload : m.load (.next p) = some o) (h : m.Leads o l) :
    m.Leads (some p) (p :: l) := by
  obtain ⟨x, hx, rfl⟩ := Option.map_eq_some_iff.mp hload
  exact ⟨rfl, x, hx, h⟩

theorem lastLink_eq (hs : m.load s = some o) (h : m.Leads o l) (hn : l.length < n) :
    m.lastLink n s = some (endLink s l) := by
  induction l generalizing s o n with
  | nil =>
    obtain ⟨n, rfl⟩ := Nat.exists_eq_succ_of_ne_zero (Nat.ne_zero_of_lt hn)
    rw [show o = none from h] at hs
    rw [lastLink, hs]
    rfl
  | cons p l ih =>
    obtain ⟨n, rfl⟩ := Nat.exists_eq_succ_of_ne_zero (Nat.ne_zero_of_lt hn)
    obtain ⟨rfl, x, hx, hl⟩ := h
    rw [lastLink, hs]
    exact ih (load_next hx) hl (Nat.lt_of_succ_lt_succ hn)

end Links

/-! ## Changing the list -/

section Changes

variable [DecidableEq ι] {s t : Slot ι} {v : α}

/-- Write a link. -/
def store (m : ForwardList ι α) (o : Option ι) : Slot ι → ForwardList ι α
  | .head => { m with first := o }
  | .next p =>
    { m with nodes := Function.update m.nodes p ((m.nodes p).map fun x ↦ { x with next := o }) }

def put (m : ForwardList ι α) (p : ι) (x : Link ι α) : ForwardList ι α :=
  { m with nodes := Function.update m.nodes p (some x) }

def free (m : ForwardList ι α) (p : ι) : ForwardList ι α :=
  { m with nodes := Function.update m.nodes p none }

/-- Link a new node to the end of the list. -/
def insertLast (m : ForwardList ι α) (n : ℕ) (p : ι) (v : α) : Option (ForwardList ι α) :=
  ((m.put p ⟨none, v⟩).lastLink n .head).map fun s ↦ (m.put p ⟨none, v⟩).store (some p) s

/-- Unlink and free the node `q`, which a loop looks for from the link `s` on, and whether it has
been found. -/
def remove (m : ForwardList ι α) (q : ι) : ℕ → Slot ι → Option (Bool × ForwardList ι α)
  | 0, _ => none
  | n + 1, s =>
    (m.load s).bind fun o ↦
      match o with
      | none => some (false, m)
      | some p =>
        if p = q then (m.nodes p).map fun x ↦ (true, (m.store x.next s).free p)
        else remove m q n (.next p)

theorem nodes_store_self : (m.store o (.next p)).nodes p =
    (m.nodes p).map fun x ↦ { x with next := o } := Function.update_self _ _ _

theorem nodes_store_ne (h : s ≠ .next q) : (m.store o s).nodes q = m.nodes q := by
  cases s with
  | head => rfl
  | next p => exact Function.update_of_ne (fun heq ↦ h (congrArg Slot.next heq.symm)) _ _

theorem nodes_put_self (x : Link ι α) : (m.put p x).nodes p = some x := Function.update_self _ _ _

theorem nodes_put_ne (x : Link ι α) (h : q ≠ p) : (m.put p x).nodes q = m.nodes q :=
  Function.update_of_ne h _ _

theorem nodes_free_ne (h : q ≠ p) : (m.free p).nodes q = m.nodes q := Function.update_of_ne h _ _

theorem load_store_self {o' : Option ι} (h : m.load s = some o') :
    (m.store o s).load s = some o := by
  cases s with
  | head => rfl
  | next p =>
    obtain ⟨x, hx, -⟩ := Option.map_eq_some_iff.mp h
    rw [load, nodes_store_self, hx]
    rfl

theorem load_store_ne (h : t ≠ s) : (m.store o s).load t = m.load t := by
  cases t with
  | head =>
    cases s with
    | head => exact absurd rfl h
    | next p => rfl
  | next q => rw [load, load, nodes_store_ne h.symm]

theorem load_free_ne (h : t ≠ .next p) : (m.free p).load t = m.load t := by
  cases t with
  | head => rfl
  | next q => rw [load, load, nodes_free_ne fun heq ↦ h (congrArg Slot.next heq)]

/-- Links do not matter to the values. -/
theorem val_store : ((m.store o s).nodes q).map Link.val = (m.nodes q).map Link.val := by
  by_cases hs : s = .next q
  · rw [hs, nodes_store_self, Option.map_map]
    rfl
  · rw [nodes_store_ne hs]

/-! ### A new last node -/

theorem leads_append_store (hs : m.load s = some o) (h : m.Leads o l) (hout : Outside s l)
    (hq : m.load (.next q) = some none) (hsq : s ≠ .next q) (hql : q ∉ l) :
    ∃ o', (m.store (some q) (endLink s l)).load s = some o' ∧
      (m.store (some q) (endLink s l)).Leads o' (l ++ [q]) := by
  induction l generalizing s o with
  | nil =>
    have hnext : (m.store (some q) s).load (.next q) = some none :=
      (load_store_ne hsq.symm).trans hq
    exact ⟨some q, load_store_self hs, leads_cons hnext rfl⟩
  | cons p l ih =>
    have hp : p ∉ l := (List.nodup_cons.mp h.nodup).1
    obtain ⟨rfl, x, hx, hl⟩ := h
    obtain ⟨hsp, hsl⟩ := outside_cons.mp hout
    rw [List.mem_cons, not_or] at hql
    obtain ⟨o', hload, hleads⟩ := ih (load_next hx) hl (outside_next hp)
      (fun heq ↦ hql.1 (Slot.next.inj heq).symm) hql.2
    exact ⟨some p, (load_store_ne (ne_endLink hsp hsl)).trans hs, leads_cons hload hleads⟩

/-- **A new node is put behind the others**, whose values are as before. -/
theorem Holds.insertLast (h : m.Holds l) (hp : p ∉ l) (hn : l.length < n) :
    ∃ m', m.insertLast n p v = some m' ∧ m'.Holds (l ++ [p]) ∧
      (m'.nodes p).map Link.val = some v ∧
      ∀ q ≠ p, (m'.nodes q).map Link.val = (m.nodes q).map Link.val := by
  have hput : (m.put p ⟨none, v⟩).Holds l := Leads.congr h fun q hq ↦
    nodes_put_ne _ fun heq ↦ hp (heq ▸ hq)
  have hlast : (m.put p ⟨none, v⟩).lastLink n .head = some (endLink .head l) :=
    lastLink_eq load_head hput hn
  have hnull : (m.put p ⟨none, v⟩).load (.next p) = some none := load_next (nodes_put_self _)
  obtain ⟨o', hload, hleads⟩ := leads_append_store load_head hput (outside_head l) hnull nofun hp
  obtain rfl := Option.some.inj hload
  refine ⟨_, by rw [ForwardList.insertLast, hlast, Option.map_some], hleads, ?_, fun q hq ↦ ?_⟩
  · rw [val_store, nodes_put_self, Option.map_some]
  · rw [val_store, nodes_put_ne _ hq]

/-! ### A node less -/

theorem remove_eq (hs : m.load s = some o) (h : m.Leads o (l₁ ++ q :: l₂)) (hq : q ∉ l₁)
    (hn : (l₁ ++ q :: l₂).length < n) : ∃ x, m.nodes q = some x ∧
      m.remove q n s = some (true, (m.store x.next (endLink s l₁)).free q) := by
  induction l₁ generalizing s o n with
  | nil =>
    obtain ⟨n, rfl⟩ := Nat.exists_eq_succ_of_ne_zero (Nat.ne_zero_of_lt hn)
    obtain ⟨rfl, x, hx, -⟩ := h
    refine ⟨x, hx, ?_⟩
    rw [remove, hs, Option.bind_some]
    dsimp only
    rw [if_pos rfl, hx]
    rfl
  | cons p l₁ ih =>
    obtain ⟨n, rfl⟩ := Nat.exists_eq_succ_of_ne_zero (Nat.ne_zero_of_lt hn)
    obtain ⟨rfl, y, hy, hl⟩ := h
    rw [List.mem_cons, not_or] at hq
    obtain ⟨x, hx, hremove⟩ := ih (load_next hy) hl hq.2 (Nat.lt_of_succ_lt_succ hn)
    refine ⟨x, hx, ?_⟩
    rw [remove, hs, Option.bind_some]
    dsimp only
    rw [if_neg fun heq ↦ hq.1 heq.symm, hremove, endLink]

theorem remove_eq_of_notMem (hs : m.load s = some o) (h : m.Leads o l) (hq : q ∉ l)
    (hn : l.length < n) : m.remove q n s = some (false, m) := by
  induction l generalizing s o n with
  | nil =>
    obtain ⟨n, rfl⟩ := Nat.exists_eq_succ_of_ne_zero (Nat.ne_zero_of_lt hn)
    rw [show o = none from h] at hs
    rw [remove, hs]
    rfl
  | cons p l ih =>
    obtain ⟨n, rfl⟩ := Nat.exists_eq_succ_of_ne_zero (Nat.ne_zero_of_lt hn)
    obtain ⟨rfl, x, hx, hl⟩ := h
    rw [List.mem_cons, not_or] at hq
    rw [remove, hs, Option.bind_some]
    dsimp only
    rw [if_neg fun heq ↦ hq.1 heq.symm]
    exact ih (load_next hx) hl hq.2 (Nat.lt_of_succ_lt_succ hn)

/-- What follows a node that is unlinked follows the link to it. -/
theorem leads_unlink {x : Link ι α} (hx : m.nodes q = some x) (hs : m.load s = some o)
    (h : m.Leads o (l₁ ++ q :: l₂)) (hout : Outside s (l₁ ++ q :: l₂)) :
    ∃ o', ((m.store x.next (endLink s l₁)).free q).load s = some o' ∧
      ((m.store x.next (endLink s l₁)).free q).Leads o' (l₁ ++ l₂) := by
  have hsq : s ≠ .next q := hout q (List.mem_append_right _ List.mem_cons_self)
  induction l₁ generalizing s o with
  | nil =>
    have hq₂ : q ∉ l₂ := (List.nodup_cons.mp h.nodup).1
    obtain ⟨rfl, y, hy, hl⟩ := h
    obtain rfl := Option.some.inj (hx.symm.trans hy)
    refine ⟨x.next, (load_free_ne hsq).trans (load_store_self hs), hl.congr fun p hp ↦ ?_⟩
    have hpq : p ≠ q := fun heq ↦ hq₂ (heq ▸ hp)
    rw [nodes_free_ne hpq]
    exact nodes_store_ne (hout p (List.mem_cons_of_mem _ hp))
  | cons p l₁ ih =>
    rw [List.cons_append] at h hout
    have hp : p ∉ l₁ ++ q :: l₂ := (List.nodup_cons.mp h.nodup).1
    obtain ⟨rfl, y, hy, hl⟩ := h
    obtain ⟨hsp, hsl⟩ := outside_cons.mp hout
    have hpl : Outside (.next p) (l₁ ++ q :: l₂) := outside_next hp
    have hpq : Slot.next p ≠ .next q := hpl q (List.mem_append_right _ List.mem_cons_self)
    obtain ⟨o', hload, hleads⟩ := ih (load_next hy) hl hpl hpq
    have hsl₁ : Outside s l₁ := fun r hr ↦ hsl r (List.mem_append_left _ hr)
    refine ⟨some p, ?_, leads_cons hload hleads⟩
    exact (load_free_ne hsq).trans ((load_store_ne (ne_endLink hsp hsl₁)).trans hs)

/-- **A node of the list is removed**, and the others stay in order with their values. -/
theorem Holds.remove (h : m.Holds l) (hq : q ∈ l) (hn : l.length < n) :
    ∃ m', m.remove q n .head = some (true, m') ∧ m'.Holds (l.erase q) ∧
      ∀ p ≠ q, (m'.nodes p).map Link.val = (m.nodes p).map Link.val := by
  obtain ⟨l₁, l₂, rfl, hq₁⟩ := List.eq_append_cons_of_mem hq
  obtain ⟨x, hx, hremove⟩ := remove_eq load_head h hq₁ hn
  obtain ⟨o', hload, hleads⟩ := leads_unlink hx load_head h (outside_head _)
  obtain rfl := Option.some.inj hload
  refine ⟨_, hremove, ?_, fun p hp ↦ ?_⟩
  · rw [List.erase_append_right _ hq₁, List.erase_cons_head]
    exact hleads
  · rw [nodes_free_ne hp, val_store]

end Changes

end ForwardList

end Ddmz
