import Mathlib

/-!
# Searching a list cyclically, and taking turns

`cyclicFind` looks for the next element of a list that satisfies a predicate: behind a given
element first, and then from the start. It returns the first such element of `cyclicOrder`, and
from there the order goes on where it was left: `filter_cyclicOrder_next`. One search after the
other goes round and round, `searches_eq`, and finds nothing again before everything else has been
found, `searches_fair`.

So elements that each want a number of turns are served in rounds. `serve` is the queue: whoever
has had a turn goes to the back of it, or leaves it after its last turn. `rounds` is the closed
form. `serve_total` says that they are the same, `turns_rounds` that everybody has the turns it
wants, and `serve_fair` that nobody is passed over.
-/

namespace Ddmz

variable {ι : Type*}

/-! ## Cyclic search -/

section Cyclic

variable [DecidableEq ι]

/-- The elements behind `p`. -/
def following (l : List ι) (p : ι) : List ι := (l.dropWhile fun x ↦ x != p).tail

/-- The elements in front of `p`. -/
def preceding (l : List ι) (p : ι) : List ι := l.takeWhile fun x ↦ x != p

/-- The others, in cyclic order from `p` on. -/
def others (l : List ι) (p : ι) : List ι := following l p ++ preceding l p

/-- The cyclic order that starts right behind `p` and comes back to it last. -/
def cyclicOrder (l : List ι) (p : ι) : List ι := others l p ++ [p]

/-- Search behind an element first, if one is given, and then from the start. -/
def cyclicFind (P : ι → Bool) (l : List ι) : Option ι → Option ι
  | none => l.find? P
  | some p => ((following l p).find? P).or (l.find? P)

variable {P : ι → Bool} {l l₁ l₂ a b : List ι} {p q : ι}

theorem following_append (hp : p ∉ l₁) : following (l₁ ++ p :: l₂) p = l₂ := by
  have hne : ∀ x ∈ l₁, (x != p) = true := fun x hx ↦
    bne_iff_ne.mpr fun heq ↦ hp (heq ▸ hx)
  rw [following, List.dropWhile_append_of_pos hne]
  simp

theorem preceding_append (hp : p ∉ l₁) : preceding (l₁ ++ p :: l₂) p = l₁ := by
  have hne : ∀ x ∈ l₁, (x != p) = true := fun x hx ↦
    bne_iff_ne.mpr fun heq ↦ hp (heq ▸ hx)
  rw [preceding, List.takeWhile_append_of_pos hne]
  simp

theorem others_append (hp : p ∉ l₁) : others (l₁ ++ p :: l₂) p = l₂ ++ l₁ := by
  rw [others, following_append hp, preceding_append hp]

/-- **The search finds the first one in cyclic order.** -/
theorem cyclicFind_some (hp : p ∈ l) :
    cyclicFind P l (some p) = (cyclicOrder l p).find? P := by
  obtain ⟨l₁, l₂, rfl, hp₁⟩ := List.eq_append_cons_of_mem hp
  rw [cyclicFind, cyclicOrder, others_append hp₁, following_append hp₁]
  cases h₂ : l₂.find? P with
  | some q => simp [h₂]
  | none => simp [h₂, List.find?_cons]

theorem cyclicOrder_perm (hp : p ∈ l) : (cyclicOrder l p).Perm l := by
  obtain ⟨l₁, l₂, rfl, hp₁⟩ := List.eq_append_cons_of_mem hp
  rw [cyclicOrder, others_append hp₁, List.append_assoc]
  exact List.perm_append_comm.trans (by rw [List.append_assoc]; rfl)

theorem notMem_others (hnodup : l.Nodup) (hp : p ∈ l) : p ∉ others l p := by
  have hnodup' : (others l p ++ [p]).Nodup := (cyclicOrder_perm hp).nodup_iff.mpr hnodup
  exact fun hmem ↦ (List.nodup_append.mp hnodup').2.2 p hmem p List.mem_cons_self rfl

/-- The order goes on from any of its elements. -/
theorem cyclicOrder_of_split (hnodup : l.Nodup) (hp : p ∈ l)
    (h : cyclicOrder l p = a ++ q :: b) : cyclicOrder l q = b ++ a ++ [q] := by
  have hnodup' : (a ++ q :: b).Nodup := h ▸ (cyclicOrder_perm hp).nodup_iff.mpr hnodup
  obtain ⟨hqb, hqa⟩ : q ∉ b ∧ q ∉ a := by
    have hq := (List.nodup_append.mp hnodup').2.1
    exact ⟨(List.nodup_cons.mp hq).1, fun hmem ↦
      (List.nodup_append.mp hnodup').2.2 q hmem q List.mem_cons_self rfl⟩
  have hunique {c d : List ι} (heq : c ++ q :: d = a ++ q :: b) : c = a ∧ d = b := by
    have := (List.append_cons_inj_of_notMem hqa hqb).mp heq.symm
    exact ⟨this.1.symm, this.2.2.symm⟩
  obtain ⟨l₁, l₂, rfl, hp₁⟩ := List.eq_append_cons_of_mem hp
  rw [cyclicOrder, others_append hp₁] at h
  have hmem : q ∈ l₂ ++ l₁ ++ [p] := by rw [h]; exact List.mem_append_right _ List.mem_cons_self
  rw [List.mem_append, List.mem_append, List.mem_singleton] at hmem
  rcases hmem with (hq | hq) | rfl
  · -- `q` stands behind `p` in the list
    obtain ⟨c, d, rfl⟩ := List.append_of_mem hq
    obtain ⟨rfl, rfl⟩ := hunique (c := c) (d := d ++ l₁ ++ [p]) (by rw [← h]; simp)
    have hsplit : l₁ ++ p :: (c ++ q :: d) = (l₁ ++ p :: c) ++ q :: d := by simp
    have hq₁ : q ∉ l₁ ++ p :: c := by
      rw [hsplit] at hnodup
      exact fun hmem ↦ (List.nodup_append.mp hnodup).2.2 q hmem q List.mem_cons_self rfl
    rw [hsplit, cyclicOrder, others_append hq₁]
    simp
  · -- `q` stands in front of it
    obtain ⟨c, d, rfl⟩ := List.append_of_mem hq
    obtain ⟨rfl, rfl⟩ := hunique (c := l₂ ++ c) (d := d ++ [p]) (by rw [← h]; simp)
    have hsplit : (c ++ q :: d) ++ p :: l₂ = c ++ q :: (d ++ p :: l₂) := by simp
    have hq₁ : q ∉ c := fun hmem ↦ hqa (List.mem_append_right _ hmem)
    rw [hsplit, cyclicOrder, others_append hq₁]
    simp
  · -- `q` is `p`, so the whole order lies in front of it
    obtain ⟨rfl, rfl⟩ := hunique (c := l₂ ++ l₁) (d := []) h
    rw [cyclicOrder, others_append hp₁, List.nil_append]

/-- **What satisfies the predicate is found again in the same cyclic order.** -/
theorem filter_cyclicOrder_next {rest : List ι} (hnodup : l.Nodup) (hp : p ∈ l)
    (h : (cyclicOrder l p).filter P = q :: rest) :
    cyclicFind P l (some p) = some q ∧ (others l q).filter P = rest := by
  obtain ⟨a, b, hsplit, ha, hq, hb⟩ := List.filter_eq_cons_iff.mp h
  refine ⟨?_, ?_⟩
  · rw [cyclicFind_some hp, ← List.head?_filter, h]
    rfl
  · have horder := cyclicOrder_of_split hnodup hp hsplit
    rw [cyclicOrder, List.append_left_inj] at horder
    rw [horder, List.filter_append, hb, List.filter_eq_nil_iff.mpr ha, List.append_nil]

theorem cyclicFind_eq_none (hp : p ∈ l) (h : (cyclicOrder l p).filter P = []) :
    cyclicFind P l (some p) = none := by
  rw [cyclicFind_some hp, ← List.head?_filter, h]
  rfl

/-- Only what the predicate says of the list matters. -/
theorem cyclicFind_congr {Q : ι → Bool} (h : ∀ p ∈ l, P p = Q p) (o : Option ι) :
    cyclicFind P l o = cyclicFind Q l o := by
  cases o with
  | none => exact List.find?_congr h
  | some p =>
    have hbehind : (following l p).find? P = (following l p).find? Q := List.find?_congr fun q hq ↦
      h q ((List.dropWhile_sublist _).subset (List.mem_of_mem_tail hq))
    rw [cyclicFind, cyclicFind, hbehind, List.find?_congr h]

/-! ### One search after the other -/

/-- The order in which a search goes through the list. -/
def searchOrder (l : List ι) : Option ι → List ι
  | none => l
  | some p => cyclicOrder l p

/-- The results of `k` searches, each of which goes on from what the one before it has found. -/
def searches (P : ι → Bool) (l : List ι) : ℕ → Option ι → List (Option ι)
  | 0, _ => []
  | k + 1, o => cyclicFind P l o :: searches P l k (cyclicFind P l o)

variable {o : Option ι} {k : ℕ} {y z : List (Option ι)}

theorem cyclicFind_eq (ho : ∀ p ∈ o, p ∈ l) : cyclicFind P l o = (searchOrder l o).find? P := by
  cases o with
  | none => rfl
  | some p => exact cyclicFind_some (ho p rfl)

theorem searchOrder_perm (ho : ∀ p ∈ o, p ∈ l) : (searchOrder l o).Perm l := by
  cases o with
  | none => rfl
  | some p => exact cyclicOrder_perm (ho p rfl)

theorem mem_of_cyclicFind (ho : ∀ p ∈ o, p ∈ l) : ∀ p ∈ cyclicFind P l o, p ∈ l := by
  intro p hp
  rw [cyclicFind_eq ho] at hp
  exact (searchOrder_perm ho).subset (List.mem_of_find?_eq_some hp)

/-- What is found goes to the back of the order. -/
theorem filter_searchOrder_next {rest : List ι} (hnodup : l.Nodup) (ho : ∀ p ∈ o, p ∈ l)
    (h : (searchOrder l o).filter P = q :: rest) :
    cyclicFind P l o = some q ∧ (searchOrder l (some q)).filter P = rest ++ [q] := by
  have hq : q ∈ (searchOrder l o).filter P := h ▸ List.mem_cons_self
  have hP : P q = true := (List.mem_filter.mp hq).2
  have hfound : cyclicFind P l o = some q := by
    rw [cyclicFind_eq ho, ← List.head?_filter, h]
    rfl
  have hothers : (others l q).filter P = rest := by
    cases o with
    | some p => exact (filter_cyclicOrder_next hnodup (ho p rfl) h).2
    | none =>
      obtain ⟨a, b, rfl, ha, -, hb⟩ := List.filter_eq_cons_iff.mp h
      have hqa : q ∉ a := fun hmem ↦
        (List.nodup_append.mp hnodup).2.2 q hmem q List.mem_cons_self rfl
      rw [others_append hqa, List.filter_append, hb, List.filter_eq_nil_iff.mpr ha, List.append_nil]
  refine ⟨hfound, ?_⟩
  rw [searchOrder, cyclicOrder, List.filter_append, hothers, List.filter_cons_of_pos hP,
    List.filter_nil]

/-- **Searches go round and round.** -/
theorem searches_eq (hnodup : l.Nodup) (ho : ∀ p ∈ o, p ∈ l)
    (h : (searchOrder l o).filter P = a) :
    searches P l k o = (List.range k).map fun i ↦ a[i % a.length]? := by
  induction k generalizing o a with
  | zero => rfl
  | succ k ih =>
    rw [searches, List.range_succ_eq_map, List.map_cons, List.map_map]
    cases a with
    | nil =>
      have hnone : cyclicFind P l o = none := by
        rw [cyclicFind_eq ho, ← List.head?_filter, h]
        rfl
      -- a search that finds nothing starts over, and finds nothing
      have hnil : (searchOrder l none).filter P = [] :=
        List.eq_nil_of_subset_nil (h ▸ ((searchOrder_perm ho).filter P).symm.subset)
      rw [hnone, ih (fun p hp ↦ absurd hp (Option.not_mem_none p)) hnil]
      rfl
    | cons q rest =>
      obtain ⟨hfound, hnext⟩ := filter_searchOrder_next hnodup ho h
      have hmem : ∀ p ∈ some q, p ∈ l := hfound ▸ mem_of_cyclicFind ho
      have hrotate : (q :: rest).rotate 1 = rest ++ [q] := by
        rw [List.rotate_cons_succ, List.rotate_zero]
      have hlength : (rest ++ [q]).length = (q :: rest).length := by
        rw [← hrotate, List.length_rotate]
      have hpos : 0 < (q :: rest).length := Nat.succ_pos _
      rw [hfound, ih hmem hnext]
      refine congrArg₂ _ (by rw [Nat.zero_mod]; rfl) (List.map_congr_left fun i _ ↦ ?_)
      rw [hlength, ← hrotate, List.getElem?_rotate (Nat.mod_lt i hpos), Nat.mod_add_mod]
      rfl

/-- Those in front of `q` in the order are found before it is. -/
theorem subset_before_of_searches {rest : List ι} (hnodup : l.Nodup) (ho : ∀ p ∈ o, p ∈ l)
    (h : (searchOrder l o).filter P = a ++ rest) (hq : q ∉ a)
    (hsearches : searches P l k o = y ++ some q :: z) : ∀ p ∈ a, some p ∈ y := by
  induction a generalizing o k y rest with
  | nil => exact fun _ ↦ nofun
  | cons p a ih =>
    rw [List.mem_cons, not_or] at hq
    rw [List.cons_append] at h
    obtain ⟨hfound, hnext⟩ := filter_searchOrder_next hnodup ho h
    have hp : ∀ r ∈ some p, r ∈ l := hfound ▸ mem_of_cyclicFind ho
    cases k with
    | zero => exact absurd hsearches.symm (List.append_ne_nil_of_right_ne_nil _ nofun)
    | succ k =>
      rw [searches, hfound] at hsearches
      cases y with
      | nil =>
        obtain ⟨heq, -⟩ := List.cons.inj hsearches
        exact absurd (Option.some.inj heq).symm hq.1
      | cons t y =>
        obtain ⟨rfl, hrest⟩ := List.cons.inj hsearches
        rw [List.append_assoc] at hnext
        have hlater := ih hp hnext hq.2 hrest
        exact List.forall_mem_cons.mpr
          ⟨List.mem_cons_self, fun r hr ↦ List.mem_cons_of_mem _ (hlater r hr)⟩

/-- **Nothing is found again before everything else has been found.** -/
theorem searches_fair {x : List (Option ι)} (hnodup : l.Nodup) (ho : ∀ p ∈ o, p ∈ l)
    (h : searches P l k o = x ++ some q :: y ++ some q :: z) :
    ∀ p ∈ l, P p = true → some p ∈ some q :: y := by
  induction x generalizing o k with
  | nil =>
    cases k with
    | zero => cases h
    | succ k =>
      rw [searches, List.nil_append, List.cons_append] at h
      obtain ⟨hfound, hrest⟩ := List.cons.inj h
      rw [hfound] at hrest
      have hfind : (searchOrder l o).find? P = some q := (cyclicFind_eq ho).symm.trans hfound
      have hmem : ∀ p ∈ some q, p ∈ l := hfound ▸ mem_of_cyclicFind ho
      have hq : q ∈ l := hmem q rfl
      have horder : (searchOrder l (some q)).filter P = (others l q).filter P ++ [q] := by
        rw [searchOrder, cyclicOrder, List.filter_append,
          List.filter_cons_of_pos (List.find?_some hfind), List.filter_nil]
      have hothers : q ∉ (others l q).filter P := fun hmem ↦
        notMem_others hnodup hq (List.mem_of_mem_filter hmem)
      have hbefore := subset_before_of_searches hnodup hmem horder hothers hrest
      intro p hp hP
      have hpq : p ∈ others l q ++ [q] := (cyclicOrder_perm hq).symm.subset hp
      rcases List.mem_append.mp hpq with hp | hp
      · exact List.mem_cons_of_mem _ (hbefore p (List.mem_filter.mpr ⟨hp, hP⟩))
      · rw [List.mem_singleton.mp hp]
        exact List.mem_cons_self
  | cons t x ih =>
    cases k with
    | zero => cases h
    | succ k =>
      rw [searches, List.cons_append, List.cons_append] at h
      exact ih (mem_of_cyclicFind ho) (List.cons.inj h).2

end Cyclic

/-! ## Taking turns -/

section Turns

/-- Who wanted `k` turns and has had one goes to the back, or leaves after its last one. -/
def requeue (a : ι) (k : ℕ) (q : List (ι × ℕ)) : List (ι × ℕ) :=
  if k = 1 then q else q ++ [(a, k - 1)]

/-- A queue of elements with the numbers of turns they want: the first `n` turns, each with whether
it is the last one of its element. -/
def serve : ℕ → List (ι × ℕ) → List (ι × Bool)
  | 0, _ => []
  | _ + 1, [] => []
  | n + 1, (a, k) :: q => (a, k == 1) :: serve n (requeue a k q)

/-- A queue after everybody has had a turn. -/
def served (q : List (ι × ℕ)) : List (ι × ℕ) :=
  q.filterMap fun x ↦ if x.2 = 1 then none else some (x.1, x.2 - 1)

/-- A turn for everybody. -/
def round (q : List (ι × ℕ)) : List (ι × Bool) := q.map fun x ↦ (x.1, x.2 == 1)

/-- The closed form: in round `r`, those who want more than `r` turns have one, in the order of the
queue. -/
def rounds (n : ℕ) (q : List (ι × ℕ)) : List (ι × Bool) :=
  (List.range n).flatMap fun r ↦ (q.filter fun x ↦ r < x.2).map fun x ↦ (x.1, x.2 == r + 1)

/-- The number of turns that are wanted. -/
def total (q : List (ι × ℕ)) : ℕ := (q.map Prod.snd).sum

variable {n k : ℕ} {q q' : List (ι × ℕ)} {a b : ι}

theorem fst_requeue_subset : (requeue a k q).map Prod.fst ⊆ a :: q.map Prod.fst := by
  rw [requeue]
  split
  · exact List.subset_cons_self _ _
  · rw [List.map_append]
    refine List.append_subset.mpr ⟨List.subset_cons_self _ _, ?_⟩
    exact List.cons_subset.mpr ⟨List.mem_cons_self, List.nil_subset _⟩

theorem nodup_requeue (h : (a :: q.map Prod.fst).Nodup) : ((requeue a k q).map Prod.fst).Nodup := by
  rw [requeue]
  split
  · exact (List.nodup_cons.mp h).2
  · rw [List.map_append, List.map_singleton]
    exact (List.perm_append_singleton a _).nodup_iff.mpr h

theorem serve_append (xs ys : List (ι × ℕ)) (n : ℕ) :
    serve (xs.length + n) (xs ++ ys) = round xs ++ serve n (ys ++ served xs) := by
  induction xs generalizing ys with
  | nil => simp [round, served]
  | cons x xs ih =>
    obtain ⟨a, k⟩ := x
    have hlen : ((a, k) :: xs).length + n = xs.length + n + 1 := by
      rw [List.length_cons, Nat.add_right_comm]
    rw [hlen, List.cons_append, serve, round, List.map_cons, List.cons_append, ← round, requeue]
    by_cases hk : k = 1
    · rw [if_pos hk, ih, served, served, List.filterMap_cons, if_pos hk]
    · rw [if_neg hk, List.append_assoc, ih, served, served, List.filterMap_cons, if_neg hk,
        List.append_assoc, List.singleton_append]

theorem rounds_succ (hpos : ∀ x ∈ q, 0 < x.2) (n : ℕ) :
    rounds (n + 1) q = round q ++ rounds n (served q) := by
  have hfirst : q.filter (fun x ↦ decide (0 < x.2)) = q :=
    List.filter_eq_self.mpr fun x hx ↦ decide_eq_true (hpos x hx)
  have hlater (r : ℕ) : (q.filter fun x ↦ decide (r + 1 < x.2)).map
      (fun x ↦ (x.1, x.2 == r + 1 + 1))
        = ((served q).filter fun x ↦ decide (r < x.2)).map fun x ↦ (x.1, x.2 == r + 1) := by
    rw [served, List.filter_filterMap, List.map_filterMap, ← List.filterMap_eq_map,
      List.filterMap_filter]
    refine List.filterMap_congr fun x _ ↦ ?_
    by_cases hr : r + 1 < x.2
    · have hx : x.2 ≠ 1 := by omega
      have hr' : r < x.2 - 1 := by omega
      have hlast : (x.2 == r + 1 + 1) = (x.2 - 1 == r + 1) := by
        rw [Bool.eq_iff_iff, beq_iff_eq, beq_iff_eq]
        omega
      simp [hr, hx, hr', hlast]
    · by_cases hx : x.2 = 1
      · simp [hx]
      · simpa [hr, hx] using Nat.not_lt.mp hr
  rw [rounds, List.range_succ_eq_map, List.flatMap_cons, hfirst, round, rounds, List.flatMap_map]
  refine congrArg₂ _ rfl (List.flatMap_congr fun r _ ↦ ?_)
  exact hlater r

theorem total_eq (hpos : ∀ x ∈ q, 0 < x.2) : total q = q.length + total (served q) := by
  induction q with
  | nil => rfl
  | cons x q ih =>
    have hx := hpos x List.mem_cons_self
    have hq := ih fun y hy ↦ hpos y (List.mem_cons_of_mem _ hy)
    have htotal : total (x :: q) = x.2 + total q := rfl
    by_cases hlast : x.2 = 1
    · have hserved : served (x :: q) = served q := by
        rw [served, List.filterMap_cons, if_pos hlast, served]
      rw [htotal, hserved, hq, hlast, List.length_cons]
      omega
    · have hserved : served (x :: q) = (x.1, x.2 - 1) :: served q := by
        rw [served, List.filterMap_cons, if_neg hlast, served]
      have htotal' : total ((x.1, x.2 - 1) :: served q) = x.2 - 1 + total (served q) := rfl
      rw [htotal, hserved, htotal', hq, List.length_cons]
      omega

theorem served_pos (hpos : ∀ x ∈ q, 0 < x.2) : ∀ x ∈ served q, 0 < x.2 := by
  intro x hx
  obtain ⟨y, hy, heq⟩ := List.mem_filterMap.mp hx
  have := hpos y hy
  split at heq
  · cases heq
  · cases heq
    dsimp only
    omega

theorem served_le (hle : ∀ x ∈ q, x.2 ≤ n + 1) : ∀ x ∈ served q, x.2 ≤ n := by
  intro x hx
  obtain ⟨y, hy, heq⟩ := List.mem_filterMap.mp hx
  have := hle y hy
  split at heq
  · cases heq
  · cases heq
    dsimp only
    omega

/-- **The queue is served in rounds.** -/
theorem serve_total (hpos : ∀ x ∈ q, 0 < x.2) (hle : ∀ x ∈ q, x.2 ≤ n) :
    serve (total q) q = rounds n q := by
  induction n generalizing q with
  | zero =>
    have hq : q = [] := List.eq_nil_iff_forall_not_mem.mpr fun x hx ↦
      absurd (hpos x hx) (Nat.not_lt.mpr (hle x hx))
    rw [hq]
    rfl
  | succ n ih =>
    have happend := serve_append q [] (total (served q))
    rw [List.append_nil, List.nil_append] at happend
    rw [total_eq hpos, happend, rounds_succ hpos, ih (served_pos hpos) (served_le hle)]

theorem fst_requeue :
    (requeue a k q).map Prod.fst = q.map Prod.fst ++ if k = 1 then [] else [a] := by
  rw [requeue]
  split
  · rw [List.append_nil]
  · rw [List.map_append, List.map_singleton]

theorem total_cons (hk : 0 < k) : total ((a, k) :: q) = total (requeue a k q) + 1 := by
  have htotal : total ((a, k) :: q) = k + total q := rfl
  rw [htotal, requeue]
  split
  · next hone => rw [hone, Nat.add_comm]
  · have hlater : total (q ++ [(a, k - 1)]) = total q + (k - 1) := by
      rw [total, List.map_append, List.sum_append]
      rfl
    rw [hlater]
    omega

/-- The first one has its turn, and the others follow. -/
theorem serve_total_cons (hk : 0 < k) : serve (total ((a, k) :: q)) ((a, k) :: q) =
    (a, k == 1) :: serve (total (requeue a k q)) (requeue a k q) := by
  rw [total_cons hk, serve]

/-! ### Fairness -/

theorem fst_serve_subset : (serve n q).map Prod.fst ⊆ q.map Prod.fst := by
  induction n generalizing q with
  | zero => exact List.nil_subset _
  | succ n ih =>
    cases q with
    | nil => exact List.nil_subset _
    | cons x q =>
      refine List.cons_subset.mpr ⟨List.mem_cons_self, fun b hb ↦ ?_⟩
      exact fst_requeue_subset (ih hb)

/-- Those in front of `a` have a turn before it has. -/
theorem fst_subset_before {y z : List (ι × Bool)} {e : Bool} (ha : a ∉ q.map Prod.fst)
    (h : serve n (q ++ q') = y ++ (a, e) :: z) : q.map Prod.fst ⊆ y.map Prod.fst := by
  induction q generalizing n q' y with
  | nil => exact List.nil_subset _
  | cons x q ih =>
    rw [List.map_cons, List.mem_cons, not_or] at ha
    cases n with
    | zero => exact absurd h.symm (List.append_ne_nil_of_right_ne_nil _ (List.cons_ne_nil _ _))
    | succ n =>
      rw [List.cons_append, serve] at h
      cases y with
      | nil =>
        rw [List.nil_append, List.cons.injEq] at h
        exact absurd (congrArg Prod.fst h.1).symm ha.1
      | cons t y =>
        rw [List.cons_append, List.cons.injEq] at h
        -- whoever is served goes behind `q'`, and the rest of `q` moves up
        have hrest : ∃ q'', requeue x.1 x.2 (q ++ q') = q ++ q'' := by
          rw [requeue]
          split
          · exact ⟨q', rfl⟩
          · exact ⟨_, List.append_assoc _ _ _⟩
        obtain ⟨q'', hq''⟩ := hrest
        rw [hq''] at h
        rw [List.map_cons, List.map_cons, ← h.1]
        exact List.cons_subset_cons _ (ih ha.2 h.2)

/-- **Nobody is passed over**: between two turns of `a`, everybody has one who has one later. -/
theorem serve_fair {x y z : List (ι × Bool)} {e : Bool} (hnodup : (q.map Prod.fst).Nodup)
    (h : serve n q = x ++ (a, false) :: y ++ (a, e) :: z) (hne : b ≠ a)
    (hb : b ∈ z.map Prod.fst) : b ∈ y.map Prod.fst := by
  induction x generalizing n q with
  | nil =>
    obtain - | n := n
    · cases h
    obtain - | ⟨⟨c, k⟩, q⟩ := q
    · cases h
    rw [serve, List.nil_append, List.cons_append, List.cons.injEq, Prod.mk.injEq] at h
    obtain ⟨⟨rfl, hk⟩, hrest⟩ := h
    rw [requeue, if_neg (beq_eq_false_iff_ne.mp hk)] at hrest
    -- `c` has gone to the back of the queue, behind everybody who has a turn later
    refine fst_subset_before (List.nodup_cons.mp hnodup).1 hrest ?_
    have hmem : b ∈ (serve n (q ++ [(c, k - 1)])).map Prod.fst := by
      rw [hrest, List.map_append, List.map_cons]
      exact List.mem_append_right _ (List.mem_cons_of_mem _ hb)
    have := fst_serve_subset hmem
    rw [List.map_append, List.mem_append] at this
    exact this.resolve_right fun hc ↦ hne (List.mem_singleton.mp hc)
  | cons t x ih =>
    obtain - | n := n
    · cases h
    obtain - | ⟨⟨c, k⟩, q⟩ := q
    · cases h
    rw [serve, List.cons_append, List.cons_append, List.cons.injEq] at h
    exact ih (nodup_requeue hnodup) h.2

theorem filter_rounds [DecidableEq ι] (n : ℕ) (q : List (ι × ℕ)) (a : ι) :
    (rounds n q).filter (fun t ↦ t.1 = a) = rounds n (q.filter fun x ↦ x.1 = a) := by
  rw [rounds, List.filter_flatMap, rounds]
  refine List.flatMap_congr fun r _ ↦ ?_
  rw [List.filter_map, List.filter_filter, List.filter_filter]
  refine congrArg _ (List.filter_congr fun x _ ↦ ?_)
  exact Bool.and_comm _ _

theorem filter_fst [DecidableEq ι] (hnodup : (q.map Prod.fst).Nodup) (ha : (a, k) ∈ q) :
    q.filter (fun x ↦ x.1 = a) = [(a, k)] := by
  obtain ⟨q₁, q₂, rfl⟩ := List.append_of_mem ha
  rw [List.map_append, List.map_cons, List.nodup_append, List.nodup_cons] at hnodup
  obtain ⟨-, ⟨ha₂, -⟩, hdisjoint⟩ := hnodup
  have h₁ : q₁.filter (fun x ↦ x.1 = a) = [] := List.filter_eq_nil_iff.mpr fun x hx heq ↦
    hdisjoint _ (List.mem_map_of_mem hx) a List.mem_cons_self (of_decide_eq_true heq)
  have h₂ : q₂.filter (fun x ↦ x.1 = a) = [] := List.filter_eq_nil_iff.mpr fun x hx heq ↦
    ha₂ (List.mem_map.mpr ⟨x, hx, of_decide_eq_true heq⟩)
  rw [List.filter_append, h₁, List.nil_append, List.filter_cons, if_pos (decide_eq_true rfl), h₂]

theorem serve_alone (a : ι) (k : ℕ) :
    serve (k + 1) [(a, k + 1)] = List.replicate k (a, false) ++ [(a, true)] := by
  induction k with
  | zero => rfl
  | succ k ih =>
    rw [serve, requeue, if_neg (Nat.succ_succ_ne_one k), List.nil_append, Nat.add_sub_cancel, ih,
      List.replicate_succ, List.cons_append]
    rfl

/-- **Everybody has as many turns as it wants**, the last of which is marked. -/
theorem turns_rounds [DecidableEq ι] (hpos : ∀ x ∈ q, 0 < x.2) (hle : ∀ x ∈ q, x.2 ≤ n)
    (hnodup : (q.map Prod.fst).Nodup) (ha : (a, k) ∈ q) :
    (rounds n q).filter (fun t ↦ t.1 = a) = List.replicate (k - 1) (a, false) ++ [(a, true)] := by
  obtain ⟨k, rfl⟩ := Nat.exists_eq_add_of_lt (hpos _ ha)
  have halone : serve (total [(a, 0 + k + 1)]) [(a, 0 + k + 1)] = rounds n [(a, 0 + k + 1)] := by
    refine serve_total (fun x hx ↦ ?_) fun x hx ↦ ?_
    · exact hpos x (List.mem_singleton.mp hx ▸ ha)
    · exact hle x (List.mem_singleton.mp hx ▸ ha)
  rw [filter_rounds, filter_fst hnodup ha, ← halone, Nat.zero_add]
  exact serve_alone a k

end Turns

end Ddmz
