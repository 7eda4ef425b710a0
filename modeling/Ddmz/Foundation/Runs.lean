import Mathlib

/-!
# Runs of a system

A system takes steps, each with a label that says what happens in it; a step that is not possible
in a state has no result. `Run step ok s as t` is a run from `s` to `t` with the labels `as`, every
step of which meets the condition `ok` on the state before it.

An invariant need only be preserved by the steps that meet the condition: `Run.invariant`. A
measure that these steps lower bounds the length of the run: `Run.length_add_le`. Where the
condition on a step is exactly what the next state needs, a run meets it if and only if all its
states are as they should be: `Run.always_iff`.

What is to be so of every step, and not only of the states between them, is `Throughout` the run:
`AnyRun.always_and_throughout_iff`.

Where a part of the state is changed by some of the steps only, and these look at nothing else of
the state, what becomes of the part in a run is a fold over their labels, whatever falls between
them: `Run.view_eq_foldl`.

A system may also be stuck. Where a label is in part an answer of the environment, and `ok` says of
the rest of it whether the step is possible whatever the answer is, the system gets through a list
of labels with all answers if and only if it meets `ok` with all of them:
`forall_exists_anyRun_iff`.

Some of the steps are those of one party, and the others fall between them in any order.
`LeadsTo` says that the party comes to its goal by its own steps: there are only so many of them on
the way, and the next one is always possible. `leadsTo_of_measure` is the rule for it.
-/

namespace Ddmz

section Runs

variable {σ α : Type*}

/-- A run whose steps all meet `ok`. -/
inductive Run (step : σ → α → Option σ) (ok : σ → α → Prop) : σ → List α → σ → Prop
  | nil (s : σ) : Run step ok s [] s
  | cons {s t u : σ} {a : α} {as : List α} (meets : ok s a) (steps : step s a = some t)
      (rest : Run step ok t as u) : Run step ok s (a :: as) u

/-- A run without a condition. -/
abbrev AnyRun (step : σ → α → Option σ) : σ → List α → σ → Prop := Run step fun _ _ ↦ True

variable {step : σ → α → Option σ} {ok : σ → α → Prop} {s t : σ} {as : List α}

theorem Run.append {u : σ} {bs : List α} (h : Run step ok s as t) (h' : Run step ok t bs u) :
    Run step ok s (as ++ bs) u := by
  induction h with
  | nil s => exact h'
  | cons meets steps _ ih => exact .cons meets steps (ih h')

/-- A run that has been computed, and its condition checked on the way. -/
theorem run_of_foldlM [∀ s a, Decidable (ok s a)]
    (h : as.foldlM (fun s a ↦ if ok s a then step s a else none) s = some t) :
    Run step ok s as t := by
  induction as generalizing s with
  | nil =>
    obtain rfl := Option.some.inj h
    exact .nil s
  | cons a as ih =>
    rw [List.foldlM_cons] at h
    obtain ⟨u, hu, hrest⟩ := Option.bind_eq_some_iff.mp h
    obtain ⟨hok, hstep⟩ := Option.ite_none_right_eq_some.mp hu
    exact .cons hok hstep (ih hrest)

theorem anyRun_of_foldlM (h : as.foldlM step s = some t) : AnyRun step s as t :=
  run_of_foldlM (by simpa only [if_true] using h)

/-- **The invariant rule.** -/
theorem Run.invariant {I : σ → Prop}
    (hpres : ∀ s a t, I s → ok s a → step s a = some t → I t) (h : Run step ok s as t)
    (h0 : I s) : I t := by
  induction h with
  | nil s => exact h0
  | cons meets steps _ ih => exact ih (hpres _ _ _ h0 meets steps)

/-- The same for an invariant with a parameter that follows the run. -/
theorem Run.invariant_exists {ι : Type*} {K : σ → ι → Prop}
    (hpres : ∀ s a t i, K s i → ok s a → step s a = some t → ∃ j, K t j)
    (h : Run step ok s as t) {i : ι} (h0 : K s i) : ∃ j, K t j := by
  refine h.invariant (I := fun s ↦ ∃ i, K s i) ?_ ⟨i, h0⟩
  rintro s a t ⟨i, hi⟩
  exact hpres s a t i hi

/-- With an invariant, one condition may follow from another. -/
theorem Run.imp {ok' : σ → α → Prop} {I : σ → Prop}
    (hpres : ∀ s a t, I s → ok s a → step s a = some t → ok' s a ∧ I t)
    (h : Run step ok s as t) (h0 : I s) : Run step ok' s as t := by
  induction h with
  | nil s => exact .nil s
  | cons meets steps _ ih =>
    obtain ⟨hok, hI⟩ := hpres _ _ _ h0 meets steps
    exact .cons hok steps (ih hI)

theorem Run.any (h : Run step ok s as t) : AnyRun step s as t :=
  h.imp (I := fun _ ↦ True) (fun _ _ _ _ _ _ ↦ ⟨trivial, trivial⟩) trivial

/-- What is so of all labels of a run may be asked of its steps. -/
theorem Run.and_of_labels {P : α → Prop} (h : Run step ok s as t) (hP : ∀ a ∈ as, P a) :
    Run step (fun s a ↦ ok s a ∧ P a) s as t := by
  induction h with
  | nil s => exact .nil s
  | cons meets steps _ ih =>
    obtain ⟨hfirst, hrest⟩ := List.forall_mem_cons.mp hP
    exact .cons ⟨meets, hfirst⟩ steps (ih hrest)

/-- **The view rule**: what the steps do to a part of the state by themselves, a run does by its
labels for this part alone. -/
theorem Run.view_eq_foldl {β γ : Type*} {own : α → Option β} {view : σ → γ} {g : γ → β → γ}
    (hview : ∀ s a t, ok s a → step s a = some t → view t = (own a).elim (view s) (g (view s)))
    (h : Run step ok s as t) : view t = (as.filterMap own).foldl g (view s) := by
  induction h with
  | nil s => rfl
  | cons meets steps _ ih =>
    rw [ih, hview _ _ _ meets steps, List.filterMap_cons]
    split <;> rename_i heq <;> rw [heq] <;> rfl

/-- **The simulation rule**: a system that can take the steps of another one, and keeps a relation
to it, can take its runs. -/
theorem Run.simulate {τ : Type*} {step' : τ → α → Option τ} {R : σ → τ → Prop}
    (hstep : ∀ s a t s', R s s' → ok s a → step s a = some t → ∃ t', step' s' a = some t' ∧ R t t')
    (h : Run step ok s as t) {s' : τ} (h0 : R s s') : ∃ t', AnyRun step' s' as t' ∧ R t t' := by
  induction h generalizing s' with
  | nil s => exact ⟨s', .nil s', h0⟩
  | cons meets steps _ ih =>
    obtain ⟨u', hu, hR⟩ := hstep _ _ _ _ h0 meets steps
    obtain ⟨t', hrun, hR'⟩ := ih hR
    exact ⟨t', .cons trivial hu hrun, hR'⟩

/-- **The measure rule**: a run is no longer than a measure that all its steps lower. -/
theorem Run.length_add_le {I : σ → Prop} {μ : σ → ℕ}
    (hpres : ∀ s a t, I s → ok s a → step s a = some t → I t)
    (hlower : ∀ s a t, I s → ok s a → step s a = some t → μ t < μ s) (h : Run step ok s as t)
    (h0 : I s) : as.length + μ t ≤ μ s := by
  induction h with
  | nil s => exact (Nat.zero_add _).le
  | cons meets steps _ ih =>
    have hrest := ih (hpres _ _ _ h0 meets steps)
    have hfirst := hlower _ _ _ h0 meets steps
    rw [List.length_cons]
    omega

/-- `I` holds in every state that the run from `s` with the labels `as` reaches. -/
def Always (step : σ → α → Option σ) (I : σ → Prop) (s : σ) (as : List α) : Prop :=
  ∀ as₁ as₂ u, as = as₁ ++ as₂ → AnyRun step s as₁ u → I u

theorem Always.head {I : σ → Prop} (h : Always step I s as) : I s :=
  h [] as s rfl (.nil s)

theorem always_nil {I : σ → Prop} : Always step I s [] ↔ I s := by
  refine ⟨Always.head, fun hs as₁ as₂ u heq hrun ↦ ?_⟩
  obtain ⟨rfl, rfl⟩ := List.append_eq_nil_iff.mp heq.symm
  cases hrun
  exact hs

theorem always_cons {I : σ → Prop} {a : α} (hstep : step s a = some t) :
    Always step I s (a :: as) ↔ I s ∧ Always step I t as := by
  constructor
  · refine fun h ↦ ⟨h.head, fun as₁ as₂ u heq hrun ↦ ?_⟩
    exact h (a :: as₁) as₂ u (by rw [heq, List.cons_append]) (.cons trivial hstep hrun)
  · rintro ⟨hs, ht⟩ as₁ as₂ u heq hrun
    cases hrun with
    | nil => exact hs
    | cons _ hstep' hrest =>
      rw [List.cons_append, List.cons.injEq] at heq
      obtain ⟨rfl, heq⟩ := heq
      obtain rfl := Option.some.inj (hstep.symm.trans hstep')
      exact ht _ as₂ u heq hrest

/-- **Exact conditions** for the runs whose steps meet `base`, with an invariant `J` that need only
be kept as long as `I` holds. -/
theorem Run.always_iff_while {base : σ → α → Prop} {I J : σ → Prop}
    (hpres : ∀ s a t, J s → I s → I t → base s a → step s a = some t → J t)
    (hexact : ∀ s a t, J s → I s → base s a → step s a = some t → (I t ↔ ok s a))
    (h : Run step base s as t) (hJ : J s) (hI : I s) :
    Always step I s as ↔ Run step ok s as t := by
  induction h with
  | nil s => exact ⟨fun _ ↦ .nil s, fun _ ↦ always_nil.mpr hI⟩
  | @cons s u t a as hbase hstep _ ih =>
    rw [always_cons hstep]
    constructor
    · rintro ⟨-, hrest⟩
      have hu := hrest.head
      exact .cons ((hexact s a u hJ hI hbase hstep).mp hu) hstep
        ((ih (hpres s a u hJ hI hu hbase hstep) hu).mp hrest)
    · intro hrun
      cases hrun with
      | cons meets hstep' hrest =>
        obtain rfl := Option.some.inj (hstep.symm.trans hstep')
        have hu := (hexact s a u hJ hI hbase hstep).mpr meets
        exact ⟨hI, (ih (hpres s a u hJ hI hu hbase hstep) hu).mpr hrest⟩

/-- **Exact conditions** for the runs whose steps meet `base`: if `ok` says of every such step
whether it keeps `I`, given an invariant `J`, then `I` holds throughout the run if and only if all
its steps meet `ok`. -/
theorem Run.always_iff_of {base : σ → α → Prop} {I J : σ → Prop}
    (hpres : ∀ s a t, J s → base s a → step s a = some t → J t)
    (hexact : ∀ s a t, J s → I s → base s a → step s a = some t → (I t ↔ ok s a))
    (h : Run step base s as t) (hJ : J s) (hI : I s) :
    Always step I s as ↔ Run step ok s as t :=
  h.always_iff_while (fun s a t hs _ _ ↦ hpres s a t hs) hexact hJ hI

/-- **Exact conditions**: if `ok` says of every step whether it keeps `I`, given an invariant `J`,
then `I` holds throughout a run if and only if all its steps meet `ok`. -/
theorem Run.always_iff {I J : σ → Prop}
    (hpres : ∀ s a t, J s → step s a = some t → J t)
    (hexact : ∀ s a t, J s → I s → step s a = some t → (I t ↔ ok s a))
    (h : AnyRun step s as t) (hJ : J s) (hI : I s) :
    Always step I s as ↔ Run step ok s as t :=
  h.always_iff_of (fun s a t hs _ ↦ hpres s a t hs) (fun s a t hs hi _ ↦ hexact s a t hs hi) hJ hI

theorem AnyRun.unique {u : σ} (h : AnyRun step s as t) (h' : AnyRun step s as u) : t = u := by
  induction h with
  | nil s =>
    cases h'
    rfl
  | cons _ hstep _ ih =>
    cases h' with
    | cons _ hstep' hrest =>
      obtain rfl := Option.some.inj (hstep.symm.trans hstep')
      exact ih hrest

theorem AnyRun.split {bs : List α} (h : AnyRun step s (as ++ bs) t) :
    ∃ u, AnyRun step s as u ∧ AnyRun step u bs t := by
  induction as generalizing s with
  | nil => exact ⟨s, .nil s, h⟩
  | cons a as ih =>
    cases h with
    | cons _ hstep hrest =>
      obtain ⟨u, hfirst, hlast⟩ := ih hrest
      exact ⟨u, .cons trivial hstep hfirst, hlast⟩

/-- Every label in `as` meets `ok` when its turn comes. -/
def Throughout (step : σ → α → Option σ) (ok : σ → α → Prop) (s : σ) (as : List α) : Prop :=
  ∀ as₁ a as₂ t, as = as₁ ++ a :: as₂ → AnyRun step s as₁ t → ok t a

theorem throughout_nil : Throughout step ok s [] :=
  fun as₁ a as₂ _ heq _ ↦ absurd heq.symm (by simp)

theorem throughout_cons {a : α} (hstep : step s a = some t) :
    Throughout step ok s (a :: as) ↔ ok s a ∧ Throughout step ok t as := by
  constructor
  · refine fun h ↦ ⟨h [] a as s rfl (.nil s), fun as₁ b as₂ u heq hrun ↦ ?_⟩
    exact h (a :: as₁) b as₂ u (by rw [heq, List.cons_append]) (.cons trivial hstep hrun)
  · rintro ⟨hs, ht⟩ as₁ b as₂ u heq hrun
    cases hrun with
    | nil =>
      rw [List.nil_append, List.cons.injEq] at heq
      exact heq.1 ▸ hs
    | cons _ hstep' hrest =>
      rw [List.cons_append, List.cons.injEq] at heq
      obtain ⟨rfl, heq⟩ := heq
      obtain rfl := Option.some.inj (hstep.symm.trans hstep')
      exact ht _ b as₂ u heq hrest

/-- **Exact conditions** for what is to be so of every step, and of every state for the next step:
if `ok` says of every step whether it is, then it is so throughout a run if and only if all its
steps meet `ok`. -/
theorem AnyRun.always_and_throughout_iff {I : σ → Prop} {P : σ → α → Prop}
    (hexact : ∀ s a t, I s → step s a = some t → (P s a ∧ I t ↔ ok s a))
    (h : AnyRun step s as t) (hI : I s) :
    Always step I s as ∧ Throughout step P s as ↔ Run step ok s as t := by
  induction h with
  | nil s => exact ⟨fun _ ↦ .nil s, fun _ ↦ ⟨always_nil.mpr hI, throughout_nil⟩⟩
  | @cons s u t a as _ hstep _ ih =>
    rw [always_cons hstep, throughout_cons hstep]
    constructor
    · rintro ⟨⟨-, halways⟩, hP, hthroughout⟩
      have hu := halways.head
      exact .cons ((hexact s a u hI hstep).mp ⟨hP, hu⟩) hstep ((ih hu).mp ⟨halways, hthroughout⟩)
    · intro hrun
      cases hrun with
      | cons meets hstep' hrest =>
        obtain rfl := Option.some.inj (hstep.symm.trans hstep')
        obtain ⟨hP, hu⟩ := (hexact s a u hI hstep).mpr meets
        obtain ⟨halways, hthroughout⟩ := (ih hu).mpr hrest
        exact ⟨⟨hI, halways⟩, hP, hthroughout⟩

/-- A run gets through as long as no step is impossible. -/
theorem Throughout.exists_anyRun (h : Throughout step (fun s a ↦ (step s a).isSome) s as) :
    ∃ t, AnyRun step s as t := by
  induction as generalizing s with
  | nil => exact ⟨s, .nil s⟩
  | cons a as ih =>
    obtain ⟨u, hu⟩ := Option.isSome_iff_exists.mp (h [] a as s rfl (.nil s))
    obtain ⟨t, ht⟩ := ih fun as₁ b as₂ t heq hrun ↦
      h (a :: as₁) b as₂ t (by rw [heq, List.cons_append]) (.cons trivial hu hrun)
    exact ⟨t, .cons trivial hu ht⟩

/-- **Exact conditions for getting through.** Of a label the system is given `given`, and the
environment adds its answer. -/
theorem forall_exists_anyRun_iff {β : Type*} {given : α → β} {J : σ → Prop}
    {ok : σ → β → Prop} {bs : List β}
    (hpres : ∀ s a t, J s → step s a = some t → J t)
    (hexact : ∀ s b, J s → ((∀ a, given a = b → (step s a).isSome) ↔ ok s b)) (hJ : J s) :
    (∀ as, as.map given = bs → ∃ t, AnyRun step s as t) ↔
      ∀ as, as.map given = bs → Throughout step (fun s a ↦ ok s (given a)) s as := by
  have hkept : ∀ as t, AnyRun step s as t → J t := fun as t hrun ↦
    hrun.invariant (fun s a t hs _ ↦ hpres s a t hs) hJ
  constructor
  · rintro h as rfl as₁ a as₂ t rfl hrun
    refine (hexact t (given a) (hkept as₁ t hrun)).mp fun a' ha' ↦ ?_
    -- the same run, but with another answer
    obtain ⟨u, hu⟩ := h (as₁ ++ a' :: as₂) (by simp only [List.map_append, List.map_cons, ha'])
    obtain ⟨t', ht', hrest⟩ := hu.split
    obtain rfl := hrun.unique ht'
    cases hrest with
    | cons _ hstep _ => exact Option.isSome_iff_exists.mpr ⟨_, hstep⟩
  · rintro h as rfl
    refine Throughout.exists_anyRun fun as₁ a as₂ t heq hrun ↦ ?_
    exact (hexact t (given a) (hkept as₁ t hrun)).mpr (h as rfl as₁ a as₂ t heq hrun) a rfl

/-- A run from `s` with the labels `as` comes to a state with `I`. -/
def Passes (step : σ → α → Option σ) (I : σ → Prop) (s : σ) (as : List α) : Prop :=
  ∃ as₁ as₂ u, as = as₁ ++ as₂ ∧ AnyRun step s as₁ u ∧ I u

theorem Passes.head {I : σ → Prop} (h : I s) : Passes step I s as :=
  ⟨[], as, s, rfl, .nil s, h⟩

theorem Passes.cons {I : σ → Prop} {a : α} (h : Passes step I t as) (hstep : step s a = some t) :
    Passes step I s (a :: as) := by
  obtain ⟨as₁, as₂, u, rfl, hrun, hu⟩ := h
  exact ⟨a :: as₁, as₂, u, rfl, .cons trivial hstep hrun, hu⟩

/-- From `s` the party whose steps are `own` comes to `goal`, as long as all steps meet `ok`: it
takes fewer than `n` steps until then, and can always take the next. -/
def LeadsTo (step : σ → α → Option σ) (ok : σ → α → Prop) (own : α → Bool) (goal : σ → Prop)
    (s : σ) : Prop :=
  ∃ n, ∀ as t, Run step ok s as t → Passes step goal s as ∨
    as.countP own < n ∧ ∃ a u, own a = true ∧ ok t a ∧ step t a = some u

/-- **The rule for progress**: until the goal is there, the party can take a step; its own steps
lower a measure, and the steps of the others do not raise it. -/
theorem leadsTo_of_measure {own : α → Bool} {goal I : σ → Prop} (μ : σ → ℕ)
    (hmoves : ∀ s, I s → ¬goal s → ∃ a t, own a = true ∧ ok s a ∧ step s a = some t)
    (hkeeps : ∀ s a t, I s → ¬goal s → ok s a → step s a = some t →
      goal t ∨ I t ∧ μ t + (if own a = true then 1 else 0) ≤ μ s) (hs : I s) :
    LeadsTo step ok own goal s := by
  have hrun : ∀ s as t, Run step ok s as t → I s →
      Passes step goal s as ∨ as.countP own + μ t ≤ μ s ∧ I t ∧ ¬goal t := by
    intro s as t h
    induction h with
    | nil s =>
      intro hs
      by_cases hgoal : goal s
      · exact .inl (.head hgoal)
      · exact .inr ⟨(Nat.zero_add _).le, hs, hgoal⟩
    | @cons s u t a as meets steps _ ih =>
      intro hs
      by_cases hgoal : goal s
      · exact .inl (.head hgoal)
      obtain hnext | ⟨hnext, hle⟩ := hkeeps _ _ _ hs hgoal meets steps
      · exact .inl (Passes.head hnext |>.cons steps)
      · obtain hpasses | ⟨hrest, hlast⟩ := ih hnext
        · exact .inl (hpasses.cons steps)
        · rw [List.countP_cons]
          exact .inr ⟨by omega, hlast⟩
  refine ⟨μ s + 1, fun as t h ↦ (hrun s as t h hs).imp_right ?_⟩
  rintro ⟨hle, ht, hgoal⟩
  exact ⟨by omega, hmoves t ht hgoal⟩

end Runs

end Ddmz
