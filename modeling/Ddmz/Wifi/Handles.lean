import Ddmz.Foundation.Mutex
import Ddmz.Wifi.Tasks

/-!
# Handles and mutexes

What matters of the places of a task is whether it is inside, with the mutex taken and not given
back, and whether its handle still names it. `Ordered` holds whatever is deleted: the handle names
the one task that has not cleared it, and whoever is inside has the mutex. That whoever has the
mutex is inside, so that it is guarded, is kept by every step of a task, and by a request if and
only if it does not delete the task that is inside: `Ordered.config_guards`.
-/

namespace Ddmz.Wifi

/-- What matters of the places of a task. -/
class Places (π : Type) where
  /-- The mutex has been taken, and not been given back. -/
  inside : π → Bool
  /-- The task has not cleared its handle. -/
  named : π → Bool
  named_of_inside : ∀ p, inside p = true → named p = true

open Places

namespace Tasks

variable {π : Type} {c c' : Tasks π} {t u : ℕ} {p : π} {P : π → Bool}

/-- Task `t` is at one of the places of `P`. -/
def At (c : Tasks π) (P : π → Bool) (t : ℕ) : Prop := ∃ p, c.place t = some p ∧ P p = true

theorem at_iff (h : c.place t = some p) : c.At P t ↔ P p = true := by
  refine ⟨?_, fun hp ↦ ⟨p, h, hp⟩⟩
  rintro ⟨q, hq, hP⟩
  obtain rfl := Option.some.inj (h.symm.trans hq)
  exact hP

theorem not_at (h : c.place t = none) : ¬c.At P t := by
  rintro ⟨q, hq, -⟩
  exact nomatch h.symm.trans hq

theorem at_congr (h : c'.place t = c.place t) : c'.At P t ↔ c.At P t := by
  rw [At, At, h]

variable [Places π]

abbrev Inside (c : Tasks π) : ℕ → Prop := c.At inside

abbrev Named (c : Tasks π) : ℕ → Prop := c.At named

theorem At.named (h : c.Inside t) : c.Named t := by
  obtain ⟨p, hp, hinside⟩ := h
  exact ⟨p, hp, named_of_inside p hinside⟩

/-! ## What a task does -/

/-- What a step of task `t` does to the tasks. -/
inductive Moves (c : Tasks π) (t : ℕ) : Tasks π → Prop
  | goes {p p' : π} (hp : c.place t = some p) (hinside : inside p' = inside p)
      (hnamed : named p' = named p) : Moves c t (c.goto t p')
  | takes {p p' : π} (hp : c.place t = some p) (hmux : c.mux = none) (hinside : inside p' = true)
      (hnamed : named p' = named p) : Moves c t ({ c with mux := some t }.goto t p')
  | gives {p p' : π} (hp : c.place t = some p) (hinside : inside p = true)
      (hinside' : inside p' = false) (hnamed : named p' = named p) :
      Moves c t ({ c with mux := none }.goto t p')
  | forgets {p p' : π} (hp : c.place t = some p) (hinside : inside p = false)
      (hnamed : named p = true) (hnamed' : named p' = false) :
      Moves c t ({ c with handle := none }.goto t p')
  | exits {p : π} (hp : c.place t = some p) (hnamed : named p = false) : Moves c t (c.delete t)

namespace Moves

theorem place_of_ne (h : c.Moves t c') (hu : u ≠ t) : c'.place u = c.place u := by
  cases h with
  | exits => exact place_delete_of_ne hu
  | _ => exact place_goto_of_ne hu

theorem live (h : c.Moves t c') : ∃ p, c.place t = some p := by
  cases h with
  | goes hp | takes hp | gives hp | forgets hp | exits hp => exact ⟨_, hp⟩

theorem request (h : c.Moves t c') : c'.request = c.request ∧ c'.created = c.created := by
  cases h with
  | _ => exact ⟨rfl, rfl⟩

theorem handle (h : c.Moves t c') :
    c'.handle = c.handle ∧ (c'.Named t ↔ c.Named t) ∨
      c'.handle = none ∧ c.Named t ∧ ¬c'.Named t := by
  cases h with
  | goes hp _ hnamed | takes hp _ _ hnamed | gives hp _ _ hnamed =>
    exact .inl ⟨rfl, by rw [Named, Named, at_iff hp, at_iff place_goto, hnamed]⟩
  | forgets hp _ hnamed hnamed' =>
    refine .inr ⟨rfl, ⟨_, hp, hnamed⟩, ?_⟩
    rw [Named, at_iff place_goto, hnamed']
    exact Bool.false_ne_true
  | exits hp hnamed =>
    refine .inl ⟨rfl, iff_of_false (not_at place_delete) ?_⟩
    rw [Named, at_iff hp, hnamed]
    exact Bool.false_ne_true

theorem mux (h : c.Moves t c') :
    c'.mux = c.mux ∧ (c'.Inside t ↔ c.Inside t) ∨
      c.mux = none ∧ c'.mux = some t ∧ c'.Inside t ∨
      c'.mux = none ∧ c.Inside t ∧ ¬c'.Inside t := by
  cases h with
  | goes hp hinside =>
    exact .inl ⟨rfl, by rw [Inside, Inside, at_iff hp, at_iff place_goto, hinside]⟩
  | takes hp hmux hinside => exact .inr (.inl ⟨hmux, rfl, _, place_goto, hinside⟩)
  | gives hp hinside hinside' =>
    refine .inr (.inr ⟨rfl, ⟨_, hp, hinside⟩, ?_⟩)
    rw [Inside, at_iff place_goto, hinside']
    exact Bool.false_ne_true
  | @forgets p p' hp hinside hnamed hnamed' =>
    refine .inl ⟨rfl, iff_of_false ?_ ?_⟩
    · rw [Inside, at_iff place_goto]
      exact fun h ↦ Bool.false_ne_true (hnamed'.symm.trans (named_of_inside p' h))
    · rw [Inside, at_iff hp, hinside]
      exact Bool.false_ne_true
  | @exits p hp hnamed =>
    refine .inl ⟨rfl, iff_of_false (not_at place_delete) ?_⟩
    rw [Inside, at_iff hp]
    exact fun h ↦ Bool.false_ne_true (hnamed.symm.trans (named_of_inside p h))

end Moves

/-! ## Handles -/

/-- What holds of the handle, the mutex and the tasks whatever is deleted. -/
structure Ordered (c : Tasks π) : Prop where
  numbered : ∀ t p, c.place t = some p → t < c.created
  handle_eq : ∀ t, c.Named t → c.handle = some t
  handle_named : ∀ t, c.handle = some t → c.request ≠ some .clear → c.Named t
  /-- The task has been deleted, and the handle is about to be cleared. -/
  dead : ∀ t, c.handle = some t → c.request = some .clear → c.place t = none
  handle_none : c.request = some .create → c.handle = none
  owns : Owns c.mux c.Inside

/-- The deletion in a request does not hit a task that is inside. -/
def Spares (c : Tasks π) : RequestStep → Prop
  | .delete => ∀ t, c.handle = some t → ¬c.Inside t
  | _ => True

theorem spares_delete (ht : c.handle = some t) (hp : c.place t = some p)
    (hinside : inside p = false) : c.Spares .delete := by
  intro u hu hin
  obtain rfl := Option.some.inj (ht.symm.trans hu)
  exact Bool.false_ne_true (hinside.symm.trans ((at_iff hp).mp hin))

theorem ordered_init : (init : Tasks π).Ordered where
  numbered _ _ hp := nomatch hp
  handle_eq := fun _ ⟨_, hp, _⟩ ↦ nomatch hp
  handle_named _ ht := nomatch ht
  dead _ ht := nomatch ht
  handle_none := nofun
  owns := fun _ ⟨_, hp, _⟩ ↦ nomatch hp

theorem guards_init : Guards (init : Tasks π).mux (init : Tasks π).Inside :=
  guards_none fun _ ⟨_, hp, _⟩ ↦ nomatch hp

namespace Ordered

theorem place_created (h : c.Ordered) : c.place c.created = none := by
  cases hp : c.place c.created with
  | none => rfl
  | some p => exact absurd (h.numbered _ p hp) (Nat.lt_irrefl _)

/-- There is one task that has not cleared its handle. -/
theorem unique (h : c.Ordered) (ht : c.Named t) (hu : c.Named u) : u = t :=
  Option.some.inj ((h.handle_eq u hu).symm.trans (h.handle_eq t ht))

theorem moves (h : c.Ordered) (hmoves : c.Moves t c') : c'.Ordered := by
  obtain ⟨hrequest, hcreated⟩ := hmoves.request
  obtain ⟨p, hp⟩ := hmoves.live
  have hat : ∀ {P : π → Bool} u, u ≠ t → (c'.At P u ↔ c.At P u) :=
    fun u hu ↦ at_congr (hmoves.place_of_ne hu)
  have hhandle : ∀ u, c'.handle = some u → c.handle = some u ∧ (c'.Named u ↔ c.Named u) := by
    intro u hu
    obtain ⟨hsame, hnamed⟩ | ⟨hnone, -, -⟩ := hmoves.handle
    · refine ⟨hsame ▸ hu, ?_⟩
      by_cases hut : u = t
      · exact hut ▸ hnamed
      · exact hat u hut
    · exact nomatch hnone.symm.trans hu
  constructor
  case numbered =>
    intro u q hq
    rw [hcreated]
    by_cases hut : u = t
    · exact hut ▸ h.numbered t p hp
    · exact h.numbered u q (hmoves.place_of_ne hut ▸ hq)
  case handle_eq =>
    intro u hu
    obtain ⟨hsame, hnamed⟩ | ⟨-, hnamed, hnot⟩ := hmoves.handle
    · rw [hsame]
      by_cases hut : u = t
      · exact hut ▸ h.handle_eq t (hnamed.mp (hut ▸ hu))
      · exact h.handle_eq u ((hat u hut).mp hu)
    · by_cases hut : u = t
      · exact absurd (hut ▸ hu) hnot
      · exact absurd (h.unique hnamed ((hat u hut).mp hu)) hut
  case handle_named =>
    intro u hu hclear
    obtain ⟨hu, hnamed⟩ := hhandle u hu
    exact hnamed.mpr (h.handle_named u hu (hrequest ▸ hclear))
  case dead =>
    intro u hu hclear
    have hdead := h.dead u (hhandle u hu).1 (hrequest ▸ hclear)
    by_cases hut : u = t
    · exact nomatch (hut ▸ hdead).symm.trans hp
    · exact (hmoves.place_of_ne hut).trans hdead
  case handle_none =>
    intro hcreate
    obtain ⟨hsame, -⟩ | ⟨hnone, -⟩ := hmoves.handle
    · exact hsame.trans (h.handle_none (hrequest ▸ hcreate))
    · exact hnone
  case owns =>
    obtain ⟨hmux, hinside⟩ | ⟨hmux, hmux', -⟩ | ⟨hmux', hinside, hinside'⟩ := hmoves.mux
    · rw [hmux]
      refine h.owns.mono fun u hu ↦ ?_
      by_cases hut : u = t
      · exact hut ▸ hinside.mp (hut ▸ hu)
      · exact (hat u hut).mp hu
    · rw [hmux']
      exact (hmux ▸ h.owns).acquire fun u hu ↦ (hat u hu).mp
    · rw [hmux']
      exact h.owns.release hinside hinside' fun u hu ↦ (hat u hu).mp

end Ordered

/-- **A task keeps the mutex guarded.** -/
theorem Moves.guards (h : c.Moves t c') (hguards : Guards c.mux c.Inside) :
    Guards c'.mux c'.Inside := by
  have hat : ∀ u, u ≠ t → (c'.Inside u ↔ c.Inside u) := fun u hu ↦ at_congr (h.place_of_ne hu)
  obtain ⟨hmux, hinside⟩ | ⟨hmux, hmux', hinside'⟩ | ⟨hmux', hinside, hinside'⟩ := h.mux
  · rw [hmux]
    refine hguards.congr fun u ↦ ?_
    by_cases hut : u = t
    · exact hut ▸ hinside
    · exact hat u hut
  · rw [hmux']
    exact (hmux ▸ hguards).acquire hinside' hat
  · rw [hmux']
    exact hguards.release hinside hinside' hat

/-! ## What a request does -/

section Config

variable {first : π} {r : RequestStep}

theorem Ordered.delete (h : c.Ordered) (ht : c.handle = some t) :
    ({ c.delete t with request := some .clear } : Tasks π).Ordered where
  numbered u q hq := by
    by_cases hut : u = t
    · rw [hut] at hq
      exact nomatch place_delete.symm.trans hq
    · exact h.numbered u q ((place_delete_of_ne hut).symm.trans hq)
  handle_eq u hu := by
    by_cases hut : u = t
    · exact hut ▸ ht
    · exact h.handle_eq u ((at_congr (place_delete_of_ne hut)).mp hu)
  handle_named _ _ hclear := absurd rfl hclear
  dead u hu _ := by
    obtain rfl := Option.some.inj (ht.symm.trans hu)
    exact place_delete
  handle_none := nofun
  owns := h.owns.mono fun u hu ↦ by
    by_cases hut : u = t
    · exact absurd hu (hut ▸ not_at place_delete)
    · exact (at_congr (place_delete_of_ne hut)).mp hu

theorem Ordered.create (h : c.Ordered) (hhandle : c.handle = none)
    (hinside : inside first = false) (hnamed : named first = true) :
    (c.create first).Ordered where
  numbered u q hq := by
    by_cases hu : u = c.created
    · exact hu ▸ Nat.lt_succ_self _
    · exact Nat.lt_succ_of_lt (h.numbered u q ((place_create_of_ne hu).symm.trans hq))
  handle_eq u hu := by
    by_cases hcreated : u = c.created
    · exact hcreated ▸ rfl
    · have hold := h.handle_eq u ((at_congr (place_create_of_ne hcreated)).mp hu)
      exact nomatch hhandle.symm.trans hold
  handle_named u hu _ := by
    obtain rfl := Option.some.inj hu
    exact ⟨first, place_create, hnamed⟩
  dead := nofun
  handle_none := nofun
  owns := h.owns.mono fun u hu ↦ by
    by_cases hcreated : u = c.created
    · rw [hcreated, Inside, at_iff place_create, hinside] at hu
      cases hu
    · exact (at_congr (place_create_of_ne hcreated)).mp hu

theorem Ordered.config (h : c.Ordered) (hinside : inside first = false)
    (hnamed : named first = true) (hconfig : c.config first r = some c') : c'.Ordered := by
  cases r with
  | call =>
    obtain ⟨hrequest, rfl⟩ := config_call hconfig
    have hidle : c.request ≠ some .clear := by rw [hrequest]; nofun
    refine ⟨h.numbered, h.handle_eq, fun t ht _ ↦ h.handle_named t ht hidle, fun t ht hclear ↦ ?_,
      fun hcreate ↦ ?_, h.owns⟩
    · split_ifs at hclear
      · cases hclear
      · cases hclear
    · split_ifs at hcreate with hnone
      · exact hnone
      · cases hcreate
  | delete =>
    obtain ⟨hrequest, rfl⟩ := config_delete hconfig
    have hidle : c.request ≠ some .clear := by rw [hrequest]; nofun
    cases hhandle : c.handle with
    | none =>
      rw [deleteHandle_none hhandle]
      exact ⟨h.numbered, h.handle_eq, fun t ht _ ↦ h.handle_named t ht hidle, nofun, nofun, h.owns⟩
    | some t =>
      rw [deleteHandle_some hhandle]
      exact h.delete hhandle
  | clear =>
    obtain ⟨hrequest, rfl⟩ := config_clear hconfig
    refine ⟨h.numbered, fun t ht ↦ ?_, nofun, nofun, fun _ ↦ rfl, h.owns⟩
    exact absurd ht (not_at (h.dead t (h.handle_eq t ht) hrequest))
  | create created =>
    obtain ⟨hrequest, rfl⟩ := config_create hconfig
    have hnone := h.handle_none hrequest
    cases created with
    | false =>
      refine ⟨h.numbered, h.handle_eq, fun t ht _ ↦ ?_, nofun, nofun, h.owns⟩
      exact nomatch hnone.symm.trans ht
    | true => exact h.create hnone hinside hnamed

/-- **A request keeps the mutex guarded if and only if it spares who is inside.** -/
theorem Ordered.config_guards (h : c.Ordered) (hguards : Guards c.mux c.Inside)
    (hinside : inside first = false) (hconfig : c.config first r = some c') :
    Guards c'.mux c'.Inside ↔ c.Spares r := by
  cases r with
  | call =>
    obtain ⟨-, rfl⟩ := config_call hconfig
    exact iff_of_true hguards trivial
  | delete =>
    obtain ⟨-, rfl⟩ := config_delete hconfig
    cases hhandle : c.handle with
    | none =>
      rw [deleteHandle_none hhandle]
      exact iff_of_true hguards fun t ht ↦ nomatch hhandle.symm.trans ht
    | some t =>
      rw [deleteHandle_some hhandle]
      constructor
      · intro hguards' u hu hin
        obtain rfl := Option.some.inj (hhandle.symm.trans hu)
        exact not_at place_delete ((hguards' t).mpr ((hguards t).mp hin))
      · intro hspares
        refine hguards.congr fun u ↦ ?_
        by_cases hut : u = t
        · rw [hut]
          exact iff_of_false (not_at place_delete) (hspares t hhandle)
        · exact at_congr (place_delete_of_ne hut)
  | clear =>
    obtain ⟨-, rfl⟩ := config_clear hconfig
    exact iff_of_true hguards trivial
  | create created =>
    obtain ⟨-, rfl⟩ := config_create hconfig
    refine iff_of_true ?_ trivial
    cases created with
    | false => exact hguards
    | true =>
      rw [if_pos rfl]
      refine hguards.congr fun u ↦ ?_
      by_cases hu : u = c.created
      · rw [hu]
        refine iff_of_false ?_ (not_at h.place_created)
        rw [Inside, at_iff place_create, hinside]
        exact Bool.false_ne_true
      · exact at_congr (place_create_of_ne hu)

/-- A request that spares a task leaves it where it is. -/
theorem Ordered.config_place (h : c.Ordered) (ht : ∃ p, c.place t = some p)
    (hspared : r = .delete → c.handle ≠ some t) (hconfig : c.config first r = some c') :
    c'.place t = c.place t := by
  obtain hsame | ⟨hdelete, hhandle, -⟩ | ⟨hcreated, -⟩ := (config_cases hconfig).2 t
  · exact hsame
  · exact absurd hhandle (hspared hdelete)
  · obtain ⟨p, hp⟩ := ht
    exact absurd hcreated (Nat.ne_of_lt (h.numbered t p hp))

end Config

/-! ## A request on its way -/

/-- The call is about to create task `n`, or has, and the task has some way to go. -/
def Pending (w : π → ℕ) (n : ℕ) (c : Tasks π) : Prop :=
  c.request = some .create ∧ c.created = n ∨ c.request = none ∧ ∃ p, c.place n = some p ∧ 0 < w p

/-- No call is going on, and there is no task. -/
def Quiet (c : Tasks π) : Prop := c.request = none ∧ ∀ t, c.place t = none

/-- How far it is, if tasks begin at `first`. -/
def toGo (w : π → ℕ) (first : π) (n : ℕ) (c : Tasks π) : ℕ :=
  if c.request = some .create then w first + 1 else (c.place n).elim 0 w

section Pending

variable {w : π → ℕ} {first : π} {r : RequestStep} {n : ℕ}

omit [Places π] in
theorem toGo_place (hrequest : c.request = none) (h : c.place n = some p) :
    c.toGo w first n = w p := by
  rw [toGo, hrequest, if_neg nofun, h, Option.elim_some]

omit [Places π] in
/-- No other step of the caller comes next. -/
theorem Pending.config (h : c.Pending w n) (hcall : r ≠ .call) (hcreate : r ≠ .create false)
    (hconfig : c.config first r = some c') : r = .create true := by
  have hrequest : c.request = some .create ∨ c.request = none := h.imp And.left And.left
  cases r with
  | call => exact absurd rfl hcall
  | delete =>
    rw [(config_delete hconfig).1] at hrequest
    exact hrequest.elim nofun nofun
  | clear =>
    rw [(config_clear hconfig).1] at hrequest
    exact hrequest.elim nofun nofun
  | create created =>
    cases created with
    | false => exact absurd rfl hcreate
    | true => rfl

/-- A request that is made when no task is there finds no handle. -/
theorem Ordered.config_call (h : c.Ordered) (hquiet : c.Quiet) (first : π) :
    c.config first .call = some { c with request := some .create } := by
  have hhandle : c.handle = none := by
    cases hhandle : c.handle with
    | none => rfl
    | some t =>
      have hidle : c.request ≠ some .clear := by rw [hquiet.1]; nofun
      exact absurd (h.handle_named t hhandle hidle) (not_at (hquiet.2 t))
  rw [Tasks.config, if_pos hquiet.1, if_pos hhandle]

/-- Nobody else has the mutex while a task is on its way to it. -/
theorem Ordered.mux_eq_none (h : c.Ordered) (hguards : Guards c.mux c.Inside)
    (hp : c.place t = some p) (hnamed : named p = true) (hinside : inside p = false) :
    c.mux = none := by
  cases hmux : c.mux with
  | none => rfl
  | some u =>
    have hu := (hguards u).mpr hmux
    have ht : c.Inside t := h.unique ⟨p, hp, hnamed⟩ hu.named ▸ hu
    exact absurd (hinside.symm.trans ((at_iff hp).mp ht)) Bool.false_ne_true

/-- What a step does to a request on its way, and whether it is a step of the request itself. -/
inductive Advances (w : π → ℕ) (first : π) (n : ℕ) (c c' : Tasks π) : Bool → Prop
  | config {r : RequestStep} (hr : r = .create true) (h : c.config first r = some c') :
    Advances w first n c c' true
  | task (h : c.Moves n c') (hnearer : ∀ p, c.place n = some p → 0 < w p →
      ∃ p', c'.place n = some p' ∧ 0 < w p' ∧ w p' < w p) : Advances w first n c c' true
  | other {t : ℕ} (h : c.Moves t c') (ht : n ≠ t) : Advances w first n c c' false
  | same (h : c' = c) : Advances w first n c c' false

theorem Pending.advances {own : Bool} (h : c.Pending w n) (hordered : c.Ordered) (hw : 0 < w first)
    (hadvances : Advances w first n c c' own) : c'.Pending w n ∧
      c'.toGo w first n + (if own = true then 1 else 0) ≤ c.toGo w first n := by
  cases hadvances with
  | config hr hconfig =>
    subst hr
    obtain ⟨hcreate, rfl⟩ := config_create hconfig
    obtain ⟨-, rfl⟩ | ⟨hnone, -⟩ := h
    · rw [if_pos rfl, toGo_place rfl place_create, toGo, if_pos hcreate]
      exact ⟨.inr ⟨rfl, first, place_create, hw⟩, le_rfl⟩
    · exact nomatch hnone.symm.trans hcreate
  | task hmoves hnearer =>
    obtain ⟨-, rfl⟩ | ⟨hidle, p, hp, hpos⟩ := h
    · obtain ⟨p, hp⟩ := hmoves.live
      exact nomatch hordered.place_created.symm.trans hp
    · obtain ⟨p', hp', hpos', hlt⟩ := hnearer p hp hpos
      have hidle' := hmoves.request.1.trans hidle
      rw [toGo_place hidle' hp', toGo_place hidle hp, if_pos rfl]
      exact ⟨.inr ⟨hidle', p', hp', hpos'⟩, hlt⟩
  | other hmoves ht =>
    obtain ⟨hrequest, hcreated⟩ := hmoves.request
    rw [Pending, toGo, hrequest, hcreated, hmoves.place_of_ne ht, if_neg Bool.false_ne_true]
    exact ⟨h, le_rfl⟩
  | same heq =>
    subst heq
    exact ⟨h, le_rfl⟩

end Pending

/-! ## Progress -/

section Progress

variable {σ α : Type*} {step : σ → α → Option σ} {ok : σ → α → Prop} {own : α → Bool}
  {goal I : σ → Prop} {s : σ} (view : σ → Tasks π) (w : π → ℕ)

/-- **A task that is inside comes to its goal**, if its steps lead there by a measure and the
others leave it where it is. -/
theorem leadsTo_of_inside
    (hinv : ∀ s a s', I s → ok s a → step s a = some s' → I s')
    (hmoves : ∀ s p, I s → (view s).place t = some p →
      ∃ a s', own a = true ∧ ok s a ∧ step s a = some s')
    (hothers : ∀ s a s', I s → (view s).Inside t → ok s a → step s a = some s' → own a = false →
      (view s').place t = (view s).place t)
    (hown : ∀ s a s' p, I s → (view s).place t = some p → inside p = true → step s a = some s' →
      own a = true → goal s' ∨ ∃ p', (view s').place t = some p' ∧ inside p' = true ∧ w p' < w p)
    (hs : I s) (ht : (view s).Inside t) : LeadsTo step ok own goal s := by
  refine leadsTo_of_measure (I := fun s ↦ I s ∧ (view s).Inside t)
    (fun s ↦ ((view s).place t).elim 0 w) ?_ ?_ ⟨hs, ht⟩
  · rintro s ⟨hs, p, hp, -⟩ -
    exact hmoves s p hs hp
  · rintro s a s' ⟨hs, ht⟩ - hok hstep
    have hs' := hinv s a s' hs hok hstep
    cases howner : own a with
    | false =>
      have hplace := hothers s a s' hs ht hok hstep howner
      rw [hplace, if_neg Bool.false_ne_true]
      exact .inr ⟨⟨hs', (at_congr hplace).mpr ht⟩, le_rfl⟩
    | true =>
      obtain ⟨p, hp, hin⟩ := ht
      obtain hgoal | ⟨p', hp', hin', hlt⟩ := hown s a s' p hs hp hin hstep howner
      · exact .inl hgoal
      · rw [hp', hp, if_pos rfl]
        exact .inr ⟨⟨hs', p', hp', hin'⟩, hlt⟩

/-- **A request on its way comes to its goal**, if each step advances it. -/
theorem leadsTo_of_pending (first : π) {n : ℕ} (hw : 0 < w first)
    (hinv : ∀ s a s', I s → (view s).Pending w n → ok s a → step s a = some s' → I s')
    (hordered : ∀ s, I s → (view s).Ordered)
    (hcreate : ∀ s, (view s).request = some .create →
      ∃ a s', own a = true ∧ ok s a ∧ step s a = some s')
    (hmoves : ∀ s p, (view s).place n = some p → ∃ a s', own a = true ∧ ok s a ∧ step s a = some s')
    (hadvances : ∀ s a s', I s → (view s).Pending w n → ¬goal s → ok s a → step s a = some s' →
      Advances w first n (view s) (view s') (own a))
    (hs : I s) (hpending : (view s).Pending w n) : LeadsTo step ok own goal s := by
  refine leadsTo_of_measure (I := fun s ↦ I s ∧ (view s).Pending w n)
    (fun s ↦ (view s).toGo w first n) ?_ ?_ ⟨hs, hpending⟩
  · rintro s ⟨-, ⟨hrequest, -⟩ | ⟨-, p, hp, -⟩⟩ -
    · exact hcreate s hrequest
    · exact hmoves s p hp
  · rintro s a s' ⟨hs, hpending⟩ hgoal hok hstep
    obtain ⟨hpending', hle⟩ := hpending.advances (hordered s hs) hw
      (hadvances s a s' hs hpending hgoal hok hstep)
    exact .inr ⟨⟨hinv s a s' hs hpending hok hstep, hpending'⟩, hle⟩

end Progress

end Tasks

end Ddmz.Wifi
