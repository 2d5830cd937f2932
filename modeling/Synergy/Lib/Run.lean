import Mathlib.Data.List.Basic

set_option autoImplicit false

-- Runs of a partial step function: the state after a list of actions, when every action could be taken.
namespace Runs

universe u v

variable {σ : Type u} {α : Type v}

def run (step : σ → α → Option σ) : σ → List α → Option σ
  | state, [] => some state
  | state, action :: rest =>
      match step state action with
      | none => none
      | some next => run step next rest

-- The guard holds in the state before every step the run takes.
def Meets (step : σ → α → Option σ) (guard : σ → α → Prop) : σ → List α → Prop
  | _, [] => True
  | state, action :: rest =>
      ∀ next, step state action = some next → guard state action ∧ Meets step guard next rest

-- The property holds in every state the run passes, the first and the last included.
def Throughout (step : σ → α → Option σ) (good : σ → Prop) : σ → List α → Prop
  | state, [] => good state
  | state, action :: rest =>
      good state ∧ ∀ next, step state action = some next → Throughout step good next rest

theorem run_cons_some (step : σ → α → Option σ) (state final : σ) (action : α) (rest : List α)
    (ran : run step state (action :: rest) = some final) :
    ∃ next, step state action = some next ∧ run step next rest = some final := by
  cases taken : step state action with
  | none => simp [run, taken] at ran
  | some next => exact ⟨next, rfl, by simpa only [run, taken] using ran⟩

theorem run_append (step : σ → α → Option σ) (state : σ) (first second : List α) :
    run step state (first ++ second) = (run step state first).bind fun middle => run step middle second := by
  induction first generalizing state with
  | nil => rfl
  | cons action rest ih =>
      simp only [List.cons_append, run]
      cases step state action with
      | none => rfl
      | some next => exact ih next

theorem run_guarded_invariant (step : σ → α → Option σ) (guard : σ → α → Prop) (inv : σ → Prop)
    (keeps : ∀ state action next, inv state → guard state action → step state action = some next → inv next)
    (state final : σ) (actions : List α) (initial : inv state) (meets : Meets step guard state actions)
    (ran : run step state actions = some final) : inv final := by
  induction actions generalizing state with
  | nil =>
      have same : state = final := Option.some.inj ran
      exact same ▸ initial
  | cons action rest ih =>
      obtain ⟨next, taken, remaining⟩ := run_cons_some step state final action rest ran
      obtain ⟨allowed, later⟩ := meets next taken
      exact ih next (keeps state action next initial allowed taken) later remaining

theorem meets_of_forall (step : σ → α → Option σ) (guard : σ → α → Prop) (state : σ) (actions : List α)
    (always : ∀ action ∈ actions, ∀ state, guard state action) : Meets step guard state actions := by
  induction actions generalizing state with
  | nil => trivial
  | cons action rest ih =>
      intro next _
      exact ⟨always action (by simp) state, ih next fun other member => always other (by simp [member])⟩

theorem meets_at (step : σ → α → Option σ) (guard : σ → α → Prop) (state last : σ) (actions : List α) (action : α)
    (ran : run step state actions = some last) (taken : (step last action).isSome = true)
    (meets : Meets step guard state (actions ++ [action])) : guard last action := by
  induction actions generalizing state with
  | nil =>
      cases ran
      obtain ⟨next, is⟩ := Option.isSome_iff_exists.mp taken
      exact (meets next is).1
  | cons first rest ih =>
      obtain ⟨next, one, remaining⟩ := run_cons_some step state last first rest ran
      exact ih next remaining (meets next one).2

theorem meets_cons (step : σ → α → Option σ) (guard : σ → α → Prop) (state next : σ) (action : α) (rest : List α)
    (taken : step state action = some next) (met : guard state action) (later : Meets step guard next rest) :
    Meets step guard state (action :: rest) := by
  intro other reached
  cases Option.some.inj (taken.symm.trans reached)
  exact ⟨met, later⟩

theorem run_invariant (step : σ → α → Option σ) (inv : σ → Prop)
    (keeps : ∀ state action next, inv state → step state action = some next → inv next)
    (state final : σ) (actions : List α) (initial : inv state)
    (ran : run step state actions = some final) : inv final := by
  induction actions generalizing state with
  | nil =>
      have same : state = final := Option.some.inj ran
      exact same ▸ initial
  | cons action rest ih =>
      obtain ⟨next, taken, remaining⟩ := run_cons_some step state final action rest ran
      exact ih next (keeps state action next initial taken) remaining

theorem throughout_start (step : σ → α → Option σ) (good : σ → Prop) (state : σ) (actions : List α)
    (always : Throughout step good state actions) : good state := by
  cases actions with
  | nil => exact always
  | cons action rest => exact always.1

-- Where a step that is allowed keeps the property exactly when it meets the guard, a run of such steps
-- keeps it exactly when all of them do.
theorem throughout_iff_meets (step : σ → α → Option σ) (allowed : α → Prop) (guard : σ → α → Prop) (good inv : σ → Prop)
    (keeps : ∀ state action next, allowed action → inv state → step state action = some next → inv next)
    (decides : ∀ state action next, allowed action → inv state → good state → step state action = some next →
      (good next ↔ guard state action))
    (state : σ) (actions : List α) (all : ∀ action ∈ actions, allowed action) (initial : inv state) (clean : good state) :
    Throughout step good state actions ↔ Meets step guard state actions := by
  induction actions generalizing state with
  | nil => exact ⟨fun _ => trivial, fun _ => clean⟩
  | cons action rest ih =>
      have now := all action (by simp)
      have later : ∀ other ∈ rest, allowed other := fun other member => all other (by simp [member])
      constructor
      · intro always next taken
        have nextGood := throughout_start step good next rest (always.2 next taken)
        exact ⟨(decides state action next now initial clean taken).mp nextGood,
          (ih next later (keeps state action next now initial taken) nextGood).mp (always.2 next taken)⟩
      · intro meets
        refine ⟨clean, fun next taken => ?_⟩
        obtain ⟨met, remaining⟩ := meets next taken
        have nextGood := (decides state action next now initial clean taken).mpr met
        exact (ih next later (keeps state action next now initial taken) nextGood).mpr remaining

-- Two guards that agree wherever the invariant holds, when steps that meet the second one keep it.
theorem meets_iff_meets (step : σ → α → Option σ) (one two : σ → α → Prop) (inv : σ → Prop)
    (agree : ∀ state action next, inv state → step state action = some next → (one state action ↔ two state action))
    (keeps : ∀ state action next, inv state → two state action → step state action = some next → inv next)
    (state : σ) (actions : List α) (initial : inv state) : Meets step one state actions ↔ Meets step two state actions := by
  induction actions generalizing state with
  | nil => exact Iff.rfl
  | cons action rest ih =>
      constructor
      · intro meets next taken
        obtain ⟨met, later⟩ := meets next taken
        have now := (agree state action next initial taken).mp met
        exact ⟨now, (ih next (keeps state action next initial now taken)).mp later⟩
      · intro meets next taken
        obtain ⟨now, later⟩ := meets next taken
        exact ⟨(agree state action next initial taken).mpr now, (ih next (keeps state action next initial now taken)).mpr later⟩

-- What is asked holds of the state and the action at every step that is begun, whether or not it can be taken.
def Obeys (step : σ → α → Option σ) (asked : σ → α → Prop) : σ → List α → Prop
  | _, [] => True
  | state, action :: rest => asked state action ∧ ∀ next, step state action = some next → Obeys step asked next rest

theorem obeys_guarded (step : σ → α → Option σ) (guard asked : σ → α → Prop) (inv : σ → Prop)
    (now : ∀ state action, inv state → guard state action → asked state action)
    (keeps : ∀ state action next, inv state → guard state action → step state action = some next → inv next)
    (state : σ) (actions : List α) (initial : inv state) (guarded : Obeys step guard state actions) :
    Obeys step asked state actions := by
  induction actions generalizing state with
  | nil => trivial
  | cons action rest ih =>
      exact ⟨now state action initial guarded.1,
        fun next taken => ih next (keeps state action next initial guarded.1 taken) (guarded.2 next taken)⟩

theorem obeys_iff_guarded (step : σ → α → Option σ) (one two : σ → α → Prop) (inv : σ → Prop)
    (agree : ∀ state action, inv state → (one state action ↔ two state action))
    (keeps : ∀ state action next, inv state → two state action → step state action = some next → inv next)
    (state : σ) (actions : List α) (initial : inv state) : Obeys step one state actions ↔ Obeys step two state actions := by
  constructor
  · exact obeys_guarded step one two inv (fun state action holds => (agree state action holds).mp)
      (fun state action next holds met => keeps state action next holds ((agree state action holds).mp met)) state actions initial
  · exact obeys_guarded step two one inv (fun state action holds => (agree state action holds).mpr) keeps state actions initial

theorem obeys_iff_obeys (step : σ → α → Option σ) (one two : σ → α → Prop) (inv : σ → Prop)
    (agree : ∀ state action, inv state → (one state action ↔ two state action))
    (keeps : ∀ state action next, inv state → step state action = some next → inv next)
    (state : σ) (actions : List α) (initial : inv state) : Obeys step one state actions ↔ Obeys step two state actions :=
  obeys_iff_guarded step one two inv agree (fun state action next holds _ => keeps state action next holds) state actions initial

end Runs
