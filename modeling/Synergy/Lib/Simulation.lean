import Synergy.Lib.Run

set_option autoImplicit false

-- Forward simulation: every step of one system is a run of another one, from related states to related states.
namespace Runs

universe u v u' v'

variable {σ : Type u} {α : Type v} {τ : Type u'} {β : Type v'}

-- shown: the actions of the high system that an action of the low one comes to, none when it only stutters.
def Simulates (low : σ → α → Option σ) (high : τ → β → Option τ) (shown : α → List β) (good : σ → Prop)
    (guard : σ → α → Prop)
    (related : σ → τ → Prop) : Prop :=
  ∀ state action next image, related state image → good state → good next → guard state action → low state action = some next →
    ∃ later, run high image (shown action) = some later ∧ related next later

theorem run_joined (step : σ → α → Option σ) (state middle last : σ) (first second : List α) (one : run step state first = some middle)
    (two : run step middle second = some last) : run step state (first ++ second) = some last := by
  rw [run_append, one]
  exact two

theorem run_simulated (low : σ → α → Option σ) (high : τ → β → Option τ) (shown : α → List β) (good : σ → Prop)
    (guard : σ → α → Prop) (related : σ → τ → Prop) (simulates : Simulates low high shown good guard related)
    (state last : σ) (image : τ) (actions : List α) (start : related state image) (always : Throughout low good state actions)
    (meets : Meets low guard state actions) (ran : run low state actions = some last) :
    ∃ final, run high image (actions.flatMap shown) = some final ∧ related last final := by
  induction actions generalizing state image with
  | nil =>
      cases ran
      exact ⟨image, rfl, start⟩
  | cons action rest ih =>
      obtain ⟨next, taken, remaining⟩ := run_cons_some low state last action rest ran
      obtain ⟨allowed, later⟩ := meets next taken
      have nextGood := throughout_start low good next rest (always.2 next taken)
      obtain ⟨middle, matched, relates⟩ := simulates state action next image start always.1 nextGood allowed taken
      obtain ⟨final, reached, related⟩ := ih next middle relates (always.2 next taken) later remaining
      exact ⟨final, by rw [List.flatMap_cons]; exact run_joined high image middle final _ _ matched reached, related⟩

-- Whether a property holds all along a run of which it can be told.
instance decidableThroughout (step : σ → α → Option σ) (good : σ → Prop) [DecidablePred good] :
    (state : σ) → (actions : List α) → Decidable (Throughout step good state actions)
  | state, [] => inferInstanceAs (Decidable (good state))
  | state, action :: rest =>
      match taken : step state action with
      | none => decidable_of_iff (good state)
          ⟨fun here => ⟨here, fun next is => by rw [taken] at is; cases is⟩, fun always => always.1⟩
      | some next =>
          have : Decidable (Throughout step good next rest) := decidableThroughout step good next rest
          decidable_of_iff (good state ∧ Throughout step good next rest)
            ⟨fun both => ⟨both.1, fun other is => by rw [taken] at is; cases is; exact both.2⟩,
              fun always => ⟨always.1, always.2 next taken⟩⟩

end Runs
