import Mathlib.Data.List.Basic

set_option autoImplicit false

-- while (size) body, with a bound on the rounds. out is what a loop that has used them up stops with.
namespace Loops

universe u v

variable {ε : Type u} {σ : Type v}

def whileSize (out : ε) (size : σ → Nat) (body : σ → Except ε σ) : Nat → σ → Except ε σ
  | 0, _ => .error out
  | fuel + 1, state =>
      if size state = 0 then .ok state
      else
        match body state with
        | .ok next => whileSize out size body fuel next
        | .error stop => .error stop

variable (out : ε) (size : σ → Nat) (body : σ → Except ε σ) (invariant : σ → Prop)

-- A body that keeps the invariant and shrinks what the condition tests brings the loop to its end.
theorem while_ends
    (step : ∀ state, invariant state → size state ≠ 0 →
      ∃ next, body state = .ok next ∧ invariant next ∧ size next < size state)
    (fuel : Nat) (state : σ) (enough : size state < fuel) (holds : invariant state) :
    ∃ last, whileSize out size body fuel state = .ok last := by
  induction fuel generalizing state with
  | zero => exact absurd enough (Nat.not_lt_zero _)
  | succ fuel ih =>
      rw [whileSize]
      by_cases empty : size state = 0
      · exact ⟨state, if_pos empty⟩
      · obtain ⟨next, went, kept, shrunk⟩ := step state holds empty
        rw [if_neg empty, went]
        exact ih next (by omega) kept

theorem while_result
    (step : ∀ state next, invariant state → size state ≠ 0 → body state = .ok next → invariant next)
    (fuel : Nat) (state last : σ) (holds : invariant state) (done : whileSize out size body fuel state = .ok last) :
    invariant last ∧ size last = 0 := by
  induction fuel generalizing state with
  | zero => cases done
  | succ fuel ih =>
      rw [whileSize] at done
      by_cases empty : size state = 0
      · rw [if_pos empty] at done
        cases done
        exact ⟨holds, empty⟩
      · rw [if_neg empty] at done
        cases went : body state with
        | ok next =>
            rw [went] at done
            exact ih next (step state next holds empty went) done
        | error stop =>
            rw [went] at done
            cases done

-- A body that does not touch what the condition tests never brings it to an end.
theorem while_stuck (busy : ∀ state, invariant state → size state ≠ 0)
    (step : ∀ state next, invariant state → body state = .ok next → invariant next)
    (fuel : Nat) (state last : σ) (holds : invariant state) : whileSize out size body fuel state ≠ .ok last := by
  intro done
  obtain ⟨kept, empty⟩ := while_result out size body invariant (fun state next holds _ => step state next holds) fuel state last
    holds done
  exact busy last kept empty

end Loops
