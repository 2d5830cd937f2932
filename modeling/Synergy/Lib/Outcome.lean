import Mathlib.Data.List.Basic

set_option autoImplicit false

-- Computations that can stop: what holds of the result, and which stops are allowed.
namespace Outcomes

universe u v

variable {ε : Type u} {α β : Type v}

def Holds (allowed : ε → Prop) (good : α → Prop) : Except ε α → Prop
  | .ok result => good result
  | .error stop => allowed stop

theorem holds_bind (allowed : ε → Prop) (first : α → Prop) (good : β → Prop) (one : Except ε α) (two : α → Except ε β)
    (holds : Holds allowed first one) (rest : ∀ result, first result → Holds allowed good (two result)) :
    Holds allowed good (one >>= two) := by
  cases one with
  | ok result => exact rest result holds
  | error stop => exact holds

theorem holds_bind_ok (allowed : ε → Prop) (good : β → Prop) (one : Except ε α) (two : α → Except ε β)
    (holds : Holds allowed (fun _ => True) one) (rest : ∀ result, one = .ok result → Holds allowed good (two result)) :
    Holds allowed good (one >>= two) := by
  cases one with
  | ok result => exact rest result rfl
  | error stop => exact holds

theorem holds_stop (allowed : ε → Prop) (good : α → Prop) (computation : Except ε α) (stop : ε)
    (holds : Holds allowed good computation) (stopped : computation = .error stop) : allowed stop := by
  rw [stopped] at holds
  exact holds

end Outcomes
