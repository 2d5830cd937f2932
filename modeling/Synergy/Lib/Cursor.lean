import Mathlib.Data.List.Basic

set_option autoImplicit false

-- A cursor that is asked for one entry after another, and the list it gives before it has none left.
namespace Cursor

universe u v w

variable {ε : Type u} {σ : Type v} {β : Type w}

def Yields (next : σ → Except ε (σ × Option β)) : σ → List β → Prop
  | state, [] => ∃ last, next state = .ok (last, none)
  | state, entry :: rest => ∃ after, next state = .ok (after, some entry) ∧ Yields next after rest

-- The entries of for (p = first; p; p = next), with a bound on the rounds.
def visits (out : ε) (next : σ → Except ε (σ × Option β)) : Nat → σ → Except ε (List β)
  | 0, _ => .error out
  | fuel + 1, state =>
      match next state with
      | .ok (_, none) => .ok []
      | .ok (after, some entry) =>
          match visits out next fuel after with
          | .ok rest => .ok (entry :: rest)
          | .error stop => .error stop
      | .error stop => .error stop

-- while ((p = next)) if (keep(p)) return p; return NULL
def skip (out : ε) (keep : β → Except ε Bool) (next : σ → Except ε (σ × Option β)) : Nat → σ → Except ε (σ × Option β)
  | 0, _ => .error out
  | fuel + 1, state =>
      match next state with
      | .ok (last, none) => .ok (last, none)
      | .ok (after, some entry) =>
          match keep entry with
          | .ok true => .ok (after, some entry)
          | .ok false => skip out keep next fuel after
          | .error stop => .error stop
      | .error stop => .error stop

theorem visits_yields (out : ε) (next : σ → Except ε (σ × Option β)) (list : List β) (fuel : Nat) (state : σ)
    (yields : Yields next state list) (enough : list.length < fuel) : visits out next fuel state = .ok list := by
  induction list generalizing fuel state with
  | nil =>
      obtain ⟨last, ended⟩ := yields
      cases fuel with
      | zero => exact absurd enough (Nat.not_lt_zero _)
      | succ fuel => rw [visits, ended]
  | cons entry rest ih =>
      obtain ⟨after, given, yields⟩ := yields
      cases fuel with
      | zero => exact absurd enough (Nat.not_lt_zero _)
      | succ fuel => rw [visits, given]; simp only [ih fuel after yields (Nat.lt_of_succ_lt_succ enough)]

theorem skip_yields (out : ε) (keep : β → Except ε Bool) (kept : β → Bool) (next : σ → Except ε (σ × Option β)) (list : List β)
    (state : σ) (fuel : Nat) (yields : Yields next state list) (decided : ∀ entry ∈ list, keep entry = .ok (kept entry))
    (enough : list.length < fuel) : Yields (skip out keep next fuel) state (list.filter kept) := by
  suffices general : ∀ n, list.length < n → (∀ state, Yields next state list →
      match list.filter kept with
      | [] => ∃ last, skip out keep next n state = .ok (last, none)
      | entry :: rest => ∃ after, skip out keep next n state = .ok (after, some entry) ∧ Yields (skip out keep next fuel) after rest) by
    have here := general fuel enough state yields
    revert here
    cases list.filter kept <;> exact id
  clear yields state
  intro n
  induction list generalizing n with
  | nil =>
      intro bound state ended
      cases n with
      | zero => exact absurd bound (Nat.not_lt_zero _)
      | succ n =>
          obtain ⟨last, ended⟩ := ended
          exact ⟨last, by rw [skip, ended]⟩
  | cons entry rest ih =>
      intro bound state given
      have decidedRest : ∀ other ∈ rest, keep other = .ok (kept other) := fun other member => decided other (List.mem_cons_of_mem _ member)
      have shorter : rest.length < fuel := Nat.lt_of_succ_lt enough
      cases n with
      | zero => exact absurd bound (Nat.not_lt_zero _)
      | succ n =>
          obtain ⟨after, given, yields⟩ := given
          have taken := decided entry (List.mem_cons_self ..)
          cases keeps : kept entry with
          | true =>
              rw [List.filter_cons_of_pos keeps]
              refine ⟨after, by rw [skip, given]; simp only [taken, keeps], ?_⟩
              have later := ih decidedRest shorter fuel shorter after yields
              revert later
              cases rest.filter kept <;> exact id
          | false =>
              rw [List.filter_cons_of_neg (by rw [keeps]; exact Bool.false_ne_true)]
              have over_ : skip out keep next (n + 1) state = skip out keep next n after := by
                rw [skip, given]
                simp only [taken, keeps]
              rw [over_]
              exact ih decidedRest shorter n (Nat.lt_of_succ_lt_succ bound) after yields

end Cursor
