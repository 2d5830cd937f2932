import Mathlib.Data.ZMod.Defs

set_option autoImplicit false

-- Counting around a ring of n places from one of them.
namespace Around

variable {n : Nat} [NeZero n]

def place (start : Fin n) (k : Nat) : Fin n := Fin.ofNat n (start.val + k)

@[simp] theorem place_zero (start : Fin n) : place start 0 = start := by
  apply Fin.ext
  simp only [place, Nat.add_zero, Fin.val_ofNat]
  exact Nat.mod_eq_of_lt start.isLt

theorem place_succ (start : Fin n) (k : Nat) : place start (k + 1) = place start k + 1 := by
  apply Fin.ext
  simp only [place, Fin.val_ofNat, Fin.val_add, Fin.val_one', Nat.add_mod_mod, Nat.mod_add_mod, Nat.add_assoc]

theorem place_full (start : Fin n) : place start n = start := by
  apply Fin.ext
  simp only [place, Fin.val_ofNat, Nat.add_mod_right]
  exact Nat.mod_eq_of_lt start.isLt

theorem place_injective (start : Fin n) (k l : Nat) (first : k < n) (second : l < n) (same : place start k = place start l) : k = l := by
  have values := congrArg Fin.val same
  simp only [place, Fin.val_ofNat] at values
  have congruent : k ≡ l [MOD n] := Nat.ModEq.add_left_cancel' start.val values
  exact Nat.ModEq.eq_of_lt_of_lt congruent first second

theorem place_surjective (start i : Fin n) : ∃ k < n, place start k = i := by
  have room := start.isLt
  have inside := i.isLt
  by_cases ahead : start.val ≤ i.val
  · refine ⟨i.val - start.val, by omega, Fin.ext ?_⟩
    simp only [place, Fin.val_ofNat, Nat.add_sub_cancel' ahead]
    exact Nat.mod_eq_of_lt inside
  · refine ⟨i.val + n - start.val, by omega, Fin.ext ?_⟩
    have whole : start.val + (i.val + n - start.val) = i.val + n := by omega
    simp only [place, Fin.val_ofNat, whole, Nat.add_mod_right]
    exact Nat.mod_eq_of_lt inside

end Around
