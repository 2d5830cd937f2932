import Mathlib.Data.Nat.Count
import Mathlib.Data.Fintype.EquivFin
import Mathlib.Data.Nat.ModEq
import Mathlib.Data.Nat.Prime.Basic
import Mathlib.Algebra.Ring.Parity
import Mathlib.Tactic.Ring

set_option autoImplicit false

-- Open addressing: the walk that jumps 1, 2, 3, … from where it starts, and what a table of slots filled along such walks stores.
namespace Probing

universe u v

def probe (size start i : Nat) : Nat := (start + i * (i + 1) / 2) % size

theorem probe_inside (size start i : Nat) (positive : 0 < size) : probe size start i < size := Nat.mod_lt _ positive

theorem probe_zero (size start : Nat) (inside : start < size) : probe size start 0 = start := Nat.mod_eq_of_lt inside

theorem probe_succ (size start i : Nat) : probe size start (i + 1) = (probe size start i + (i + 1)) % size := by
  have jump : (i + 1) * (i + 1 + 1) / 2 = i * (i + 1) / 2 + (i + 1) := by
    have spread : (i + 1) * (i + 1 + 1) = i * (i + 1) + (i + 1) * 2 := by ring
    rw [spread, Nat.add_mul_div_right _ _ (by omega)]
  rw [probe, probe, jump, Nat.mod_add_mod, Nat.add_assoc]

theorem twice_triangle (i : Nat) : 2 * (i * (i + 1) / 2) = i * (i + 1) := Nat.two_mul_div_two_of_even (Nat.even_mul_succ_self i)

-- Of the two factors only one can be even, and neither reaches twice the size.
theorem probe_injective (k start i j : Nat) (ordered : i ≤ j) (bounded : j < 2 ^ k)
    (same : probe (2 ^ k) start i = probe (2 ^ k) start j) : i = j := by
  have apart : 2 ^ k ∣ j * (j + 1) / 2 - i * (i + 1) / 2 :=
    (Nat.modEq_iff_dvd' (Nat.div_le_div_right (Nat.mul_le_mul ordered (by omega)))).mp (Nat.ModEq.add_left_cancel' start same)
  have doubled : 2 ^ (k + 1) ∣ (j - i) * (i + j + 1) := by
    have factored : 2 * (j * (j + 1) / 2 - i * (i + 1) / 2) = (j - i) * (i + j + 1) := by
      obtain ⟨d, rfl⟩ := Nat.exists_eq_add_of_le ordered
      rw [Nat.mul_sub, twice_triangle, twice_triangle, Nat.add_sub_cancel_left]
      have spread : (i + d) * (i + d + 1) = i * (i + 1) + d * (i + (i + d) + 1) := by ring
      rw [spread, Nat.add_sub_cancel_left]
    rw [← factored, Nat.pow_succ, Nat.mul_comm (2 ^ k) 2]
    exact Nat.mul_dvd_mul_left 2 apart
  have double : 2 ^ (k + 1) = 2 * 2 ^ k := by rw [Nat.pow_succ, Nat.mul_comm]
  by_contra different
  rcases Nat.even_or_odd (j - i) with even | odd
  · have other : Odd (i + j + 1) := by
      obtain ⟨d, twice⟩ := even
      exact ⟨i + d, by omega⟩
    have divides := (Nat.Coprime.pow_left (k + 1) (Nat.coprime_two_left.mpr other)).dvd_of_dvd_mul_right doubled
    have := Nat.le_of_dvd (by omega) divides
    omega
  · have divides := (Nat.Coprime.pow_left (k + 1) (Nat.coprime_two_left.mpr odd)).dvd_of_dvd_mul_left doubled
    have := Nat.le_of_dvd (by omega) divides
    omega

-- The first 2 ^ k probes of a table of 2 ^ k slots meet each slot.
theorem probe_covers (k start b : Nat) (inside : b < 2 ^ k) : ∃ i < 2 ^ k, probe (2 ^ k) start i = b := by
  let walk : Fin (2 ^ k) → Fin (2 ^ k) := fun i => ⟨probe (2 ^ k) start i, probe_inside _ start i (Nat.two_pow_pos k)⟩
  have injective : Function.Injective walk := by
    intro i j same
    have values : probe (2 ^ k) start i = probe (2 ^ k) start j := congrArg Fin.val same
    apply Fin.ext
    rcases Nat.le_total i j with le | le
    · exact probe_injective k start i j le j.isLt values
    · exact (probe_injective k start j i le i.isLt values.symm).symm
  obtain ⟨i, reached⟩ := Finite.injective_iff_surjective.mp injective ⟨b, inside⟩
  exact ⟨i, i.isLt, congrArg Fin.val reached⟩

inductive Slot (κ : Type u) (ν : Type v) where
  | empty
  | gone
  | item (key : κ) (value : ν)
deriving DecidableEq

variable {κ : Type u} {ν : Type v}

def Slot.isEmpty : Slot κ ν → Bool
  | .empty => true
  | _ => false

def Slot.isItem : Slot κ ν → Bool
  | .item _ _ => true
  | _ => false

def Slot.isGone : Slot κ ν → Bool
  | .gone => true
  | _ => false

theorem count_changed (p q : Nat → Prop) [DecidablePred p] [DecidablePred q] (b : Nat) (elsewhere : ∀ a, a ≠ b → (p a ↔ q a)) (n : Nat)
    (inside : b < n) : Nat.count p n + (if q b then 1 else 0) = Nat.count q n + (if p b then 1 else 0) := by
  have below : ∀ m ≤ b, Nat.count p m = Nat.count q m := by
    intro m le
    refine le_antisymm (Nat.count_mono_left ?_) (Nat.count_mono_left ?_)
    · exact fun a less => (elsewhere a (by omega)).mp
    · exact fun a less => (elsewhere a (by omega)).mpr
  induction n with
  | zero => omega
  | succ n ih =>
      rw [Nat.count_succ, Nat.count_succ]
      by_cases last : b = n
      · subst last
        rw [below b (Nat.le_refl b)]
        omega
      · have earlier := ih (by omega)
        rw [if_congr (elsewhere n (Ne.symm last)) rfl rfl]
        omega

theorem count_room (p : Nat → Prop) [DecidablePred p] (n : Nat) (fewer : Nat.count p n < n) : ∃ b < n, ¬ p b := by
  by_contra full
  push Not at full
  rw [Nat.count_iff_forall.mpr full] at fewer
  omega

theorem slot_counts (slot : Nat → Slot κ ν) (n : Nat) :
    Nat.count (fun b => (slot b).isEmpty = false) n =
      Nat.count (fun b => (slot b).isItem = true) n + Nat.count (fun b => (slot b).isGone = true) n := by
  induction n with
  | zero => simp
  | succ n ih =>
      rw [Nat.count_succ, Nat.count_succ, Nat.count_succ, ih]
      cases slot n <;> simp only [Slot.isEmpty, Slot.isItem, Slot.isGone, Bool.true_eq_false, Bool.false_eq_true, if_true,
        if_false] <;> omega

-- The table of a map: each key is stored once, and no walk of a stored key meets an empty slot before it.
structure Holds (size : Nat) (walk : κ → Nat → Nat) (slot : Nat → Slot κ ν) (map : κ → Option ν) : Prop where
  met : ∀ b < size, ∀ key value, slot b = .item key value → ∃ i < size, walk key i = b ∧ ∀ j < i, slot (walk key j) ≠ .empty
  once : ∀ a < size, ∀ b < size, ∀ key value other, slot a = .item key value → slot b = .item key other → a = b
  stores : ∀ key value, (∃ b < size, slot b = .item key value) ↔ map key = some value

section table

variable [DecidableEq κ] {size : Nat} {walk : κ → Nat → Nat} {slot : Nat → Slot κ ν} {map : κ → Option ν}

omit [DecidableEq κ] in
theorem holds_empty (slot : Nat → Slot κ ν) (bare : ∀ b < size, slot b = .empty) : Holds size walk slot (fun _ => none) where
  met := by
    intro b inside key value here
    rw [bare b inside] at here
    cases here
  once := by
    intro a inside _ _ key value _ here
    rw [bare a inside] at here
    cases here
  stores := by
    refine fun key value => ⟨?_, by intro found; cases found⟩
    rintro ⟨b, inside, here⟩
    rw [bare b inside] at here
    cases here

omit [DecidableEq κ] in
theorem holds_absent (holds : Holds size walk slot map) (key : κ) (i : Nat) (empty : slot (walk key i) = .empty)
    (passed : ∀ j < i, ∀ value, slot (walk key j) ≠ .item key value) : map key = none := by
  cases stored : map key with
  | none => rfl
  | some value =>
      obtain ⟨b, inside, here⟩ := (holds.stores key value).mpr stored
      obtain ⟨n, -, rfl, before⟩ := holds.met b inside key value here
      rcases Nat.lt_trichotomy n i with less | rfl | more
      · exact absurd here (passed n less value)
      · rw [empty] at here
        cases here
      · exact absurd empty (before i more)

theorem holds_put (holds : Holds size walk slot map) (key : κ) (value : ν) (i : Nat) (room : i < size)
    (inside : walk key i < size) (free : ∀ k v, slot (walk key i) ≠ .item k v) (path : ∀ j < i, slot (walk key j) ≠ .empty)
    (absent : map key = none) :
    Holds size walk (Function.update slot (walk key i) (.item key value)) (Function.update map key (some value)) := by
  have nowhere : ∀ b < size, ∀ v, slot b ≠ .item key v := by
    intro b bound v here
    rw [(holds.stores key v).mp ⟨b, bound, here⟩] at absent
    cases absent
  have full : ∀ b, slot b ≠ .empty → Function.update slot (walk key i) (.item key value) b ≠ .empty := by
    intro b taken
    by_cases at_ : b = walk key i
    · rw [at_, Function.update_self]
      rintro ⟨⟩
    · rwa [Function.update_of_ne at_]
  constructor
  · intro b bound k v here
    by_cases at_ : b = walk key i
    · rw [at_, Function.update_self] at here
      cases here
      exact ⟨i, room, at_.symm, fun j less => full _ (path j less)⟩
    · rw [Function.update_of_ne at_] at here
      obtain ⟨n, less, reached, before⟩ := holds.met b bound k v here
      exact ⟨n, less, reached, fun j earlier => full _ (before j earlier)⟩
  · intro a aBound b bBound k v w atA atB
    by_cases isA : a = walk key i <;> by_cases isB : b = walk key i
    · rw [isA, isB]
    · rw [isA, Function.update_self] at atA
      cases atA
      rw [Function.update_of_ne isB] at atB
      exact absurd atB (nowhere b bBound w)
    · rw [isB, Function.update_self] at atB
      cases atB
      rw [Function.update_of_ne isA] at atA
      exact absurd atA (nowhere a aBound v)
    · rw [Function.update_of_ne isA] at atA
      rw [Function.update_of_ne isB] at atB
      exact holds.once a aBound b bBound k v w atA atB
  · intro k v
    by_cases same : k = key
    · subst same
      rw [Function.update_self]
      constructor
      · rintro ⟨b, bound, here⟩
        by_cases at_ : b = walk k i
        · rw [at_, Function.update_self] at here
          cases here
          rfl
        · rw [Function.update_of_ne at_] at here
          exact absurd here (nowhere b bound v)
      · rintro ⟨⟩
        exact ⟨walk k i, inside, Function.update_self ..⟩
    · rw [Function.update_of_ne same, ← holds.stores k v]
      constructor
      · rintro ⟨b, bound, here⟩
        by_cases at_ : b = walk key i
        · rw [at_, Function.update_self] at here
          cases here
          exact absurd rfl same
        · exact ⟨b, bound, by rwa [Function.update_of_ne at_] at here⟩
      · rintro ⟨b, bound, here⟩
        have at_ : b ≠ walk key i := by
          rintro rfl
          exact free k v here
        exact ⟨b, bound, by rwa [Function.update_of_ne at_]⟩

theorem holds_change (holds : Holds size walk slot map) (b : Nat) (inside : b < size) (key : κ) (value : ν)
    (here : slot b = .item key value) (fresh : Slot κ ν) (left : Option ν)
    (changed : fresh = .gone ∧ left = none ∨ ∃ v, fresh = .item key v ∧ left = some v) :
    Holds size walk (Function.update slot b fresh) (Function.update map key left) := by
  have full : ∀ a, slot a ≠ .empty → Function.update slot b fresh a ≠ .empty := by
    intro a taken
    by_cases at_ : a = b
    · rw [at_, Function.update_self]
      rcases changed with ⟨rfl, -⟩ | ⟨v, rfl, -⟩ <;> rintro ⟨⟩
    · rwa [Function.update_of_ne at_]
  have old : ∀ a, ∀ k v, Function.update slot b fresh a = .item k v → ∃ w, slot a = .item k w := by
    intro a k v found
    by_cases at_ : a = b
    · rw [at_, Function.update_self] at found
      rcases changed with ⟨rfl, -⟩ | ⟨v', rfl, -⟩
      · cases found
      · cases found
        exact ⟨value, at_ ▸ here⟩
    · rw [Function.update_of_ne at_] at found
      exact ⟨v, found⟩
  constructor
  · intro a bound k v found
    obtain ⟨w, was⟩ := old a k v found
    obtain ⟨n, less, reached, before⟩ := holds.met a bound k w was
    exact ⟨n, less, reached, fun j earlier => full _ (before j earlier)⟩
  · intro a aBound c cBound k v w atA atC
    obtain ⟨_, wasA⟩ := old a k v atA
    obtain ⟨_, wasC⟩ := old c k w atC
    exact holds.once a aBound c cBound k _ _ wasA wasC
  · intro k v
    by_cases same : k = key
    · subst same
      rw [Function.update_self]
      constructor
      · rintro ⟨a, bound, found⟩
        obtain ⟨w, was⟩ := old a k v found
        obtain rfl := holds.once a bound b inside k w value was here
        rw [Function.update_self] at found
        rcases changed with ⟨rfl, -⟩ | ⟨v', rfl, rfl⟩
        · cases found
        · cases found
          rfl
      · intro kept
        rcases changed with ⟨-, rfl⟩ | ⟨v', rfl, rfl⟩
        · cases kept
        · cases kept
          exact ⟨b, inside, Function.update_self ..⟩
    · rw [Function.update_of_ne same, ← holds.stores k v]
      have apart : ∀ a w, slot a = .item k w → a ≠ b := by
        rintro a w was rfl
        rw [here] at was
        cases was
        exact same rfl
      constructor
      · rintro ⟨a, bound, found⟩
        obtain ⟨w, was⟩ := old a k v found
        exact ⟨a, bound, by rwa [Function.update_of_ne (apart a w was)] at found⟩
      · rintro ⟨a, bound, was⟩
        exact ⟨a, bound, by rwa [Function.update_of_ne (apart a v was)]⟩

end table

end Probing
