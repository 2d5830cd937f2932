import Mathlib.Data.Nat.Bitwise
import Mathlib.Tactic.Ring

set_option autoImplicit false

-- Fixed-width base-256 representation of a natural number, least significant digit first.
namespace Digits

def digits : Nat → Nat → List UInt8
  | 0, _ => []
  | width + 1, value => UInt8.ofNat (value % 256) :: digits width (value / 256)

def value : List UInt8 → Nat
  | [] => 0
  | digit :: rest => digit.toNat + 256 * value rest

@[simp] theorem digits_length (width number : Nat) : (digits width number).length = width := by
  induction width generalizing number with
  | zero => rfl
  | succ width ih => simp [digits, ih]

theorem value_digits (width number : Nat) : value (digits width number) = number % 256 ^ width := by
  induction width generalizing number with
  | zero => simp [digits, value, Nat.mod_one]
  | succ width ih =>
      have small : (UInt8.ofNat (number % 256)).toNat = number % 256 := by
        simp [UInt8.toNat_ofNat']
      rw [digits, value, ih, small, Nat.pow_succ, Nat.mul_comm (256 ^ width) 256, Nat.mod_mul]

theorem digits_value (list : List UInt8) : digits list.length (value list) = list := by
  induction list with
  | nil => rfl
  | cons digit rest ih =>
      have bound := digit.toNat_lt
      have low : (digit.toNat + 256 * value rest) % 256 = digit.toNat := by omega
      have high : (digit.toNat + 256 * value rest) / 256 = value rest := by omega
      simp only [List.length_cons, value, digits, low, high, ih, UInt8.ofNat_toNat]

theorem value_bound (list : List UInt8) : value list < 256 ^ list.length := by
  induction list with
  | nil => simp [value]
  | cons digit rest ih =>
      have bound := digit.toNat_lt
      simp only [value, List.length_cons, Nat.pow_succ]
      omega

theorem digits_append (low high number : Nat) :
    digits (low + high) number = digits low number ++ digits high (number / 256 ^ low) := by
  induction low generalizing number with
  | zero => simp [digits]
  | succ low ih =>
      rw [Nat.succ_add, digits, digits, ih, Nat.div_div_eq_div_mul, Nat.pow_succ,
        Nat.mul_comm 256 (256 ^ low), List.cons_append]

theorem digits_mod (width number : Nat) : digits width (number % 256 ^ width) = digits width number := by
  have back := digits_value (digits width number)
  rwa [digits_length, value_digits] at back

end Digits
