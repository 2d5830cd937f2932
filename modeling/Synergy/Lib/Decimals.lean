import Mathlib.Data.Nat.Digits.Defs
import Mathlib.Data.Nat.Digits.Lemmas

set_option autoImplicit false

-- Decimal numerals as characters, the most significant digit first.
namespace Decimals

def character (digit : Nat) : UInt8 := UInt8.ofNat (48 + digit)

def numeral (number : Nat) : List UInt8 := (Nat.digits 10 number).reverse.map character

def shift (value : Nat) (digit : UInt8) : Nat := value * 10 + (digit.toNat - 48)

theorem character_value (digit : Nat) (small : digit < 10) : (character digit).toNat = 48 + digit := by
  rw [character, UInt8.toNat_ofNat']
  omega

theorem numeral_characters (number : Nat) (c : UInt8) (member : c ∈ numeral number) : 48 ≤ c ∧ c ≤ 57 := by
  obtain ⟨digit, inside, same⟩ := List.mem_map.mp member
  have small := Nat.digits_lt_base (by decide) (List.mem_reverse.mp inside)
  have value := character_value digit small
  rw [same] at value
  rw [UInt8.le_iff_toNat_le, UInt8.le_iff_toNat_le, value]
  constructor
  · exact Nat.le_add_right 48 digit
  · change 48 + digit ≤ 57
    omega

theorem numeral_nonempty (number : Nat) (nonzero : number ≠ 0) : numeral number ≠ [] := by
  intro empty
  rw [numeral, List.map_eq_nil_iff, List.reverse_eq_nil_iff, Nat.digits_eq_nil_iff_eq_zero] at empty
  exact nonzero empty

theorem foldr_shift (digits : List Nat) (small : ∀ digit ∈ digits, digit < 10) :
    (digits.reverse.map character).foldl shift 0 = Nat.ofDigits 10 digits := by
  induction digits with
  | nil => rfl
  | cons digit later ih =>
      have here := character_value digit (small digit List.mem_cons_self)
      have rest := ih fun other member => small other (List.mem_cons_of_mem _ member)
      rw [List.reverse_cons, List.map_append, List.foldl_append, rest, Nat.ofDigits_cons]
      simp only [List.map_cons, List.map_nil, List.foldl_cons, List.foldl_nil, shift, here]
      omega

theorem numeral_value (number : Nat) : (numeral number).foldl shift 0 = number := by
  rw [numeral, foldr_shift _ fun digit member => Nat.digits_lt_base (by decide) member, Nat.ofDigits_digits]

theorem numeral_short (number width : Nat) (small : number < 10 ^ width) : (numeral number).length ≤ width := by
  rw [numeral, List.length_map, List.length_reverse]
  exact (Nat.digits_length_le_iff (by decide) number).mpr small

end Decimals
