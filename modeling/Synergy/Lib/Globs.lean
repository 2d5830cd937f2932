import Mathlib.Computability.Language

set_option autoImplicit false

-- Patterns of symbols: one stands for itself, one for any letter, one for any word.
namespace Globs

universe u

variable {α : Type u}

inductive Symbol (α : Type u) where
  | lit (letter : α)
  | one
  | many

def Symbol.language : Symbol α → Language α
  | .lit letter => {[letter]}
  | .one => {word | ∃ letter, word = [letter]}
  | .many => Set.univ

def language (pattern : List (Symbol α)) : Language α := (pattern.map Symbol.language).prod

theorem language_nil (word : List α) : word ∈ language [] ↔ word = [] := Language.mem_one word

theorem language_cons (symbol : Symbol α) (pattern : List (Symbol α)) (word : List α) :
    word ∈ language (symbol :: pattern) ↔ ∃ front ∈ symbol.language, ∃ rest ∈ language pattern, front ++ rest = word := by
  rw [language, List.map_cons, List.prod_cons, Language.mem_mul]
  rfl

theorem language_lit (letter : α) (pattern : List (Symbol α)) (word : List α) :
    word ∈ language (.lit letter :: pattern) ↔ ∃ rest ∈ language pattern, letter :: rest = word := by
  rw [language_cons]
  constructor
  · rintro ⟨front, is, rest, inside, same⟩
    have single : front = [letter] := is
    subst single
    exact ⟨rest, inside, same⟩
  · rintro ⟨rest, inside, same⟩
    exact ⟨[letter], rfl, rest, inside, same⟩

theorem language_one (pattern : List (Symbol α)) (word : List α) :
    word ∈ language (.one :: pattern) ↔ ∃ letter, ∃ rest ∈ language pattern, letter :: rest = word := by
  rw [language_cons]
  constructor
  · rintro ⟨front, ⟨letter, single⟩, rest, inside, same⟩
    subst single
    exact ⟨letter, rest, inside, same⟩
  · rintro ⟨letter, rest, inside, same⟩
    exact ⟨[letter], ⟨letter, rfl⟩, rest, inside, same⟩

theorem language_many (pattern : List (Symbol α)) (word : List α) :
    word ∈ language (.many :: pattern) ↔ ∃ rest ∈ language pattern, rest <:+ word := by
  rw [language_cons]
  constructor
  · rintro ⟨front, _, rest, inside, same⟩
    exact ⟨rest, inside, front, same⟩
  · rintro ⟨rest, inside, front, same⟩
    exact ⟨front, trivial, rest, inside, same⟩

variable [DecidableEq α]

-- The word fits the pattern with each symbol for any word that stands in front of the given letter standing for that
-- letter alone.
def Placed (letter : α) : List (Symbol α) → List α → Prop
  | [], word => word = []
  | .lit wanted :: pattern, word => ∃ rest, wanted :: rest = word ∧ Placed letter pattern rest
  | .one :: pattern, word => ∃ first rest, first :: rest = word ∧ Placed letter pattern rest
  | .many :: pattern, word =>
      if word.head? = some letter then Placed letter pattern word.tail
      else ∃ rest, rest <:+ word ∧ Placed letter pattern rest

theorem placed_fits (letter : α) (pattern : List (Symbol α)) (word : List α) (placed : Placed letter pattern word) :
    word ∈ language pattern := by
  induction pattern generalizing word with
  | nil => exact (language_nil word).mpr placed
  | cons symbol pattern ih =>
      cases symbol with
      | lit wanted =>
          obtain ⟨rest, same, placed⟩ := placed
          exact (language_lit wanted pattern word).mpr ⟨rest, ih rest placed, same⟩
      | one =>
          obtain ⟨first, rest, same, placed⟩ := placed
          exact (language_one pattern word).mpr ⟨first, rest, ih rest placed, same⟩
      | many =>
          rw [Placed] at placed
          split at placed
          · exact (language_many pattern word).mpr ⟨word.tail, ih _ placed, List.tail_suffix word⟩
          · obtain ⟨rest, suffix, placed⟩ := placed
            exact (language_many pattern word).mpr ⟨rest, ih rest placed, suffix⟩

end Globs
