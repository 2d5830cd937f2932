import Synergy.Tuple
import Synergy.Lib.Globs

set_option autoImplicit false

namespace Synergy

open Globs

def globSymbol (c : UInt8) : Symbol UInt8 := if c = '?'.toUInt8 then .one else if c = '*'.toUInt8 then .many else .lit c

-- '?' is one character, '*' any sequence of them.
def glob (expr : Bytes) : Language UInt8 := language (expr.map globSymbol)

-- The '*' of expr that stand at a '*' of name stand for that one character.
def StarsAtStars (expr name : Bytes) : Prop := Placed '*'.toUInt8 (expr.map globSymbol) name

-- A pointer into a string may read the terminator and nothing behind it.
def charAt (str : Bytes) (i : Nat) : Except Stop UInt8 :=
  if inside : i < str.length then .ok str[i] else if i = str.length then .ok 0 else .error .undefined

-- _match over its two pointers. Every round and every call takes one from the fuel.
mutual

def matchFrom (expr name : Bytes) : Nat → Nat → Nat → Except Stop Int
  | 0, _, _ => .error .diverges
  | fuel + 1, i, j => do
      let e ← charAt expr i
      let n ← charAt name j
      if e = n then
        if n = 0 then return 0 else matchFrom expr name fuel (i + 1) (j + 1)
      else if e = '?'.toUInt8 then
        if n ≠ 0 then matchFrom expr name fuel (i + 1) (j + 1) else return 1
      else if e = '*'.toUInt8 then matchSuffixes expr name fuel (i + 1) j
      else return 1

-- The do loop of the '*'.
def matchSuffixes (expr name : Bytes) : Nat → Nat → Nat → Except Stop Int
  | 0, _, _ => .error .diverges
  | fuel + 1, i, j => do
      let found ← matchFrom expr name fuel i j
      if found = 0 then return 0
      let n ← charAt name j
      if n ≠ 0 then matchSuffixes expr name fuel i (j + 1) else return 1

end

theorem char_inside (str : Bytes) (i : Nat) (clean : NulFree str) (inside : i < str.length) :
    charAt str i = .ok str[i] ∧ str[i] ≠ 0 := by
  refine ⟨dif_pos inside, fun zero => clean ?_⟩
  rw [← zero]
  exact List.getElem_mem inside

theorem char_end (str : Bytes) : charAt str str.length = .ok 0 := by
  rw [charAt, dif_neg (Nat.lt_irrefl _), if_pos rfl]

theorem match_cons (c : UInt8) (expr name : Bytes) :
    match_ (c :: expr) name =
      if name.head? = some c then match_ expr name.tail
      else if c = '?'.toUInt8 then
        match name with
        | [] => 1
        | _ :: rest => match_ expr rest
      else if c = '*'.toUInt8 then
        if name.tails.any (fun rest => match_ expr rest = 0) then 0 else 1
      else 1 := by
  cases name <;> rfl

theorem match_suffixes_result (expr name : Bytes) (i need : Nat) (clean : NulFree name)
    (each : ∀ j fuel, j ≤ name.length → need ≤ fuel → matchFrom expr name fuel i j = .ok (match_ (expr.drop i) (name.drop j)))
    (left j fuel : Nat) (rest : j + left = name.length) (enough : need + left + 1 ≤ fuel) :
    matchSuffixes expr name fuel i j =
      .ok (if (name.drop j).tails.any (fun later => match_ (expr.drop i) later = 0) then 0 else 1) := by
  induction left generalizing j fuel with
  | zero =>
      obtain ⟨fuel, same⟩ : ∃ less, fuel = less + 1 := ⟨fuel - 1, by omega⟩
      subst same
      have last : j = name.length := by omega
      subst last
      have tried := each name.length fuel (Nat.le_refl _) (by omega)
      rw [List.drop_length] at tried ⊢
      simp only [matchSuffixes, tried, bind, Except.bind, char_end, List.tails, List.any_cons, List.any_nil, Bool.or_false,
        decide_eq_true_eq]
      split <;> rfl
  | succ left ih =>
      obtain ⟨fuel, same⟩ : ∃ less, fuel = less + 1 := ⟨fuel - 1, by omega⟩
      subst same
      have inside : j < name.length := by omega
      obtain ⟨read, nonzero⟩ := char_inside name j clean inside
      have tried := each j fuel (by omega) (by omega)
      have later := ih (j + 1) fuel (by omega) (by omega)
      have split : name.drop j = name[j] :: name.drop (j + 1) := List.drop_eq_getElem_cons inside
      simp only [matchSuffixes, tried, bind, Except.bind]
      rw [split, List.tails, List.any_cons, ← split]
      by_cases found : match_ (expr.drop i) (name.drop j) = 0
      · simp [found, pure, Except.pure]
      · simp only [found, if_false, read, ne_eq, nonzero, not_false_eq_true, if_true, later, decide_false, Bool.false_or]

theorem match_from_result (expr name : Bytes) (cleanExpr : NulFree expr) (cleanName : NulFree name) (left i j fuel : Nat)
    (rest : i + left = expr.length) (inside : j ≤ name.length) (enough : (left + 1) * (name.length + 2) ≤ fuel) :
    matchFrom expr name fuel i j = .ok (match_ (expr.drop i) (name.drop j)) := by
  induction left generalizing i j fuel with
  | zero =>
      obtain ⟨fuel, same⟩ : ∃ less, fuel = less + 1 := ⟨fuel - 1, by omega⟩
      subst same
      have last : i = expr.length := by omega
      subst last
      rw [List.drop_length]
      by_cases ended : j = name.length
      · subst ended
        rw [List.drop_length]
        simp [matchFrom, char_end, match_, bind, Except.bind, pure, Except.pure]
      · have more : j < name.length := by omega
        obtain ⟨read, nonzero⟩ := char_inside name j cleanName more
        have split : name.drop j = name[j] :: name.drop (j + 1) := List.drop_eq_getElem_cons more
        have other : ¬ (0 : UInt8) = name[j] := fun zero => nonzero zero.symm
        have noOne : ¬ (0 : UInt8) = '?'.toUInt8 := by decide
        have noMany : ¬ (0 : UInt8) = '*'.toUInt8 := by decide
        rw [split]
        simp only [matchFrom, char_end, read, bind, Except.bind, other, noOne, noMany, if_false, match_, reduceCtorEq, pure,
          Except.pure]
  | succ left ih =>
      obtain ⟨fuel, same⟩ : ∃ less, fuel = less + 1 := ⟨fuel - 1, by rw [Nat.succ_mul] at enough; omega⟩
      subst same
      have here : i < expr.length := by omega
      have room : (left + 1) * (name.length + 2) + name.length + 1 ≤ fuel := by
        rw [Nat.succ_mul] at enough
        omega
      obtain ⟨readExpr, nonzeroExpr⟩ := char_inside expr i cleanExpr here
      have exprSplit : expr.drop i = expr[i] :: expr.drop (i + 1) := List.drop_eq_getElem_cons here
      have suffixes := match_suffixes_result expr name (i + 1) ((left + 1) * (name.length + 2)) cleanName
        (fun j fuel inside enough => ih (i + 1) j fuel (by omega) inside enough) (name.length - j) j fuel (by omega) (by omega)
      rw [exprSplit, match_cons]
      by_cases ended : j = name.length
      · subst ended
        rw [List.drop_length] at suffixes ⊢
        simp only [matchFrom, readExpr, char_end, bind, Except.bind, nonzeroExpr, if_false, List.head?_nil, reduceCtorEq, ne_eq,
          not_true_eq_false, suffixes]
        split_ifs <;> rfl
      · have more : j < name.length := by omega
        obtain ⟨readName, nonzeroName⟩ := char_inside name j cleanName more
        have nameSplit : name.drop j = name[j] :: name.drop (j + 1) := List.drop_eq_getElem_cons more
        have next := ih (i + 1) (j + 1) fuel (by omega) (by omega) (by omega)
        simp only [matchFrom, readExpr, readName, bind, Except.bind, nonzeroName, if_false, ne_eq, not_false_eq_true, if_true, next,
          suffixes]
        rw [nameSplit]
        simp only [List.head?_cons, List.tail_cons, Option.some.injEq]
        by_cases same : expr[i] = name[j]
        · rw [if_pos same, if_pos same.symm]
        · have other : ¬ name[j] = expr[i] := fun is => same is.symm
          rw [if_neg same, if_neg other]
          split_ifs <;> rfl

theorem match_one (expr name : Bytes) :
    match_ ('?'.toUInt8 :: expr) name = 0 ↔ ∃ first rest, first :: rest = name ∧ match_ expr rest = 0 := by
  rw [match_cons]
  cases name with
  | nil => simp
  | cons first rest => simp

theorem match_many (expr name : Bytes) :
    match_ ('*'.toUInt8 :: expr) name = 0 ↔
      if name.head? = some '*'.toUInt8 then match_ expr name.tail = 0 else ∃ rest, rest <:+ name ∧ match_ expr rest = 0 := by
  have other : ¬ '*'.toUInt8 = '?'.toUInt8 := by decide
  rw [match_cons, if_neg other, if_pos rfl]
  by_cases star : name.head? = some '*'.toUInt8
  · rw [if_pos star, if_pos star]
  · rw [if_neg star, if_neg star]
    have found : name.tails.any (fun rest => match_ expr rest = 0) = true ↔ ∃ rest, rest <:+ name ∧ match_ expr rest = 0 := by
      simp
    rw [← found]
    split <;> simp_all

theorem match_lit (c : UInt8) (expr name : Bytes) (noOne : c ≠ '?'.toUInt8) (noMany : c ≠ '*'.toUInt8) :
    match_ (c :: expr) name = 0 ↔ ∃ rest, c :: rest = name ∧ match_ expr rest = 0 := by
  rw [match_cons, if_neg noOne, if_neg noMany]
  cases name with
  | nil => simp
  | cons first rest =>
      by_cases same : first = c
      · simp [same]
      · simp [same, Ne.symm same]

-- The greedy first loop also takes a '*' of the pattern for itself.
theorem match_stars (expr name : Bytes) : match_ expr name = 0 ↔ StarsAtStars expr name := by
  induction expr generalizing name with
  | nil => simp [match_, StarsAtStars, Placed]
  | cons c expr ih =>
      rw [StarsAtStars, List.map_cons]
      by_cases one : c = '?'.toUInt8
      · rw [globSymbol, if_pos one, one, match_one, Placed]
        simp only [ih, StarsAtStars]
      · by_cases many : c = '*'.toUInt8
        · rw [globSymbol, if_neg one, if_pos many, many, match_many, Placed]
          simp only [ih, StarsAtStars]
        · rw [globSymbol, if_neg one, if_neg many, match_lit c expr name one many, Placed]
          simp only [ih, StarsAtStars]

theorem match_sound (expr name : Bytes) (found : match_ expr name = 0) : name ∈ glob expr :=
  placed_fits _ _ _ ((match_stars expr name).mp found)

-- It comes to an end, stays inside the strings and returns 0 for the names of the language and no others.
def DecidesGlob (expr name : Bytes) : Prop :=
  ∃ fuel, ∀ more, fuel ≤ more → ∃ result, matchFrom expr name more 0 0 = .ok result ∧ (result = 0 ↔ name ∈ glob expr)

theorem match_start_result (expr name : Bytes) (cleanExpr : NulFree expr) (cleanName : NulFree name) (fuel : Nat)
    (enough : (expr.length + 1) * (name.length + 2) ≤ fuel) : matchFrom expr name fuel 0 0 = .ok (match_ expr name) := by
  have result := match_from_result expr name cleanExpr cleanName expr.length 0 0 fuel (Nat.zero_add _) (Nat.zero_le _) enough
  rwa [List.drop_zero, List.drop_zero] at result

theorem decides_match (expr name : Bytes) (cleanExpr : NulFree expr) (cleanName : NulFree name) (decides : DecidesGlob expr name)
    (fits : name ∈ glob expr) : match_ expr name = 0 := by
  obtain ⟨fuel, each⟩ := decides
  obtain ⟨result, done, decided⟩ := each _ (Nat.le_max_left fuel ((expr.length + 1) * (name.length + 2)))
  have computed := match_start_result expr name cleanExpr cleanName _ (Nat.le_max_right fuel _)
  rw [computed] at done
  cases done
  exact decided.mpr fits

theorem match_decides (expr name : Bytes) (cleanExpr : NulFree expr) (cleanName : NulFree name) :
    DecidesGlob expr name ↔ (name ∈ glob expr → StarsAtStars expr name) := by
  constructor
  · intro decides fits
    exact (match_stars expr name).mp (decides_match expr name cleanExpr cleanName decides fits)
  · intro aligned
    refine ⟨(expr.length + 1) * (name.length + 2), fun more enough => ?_⟩
    refine ⟨match_ expr name, match_start_result expr name cleanExpr cleanName more enough, ?_⟩
    constructor
    · exact match_sound expr name
    · intro fits
      exact (match_stars expr name).mpr (aligned fits)

-- The name A? of the examples under the pattern A*.
theorem match_decides_stored : DecidesGlob [65, 42] [65, 63] := by
  apply (match_decides [65, 42] [65, 63] (by decide) (by decide)).mpr
  intro _
  apply (match_stars _ _).mp
  decide

-- The pattern A* takes the '*' of the name A*1 for its own.
theorem starred_name_refused : ¬ ∀ expr name : Bytes, NulFree expr → NulFree name → DecidesGlob expr name := by
  intro claim
  have decides := claim [65, 42] [65, 42, 49] (by decide) (by decide)
  have fits : ([65, 42, 49] : Bytes) ∈ glob [65, 42] := by
    have empty : ([] : Bytes) ∈ language ([] : List (Symbol UInt8)) := (language_nil []).mpr rfl
    have many : ([42, 49] : Bytes) ∈ language [(.many : Symbol UInt8)] := (language_many [] [42, 49]).mpr ⟨[], empty, List.nil_suffix⟩
    exact (language_lit 65 [.many] [65, 42, 49]).mpr ⟨[42, 49], many, rfl⟩
  have refused : match_ [65, 42] [65, 42, 49] ≠ 0 := by decide
  exact refused (decides_match [65, 42] [65, 42, 49] (by decide) (by decide) decides fits)

end Synergy
