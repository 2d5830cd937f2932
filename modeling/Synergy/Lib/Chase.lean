import Mathlib.Logic.Function.Basic
import Mathlib.Data.List.Basic

set_option autoImplicit false

-- A row of nodes, each with a flag, and between neighbours a link on which the first of them sends what its flag has become.
-- A node that takes from its link a value that is not new to it keeps it to itself.
namespace Chase

-- Link d leads from node d to node d + 1. The head of a link is what was sent first.
structure Chain where
  flag : Nat → Bool
  link : Nat → List Bool

def Chain.turn (chain : Chain) (value : Bool) : Chain :=
  if chain.flag 0 = value then chain
  else { flag := Function.update chain.flag 0 value, link := Function.update chain.link 0 (chain.link 0 ++ [value]) }

-- Node d + 1 takes what comes first.
def Chain.take (chain : Chain) (d : Nat) : Chain :=
  match chain.link d with
  | [] => chain
  | value :: later =>
      let taken := Function.update chain.link d later
      if chain.flag (d + 1) = value then { chain with link := taken }
      else { flag := Function.update chain.flag (d + 1) value, link := Function.update taken (d + 1) (taken (d + 1) ++ [value]) }

-- Every value in the link is a change, and the last one is what the sender thinks now.
def Chased : Bool → List Bool → Bool → Prop
  | reader, [], writer => reader = writer
  | reader, value :: later, writer => value = !reader ∧ Chased value later writer

theorem chased_send (reader writer : Bool) (link : List Bool) (chased : Chased reader link writer) :
    Chased reader (link ++ [!writer]) (!writer) := by
  induction link generalizing reader with
  | nil =>
      rw [show reader = writer from chased]
      exact ⟨rfl, rfl⟩
  | cons value later ih => exact ⟨chased.1, ih value chased.2⟩

-- Only the first k + 1 nodes and the links between them count.
structure Agree (k : Nat) (chain other : Chain) : Prop where
  flags : ∀ d ≤ k, other.flag d = chain.flag d
  links : ∀ d < k, other.link d = chain.link d

theorem turn_agree (k : Nat) (chain next : Chain) (value : Bool) (before : chain.flag 0 = !value) (after : next.flag 0 = value)
    (flags : ∀ d, 0 < d → d ≤ k → next.flag d = chain.flag d)
    (links : ∀ d < k, next.link d = chain.link d ++ if d = 0 then [value] else []) : Agree k (chain.turn value) next := by
  have differs : ¬ chain.flag 0 = value := by rw [before]; simp
  rw [Chain.turn, if_neg differs]
  refine ⟨fun d inside => ?_, fun d inside => ?_⟩
  · simp only [Function.update_apply]
    by_cases start : d = 0
    · rw [if_pos start, start, after]
    · rw [if_neg start, flags d (Nat.pos_of_ne_zero start) inside]
  · simp only [Function.update_apply]
    by_cases start : d = 0
    · rw [if_pos start, links d inside, if_pos start, start]
    · rw [if_neg start, links d inside, if_neg start, List.append_nil]

theorem take_agree (k d : Nat) (chain next : Chain) (value : Bool) (rest : List Bool) (head : chain.link d = value :: rest)
    (after : next.flag (d + 1) = value) (flags : ∀ e ≤ k, e ≠ d + 1 → next.flag e = chain.flag e)
    (links : ∀ e < k, next.link e = (if e = d then rest else chain.link e) ++
      if e = d + 1 ∧ chain.flag (d + 1) ≠ value then [value] else []) : Agree k (chain.take d) next := by
  by_cases same : chain.flag (d + 1) = value
  · simp only [Chain.take, head, same, if_true]
    refine ⟨fun e inside => ?_, fun e inside => ?_⟩
    · by_cases here : e = d + 1
      · rw [here, after, same]
      · exact flags e inside here
    · rw [links e inside, if_neg fun both : e = d + 1 ∧ chain.flag (d + 1) ≠ value => both.2 same, List.append_nil]
      simp only [Function.update_apply]
  · simp only [Chain.take, head, same, if_false]
    refine ⟨fun e inside => ?_, fun e inside => ?_⟩
    · simp only [Function.update_apply]
      by_cases here : e = d + 1
      · rw [if_pos here, here, after]
      · rw [if_neg here, flags e inside here]
    · simp only [Function.update_apply, Nat.succ_ne_self, if_false]
      rw [links e inside]
      by_cases there : e = d + 1
      · have other : ¬ e = d := by omega
        rw [if_pos there, if_neg other, if_pos (⟨there, same⟩ : e = d + 1 ∧ chain.flag (d + 1) ≠ value), there]
      · rw [if_neg there, if_neg fun both : e = d + 1 ∧ chain.flag (d + 1) ≠ value => there both.1, List.append_nil]

def Follows (k : Nat) (chain : Chain) : Prop := ∀ d < k, Chased (chain.flag (d + 1)) (chain.link d) (chain.flag d)

theorem follows_agree (k : Nat) (chain other : Chain) (agree : Agree k chain other) (follows : Follows k chain) : Follows k other := by
  intro d inside
  rw [agree.flags (d + 1) (by omega), agree.links d inside, agree.flags d (by omega)]
  exact follows d inside

theorem follows_turn (k : Nat) (chain : Chain) (value : Bool) (follows : Follows k chain) : Follows k (chain.turn value) := by
  unfold Chain.turn
  by_cases same : chain.flag 0 = value
  · rw [if_pos same]
    exact follows
  · have turned : value = !chain.flag 0 := Bool.eq_not.mpr (Ne.symm same)
    rw [if_neg same]
    intro d inside
    cases d with
    | zero =>
        simp only [Function.update_self, Function.update_of_ne (Nat.succ_ne_zero 0)]
        rw [turned]
        exact chased_send _ _ _ (follows 0 inside)
    | succ d =>
        simp only [Function.update_of_ne (Nat.succ_ne_zero d), Function.update_of_ne (Nat.succ_ne_zero (d + 1))]
        exact follows (d + 1) inside

theorem follows_take (k : Nat) (chain : Chain) (d : Nat) (within : d < k) (follows : Follows k chain) : Follows k (chain.take d) := by
  unfold Chain.take
  split
  · exact follows
  · rename_i value later head
    have first := follows d within
    rw [head] at first
    obtain ⟨turned, rest⟩ := first
    have differs : ¬ chain.flag (d + 1) = value := by rw [turned]; simp
    dsimp only
    rw [if_neg differs]
    intro e inside
    by_cases here : e = d
    · subst here
      simp only [Function.update_self, Function.update_of_ne (Nat.succ_ne_self e).symm]
      exact rest
    · by_cases next : e = d + 1
      · subst next
        have other : d + 1 + 1 ≠ d + 1 := Nat.succ_ne_self _
        simp only [Function.update_self, Function.update_of_ne (Nat.succ_ne_self d), Function.update_of_ne other]
        have sent := chased_send _ _ _ (follows (d + 1) inside)
        rwa [← turned] at sent
      · have after : e + 1 ≠ d + 1 := fun same => here (Nat.succ.inj same)
        simp only [Function.update_of_ne here, Function.update_of_ne next, Function.update_of_ne after]
        exact follows e inside

theorem follows_settled (k : Nat) (chain : Chain) (follows : Follows k chain) (empty : ∀ d < k, chain.link d = []) :
    ∀ d ≤ k, chain.flag d = chain.flag 0 := by
  intro d
  induction d with
  | zero => exact fun _ => rfl
  | succ d ih =>
      intro inside
      have chased := follows d inside
      rw [empty d inside] at chased
      exact Eq.trans chased (ih (by omega))

-- Nodes g + 1 to k have had their flags up from the start, and have not been told so yet: the others follow each other, g
-- is followed as if by a node with its flag down, and something is still on its way to g + 1.
structure Pending (k g : Nat) (chain : Chain) : Prop where
  inside : g < k
  before : ∀ d < g, Chased (chain.flag (d + 1)) (chain.link d) (chain.flag d)
  border : Chased false (chain.link g) (chain.flag g)
  up : ∀ d, g < d → d ≤ k → chain.flag d = true
  silent : ∀ d, g < d → d < k → chain.link d = []
  moving : ∃ d ≤ g, chain.link d ≠ []

theorem pending_agree (k g : Nat) (chain other : Chain) (agree : Agree k chain other) (pending : Pending k g chain) :
    Pending k g other where
  inside := pending.inside
  before := by
    intro d inside
    have bound := pending.inside
    rw [agree.flags (d + 1) (by omega), agree.links d (by omega), agree.flags d (by omega)]
    exact pending.before d inside
  border := by
    have bound := pending.inside
    rw [agree.links g bound, agree.flags g (by omega)]
    exact pending.border
  up := fun d above inside => (agree.flags d inside).trans (pending.up d above inside)
  silent := fun d above inside => (agree.links d inside).trans (pending.silent d above inside)
  moving := by
    obtain ⟨d, below, some_⟩ := pending.moving
    have bound := pending.inside
    exact ⟨d, below, by rwa [agree.links d (by omega)]⟩

theorem pending_turn (k g : Nat) (chain : Chain) (value : Bool) (pending : Pending k g chain) : Pending k g (chain.turn value) := by
  unfold Chain.turn
  by_cases same : chain.flag 0 = value
  · rw [if_pos same]
    exact pending
  · have turned : value = !chain.flag 0 := Bool.eq_not.mpr (Ne.symm same)
    rw [if_neg same]
    refine ⟨pending.inside, fun d inside => ?_, ?_, fun d above inside => ?_, fun d above inside => ?_, 0, Nat.zero_le g, ?_⟩
    · cases d with
      | zero =>
          simp only [Function.update_self, Function.update_of_ne (Nat.succ_ne_zero 0)]
          rw [turned]
          exact chased_send _ _ _ (pending.before 0 inside)
      | succ d =>
          simp only [Function.update_of_ne (Nat.succ_ne_zero d), Function.update_of_ne (Nat.succ_ne_zero (d + 1))]
          exact pending.before (d + 1) inside
    · cases g with
      | zero =>
          simp only [Function.update_self]
          rw [turned]
          exact chased_send _ _ _ pending.border
      | succ g =>
          simp only [Function.update_of_ne (Nat.succ_ne_zero g)]
          exact pending.border
    · have other : d ≠ 0 := by omega
      simp only [Function.update_of_ne other]
      exact pending.up d above inside
    · have other : d ≠ 0 := by omega
      simp only [Function.update_of_ne other]
      exact pending.silent d above inside
    · simp

-- What g + 1 takes is that flags are up, and from then on it follows like the others.
theorem pending_border (k g : Nat) (chain : Chain) (pending : Pending k g chain) (value : Bool) (later : List Bool)
    (head : chain.link g = value :: later) : Follows k (chain.take g) := by
  have border := pending.border
  rw [head] at border
  obtain ⟨up, rest⟩ := border
  have same : chain.flag (g + 1) = value := (pending.up (g + 1) (Nat.lt_succ_self g) pending.inside).trans up.symm
  have taken : chain.take g = { chain with link := Function.update chain.link g later } := by
    simp only [Chain.take, head, same, if_true]
  rw [taken]
  intro d inside
  by_cases here : d = g
  · subst here
    simp only [Function.update_self]
    rw [same]
    exact rest
  · simp only [Function.update_of_ne here]
    by_cases below : d < g
    · exact pending.before d below
    · rw [pending.silent d (by omega) inside, pending.up d (by omega) (by omega), pending.up (d + 1) (by omega) inside]
      rfl

theorem pending_take (k g : Nat) (chain : Chain) (d : Nat) (within : d < k) (pending : Pending k g chain) :
    Pending k g (chain.take d) ∨ Follows k (chain.take d) := by
  have bound := pending.inside
  cases head : chain.link d with
  | nil =>
      have same : chain.take d = chain := by simp only [Chain.take, head]
      exact Or.inl (same.symm ▸ pending)
  | cons value later =>
      have notSilent : d ≤ g := by
        by_contra above
        rw [pending.silent d (by omega) within] at head
        cases head
      by_cases border : d = g
      · subst border
        exact Or.inr (pending_border k d chain pending value later head)
      · have below : d < g := by omega
        have first := pending.before d below
        rw [head] at first
        obtain ⟨turned, rest⟩ := first
        have differs : ¬ chain.flag (d + 1) = value := by rw [turned]; simp
        have taken : chain.take d = ⟨Function.update chain.flag (d + 1) value,
            Function.update (Function.update chain.link d later) (d + 1) (chain.link (d + 1) ++ [value])⟩ := by
          simp only [Chain.take, head, differs, if_false, Function.update_of_ne (Nat.succ_ne_self d)]
        rw [taken]
        refine Or.inl ⟨bound, fun e inside => ?_, ?_, fun e above inside => ?_, fun e above inside => ?_, d + 1, below, ?_⟩
        · by_cases here : e = d
          · subst here
            simp only [Function.update_self, Function.update_of_ne (Nat.succ_ne_self e).symm]
            exact rest
          · by_cases next : e = d + 1
            · subst next
              have other : d + 1 + 1 ≠ d + 1 := Nat.succ_ne_self _
              simp only [Function.update_self, Function.update_of_ne other]
              have sent := chased_send _ _ _ (pending.before (d + 1) inside)
              rwa [← turned] at sent
            · have after : e + 1 ≠ d + 1 := fun same => here (Nat.succ.inj same)
              simp only [Function.update_of_ne here, Function.update_of_ne next, Function.update_of_ne after]
              exact pending.before e inside
        · by_cases next : g = d + 1
          · subst next
            simp only [Function.update_self]
            have sent := chased_send _ _ _ pending.border
            rwa [← turned] at sent
          · have other : g ≠ d := by omega
            simp only [Function.update_of_ne next, Function.update_of_ne other]
            exact pending.border
        · have other : e ≠ d + 1 := by omega
          simp only [Function.update_of_ne other]
          exact pending.up e above inside
        · have next : e ≠ d + 1 := by omega
          have other : e ≠ d := by omega
          simp only [Function.update_of_ne next, Function.update_of_ne other]
          exact pending.silent e above inside
        · simp

-- The nodes follow each other, or will do so before all is quiet.
def Settles (k : Nat) (chain : Chain) : Prop := Follows k chain ∨ ∃ g, Pending k g chain

theorem settles_agree (k : Nat) (chain other : Chain) (agree : Agree k chain other) (settles : Settles k chain) : Settles k other := by
  rcases settles with follows | ⟨g, pending⟩
  · exact Or.inl (follows_agree k chain other agree follows)
  · exact Or.inr ⟨g, pending_agree k g chain other agree pending⟩

theorem settles_turn (k : Nat) (chain : Chain) (value : Bool) (settles : Settles k chain) : Settles k (chain.turn value) := by
  rcases settles with follows | ⟨g, pending⟩
  · exact Or.inl (follows_turn k chain value follows)
  · exact Or.inr ⟨g, pending_turn k g chain value pending⟩

theorem settles_take (k : Nat) (chain : Chain) (d : Nat) (within : d < k) (settles : Settles k chain) : Settles k (chain.take d) := by
  rcases settles with follows | ⟨g, pending⟩
  · exact Or.inl (follows_take k chain d within follows)
  · rcases pending_take k g chain d within pending with still | done
    · exact Or.inr ⟨g, still⟩
    · exact Or.inl done

theorem settled (k : Nat) (chain : Chain) (settles : Settles k chain) (empty : ∀ d < k, chain.link d = []) :
    ∀ d ≤ k, chain.flag d = chain.flag 0 := by
  rcases settles with follows | ⟨g, pending⟩
  · exact follows_settled k chain follows empty
  · obtain ⟨d, below, some_⟩ := pending.moving
    have bound := pending.inside
    exact absurd (empty d (by omega)) some_

theorem opening_pending (k g : Nat) (chain : Chain) (inside : g < k) (down : ∀ d ≤ g, chain.flag d = false)
    (up : ∀ d, g < d → d ≤ k → chain.flag d = true) (empty : ∀ d < k, chain.link d = []) : Pending k g (chain.turn true) := by
  have differs : ¬ chain.flag 0 = true := by rw [down 0 (Nat.zero_le g)]; simp
  rw [Chain.turn, if_neg differs]
  refine ⟨inside, fun d below => ?_, ?_, fun d above within => ?_, fun d above within => ?_, 0, Nat.zero_le g, by simp⟩
  · simp only [Function.update_apply, Nat.succ_ne_zero, if_false, empty 0 (by omega), List.nil_append]
    rw [down (d + 1) below]
    by_cases start : d = 0
    · rw [if_pos start, if_pos start]
      exact ⟨rfl, rfl⟩
    · rw [if_neg start, if_neg start, empty d (by omega), down d (by omega)]
      rfl
  · simp only [Function.update_apply, empty 0 (by omega), List.nil_append]
    by_cases start : g = 0
    · rw [if_pos start, if_pos start]
      exact ⟨rfl, rfl⟩
    · rw [if_neg start, if_neg start, empty g inside, down g (Nat.le_refl g)]
      rfl
  · have other : d ≠ 0 := by omega
    simp only [Function.update_of_ne other]
    exact up d above within
  · have other : d ≠ 0 := by omega
    simp only [Function.update_of_ne other]
    exact empty d within

theorem alike_follows (k : Nat) (chain : Chain) (same : ∀ d ≤ k, chain.flag d = chain.flag 0) (empty : ∀ d < k, chain.link d = []) :
    Follows k chain := by
  intro d inside
  rw [empty d inside, same (d + 1) inside, same d (by omega)]
  rfl

end Chase
