import Mathlib.Data.List.Basic

set_option autoImplicit false

-- A table of slots in which one value means that a slot is free, and the list that its other slots form.
namespace Slots

universe u

variable {β : Type u} {free : β}

-- Slot by slot, the entries and then nothing.
def Holds (free : β) (size : Nat) (slot : Nat → β) (entries : List β) : Prop := ∀ k < size, slot k = entries[k]?.getD free

-- Those that are not free come first.
def Packed (free : β) (size : Nat) (slot : Nat → β) : Prop := ∀ i k, i < k → k < size → slot k ≠ free → slot i ≠ free

-- The slots that are not free, in index order.
def occupied [DecidableEq β] (free : β) (size : Nat) (slot : Nat → β) : List β :=
  ((List.range size).map slot).filter (· ≠ free)

theorem holds_inside (size : Nat) (slot : Nat → β) (entries : List β) (holds : Holds free size slot entries)
    (filled : ∀ entry ∈ entries, entry ≠ free) (k : Nat) (inside : k < entries.length) (room : k < size) :
    entries[k]? = some (slot k) ∧ slot k ≠ free := by
  have here := holds k room
  rw [List.getElem?_eq_getElem inside, Option.getD_some] at here
  refine ⟨by rw [List.getElem?_eq_getElem inside, here], ?_⟩
  rw [here]
  exact filled _ (List.getElem_mem inside)

theorem holds_outside (size : Nat) (slot : Nat → β) (entries : List β) (holds : Holds free size slot entries)
    (k : Nat) (outside : entries.length ≤ k) (room : k < size) : slot k = free := by
  rw [holds k room, List.getElem?_eq_none outside, Option.getD_none]

theorem filled_iff (size : Nat) (slot : Nat → β) (entries : List β) (holds : Holds free size slot entries)
    (filled : ∀ entry ∈ entries, entry ≠ free) (k : Nat) (room : k < size) : slot k ≠ free ↔ k < entries.length := by
  constructor
  · intro taken
    by_contra outside
    exact taken (holds_outside size slot entries holds k (by omega) room)
  · exact fun inside => (holds_inside size slot entries holds filled k inside room).2

theorem holds_append (size : Nat) (slot : Nat → β) (entries : List β) (entry : β) (holds : Holds free size slot entries) :
    Holds free size (fun k => if k = entries.length then entry else slot k) (entries ++ [entry]) := by
  intro k room
  dsimp only
  by_cases last : k = entries.length
  · simp [last]
  · rw [if_neg last, holds k room]
    by_cases inside : k < entries.length
    · rw [List.getElem?_append_left inside]
    · rw [List.getElem?_eq_none (by omega), List.getElem?_eq_none (by rw [List.length_append, List.length_singleton]; omega)]

theorem holds_freed_iff (size : Nat) (slot : Nat → β) (entries : List β) (freed : Nat → Prop) [DecidablePred freed]
    (holds : Holds free size slot entries) (filled : ∀ entry ∈ entries, entry ≠ free) (bounded : entries.length ≤ size) :
    Holds free size (fun k => if freed k then free else slot k) entries ↔ ∀ k < entries.length, ¬ freed k := by
  constructor
  · intro kept k inside lost
    exact (holds_inside size _ entries kept filled k inside (by omega)).2 (if_pos lost)
  · intro spared k room
    dsimp only
    by_cases lost : freed k
    · have outside : entries.length ≤ k := by
        by_contra inside
        exact spared k (by omega) lost
      rw [if_pos lost, List.getElem?_eq_none outside, Option.getD_none]
    · rw [if_neg lost, holds k room]

theorem holds_erased_iff (size : Nat) (slot : Nat → β) (entries : List β) (freed : Nat → Prop) [DecidablePred freed] (i : Nat)
    (holds : Holds free size slot entries) (filled : ∀ entry ∈ entries, entry ≠ free) (bounded : entries.length ≤ size)
    (inside : i < entries.length) (gone : freed i) :
    Holds free size (fun k => if freed k then free else slot k) (entries.eraseIdx i) ↔
      ∀ k < entries.length, (freed k ↔ k + 1 = entries.length) := by
  have count : (entries.eraseIdx i).length = entries.length - 1 := List.length_eraseIdx_of_lt inside
  have others : ∀ entry ∈ entries.eraseIdx i, entry ≠ free := fun entry member => filled entry (List.mem_of_mem_eraseIdx member)
  constructor
  · intro erased k within
    constructor
    · intro lost
      by_contra before
      exact (holds_inside size _ _ erased others k (by omega) (by omega)).2 (if_pos lost)
    · intro last
      by_contra kept
      have lost := holds_outside size _ _ erased k (by omega) (by omega)
      rw [if_neg kept] at lost
      exact (holds_inside size slot entries holds filled k within (by omega)).2 lost
  · intro only k room
    dsimp only
    have last := (only i inside).mp gone
    by_cases before : k < i
    · have kept : ¬ freed k := fun lost => absurd ((only k (by omega)).mp lost) (by omega)
      rw [if_neg kept, holds k room, List.getElem?_eraseIdx_of_lt before]
    · rw [List.getElem?_eq_none (by omega), Option.getD_none]
      by_cases lost : freed k
      · rw [if_pos lost]
      · have behind : k ≠ i := fun same => lost (same ▸ gone)
        rw [if_neg lost, holds_outside size slot entries holds k (by omega) room]

theorem packed_ends (size : Nat) (slot : Nat → β) (packed : Packed free size slot) :
    ∃ count ≤ size, (∀ k < count, slot k ≠ free) ∧ ∀ k, count ≤ k → k < size → slot k = free := by
  induction size with
  | zero => exact ⟨0, Nat.le_refl 0, fun k below => absurd below (Nat.not_lt_zero k), fun k _ below => absurd below (Nat.not_lt_zero k)⟩
  | succ size ih =>
      obtain ⟨count, within, filled, rest⟩ := ih fun i k before inside => packed i k before (by omega)
      by_cases last : slot size = free
      · refine ⟨count, by omega, filled, fun k behind inside => ?_⟩
        by_cases same : k = size
        · rw [same, last]
        · exact rest k behind (by omega)
      · have whole : count = size := by
          by_contra short
          exact packed count size (by omega) (Nat.lt_succ_self size) last (rest count (Nat.le_refl _) (by omega))
        refine ⟨size + 1, Nat.le_refl _, fun k inside => ?_, fun k behind inside => absurd inside (by omega)⟩
        by_cases same : k = size
        · rw [same]
          exact last
        · exact filled k (by omega)

section Occupied

variable [DecidableEq β]

theorem occupied_front (size count : Nat) (slot : Nat → β) (within : count ≤ size) (filled : ∀ k < count, slot k ≠ free)
    (rest : ∀ k, count ≤ k → k < size → slot k = free) : occupied free size slot = (List.range count).map slot := by
  obtain ⟨others, rfl⟩ : ∃ others, size = count + others := ⟨size - count, by omega⟩
  have front : ((List.range count).map slot).filter (· ≠ free) = (List.range count).map slot := by
    rw [List.filter_eq_self]
    intro entry member
    obtain ⟨k, inside, rfl⟩ := List.mem_map.mp member
    simpa using filled k (List.mem_range.mp inside)
  have behind : (((List.range others).map (count + ·)).map slot).filter (· ≠ free) = [] := by
    rw [List.filter_eq_nil_iff]
    intro entry member
    obtain ⟨place, shifted, rfl⟩ := List.mem_map.mp member
    obtain ⟨k, inside, rfl⟩ := List.mem_map.mp shifted
    have within := List.mem_range.mp inside
    simpa using rest (count + k) (by omega) (by omega)
  rw [occupied, List.range_add, List.map_append, List.filter_append, front, behind, List.append_nil]

theorem holds_iff (size : Nat) (slot : Nat → β) (entries : List β) (filled : ∀ entry ∈ entries, entry ≠ free)
    (bounded : entries.length ≤ size) :
    Holds free size slot entries ↔ occupied free size slot = entries ∧ Packed free size slot := by
  constructor
  · intro holds
    have taken := filled_iff size slot entries holds filled
    refine ⟨?_, fun i k before inside used => ?_⟩
    · rw [occupied_front size entries.length slot bounded (fun k inside => (taken k (by omega)).mpr inside)
        (fun k behind inside => holds_outside size slot entries holds k behind inside)]
      apply List.ext_getElem?
      intro k
      by_cases inside : k < entries.length
      · rw [(holds_inside size slot entries holds filled k inside (by omega)).1]
        simp [inside]
      · rw [List.getElem?_eq_none (by simpa using inside), List.getElem?_eq_none (by omega)]
    · have last := (taken k inside).mp used
      exact (taken i (by omega)).mpr (by omega)
  · rintro ⟨listed, packed⟩ k room
    obtain ⟨count, within, used, rest⟩ := packed_ends size slot packed
    rw [occupied_front size count slot within used rest] at listed
    by_cases inside : k < count
    · simp [← listed, inside]
    · rw [rest k (by omega) room, ← listed, List.getElem?_eq_none (by simpa using inside), Option.getD_none]

end Occupied

end Slots
