import Synergy.HashTable

set_option autoImplicit false

namespace Synergy

open Probing (Slot)

theorem mask_two_pow (number k : Nat) (small : k < 64) : maskBuckets number (2 ^ k) = number % 2 ^ k := by
  have bounded : 2 ^ k ≤ 2 ^ 64 := Nat.pow_le_pow_right (by decide) (by omega)
  rw [maskBuckets, ulong_pred (2 ^ k) (Nat.two_pow_pos k) bounded, Nat.and_two_pow_sub_one_eq_mod]

theorem hash_inside (key : Bytes) (k : Nat) (small : k < 64) : hash key (2 ^ k) < 2 ^ k := by
  have masked : ∃ word, hash key (2 ^ k) = maskBuckets word (2 ^ k) := ⟨_, rfl⟩
  obtain ⟨word, masked⟩ := masked
  rw [masked, mask_two_pow word k small]
  exact Nat.mod_lt _ (Nat.two_pow_pos k)

-- The buckets that Find, Insert and Rehash look at for a key, in their order.
def walk (cBuckets : Nat) (key : Bytes) (i : Nat) : Nat := Probing.probe cBuckets (hash key cBuckets) i

theorem walk_zero (k : Nat) (small : k < 64) (key : Bytes) : walk (2 ^ k) key 0 = hash key (2 ^ k) :=
  Probing.probe_zero _ _ (hash_inside key k small)

theorem walk_succ (k : Nat) (small : k < 64) (key : Bytes) (i : Nat) :
    maskBuckets (walk (2 ^ k) key i + (i + 1)) (2 ^ k) = walk (2 ^ k) key (i + 1) := by
  rw [mask_two_pow _ k small, walk, walk, Probing.probe_succ]

theorem walk_inside (k : Nat) (key : Bytes) (i : Nat) : walk (2 ^ k) key i < 2 ^ k := Probing.probe_inside _ _ _ (Nat.two_pow_pos k)

def slotOf : Option HTItem → Slot Bytes UInt64
  | none => .empty
  | some item => if item.data = DELETED then .gone else .item item.key item.data

def slots (table : List SparseBin) (location : Nat) : Slot Bytes UInt64 := slotOf (bucket table location)

theorem slot_of_live (item : HTItem) (live : item.data ≠ DELETED) : slotOf (some item) = .item item.key item.data := if_neg live

theorem slot_of_item (stored : Option HTItem) (key : Bytes) (data : UInt64) (here : slotOf stored = .item key data) :
    stored = some ⟨data, key⟩ ∧ data ≠ DELETED := by
  cases stored with
  | none => cases here
  | some item =>
      rw [slotOf] at here
      split_ifs at here with gone
      cases here
      exact ⟨rfl, gone⟩

theorem slot_of_empty (stored : Option HTItem) : slotOf stored = .empty ↔ stored = none := by
  cases stored with
  | none => simp [slotOf]
  | some item =>
      rw [slotOf]
      split_ifs <;> simp

-- A table of 2 ^ k buckets that holds a map, with as many items and deleted buckets as it is said to have.
structure TableHolds (table : List SparseBin) (k : Nat) (map : Bytes → Option UInt64) (items gone : Nat) : Prop where
  sound : Sound table
  length : table.length * 64 = 2 ^ k
  small : k ≤ 30
  holds : Probing.Holds (2 ^ k) (walk (2 ^ k)) (slots table) map
  items : Nat.count (fun b => (slots table b).isItem = true) (2 ^ k) = items
  gone : Nat.count (fun b => (slots table b).isGone = true) (2 ^ k) = gone

theorem slots_written {table next : List SparseBin} {location : Nat} {item : HTItem} (written : BucketSet table next location item) :
    slots next = Function.update (slots table) location (slotOf (some item)) := by
  funext other
  rw [slots, written.buckets]
  by_cases same : other = location
  · rw [same, Function.update_self, Function.update_self]
  · rw [Function.update_of_ne same, Function.update_of_ne same, slots]

theorem count_written {table next : List SparseBin} {location : Nat} {item : HTItem} (written : BucketSet table next location item)
    (kind : Slot Bytes UInt64 → Bool) (n : Nat) (inside : location < n) :
    Nat.count (fun b => kind (slots next b) = true) n + (if kind (slots table location) = true then 1 else 0) =
      Nat.count (fun b => kind (slots table b) = true) n + (if kind (slotOf (some item)) = true then 1 else 0) := by
  have changed := Probing.count_changed (fun b => kind (slots next b) = true) (fun b => kind (slots table b) = true) location
    (fun other different => by rw [slots_written written, Function.update_of_ne different]) n inside
  rwa [slots_written written, Function.update_self, ← slots_written written] at changed

section

variable {table : List SparseBin} {k : Nat} {map : Bytes → Option UInt64} {items gone : Nat}

theorem held_inside (held : TableHolds table k map items gone) (key : Bytes) (i : Nat) : walk (2 ^ k) key i < table.length * 64 :=
  Nat.lt_of_lt_of_eq (walk_inside k key i) held.length.symm

-- Fewer items and deleted buckets than buckets leave one that every walk comes to.
theorem walk_ends (held : TableHolds table k map items gone) (room : items + gone < 2 ^ k) (key : Bytes) :
    ∃ n < 2 ^ k, slots table (walk (2 ^ k) key n) = .empty := by
  have counted := Probing.slot_counts (slots table) (2 ^ k)
  rw [held.items, held.gone] at counted
  obtain ⟨b, inside, empty⟩ := Probing.count_room (fun b => (slots table b).isEmpty = false) (2 ^ k) (counted ▸ room)
  obtain ⟨n, bounded, reached⟩ := Probing.probe_covers k (hash key (2 ^ k)) b inside
  refine ⟨n, bounded, ?_⟩
  rw [walk, reached]
  cases here : slots table b with
  | empty => rfl
  | gone => exact absurd (by rw [here]; rfl) empty
  | item other value => exact absurd (by rw [here]; rfl) empty

-- What Find comes back with: the item of the key, or the first open bucket of its walk.
inductive Finds (table : List SparseBin) (k : Nat) (map : Bytes → Option UInt64) (key : Bytes) : Option BucketPtr → Option Nat → Prop
  | hit (b : Nat) (bck : BucketPtr) (value : UInt64) (iEmpty : Option Nat) (inside : b < 2 ^ k)
      (here : slots table b = .item key value) (pointed : bucketPtr table b = some bck) : Finds table k map key (some bck) iEmpty
  | miss (n : Nat) (bounded : n < 2 ^ k) (absent : map key = none) (open_ : ∀ other v, slots table (walk (2 ^ k) key n) ≠ .item other v)
      (path : ∀ j < n, slots table (walk (2 ^ k) key j) ≠ .empty ∧ slots table (walk (2 ^ k) key j) ≠ .gone) :
      Finds table k map key none (some (walk (2 ^ k) key n))

-- piEmpty after i rounds.
def OpenFound (table : List SparseBin) (k : Nat) (key : Bytes) (i : Nat) : Option Nat → Prop
  | none => ∀ j < i, slots table (walk (2 ^ k) key j) ≠ .gone
  | some iEmpty => ∃ j < i, iEmpty = walk (2 ^ k) key j ∧ slots table (walk (2 ^ k) key j) = .gone ∧
      ∀ m < j, slots table (walk (2 ^ k) key m) ≠ .gone

theorem opened_first (iEmpty : Option Nat) (key : Bytes) (i : Nat) (opened : OpenFound table k key i iEmpty)
    (open_ : ∀ other v, slots table (walk (2 ^ k) key i) ≠ .item other v) :
    ∃ j ≤ i, some (iEmpty.getD (walk (2 ^ k) key i)) = some (walk (2 ^ k) key j) ∧
      (∀ other v, slots table (walk (2 ^ k) key j) ≠ .item other v) ∧ ∀ m < j, slots table (walk (2 ^ k) key m) ≠ .gone := by
  cases iEmpty with
  | none => exact ⟨i, Nat.le_refl i, rfl, open_, opened⟩
  | some first =>
      obtain ⟨j, less, rfl, gone, before⟩ := opened
      refine ⟨j, Nat.le_of_lt less, rfl, fun other v item => ?_, before⟩
      rw [gone] at item
      cases item

theorem find_loop (ht : HashTable) (size : ht.cBuckets = 2 ^ k) (held : TableHolds ht.table k map items gone) (key : Bytes) (n : Nat)
    (last : n < 2 ^ k) (empty : slots ht.table (walk (2 ^ k) key n) = .empty) (fuel i : Nat) (iEmpty : Option Nat) (before : i ≤ n)
    (enough : n < i + fuel) (path : ∀ j < i, slots ht.table (walk (2 ^ k) key j) ≠ .empty)
    (passed : ∀ j < i, ∀ value, slots ht.table (walk (2 ^ k) key j) ≠ .item key value)
    (opened : OpenFound ht.table k key i iEmpty) :
    ∃ item place, ht.findLoop key fuel (walk (2 ^ k) key i) i iEmpty = .ok (item, place) ∧ Finds ht.table k map key item place := by
  have small : k < 64 := Nat.lt_of_le_of_lt held.small (by decide)
  induction fuel generalizing i iEmpty with
  | zero => omega
  | succ fuel ih =>
      rw [HashTable.findLoop, find_bucket ht.table held.sound _ (held_inside held key i), size, walk_succ k small key i]
      simp only [bind, Except.bind, pure, Except.pure]
      rcases bucket_cases ht.table held.sound (walk (2 ^ k) key i) with ⟨pointed, stored⟩ | ⟨bck, held', pointed, stored, read⟩
      · -- an empty bucket ends the walk, and the key is not in the table
        have here : slots ht.table (walk (2 ^ k) key i) = .empty := (slot_of_empty _).mpr stored
        obtain ⟨j, le, first, open_, unmarked⟩ := opened_first iEmpty key i opened fun other v item => by rw [here] at item; cases item
        rw [pointed]
        refine ⟨none, _, rfl, ?_⟩
        rw [first]
        exact .miss j (by omega) (Probing.holds_absent held.holds key i here passed) open_
          fun m less => ⟨path m (by omega), unmarked m less⟩
      · have onward : i < n := by
          rcases Nat.lt_or_eq_of_le before with less | rfl
          · exact less
          · rw [(slot_of_empty _).mp empty] at stored
            cases stored
        have next : ∀ iEmpty, slots ht.table (walk (2 ^ k) key i) ≠ .empty →
            (∀ value, slots ht.table (walk (2 ^ k) key i) ≠ .item key value) → OpenFound ht.table k key (i + 1) iEmpty →
            ∃ item place, ht.findLoop key fuel (walk (2 ^ k) key (i + 1)) (i + 1) iEmpty = .ok (item, place) ∧
              Finds ht.table k map key item place := by
          intro iEmpty full other opened
          refine ih (i + 1) iEmpty onward (by omega) ?_ ?_ opened
          · intro j less
            rcases Nat.lt_succ_iff_lt_or_eq.mp less with earlier | rfl
            · exact path j earlier
            · exact full
          · intro j less
            rcases Nat.lt_succ_iff_lt_or_eq.mp less with earlier | rfl
            · exact passed j earlier
            · exact other
        rw [pointed]
        simp only [read]
        by_cases gone : held'.data = DELETED
        · have here : slots ht.table (walk (2 ^ k) key i) = .gone := by rw [slots, stored, slotOf, if_pos gone]
          rw [if_pos gone]
          refine next _ (by rw [here]; rintro ⟨⟩) (fun value => by rw [here]; rintro ⟨⟩) ?_
          cases iEmpty with
          | none => exact ⟨i, Nat.lt_succ_self i, rfl, here, opened⟩
          | some first =>
              obtain ⟨j, less, equal, marked⟩ := opened
              exact ⟨j, Nat.lt_succ_of_lt less, equal, marked⟩
        · have here : slots ht.table (walk (2 ^ k) key i) = .item held'.key held'.data := by rw [slots, stored, slot_of_live held' gone]
          rw [if_neg gone]
          by_cases same : key = held'.key
          · rw [if_pos same]
            rw [← same] at here
            exact ⟨some bck, iEmpty, rfl, .hit _ bck held'.data _ (walk_inside k key i) here pointed⟩
          · rw [if_neg same]
            refine next iEmpty (by rw [here]; rintro ⟨⟩) (fun value item => ?_) ?_
            · rw [here] at item
              cases item
              exact same rfl
            · cases iEmpty with
              | none =>
                  intro j less
                  rcases Nat.lt_succ_iff_lt_or_eq.mp less with earlier | rfl
                  · exact opened j earlier
                  · rw [here]
                    rintro ⟨⟩
              | some first =>
                  obtain ⟨j, less, equal, marked⟩ := opened
                  exact ⟨j, Nat.lt_succ_of_lt less, equal, marked⟩

theorem find_finds (ht : HashTable) (size : ht.cBuckets = 2 ^ k) (held : TableHolds ht.table k map items gone)
    (room : items + gone < 2 ^ k) (key : Bytes) :
    ∃ item place, ht.find key = .ok ({ ht with posLastFind := .ok item }, item, place) ∧ Finds ht.table k map key item place := by
  obtain ⟨n, last, empty⟩ := walk_ends held room key
  have start : OpenFound ht.table k key 0 none := fun j less => absurd less (Nat.not_lt_zero j)
  have enough : n < 0 + (2 ^ k + 1) := by omega
  obtain ⟨item, place, done, finds⟩ := find_loop ht size held key n last empty (2 ^ k + 1) 0 none (Nat.zero_le n) enough
    (fun j less => absurd less (Nat.not_lt_zero j)) (fun j less => absurd less (Nat.not_lt_zero j)) start
  rw [walk_zero k (Nat.lt_of_le_of_lt held.small (by decide))] at done
  refine ⟨item, place, ?_, finds⟩
  simp only [HashTable.find, size, done, bind, Except.bind, pure, Except.pure]

end

end Synergy
