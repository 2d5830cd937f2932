import Mathlib.Data.Nat.Log
import Synergy.Rehash

set_option autoImplicit false

namespace Synergy

theorem lowest_even (y : Nat) (positive : 0 < y) : 2 * y &&& (2 * y - 1) = 2 * (y &&& (y - 1)) := by
  refine Nat.eq_of_testBit_eq fun i => ?_
  have split : 2 * y - 1 = 2 * (y - 1) + 1 := by omega
  rw [split, Nat.testBit_and]
  cases i with
  | zero => simp
  | succ i => simp [Nat.testBit_succ, Nat.mul_add_div]

theorem lowest_odd (y : Nat) : (2 * y + 1) &&& (2 * y + 1 - 1) = 2 * y := by
  refine Nat.eq_of_testBit_eq fun i => ?_
  rw [Nat.add_sub_cancel, Nat.testBit_and]
  cases i with
  | zero => simp
  | succ i => simp [Nat.testBit_succ, Nat.mul_add_div]

-- x & (x - 1): zero for a power of two, else the same top bit and one bit less at the other end.
theorem lowest_cleared (x : Nat) (positive : 0 < x) :
    (x &&& (x - 1) = 0 → x = 2 ^ Nat.log 2 x) ∧
      (x &&& (x - 1) ≠ 0 → Nat.log 2 (x &&& (x - 1)) = Nat.log 2 x) ∧
      ∀ j, 2 ^ j ∣ x → 2 ^ (j + 1) ∣ x &&& (x - 1) := by
  induction x using Nat.strong_induction_on with
  | _ x ih =>
      rcases Nat.even_or_odd' x with ⟨y, rfl | rfl⟩
      · have half : 0 < y := by omega
        obtain ⟨power, top, low⟩ := ih y (by omega) half
        have shift : ∀ z, 0 < z → Nat.log 2 (2 * z) = Nat.log 2 z + 1 := fun z pos => by
          rw [Nat.mul_comm, Nat.log_mul_base (by decide) (by omega)]
        rw [lowest_even y half, shift y half]
        refine ⟨fun zero => ?_, fun more => ?_, fun j divides => ?_⟩
        · rw [Nat.pow_succ, ← power (by omega), Nat.mul_comm]
        · rw [shift _ (by omega), top (by omega)]
        · cases j with
          | zero => exact Nat.dvd_mul_right _ _
          | succ j =>
              rw [Nat.pow_succ, Nat.mul_comm] at divides ⊢
              exact Nat.mul_dvd_mul_left 2 (low j (Nat.dvd_of_mul_dvd_mul_left (by decide) divides))
      · rw [lowest_odd y]
        refine ⟨fun zero => ?_, fun more => ?_, fun j divides => ?_⟩
        · rw [show y = 0 by omega]
          rfl
        · have odd : Nat.log 2 (2 * y + 1) = Nat.log 2 y + 1 := by
            rw [Nat.log_of_one_lt_of_le (by decide) (by omega), show (2 * y + 1) / 2 = y by omega]
          rw [odd, Nat.mul_comm, Nat.log_mul_base (by decide) (by omega)]
        · cases j with
          | zero => exact Nat.dvd_mul_right _ _
          | succ j =>
              rw [Nat.pow_succ, Nat.mul_comm] at divides
              exact absurd (Nat.dvd_trans (Nat.dvd_mul_right _ _) divides) (by omega)

-- With j low bits gone there are 64 - j rounds to go at most.
theorem top_bit (fuel j x : Nat) (positive : 0 < x) (small : x < 2 ^ 64) (cleared : 2 ^ j ∣ x) (enough : 64 ≤ j + fuel) :
    topBit fuel x = 2 ^ Nat.log 2 x := by
  induction fuel generalizing j x with
  | zero =>
      have large := Nat.le_of_dvd positive cleared
      have := Nat.pow_le_pow_right (show 0 < 2 by decide) enough
      rw [Nat.add_zero] at this
      omega
  | succ fuel ih =>
      obtain ⟨power, top, low⟩ := lowest_cleared x positive
      rw [topBit]
      by_cases more : x &&& (x - 1) ≠ 0
      · rw [if_pos more, ih (j + 1) _ (Nat.pos_of_ne_zero more) (Nat.lt_of_le_of_lt Nat.and_le_left small) (low j cleared) (by omega),
          top more]
      · rw [if_neg more]
        exact power (not_not.mp more)

theorem next_pow2 (x : Nat) (positive : 0 < x) (small : x < 2 ^ 63) :
    ∃ j, nextPow2 x = 2 ^ j ∧ x < 2 ^ j ∧ 2 ^ j ≤ 2 * x := by
  have below : x < 2 ^ 64 := by omega
  refine ⟨Nat.log 2 x + 1, ?_, Nat.lt_pow_succ_log_self (by decide) x, ?_⟩
  · rw [nextPow2, if_neg (by omega), top_bit 64 0 x positive below (Nat.one_dvd x) (by decide), Nat.pow_succ, Nat.mul_comm]
  · rw [Nat.pow_succ, Nat.mul_comm]
    exact Nat.mul_le_mul_left 2 (Nat.pow_log_le_self 2 (by omega))

-- A hash table of 2 ^ k buckets, fewer than half of them taken, that holds a map.
structure HashTable.Fits (ht : HashTable) (k : Nat) (map : Bytes → Option UInt64) : Prop where
  size : ht.cBuckets = 2 ^ k
  large : 6 ≤ k
  held : TableHolds ht.table k map ht.cItems ht.cDeletedItems
  room : 2 * (ht.cItems + ht.cDeletedItems) < 2 ^ k

-- And what posLastFind points to is an item of it.
structure HashTable.Holds (ht : HashTable) (k : Nat) (map : Bytes → Option UInt64) : Prop extends ht.Fits k map where
  last : ∀ bck, ht.posLastFind = .ok (some bck) →
    ∃ b < 2 ^ k, ∃ key value, slots ht.table b = .item key value ∧ bucketPtr ht.table b = some bck

theorem allocate_table : ∃ ht, allocateHashTable = .ok ht ∧ ht.Holds 9 (fun _ => none) ∧ ht.cItems = 0 ∧ ht.cDeltaGoalSize = 0 ∧
    ht.posLastFind = .error .undefined := by
  obtain ⟨fresh, made, bare⟩ := allocate_holds 9 (by decide)
  have asked : sparseAllocate 512 = .ok (fresh, 2 ^ 9) := made
  refine ⟨⟨0, 0, 2 ^ 9, fresh, 0, .error .undefined⟩, ?_, ⟨⟨rfl, by decide, bare, (show 2 * (0 + 0) < 2 ^ 9 by decide)⟩,
    fun bck found => by cases found⟩,
    rfl, rfl, rfl⟩
  rw [allocateHashTable, asked]
  rfl

section

variable {ht : HashTable} {k : Nat} {map : Bytes → Option UInt64}

theorem find_step (holds : ht.Holds k map) (key : Bytes) :
    ∃ item place, ht.find key = .ok ({ ht with posLastFind := .ok item }, item, place) ∧
      HashTable.Holds { ht with posLastFind := .ok item } k map ∧ Finds ht.table k map key item place := by
  have room := holds.room
  obtain ⟨item, place, done, finds⟩ := find_finds ht holds.size holds.held (by omega) key
  refine ⟨item, place, done, ⟨⟨holds.size, holds.large, holds.held, holds.room⟩, ?_⟩, finds⟩
  intro bck found
  cases finds with
  | hit b bck' value iEmpty inside here pointed =>
      cases found
      exact ⟨b, inside, key, value, here, pointed⟩
  | miss n bounded absent open_ path => cases found

theorem rehash_step (ht : HashTable) (size : ht.cBuckets = 2 ^ k) (held : TableHolds ht.table k map ht.cItems ht.cDeletedItems)
    (wanted : Nat) (some_ : ht.cItems ≤ wanted) (positive : 0 < wanted) (bounded : wanted ≤ 2 ^ 28) (bckWatch : Option BucketPtr)
    (watched : ∀ bck, bckWatch = some bck → bck ∈ livePlaces ht.table (2 ^ k)) :
    ∃ next j bckNew, ht.rehash (nextPow2 (2 * wanted)) bckWatch = .ok (next, bckNew) ∧ next.Fits j map ∧ next.cItems = ht.cItems ∧
      next.cDeltaGoalSize = ht.cDeltaGoalSize ∧ next.posLastFind = ht.posLastFind ∧ next.cBuckets ≤ max 64 (4 * wanted) ∧
      ∀ bck, bckWatch = some bck → ∃ b < 2 ^ j, ∃ moved, bckNew = some moved ∧ bucketPtr next.table b = some moved ∧
        slots next.table b = .item (itemAt ht.table bck).key (itemAt ht.table bck).data := by
  obtain ⟨j, power, above, below⟩ := next_pow2 (2 * wanted) (by omega) (by omega)
  have small : j ≤ 30 := by
    have fits : 2 ^ j ≤ 2 ^ 30 := by omega
    exact (Nat.pow_le_pow_iff_right (by decide)).mp fits
  have larger : 2 ^ j ≤ 2 ^ max 6 j := Nat.pow_le_pow_right (by decide) (Nat.le_max_right 6 j)
  have fits : 2 * ht.cItems < 2 ^ max 6 j := by omega
  have most : 2 ^ max 6 j ≤ max 64 (4 * wanted) := by
    rcases Nat.le_total j 6 with few | many
    · rw [Nat.max_eq_left few]
      exact Nat.le_max_left 64 _
    · rw [Nat.max_eq_right many]
      exact Nat.le_trans (by omega) (Nat.le_max_right 64 _)
  obtain ⟨table, bckNew, done, kept, placed⟩ := rehash_holds ht size held j small (by omega) bckWatch watched
  refine ⟨{ ht with table := table, cBuckets := 2 ^ max 6 j, cDeletedItems := 0 }, max 6 j, bckNew, by rw [power]; exact done,
    ⟨rfl, Nat.le_max_left 6 j, kept, fits⟩, rfl, rfl, rfl, most, ?_⟩
  intro bck isWatch
  obtain ⟨b, inside, pointed, moved, here⟩ := placed bck isWatch
  cases bckNew with
  | none => exact absurd rfl moved
  | some place => exact ⟨b, inside, place, rfl, pointed.symm, here⟩

-- An insert or delete leaves the number of buckets, or makes a table for the items there are and those that are expected.
def Resized (ht next : HashTable) : Prop :=
  next.cBuckets = ht.cBuckets ∨ next.cBuckets ≤ max 64 (4 * (next.cDeltaGoalSize.toNat + next.cItems))

theorem grow_step (ht : HashTable) (size : ht.cBuckets = 2 ^ k) (large : 6 ≤ k)
    (held : TableHolds ht.table k map ht.cItems ht.cDeletedItems)
    (some_ : 0 < ht.cItems) (bounded : ht.cDeltaGoalSize.toNat + ht.cItems ≤ 2 ^ 28) (few : ht.cDeletedItems ≤ 2 ^ 30)
    (none_ : ht.posLastFind = .ok none) (b : Nat) (inside : b < 2 ^ k) (key : Bytes) (data : UInt64) (bck : BucketPtr)
    (here : slots ht.table b = .item key data) (pointed : bucketPtr ht.table b = some bck) :
    ∃ next j place, ht.grow bck = .ok (next, place) ∧ next.Holds j map ∧ bucketAt next.table place = .ok ⟨data, key⟩ ∧
      next.cItems = ht.cItems ∧ next.cDeltaGoalSize = ht.cDeltaGoalSize ∧ next.posLastFind = .ok none ∧ Resized ht next := by
  have sum : (ht.cItems + ht.cDeletedItems) % 2 ^ 64 = ht.cItems + ht.cDeletedItems := Nat.mod_eq_of_lt (by omega)
  rw [HashTable.grow, sum]
  by_cases full : ht.cBuckets ≤ 2 * (ht.cItems + ht.cDeletedItems) ∨ ht.cDeltaGoalSize < 0
  · have watched : ∀ other, some bck = some other → other ∈ livePlaces ht.table (2 ^ k) := by
      rintro other ⟨⟩
      exact (live_places_iff ht.table (2 ^ k) bck).mpr ⟨b, inside, key, data, here, pointed⟩
    obtain ⟨next, j, bckNew, done, fits, same, goal, last, most, moved⟩ := rehash_step ht size held
      (ht.cDeltaGoalSize.toNat + ht.cItems) (by omega) (by omega) bounded (some bck) watched
    obtain ⟨c, within, place, rfl, found, stored⟩ := moved bck rfl
    rw [(item_here pointed here).2.1] at stored
    rw [if_pos full, done]
    have cleared := last.trans none_
    refine ⟨next, j, place, rfl, ⟨fits, fun other found => by rw [cleared] at found; cases found⟩, (item_here found stored).1, same,
      goal, cleared, .inr ?_⟩
    rwa [goal, same]
  · rw [if_neg full]
    refine ⟨ht, k, bck, rfl, ⟨⟨size, large, held, ?_⟩, ?_⟩, (item_here pointed here).1, rfl, rfl, none_, .inl rfl⟩
    · omega
    · intro other found
      rw [none_] at found
      cases found

-- The walk of the key comes by a deleted bucket before it ends.
def Reuses (ht : HashTable) (key : Bytes) : Prop :=
  ∃ n < ht.cBuckets, slots ht.table (walk ht.cBuckets key n) = .gone ∧ ∀ j < n, slots ht.table (walk ht.cBuckets key j) ≠ .empty

theorem open_marked_iff (size : ht.cBuckets = 2 ^ k) (key : Bytes) (n : Nat) (within : n < 2 ^ k)
    (open_ : ∀ other v, slots ht.table (walk (2 ^ k) key n) ≠ .item other v)
    (path : ∀ j < n, slots ht.table (walk (2 ^ k) key j) ≠ .empty ∧ slots ht.table (walk (2 ^ k) key j) ≠ .gone) :
    slots ht.table (walk (2 ^ k) key n) = .gone ↔ Reuses ht key := by
  rw [Reuses, size]
  constructor
  · exact fun here => ⟨n, within, here, fun j less => (path j less).1⟩
  · rintro ⟨m, -, here, before⟩
    rcases is_gone_or_empty open_ with gone | empty
    · exact gone
    · rcases Nat.lt_trichotomy m n with less | rfl | more
      · exact absurd here (path m less).2
      · exact here
      · exact absurd empty (before n more)

theorem insert_miss (holds : ht.Holds k map) (key : Bytes) (data : UInt64) (live : data ≠ DELETED) (absent : map key = none)
    (bounded : ht.cDeltaGoalSize.toNat + ht.cItems < 2 ^ 28) (fOverwrite : Bool) (stores : fOverwrite = true ∨ ¬ Reuses ht key) :
    ∃ next j place, ht.insert key data fOverwrite = .ok (next, place) ∧ next.Holds j (Function.update map key (some data)) ∧
      bucketAt next.table place = .ok ⟨data, key⟩ ∧ next.cItems = ht.cItems + 1 ∧
      next.cDeltaGoalSize = (if 0 < ht.cDeltaGoalSize then ht.cDeltaGoalSize - 1 else ht.cDeltaGoalSize) ∧
      next.posLastFind = .ok none ∧ Resized ht next := by
  obtain ⟨item, place, done, -, finds⟩ := find_step holds key
  have size := holds.size
  have room := holds.room
  have capped : 2 ^ k ≤ 2 ^ 30 := Nat.pow_le_pow_right (by decide) holds.held.small
  have grown : (ht.cItems + 1) % 2 ^ 64 = ht.cItems + 1 := Nat.mod_eq_of_lt (by omega)
  cases finds with
  | hit b bck value iEmpty inside here pointed =>
      rw [(holds.held.holds.stores key value).mp ⟨b, inside, here⟩] at absent
      cases absent
  | miss n within absent open_ path =>
      have inside := walk_inside k key n
      have wrote : ∃ table bck flag, sparseInsert ht.table ⟨data, key⟩ (walk (2 ^ k) key n) fOverwrite = .ok (table, bck, flag) ∧
          BucketSet ht.table table (walk (2 ^ k) key n) ⟨data, key⟩ ∧ bucketPtr table (walk (2 ^ k) key n) = some bck ∧
          (if flag then ulongPred ht.cDeletedItems else ht.cDeletedItems) =
            ht.cDeletedItems - if slots ht.table (walk (2 ^ k) key n) = .gone then 1 else 0 := by
        rcases is_gone_or_empty open_ with here | here
        · have counted : 0 < ht.cDeletedItems := by
            rw [← holds.held.gone]
            exact Nat.pos_of_ne_zero (Nat.count_ne_iff_exists.mpr ⟨_, inside, by rw [here]; rfl⟩)
          have over_ : fOverwrite = true := stores.resolve_right fun not => not ((open_marked_iff size key n within open_ path).mp here)
          rcases bucket_cases ht.table holds.held.sound (walk (2 ^ k) key n) with ⟨-, stored⟩ | ⟨bck, -, pointed, -⟩
          · rw [slots, stored] at here
            cases here
          · obtain ⟨-, table, done, written, kept⟩ := insert_occupied ht.table holds.held.sound (walk (2 ^ k) key n) ⟨data, key⟩
              (held_inside holds.held key n) bck pointed
            refine ⟨table, bck, true, by rw [over_, done], written, kept, ?_⟩
            rw [if_pos rfl, if_pos here, ulong_pred _ counted (by omega)]
        · obtain ⟨table, bck, done, written, pointed⟩ := insert_empty ht.table holds.held.sound (walk (2 ^ k) key n) ⟨data, key⟩
            fOverwrite (held_inside holds.held key n) ((slot_of_empty _).mp here)
          exact ⟨table, bck, false, done, written, pointed, by rw [here]; rfl⟩
      obtain ⟨table, bck, flag, inserted, written, pointed, fewer⟩ := wrote
      have placed := place_holds holds.held key data live n within open_ (fun j less => (path j less).1) absent written
      have here : slots table (walk (2 ^ k) key n) = .item key data := by
        rw [slots_written written, Function.update_self, slot_of_live _ live]
      let placedAt : HashTable :=
        { cItems := ht.cItems + 1
          cDeletedItems := ht.cDeletedItems - if slots ht.table (walk (2 ^ k) key n) = .gone then 1 else 0
          cBuckets := ht.cBuckets
          table := table
          cDeltaGoalSize := if 0 < ht.cDeltaGoalSize then ht.cDeltaGoalSize - 1 else ht.cDeltaGoalSize
          posLastFind := .ok none }
      have after : HashTable.insertAt { ht with posLastFind := .ok none } key data (walk (2 ^ k) key n) fOverwrite =
          placedAt.grow bck := by
        rw [HashTable.insertAt, inserted]
        simp only [bind, Except.bind, fewer, grown, placedAt]
      have goal : (if 0 < ht.cDeltaGoalSize then ht.cDeltaGoalSize - 1 else ht.cDeltaGoalSize).toNat ≤ ht.cDeltaGoalSize.toNat := by
        split_ifs <;> omega
      have fits : placedAt.cDeltaGoalSize.toNat + placedAt.cItems ≤ 2 ^ 28 := by
        dsimp only [placedAt]
        omega
      have few : placedAt.cDeletedItems ≤ 2 ^ 30 := by
        dsimp only [placedAt]
        omega
      obtain ⟨next, j, final, done', holds', read, items, goal', cleared, resized⟩ := grow_step placedAt size holds.large placed
        (Nat.succ_pos _) fits few rfl (walk (2 ^ k) key n) inside key data bck here pointed
      rw [← after] at done'
      refine ⟨next, j, final, ?_, holds', read, items, goal', cleared, resized⟩
      rw [HashTable.insert, done]
      exact done'

theorem insert_hit (holds : ht.Holds k map) (key : Bytes) (data old : UInt64) (live : data ≠ DELETED) (stored : map key = some old) :
    (∃ table place, ht.insert key data true = .ok ({ ht with posLastFind := .ok none, table := table }, place) ∧
      HashTable.Holds { ht with posLastFind := .ok none, table := table } k (Function.update map key (some data)) ∧
      bucketAt table place = .ok ⟨data, key⟩) ∧
    ∃ place, ht.insert key data false = .ok ({ ht with posLastFind := .ok none }, place) ∧ bucketAt ht.table place = .ok ⟨old, key⟩ := by
  obtain ⟨item, place, done, -, finds⟩ := find_step holds key
  cases finds with
  | miss n within absent open_ path =>
      rw [absent] at stored
      cases stored
  | hit b bck value iEmpty inside here pointed =>
      obtain rfl : value = old := Option.some.inj (((holds.held.holds.stores key value).mp ⟨b, inside, here⟩).symm.trans stored)
      have read := (item_here pointed here).1
      obtain ⟨table, wrote, written, kept⟩ := set_bucket ht.table holds.held.sound b bck ⟨data, key⟩ pointed
      have now : slots table b = .item key data := by rw [slots_written written, Function.update_self, slot_of_live _ live]
      refine ⟨⟨table, bck, ?_, ⟨⟨holds.size, holds.large, ?_, holds.room⟩, fun other found => by cases found⟩,
        (item_here ((kept b).trans pointed) now).1⟩, bck, ?_, read⟩
      · simp only [HashTable.insert, done, bind, Except.bind, if_true, read, wrote, pure, Except.pure]
      · exact overwrite_holds holds.held b inside key value data here live written
      · simp only [HashTable.insert, done, bind, Except.bind, Bool.false_eq_true, if_false, pure, Except.pure]

-- The last item of a table that is far too large for it, with nothing expected.
def Empties (ht : HashTable) : Prop := ht.cItems = 1 ∧ (ht.cDeltaGoalSize = 0 ∨ ht.cDeltaGoalSize = -1) ∧ 1024 ≤ ht.cBuckets

theorem mark_step (holds : ht.Holds k map) (bck : BucketPtr) (found : ht.posLastFind = .ok (some bck)) (key : Bytes) (value : UInt64)
    (b : Nat) (inside : b < 2 ^ k) (here : slots ht.table b = .item key value) (pointed : bucketPtr ht.table b = some bck)
    (fShrink : Bool) :
    ∃ marked : HashTable, ht.deleteLast fShrink = marked.shrink fShrink ∧ marked.cBuckets = 2 ^ k ∧
      TableHolds marked.table k (Function.update map key none) marked.cItems marked.cDeletedItems ∧
      marked.cItems + 1 = ht.cItems ∧ marked.cDeletedItems = ht.cDeletedItems + 1 ∧
      marked.cDeltaGoalSize = (if ht.cDeltaGoalSize < 0 then ht.cDeltaGoalSize + 1 else ht.cDeltaGoalSize) := by
  have room := holds.room
  have capped : 2 ^ k ≤ 2 ^ 30 := Nat.pow_le_pow_right (by decide) holds.held.small
  obtain ⟨table, wrote, written, kept⟩ := set_bucket ht.table holds.held.sound b bck ⟨DELETED, key⟩ pointed
  obtain ⟨positive, marked⟩ := mark_holds holds.held b inside key value here written
  have fewer : ulongPred ht.cItems = ht.cItems - 1 := ulong_pred _ positive (by omega)
  have more : (ht.cDeletedItems + 1) % 2 ^ 64 = ht.cDeletedItems + 1 := Nat.mod_eq_of_lt (by omega)
  refine ⟨{ ht with
      table := table
      cItems := ht.cItems - 1
      cDeletedItems := ht.cDeletedItems + 1
      cDeltaGoalSize := if ht.cDeltaGoalSize < 0 then ht.cDeltaGoalSize + 1 else ht.cDeltaGoalSize }, ?_, holds.size, marked,
    Nat.sub_add_cancel positive, rfl, rfl⟩
  simp only [HashTable.deleteLast, found, bind, Except.bind, (item_here pointed here).1, wrote, fewer, more]

theorem delete_last (holds : ht.Holds k map) (bounded : ht.cDeltaGoalSize.toNat + ht.cItems < 2 ^ 28) (kept : ¬ Empties ht)
    (bck : BucketPtr) (found : ht.posLastFind = .ok (some bck)) (key : Bytes) (value : UInt64) (b : Nat) (inside : b < 2 ^ k)
    (here : slots ht.table b = .item key value) (pointed : bucketPtr ht.table b = some bck) :
    ∃ next j, ht.deleteLast true = .ok next ∧ next.Holds j (Function.update map key none) ∧ next.cItems + 1 = ht.cItems ∧
      next.cDeltaGoalSize = (if ht.cDeltaGoalSize < 0 then ht.cDeltaGoalSize + 1 else ht.cDeltaGoalSize) ∧
      next.posLastFind = .ok none ∧ Resized ht next ∧
      (0 ≤ next.cDeltaGoalSize → next.cBuckets < 1024 ∨ next.cBuckets ≤ 5 * (next.cDeltaGoalSize.toNat + next.cItems)) := by
  have room := holds.room
  obtain ⟨marked, done, size, held, fewer, more, goal⟩ := mark_step holds bck found key value b inside here pointed true
  have expected : marked.cDeltaGoalSize.toNat ≤ ht.cDeltaGoalSize.toNat := by
    rw [goal]
    split_ifs <;> omega
  rw [done, HashTable.shrink]
  by_cases small : true = true ∧ 5 * marked.cItems < marked.cBuckets ∧ 0 ≤ marked.cDeltaGoalSize ∧ 512 ≤ marked.cBuckets / 2
  · have some_ : 0 < marked.cItems + marked.cDeltaGoalSize.toNat := by
      by_contra none_
      refine kept ⟨by omega, ?_, by rw [holds.size, ← size]; omega⟩
      have zero : marked.cDeltaGoalSize = 0 := by omega
      rw [goal] at zero
      split_ifs at zero <;> omega
    obtain ⟨next, j, bckNew, ran, fits, items, goal', -, most, -⟩ := rehash_step marked size held
      (marked.cItems + marked.cDeltaGoalSize.toNat) (Nat.le_add_right _ _) some_ (by omega) none fun other none_ => by cases none_
    rw [if_pos small, ran]
    refine ⟨{ next with posLastFind := .ok none }, j, rfl, ⟨⟨fits.size, fits.large, fits.held, fits.room⟩,
      fun other none_ => by cases none_⟩,
      ?_, goal'.trans goal, rfl, .inr ?_, fun _ => ?_⟩
    · dsimp only
      omega
    · dsimp only
      omega
    · dsimp only
      omega
  · have large : ¬ (5 * marked.cItems < marked.cBuckets ∧ 0 ≤ marked.cDeltaGoalSize ∧ 512 ≤ marked.cBuckets / 2) :=
      fun few => small ⟨rfl, few⟩
    have fits : 2 * (marked.cItems + marked.cDeletedItems) < 2 ^ k := by omega
    rw [if_neg small]
    refine ⟨{ marked with posLastFind := .ok none }, k, rfl, ⟨⟨size, holds.large, held, fits⟩, fun other none_ => by cases none_⟩, fewer,
      goal, rfl, .inl (size.trans holds.size.symm), fun waits => ?_⟩
    dsimp only at waits ⊢
    omega

end

end Synergy
