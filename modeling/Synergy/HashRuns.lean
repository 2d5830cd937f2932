import Synergy.Growth

set_option autoImplicit false

namespace Synergy

-- The calls of the table's users, and what they read through the pointers that come back.
inductive HashCall where
  | insert (key : Bytes) (data : UInt64)
  | find (key : Bytes)
  | delete (key : Bytes)
  | deleteLast
deriving DecidableEq

inductive HashAnswer where
  | item (found : Option HTItem)
  | deleted (was : Bool)
deriving DecidableEq

def HashTable.call (ht : HashTable) : HashCall → Except Stop (HashTable × HashAnswer)
  | .insert key data => do
      let (ht, bck) ← hashInsert ht key data
      let item ← bucketAt ht.table bck
      return (ht, .item (some item))
  | .find key => do
      match ← hashFind ht key with
      | (ht, some bck) =>
          let item ← bucketAt ht.table bck
          return (ht, .item (some item))
      | (ht, none) => return (ht, .item none)
  | .delete key => do
      let (ht, was) ← hashDelete ht key
      return (ht, .deleted was)
  | .deleteLast => do
      let (ht, was) ← hashDeleteLast ht
      return (ht, .deleted was)

def HashTable.calls (ht : HashTable) : List HashCall → Except Stop (HashTable × List HashAnswer)
  | [] => .ok (ht, [])
  | call :: rest => do
      let (next, answer) ← ht.call call
      let (last, answers) ← next.calls rest
      return (last, answer :: answers)

-- What the table is for: a map from strings to data, which remembers the key of a find until something changes.
structure StringMap where
  map : Bytes → Option UInt64
  last : Option Bytes

def StringMap.call (state : StringMap) : HashCall → StringMap × HashAnswer
  | .insert key data => (⟨Function.update state.map key (some data), none⟩, .item (some ⟨data, key⟩))
  | .find key => (⟨state.map, (state.map key).map fun _ => key⟩, .item ((state.map key).map fun data => ⟨data, key⟩))
  | .delete key => (⟨Function.update state.map key none, none⟩, .deleted (state.map key).isSome)
  | .deleteLast =>
      match state.last with
      | some key => (⟨Function.update state.map key none, none⟩, .deleted true)
      | none => (⟨state.map, none⟩, .deleted false)

def StringMap.calls (state : StringMap) : List HashCall → StringMap × List HashAnswer
  | [] => (state, [])
  | call :: rest => (((state.call call).1.calls rest).1, (state.call call).2 :: ((state.call call).1.calls rest).2)

-- A table that nobody has announced inserts or deletes to, never more than twice too large for its items past 512 buckets.
structure Serves (ht : HashTable) (map : Bytes → Option UInt64) : Prop where
  holds : ∃ k, ht.Holds k map
  goal : ht.cDeltaGoalSize = 0
  packed : ht.cBuckets < 1024 ∨ ht.cBuckets ≤ 5 * ht.cItems

def Remembers (ht : HashTable) (last : Option Bytes) : Prop :=
  ∃ item, ht.posLastFind = .ok item ∧ item.map (fun bck => (itemAt ht.table bck).key) = last

theorem resized_packed {ht next : HashTable} (packed : ht.cBuckets < 1024 ∨ ht.cBuckets ≤ 5 * ht.cItems) (goal : next.cDeltaGoalSize = 0)
    (more : ht.cItems ≤ next.cItems) (resized : Resized ht next) : next.cBuckets < 1024 ∨ next.cBuckets ≤ 5 * next.cItems := by
  rcases resized with same | made
  · omega
  · rw [goal] at made
    omega

theorem serves_not_empties {ht : HashTable} {map : Bytes → Option UInt64} (serves : Serves ht map) : ¬ Empties ht := by
  rintro ⟨one, -, large⟩
  have := serves.packed
  omega

theorem insert_serves (ht : HashTable) (map : Bytes → Option UInt64) (serves : Serves ht map) (key : Bytes) (data : UInt64)
    (live : data ≠ DELETED) (bounded : ht.cItems + 1 < 2 ^ 28) :
    ∃ next bck, hashInsert ht key data = .ok (next, bck) ∧ Serves next (Function.update map key (some data)) ∧
      bucketAt next.table bck = .ok ⟨data, key⟩ ∧ next.cItems ≤ ht.cItems + 1 ∧ next.posLastFind = .ok none := by
  obtain ⟨k, holds⟩ := serves.holds
  cases stored : map key with
  | some old =>
      obtain ⟨⟨table, bck, done, holds', read⟩, -⟩ := insert_hit holds key data old live stored
      exact ⟨_, bck, done, ⟨⟨k, holds'⟩, serves.goal, serves.packed⟩, read, Nat.le_succ _, rfl⟩
  | none =>
      have fits : ht.cDeltaGoalSize.toNat + ht.cItems < 2 ^ 28 := by
        rw [serves.goal]
        omega
      obtain ⟨next, j, bck, done, holds', read, items, goal, cleared, resized⟩ :=
        insert_miss holds key data live stored fits true (.inl rfl)
      rw [serves.goal] at goal
      exact ⟨next, bck, done, ⟨⟨j, holds'⟩, goal, resized_packed serves.packed goal (by omega) resized⟩, read, Nat.le_of_eq items, cleared⟩

theorem find_serves (ht : HashTable) (map : Bytes → Option UInt64) (serves : Serves ht map) (key : Bytes) :
    ∃ item place, ht.find key = .ok ({ ht with posLastFind := .ok item }, item, place) ∧
      Serves { ht with posLastFind := .ok item } map ∧
      match map key with
      | none => item = none
      | some data => ∃ bck, item = some bck ∧ bucketAt ht.table bck = .ok ⟨data, key⟩ ∧ itemAt ht.table bck = ⟨data, key⟩ := by
  obtain ⟨k, holds⟩ := serves.holds
  obtain ⟨item, place, done, holds', finds⟩ := find_step holds key
  refine ⟨item, place, done, ⟨⟨k, holds'⟩, serves.goal, serves.packed⟩, ?_⟩
  cases finds with
  | hit b bck value iEmpty inside here pointed =>
      rw [(holds.held.holds.stores key value).mp ⟨b, inside, here⟩]
      exact ⟨bck, rfl, (item_here pointed here).1, (item_here pointed here).2.1⟩
  | miss n bounded absent open_ path => rw [absent]

theorem delete_serves (ht : HashTable) (map : Bytes → Option UInt64) (serves : Serves ht map) (bounded : ht.cItems < 2 ^ 28)
    (bck : BucketPtr) (found : ht.posLastFind = .ok (some bck)) :
    ∃ next, ht.deleteLast true = .ok next ∧ Serves next (Function.update map (itemAt ht.table bck).key none) ∧
      next.cItems ≤ ht.cItems + 1 ∧ next.posLastFind = .ok none := by
  obtain ⟨k, holds⟩ := serves.holds
  obtain ⟨b, inside, key, value, here, pointed⟩ := holds.last bck found
  have fits : ht.cDeltaGoalSize.toNat + ht.cItems < 2 ^ 28 := by
    rw [serves.goal]
    omega
  obtain ⟨next, j, done, holds', items, goal, cleared, -, packed⟩ := delete_last holds fits (serves_not_empties serves) bck found key
    value b inside here pointed
  rw [serves.goal] at goal
  have settled : next.cDeltaGoalSize = 0 := goal
  rw [settled] at packed
  rw [(item_here pointed here).2.1]
  exact ⟨next, done, ⟨⟨j, holds'⟩, settled, by have := packed (by decide); omega⟩, by omega, cleared⟩

theorem call_step (ht : HashTable) (state : StringMap) (serves : Serves ht state.map) (call : HashCall) (bounded : ht.cItems + 1 < 2 ^ 28)
    (live : ∀ key data, call = .insert key data → data ≠ DELETED) (started : call = .deleteLast → Remembers ht state.last) :
    ∃ next, ht.call call = .ok (next, (state.call call).2) ∧ Serves next (state.call call).1.map ∧
      Remembers next (state.call call).1.last ∧ next.cItems ≤ ht.cItems + 1 := by
  cases call with
  | insert key data =>
      obtain ⟨next, bck, done, serves', read, items, cleared⟩ := insert_serves ht state.map serves key data (live key data rfl) bounded
      refine ⟨next, ?_, serves', ⟨none, cleared, rfl⟩, items⟩
      simp only [HashTable.call, done, bind, Except.bind, read, pure, Except.pure, StringMap.call]
  | find key =>
      obtain ⟨item, place, done, serves', answer⟩ := find_serves ht state.map serves key
      cases stored : state.map key with
      | none =>
          rw [stored] at answer
          obtain rfl := answer
          refine ⟨_, ?_, serves', ⟨none, rfl, by simp [StringMap.call, stored]⟩, Nat.le_succ _⟩
          simp only [HashTable.call, hashFind, done, bind, Except.bind, pure, Except.pure, StringMap.call, stored, Option.map_none]
      | some data =>
          rw [stored] at answer
          obtain ⟨bck, rfl, read, here⟩ := answer
          refine ⟨_, ?_, serves', ⟨some bck, rfl, by simp [StringMap.call, stored, here]⟩, Nat.le_succ _⟩
          simp only [HashTable.call, hashFind, done, bind, Except.bind, read, pure, Except.pure, StringMap.call, stored, Option.map_some]
  | delete key =>
      obtain ⟨item, place, done, serves', answer⟩ := find_serves ht state.map serves key
      cases stored : state.map key with
      | none =>
          rw [stored] at answer
          obtain rfl := answer
          have same : Function.update state.map key none = state.map := by rw [← stored, Function.update_eq_self]
          refine ⟨{ ht with posLastFind := .ok none }, ?_, ?_, ⟨none, rfl, rfl⟩, Nat.le_succ _⟩
          · simp only [HashTable.call, hashDelete, HashTable.delete, done, bind, Except.bind, pure, Except.pure, StringMap.call, stored,
              Option.isSome_none]
          · rw [StringMap.call, same]
            exact serves'
      | some data =>
          rw [stored] at answer
          obtain ⟨bck, rfl, -, here⟩ := answer
          obtain ⟨next, gone, serves'', items, cleared⟩ := delete_serves _ state.map serves' (Nat.lt_of_succ_lt bounded) bck rfl
          rw [here] at serves''
          refine ⟨next, ?_, serves'', ⟨none, cleared, rfl⟩, items⟩
          simp only [HashTable.call, hashDelete, HashTable.delete, done, bind, Except.bind, gone, pure, Except.pure, StringMap.call, stored,
            Option.isSome_some]
  | deleteLast =>
      obtain ⟨item, found, remembered⟩ := started rfl
      cases item with
      | none =>
          rw [Option.map_none] at remembered
          refine ⟨ht, ?_, ?_, ⟨none, found, ?_⟩, Nat.le_succ _⟩
          · simp only [HashTable.call, hashDeleteLast, found, bind, Except.bind, pure, Except.pure, StringMap.call, ← remembered]
          · rw [StringMap.call, ← remembered]
            exact serves
          · rw [StringMap.call, ← remembered]
            rfl
      | some bck =>
          rw [Option.map_some] at remembered
          obtain ⟨next, gone, serves', items, cleared⟩ := delete_serves ht state.map serves (Nat.lt_of_succ_lt bounded) bck found
          refine ⟨next, ?_, ?_, ⟨none, cleared, ?_⟩, items⟩
          · simp only [HashTable.call, hashDeleteLast, found, bind, Except.bind, gone, pure, Except.pure, StringMap.call, ← remembered]
          · rw [StringMap.call, ← remembered]
            exact serves'
          · rw [StringMap.call, ← remembered]
            rfl

theorem calls_run (calls : List HashCall) (ht : HashTable) (state : StringMap) (serves : Serves ht state.map)
    (started : calls.head? = some .deleteLast → Remembers ht state.last)
    (live : ∀ key data, .insert key data ∈ calls → data ≠ DELETED) (bounded : ht.cItems + calls.length < 2 ^ 28) :
    ∃ last, ht.calls calls = .ok (last, (state.calls calls).2) ∧ Serves last (state.calls calls).1.map ∧
      last.cItems ≤ ht.cItems + calls.length := by
  induction calls generalizing ht state with
  | nil => exact ⟨ht, rfl, serves, Nat.le_refl _⟩
  | cons call rest ih =>
      rw [List.length_cons] at bounded
      obtain ⟨next, done, serves', remembers, items⟩ := call_step ht state serves call (by omega)
        (fun key data same => live key data (same ▸ List.mem_cons_self ..)) (fun same => started (by rw [same, List.head?_cons]))
      obtain ⟨last, ran, served, count⟩ := ih next (state.call call).1 serves' (fun _ => remembers)
        (fun key data member => live key data (List.mem_cons_of_mem _ member)) (by omega)
      exact ⟨last, by simp only [HashTable.calls, done, bind, Except.bind, ran, pure, Except.pure, StringMap.calls], served, by
        rw [List.length_cons]
        omega⟩

-- DELETED stands for no data, HashDeleteLast needs a call before it, and the sizes stay within an int.
structure Allowed (calls : List HashCall) : Prop where
  live : ∀ key data, .insert key data ∈ calls → data ≠ DELETED
  first : calls.head? ≠ some .deleteLast
  few : calls.length < 2 ^ 28

def emptyMap : StringMap := ⟨fun _ => none, none⟩

theorem allowed_run (calls : List HashCall) (allowed : Allowed calls) :
    ∃ ht last, allocateHashTable = .ok ht ∧ ht.calls calls = .ok (last, (emptyMap.calls calls).2) ∧
      Serves last (emptyMap.calls calls).1.map ∧ last.cItems < 2 ^ 28 := by
  obtain ⟨ht, made, holds, items, goal, -⟩ := allocate_table
  have few := allowed.few
  have small : ht.cBuckets < 1024 := by
    rw [holds.size]
    decide
  obtain ⟨last, ran, serves, count⟩ := calls_run calls ht emptyMap ⟨⟨9, holds⟩, goal, .inl small⟩ (fun head => absurd head allowed.first)
    allowed.live (by rw [items, Nat.zero_add]; exact few)
  exact ⟨ht, last, made, ran, serves, by omega⟩

-- Whatever is inserted, found and deleted in whatever order, through every change of the table's size.
theorem hash_table_is_map (calls : List HashCall) (allowed : Allowed calls) :
    ∃ ht last, allocateHashTable = .ok ht ∧ ht.calls calls = .ok (last, (emptyMap.calls calls).2) ∧
      ∃ places items, hashBuckets last = .ok places ∧ places.mapM (bucketAt last.table) = .ok items ∧
        (items.map HTItem.key).Nodup ∧ (∀ item, item ∈ items ↔ (emptyMap.calls calls).1.map item.key = some item.data) ∧
        items.length = last.cItems := by
  obtain ⟨ht, last, made, ran, serves, -⟩ := allowed_run calls allowed
  obtain ⟨k, holds⟩ := serves.holds
  have lists := live_places_lists holds.held
  have read : ∀ places : List BucketPtr, (∀ bck ∈ places, bucketAt last.table bck = .ok (itemAt last.table bck)) →
      places.mapM (bucketAt last.table) = .ok (places.map (itemAt last.table)) := by
    intro places each
    induction places with
    | nil => rfl
    | cons bck rest ih =>
        rw [List.mapM_cons, each bck (List.mem_cons_self ..), ih fun other member => each other (List.mem_cons_of_mem _ member)]
        rfl
  refine ⟨ht, last, made, ran, _, _, hash_buckets last holds.size holds.held,
    read _ fun bck member => (lists.read bck member).1, ?_, ?_, ?_⟩
  · rw [List.map_map]
    exact lists.keys
  · intro item
    rw [List.mem_map]
    exact lists.stores item.key item.data
  · rw [List.length_map, live_places_length holds.held.sound, holds.held.items]

def sampleCalls : List HashCall :=
  [.insert [97] 1, .insert [98] 2, .insert [97] 3, .find [98], .deleteLast, .find [97], .delete [98], .insert [98] 4]

theorem sample_calls_allowed : Allowed sampleCalls where
  live := by
    intro key data member
    simp only [sampleCalls, List.mem_cons, HashCall.insert.injEq, reduceCtorEq, List.not_mem_nil, or_false, false_or] at member
    rcases member with ⟨-, rfl⟩ | ⟨-, rfl⟩ | ⟨-, rfl⟩ | ⟨-, rfl⟩ <;> decide
  first := by decide
  few := by decide

theorem hash_table_is_map_sample : ∃ ht last, allocateHashTable = .ok ht ∧
    ht.calls sampleCalls = .ok (last, [.item (some ⟨1, [97]⟩), .item (some ⟨2, [98]⟩), .item (some ⟨3, [97]⟩), .item (some ⟨2, [98]⟩),
      .deleted true, .item (some ⟨3, [97]⟩), .deleted false, .item (some ⟨4, [98]⟩)]) := by
  obtain ⟨ht, last, made, ran, -⟩ := hash_table_is_map sampleCalls sample_calls_allowed
  exact ⟨ht, last, made, ran⟩

-- The load of every table reached: a power of two of buckets, at least 64, more than half of them free. A table that
-- has grown past 512 buckets has an item for every five. The two counters are the numbers of items and of marked buckets.
theorem hash_table_load (calls : List HashCall) (allowed : Allowed calls) (ht last : HashTable) (answers : List HashAnswer)
    (made : allocateHashTable = .ok ht) (ran : ht.calls calls = .ok (last, answers)) :
    (∃ k, 6 ≤ k ∧ k ≤ 30 ∧ last.cBuckets = 2 ^ k) ∧ 2 * (last.cItems + last.cDeletedItems) < last.cBuckets ∧
      (last.cBuckets ≤ 512 ∨ last.cBuckets ≤ 5 * last.cItems) ∧
      last.cItems = Nat.count (fun b => (slots last.table b).isItem = true) last.cBuckets ∧
      last.cDeletedItems = Nat.count (fun b => (slots last.table b).isGone = true) last.cBuckets := by
  obtain ⟨ht', last', made', ran', serves, -⟩ := allowed_run calls allowed
  obtain rfl : ht' = ht := Except.ok.inj (made'.symm.trans made)
  obtain rfl : last' = last := congrArg Prod.fst (Except.ok.inj (ran'.symm.trans ran))
  obtain ⟨k, holds⟩ := serves.holds
  refine ⟨⟨k, holds.large, holds.held.small, holds.size⟩, holds.size ▸ holds.room, ?_, ?_, ?_⟩
  · rcases serves.packed with small | packed
    · rw [holds.size] at small ⊢
      have few : k < 10 := (Nat.pow_lt_pow_iff_right (show 1 < 2 by decide)).mp small
      have bounded : 2 ^ k ≤ 2 ^ 9 := Nat.pow_le_pow_right (by decide) (by omega)
      exact .inl bounded
    · exact .inr packed
  · rw [holds.size, holds.held.items]
  · rw [holds.size, holds.held.gone]

theorem hash_table_load_sample : ∃ ht last, allocateHashTable = .ok ht ∧ ht.calls sampleCalls = .ok (last, (emptyMap.calls sampleCalls).2) ∧
    2 * (last.cItems + last.cDeletedItems) < last.cBuckets := by
  obtain ⟨ht, last, made, ran, -⟩ := allowed_run sampleCalls sample_calls_allowed
  exact ⟨ht, last, made, ran, (hash_table_load sampleCalls sample_calls_allowed ht last _ made ran).2.1⟩

-- HashFindOrInsert does not overwrite, and a deleted bucket is one that SparseInsert finds occupied.
theorem find_or_insert_marked (ht : HashTable) (map : Bytes → Option UInt64) (serves : Serves ht map) (key : Bytes) (data : UInt64)
    (absent : map key = none) (marked : Reuses ht key) :
    ∃ next bck, hashFindOrInsert ht key data = .ok (next, bck) ∧ next.table = ht.table ∧ next.cItems = ht.cItems + 1 ∧
      next.cDeletedItems + 1 = ht.cDeletedItems ∧ ∃ after, hashFind next key = .ok (after, none) := by
  obtain ⟨k, holds⟩ := serves.holds
  obtain ⟨item, place, done, -, finds⟩ := find_step holds key
  have size := holds.size
  have room := holds.room
  have capped : 2 ^ k ≤ 2 ^ 30 := Nat.pow_le_pow_right (by decide) holds.held.small
  cases finds with
  | hit b bck value iEmpty inside here pointed =>
      rw [(holds.held.holds.stores key value).mp ⟨b, inside, here⟩] at absent
      cases absent
  | miss n within absent open_ path =>
      have here := (open_marked_iff size key n within open_ path).mpr marked
      have counted : 0 < ht.cDeletedItems := by
        rw [← holds.held.gone]
        exact Nat.pos_of_ne_zero (Nat.count_ne_iff_exists.mpr ⟨_, walk_inside k key n, by rw [here]; rfl⟩)
      have fewer : ulongPred ht.cDeletedItems = ht.cDeletedItems - 1 := ulong_pred _ counted (by omega)
      have more : (ht.cItems + 1) % 2 ^ 64 = ht.cItems + 1 := Nat.mod_eq_of_lt (by omega)
      have sum : (ht.cItems + 1 + (ht.cDeletedItems - 1)) % 2 ^ 64 = ht.cItems + ht.cDeletedItems := by
        rw [show ht.cItems + 1 + (ht.cDeletedItems - 1) = ht.cItems + ht.cDeletedItems by omega]
        exact Nat.mod_eq_of_lt (by omega)
      rcases bucket_cases ht.table holds.held.sound (walk (2 ^ k) key n) with ⟨-, stored⟩ | ⟨bck, -, pointed, -⟩
      · rw [slots, stored] at here
        cases here
      · obtain ⟨left, -⟩ := insert_occupied ht.table holds.held.sound (walk (2 ^ k) key n) ⟨data, key⟩ (held_inside holds.held key n) bck
          pointed
        let next : HashTable := { ht with cItems := ht.cItems + 1, cDeletedItems := ht.cDeletedItems - 1, posLastFind := .ok none }
        have stays : ¬ (ht.cBuckets ≤ 2 * (ht.cItems + ht.cDeletedItems) ∨ ht.cDeltaGoalSize < 0) := by
          rw [size, serves.goal]
          omega
        have grows : next.grow bck = .ok (next, bck) := by
          rw [HashTable.grow, sum, if_neg stays]
          rfl
        have inserted : HashTable.insertAt { ht with posLastFind := .ok none } key data (walk (2 ^ k) key n) false = .ok (next, bck) := by
          have goal : (if 0 < ht.cDeltaGoalSize then ht.cDeltaGoalSize - 1 else ht.cDeltaGoalSize) = ht.cDeltaGoalSize :=
            if_neg (by rw [serves.goal]; decide)
          rw [HashTable.insertAt, left]
          simp only [bind, Except.bind, if_true, fewer, more, goal]
          exact grows
        have held : TableHolds next.table k map ht.cItems ht.cDeletedItems := holds.held
        obtain ⟨found, slot, again, finds⟩ := find_finds next size held (by omega) key
        refine ⟨next, bck, ?_, rfl, rfl, Nat.sub_add_cancel counted, ?_⟩
        · rw [hashFindOrInsert, HashTable.insert, done]
          exact inserted
        · cases finds with
          | hit b bck' value iEmpty inside stored _ =>
              rw [(holds.held.holds.stores key value).mp ⟨b, inside, stored⟩] at absent
              cases absent
          | miss m bounded absent' open_' path' =>
              exact ⟨{ next with posLastFind := .ok none }, by rw [hashFind, again]; rfl⟩

-- HashFindOrInsert after any run: an item of the key is left as it is, and a key that is not there is stored
-- exactly when its walk comes by no deleted bucket. Where it does, nothing is stored and the items are counted one too many.
theorem find_or_insert_stores_iff (calls : List HashCall) (allowed : Allowed calls) (ht last : HashTable) (answers : List HashAnswer)
    (made : allocateHashTable = .ok ht) (ran : ht.calls calls = .ok (last, answers)) (key : Bytes) (data : UInt64) (live : data ≠ DELETED) :
    ∃ next bck, hashFindOrInsert last key data = .ok (next, bck) ∧
      match (emptyMap.calls calls).1.map key with
      | some old => next.table = last.table ∧ bucketAt next.table bck = .ok ⟨old, key⟩
      | none =>
          ((∃ after item, hashFind next key = .ok (after, some item) ∧ bucketAt next.table item = .ok ⟨data, key⟩) ↔ ¬ Reuses last key) ∧
          (Reuses last key → next.table = last.table ∧ next.cItems = last.cItems + 1 ∧ next.cDeletedItems + 1 = last.cDeletedItems) := by
  obtain ⟨ht', last', made', ran', serves, count⟩ := allowed_run calls allowed
  obtain rfl : ht' = ht := Except.ok.inj (made'.symm.trans made)
  obtain rfl : last' = last := congrArg Prod.fst (Except.ok.inj (ran'.symm.trans ran))
  obtain ⟨k, holds⟩ := serves.holds
  cases stored : (emptyMap.calls calls).1.map key with
  | some old =>
      obtain ⟨-, bck, done, read⟩ := insert_hit holds key data old live stored
      exact ⟨_, bck, done, rfl, read⟩
  | none =>
      by_cases marked : Reuses last' key
      · obtain ⟨next, bck, done, table, items, gone, after, missing⟩ := find_or_insert_marked last' _ serves key data stored marked
        refine ⟨next, bck, done, ⟨?_, fun free => absurd marked free⟩, fun _ => ⟨table, items, gone⟩⟩
        rintro ⟨other, item, found, -⟩
        rw [missing] at found
        cases found
      · have fits : last'.cDeltaGoalSize.toNat + last'.cItems < 2 ^ 28 := by
          rw [serves.goal]
          omega
        obtain ⟨next, j, bck, done, holds', -⟩ := insert_miss holds key data live stored fits false (.inr marked)
        obtain ⟨item, place, found, -, finds⟩ := find_step holds' key
        refine ⟨next, bck, done, ⟨fun _ => marked, fun _ => ?_⟩, fun here => absurd here marked⟩
        cases finds with
        | miss n bounded absent open_ path =>
            rw [Function.update_self] at absent
            cases absent
        | hit b bck' value iEmpty inside here pointed =>
            have same := (holds'.held.holds.stores key value).mp ⟨b, inside, here⟩
            rw [Function.update_self] at same
            cases same
            exact ⟨{ next with posLastFind := .ok (some bck') }, bck', by rw [hashFind, found]; rfl, (item_here pointed here).1⟩

theorem find_or_insert_stores_iff_deleted : ∃ ht last, allocateHashTable = .ok ht ∧
    ht.calls [.insert [97] 1, .delete [97]] = .ok (last, [.item (some ⟨1, [97]⟩), .deleted true]) ∧
    ∃ next bck, hashFindOrInsert last [97] 2 = .ok (next, bck) ∧
      ((∃ after item, hashFind next [97] = .ok (after, some item) ∧ bucketAt next.table item = .ok ⟨2, [97]⟩) ↔ ¬ Reuses last [97]) := by
  have allowed : Allowed [.insert [97] 1, .delete [97]] := by
    refine ⟨fun key data member => ?_, by decide, by decide⟩
    simp only [List.mem_cons, HashCall.insert.injEq, reduceCtorEq, List.not_mem_nil, or_false] at member
    rw [member.2]
    decide
  obtain ⟨ht, last, made, ran, -⟩ := allowed_run _ allowed
  obtain ⟨next, bck, done, stores⟩ := find_or_insert_stores_iff _ allowed ht last _ made ran [97] 2 (by decide)
  exact ⟨ht, last, made, ran, next, bck, done, stores.1⟩

end Synergy
