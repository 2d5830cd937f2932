import Synergy.Buckets

set_option autoImplicit false

namespace Synergy

section

variable {table next : List SparseBin} {k : Nat} {map : Bytes → Option UInt64} {items gone : Nat}

theorem is_gone_or_empty {slot : Probing.Slot Bytes UInt64} (open_ : ∀ key v, slot ≠ .item key v) : slot = .gone ∨ slot = .empty := by
  cases slot with
  | empty => exact .inr rfl
  | gone => exact .inl rfl
  | item key v => exact absurd rfl (open_ key v)

theorem place_holds (held : TableHolds table k map items gone) (key : Bytes) (data : UInt64) (live : data ≠ DELETED) (n : Nat)
    (bounded : n < 2 ^ k) (open_ : ∀ other v, slots table (walk (2 ^ k) key n) ≠ .item other v)
    (path : ∀ j < n, slots table (walk (2 ^ k) key j) ≠ .empty) (absent : map key = none)
    (written : BucketSet table next (walk (2 ^ k) key n) ⟨data, key⟩) :
    TableHolds next k (Function.update map key (some data)) (items + 1)
      (gone - if slots table (walk (2 ^ k) key n) = .gone then 1 else 0) := by
  have fresh : slotOf (some (⟨data, key⟩ : HTItem)) = .item key data := slot_of_live _ live
  have inside := walk_inside k key n
  have asItem := count_written written Probing.Slot.isItem (2 ^ k) inside
  have asGone := count_written written Probing.Slot.isGone (2 ^ k) inside
  rw [held.items, fresh] at asItem
  rw [held.gone, fresh] at asGone
  refine ⟨written.sound, written.length ▸ held.length, held.small, ?_, ?_, ?_⟩
  · rw [slots_written written, fresh]
    exact Probing.holds_put held.holds key data n bounded inside open_ path absent
  · rcases is_gone_or_empty open_ with here | here
    · rw [here] at asItem
      exact asItem
    · rw [here] at asItem
      exact asItem
  · rcases is_gone_or_empty open_ with here | here
    · rw [here] at asGone ⊢
      simp only [Probing.Slot.isGone, if_true, Bool.false_eq_true, if_false] at asGone ⊢
      omega
    · rw [here] at asGone ⊢
      simp only [Probing.Slot.isGone, Bool.false_eq_true, if_false, reduceCtorEq] at asGone ⊢
      omega

theorem overwrite_holds (held : TableHolds table k map items gone) (b : Nat) (inside : b < 2 ^ k) (key : Bytes) (value data : UInt64)
    (here : slots table b = .item key value) (live : data ≠ DELETED) (written : BucketSet table next b ⟨data, key⟩) :
    TableHolds next k (Function.update map key (some data)) items gone := by
  have fresh : slotOf (some (⟨data, key⟩ : HTItem)) = .item key data := slot_of_live _ live
  have asItem := count_written written Probing.Slot.isItem (2 ^ k) inside
  have asGone := count_written written Probing.Slot.isGone (2 ^ k) inside
  rw [held.items, fresh, here] at asItem
  rw [held.gone, fresh, here] at asGone
  refine ⟨written.sound, written.length ▸ held.length, held.small, ?_, Nat.add_right_cancel asItem, Nat.add_right_cancel asGone⟩
  rw [slots_written written, fresh]
  exact Probing.holds_change held.holds b inside key value here _ _ (.inr ⟨data, rfl, rfl⟩)

theorem mark_holds (held : TableHolds table k map items gone) (b : Nat) (inside : b < 2 ^ k) (key : Bytes) (value : UInt64)
    (here : slots table b = .item key value) (written : BucketSet table next b ⟨DELETED, key⟩) :
    0 < items ∧ TableHolds next k (Function.update map key none) (items - 1) (gone + 1) := by
  have fresh : slotOf (some (⟨DELETED, key⟩ : HTItem)) = .gone := by rw [slotOf, if_pos rfl]
  have asItem := count_written written Probing.Slot.isItem (2 ^ k) inside
  have asGone := count_written written Probing.Slot.isGone (2 ^ k) inside
  rw [held.items, fresh, here] at asItem
  rw [held.gone, fresh, here] at asGone
  have fewer : Nat.count (fun b => (slots next b).isItem = true) (2 ^ k) + 1 = items := asItem
  have more : Nat.count (fun b => (slots next b).isGone = true) (2 ^ k) = gone + 1 := asGone
  refine ⟨by omega, written.sound, written.length ▸ held.length, held.small, ?_, by omega, more⟩
  rw [slots_written written, fresh]
  exact Probing.holds_change held.holds b inside key value here _ _ (.inl ⟨rfl, rfl⟩)

theorem empty_from (held : TableHolds table k map items gone) (key : Bytes) (n : Nat) (last : n < 2 ^ k)
    (empty : slots table (walk (2 ^ k) key n) = .empty) (fuel i : Nat) (before : i ≤ n) (enough : n < i + fuel)
    (path : ∀ j < i, slots table (walk (2 ^ k) key j) ≠ .empty) :
    ∃ m < 2 ^ k, emptyFrom table (2 ^ k) fuel (walk (2 ^ k) key i) i = .ok (walk (2 ^ k) key m) ∧
      slots table (walk (2 ^ k) key m) = .empty ∧ ∀ j < m, slots table (walk (2 ^ k) key j) ≠ .empty := by
  have small : k < 64 := Nat.lt_of_le_of_lt held.small (by decide)
  induction fuel generalizing i with
  | zero => omega
  | succ fuel ih =>
      obtain ⟨bin, here, found, member⟩ := group_at held.sound (held_inside held key i)
      have position : walk (2 ^ k) key i % 64 < 64 := Nat.mod_lt _ (by decide)
      have bit : (bucket table (walk (2 ^ k) key i)).isSome = bin.bmOccupied.getLsbD (walk (2 ^ k) key i % 64) := by
        rw [bucket, here, Option.bind_some, bucket_some_iff member position]
      rw [emptyFrom, sparseIsEmpty, found, walk_succ k small key i]
      simp only [bind, Except.bind, pure, Except.pure, test_bitmap _ _ position, ← bit]
      cases stored : bucket table (walk (2 ^ k) key i) with
      | none => exact ⟨i, Nat.lt_of_le_of_lt before last, rfl, (slot_of_empty _).mpr stored, path⟩
      | some item =>
          have full : slots table (walk (2 ^ k) key i) ≠ .empty := by
            intro empty
            rw [(slot_of_empty _).mp empty] at stored
            cases stored
          have onward : i < n := by
            rcases Nat.lt_or_eq_of_le before with less | rfl
            · exact less
            · exact absurd empty full
          refine ih (i + 1) onward (by omega) ?_
          intro j less
          rcases Nat.lt_succ_iff_lt_or_eq.mp less with earlier | rfl
          · exact path j earlier
          · exact full

theorem rehash_item (held : TableHolds table k map items 0) (room : items < 2 ^ k) (item : HTItem) (live : item.data ≠ DELETED)
    (absent : map item.key = none) :
    ∃ next bck b, rehashItem table (2 ^ k) item = .ok (next, bck) ∧ b < 2 ^ k ∧ bucketPtr next b = some bck ∧
      slots next b = .item item.key item.data ∧
      TableHolds next k (Function.update map item.key (some item.data)) (items + 1) 0 := by
  obtain ⟨n, last, empty⟩ := walk_ends held (by omega) item.key
  have enough : n < 0 + (2 ^ k + 1) := by omega
  obtain ⟨m, bounded, found, here, path⟩ := empty_from held item.key n last empty (2 ^ k + 1) 0 (Nat.zero_le n) enough
    fun j less => absurd less (Nat.not_lt_zero j)
  rw [walk_zero k (Nat.lt_of_le_of_lt held.small (by decide))] at found
  obtain ⟨next, bck, done, written, pointed⟩ := insert_empty table held.sound (walk (2 ^ k) item.key m) item false
    (held_inside held item.key m) ((slot_of_empty _).mp here)
  have placed := place_holds held item.key item.data live m bounded
    (fun other v full => by rw [here] at full; cases full) path absent written
  rw [here, if_neg (by rintro ⟨⟩), Nat.sub_zero] at placed
  refine ⟨next, bck, walk (2 ^ k) item.key m, ?_, walk_inside k item.key m, pointed, ?_, placed⟩
  · simp only [rehashItem, found, done, bind, Except.bind, pure, Except.pure]
  · rw [slots_written written, Function.update_self, slot_of_live item live]

def itemAt (table : List SparseBin) (bck : BucketPtr) : HTItem :=
  match bucketAt table bck with
  | .ok item => item
  | .error _ => ⟨DELETED, []⟩

-- Pointers to the items of a map, one for each.
structure Lists (table : List SparseBin) (map : Bytes → Option UInt64) (places : List BucketPtr) : Prop where
  read : ∀ bck ∈ places, bucketAt table bck = .ok (itemAt table bck) ∧ (itemAt table bck).data ≠ DELETED
  keys : (places.map fun bck => (itemAt table bck).key).Nodup
  stores : ∀ key value, (∃ bck ∈ places, itemAt table bck = ⟨value, key⟩) ↔ map key = some value

theorem lists_perm {places others : List BucketPtr} (lists : Lists table map places) (perm : others.Perm places) :
    Lists table map others where
  read := fun bck member => lists.read bck (perm.mem_iff.mp member)
  keys := (perm.map _).nodup_iff.mpr lists.keys
  stores := fun key value => by
    rw [← lists.stores key value]
    exact ⟨fun ⟨bck, member, here⟩ => ⟨bck, perm.mem_iff.mp member, here⟩, fun ⟨bck, member, here⟩ => ⟨bck, perm.mem_iff.mpr member, here⟩⟩

def putAll (table : List SparseBin) (places : List BucketPtr) (map : Bytes → Option UInt64) : Bytes → Option UInt64 :=
  places.foldl (fun held bck => Function.update held (itemAt table bck).key (some (itemAt table bck).data)) map

theorem put_all (table : List SparseBin) (places : List BucketPtr) (map : Bytes → Option UInt64)
    (nodup : (places.map fun bck => (itemAt table bck).key).Nodup) (key : Bytes) (value : UInt64) :
    putAll table places map key = some value ↔ (∃ bck ∈ places, itemAt table bck = ⟨value, key⟩) ∨
      (map key = some value ∧ ∀ bck ∈ places, (itemAt table bck).key ≠ key) := by
  induction places generalizing map with
  | nil => simp [putAll]
  | cons first rest ih =>
      obtain ⟨fresh, nodup⟩ := List.nodup_cons.mp nodup
      rw [putAll, List.foldl_cons]
      refine (ih _ nodup).trans ?_
      by_cases same : (itemAt table first).key = key
      · subst same
        have others : ∀ bck ∈ rest, (itemAt table bck).key ≠ (itemAt table first).key := fun bck member equal =>
          fresh (List.mem_map.mpr ⟨bck, member, equal⟩)
        rw [Function.update_self]
        constructor
        · rintro (⟨bck, member, here⟩ | ⟨stored, -⟩)
          · exact absurd (congrArg HTItem.key here) (others bck member)
          · cases stored
            exact .inl ⟨first, List.mem_cons_self .., rfl⟩
        · rintro (⟨bck, member, here⟩ | ⟨-, absent⟩)
          · rcases List.mem_cons.mp member with rfl | member
            · exact .inr ⟨by rw [here], others⟩
            · exact absurd (congrArg HTItem.key here) (others bck member)
          · exact absurd rfl (absent first (List.mem_cons_self ..))
      · rw [Function.update_of_ne (Ne.symm same)]
        constructor
        · rintro (⟨bck, member, here⟩ | ⟨stored, absent⟩)
          · exact .inl ⟨bck, List.mem_cons_of_mem _ member, here⟩
          · refine .inr ⟨stored, fun bck member => ?_⟩
            rcases List.mem_cons.mp member with rfl | member
            · exact same
            · exact absent bck member
        · rintro (⟨bck, member, here⟩ | ⟨stored, absent⟩)
          · rcases List.mem_cons.mp member with rfl | member
            · exact absurd (congrArg HTItem.key here) same
            · exact .inl ⟨bck, member, here⟩
          · exact .inr ⟨stored, fun bck member => absent bck (List.mem_cons_of_mem _ member)⟩

theorem put_all_lists {places : List BucketPtr} (lists : Lists table map places) : putAll table places (fun _ => none) = map := by
  funext key
  refine Option.ext fun value => ?_
  rw [put_all table places _ lists.keys key value, lists.stores key value]
  simp

theorem rehash_items {tableNew : List SparseBin} {held : Bytes → Option UInt64} (places : List BucketPtr) (last : Option BucketPtr)
    (holds : TableHolds tableNew k held items 0) (room : items + places.length < 2 ^ k)
    (read : ∀ bck ∈ places, bucketAt table bck = .ok (itemAt table bck) ∧ (itemAt table bck).data ≠ DELETED)
    (nodup : (places.map fun bck => (itemAt table bck).key).Nodup) (absent : ∀ bck ∈ places, held (itemAt table bck).key = none) :
    ∃ next bckNew, rehashItems table (2 ^ k) places tableNew last = .ok (next, bckNew) ∧
      TableHolds next k (putAll table places held) (items + places.length) 0 ∧
      ∀ bck, places.getLast? = some bck → ∃ b < 2 ^ k, bckNew = bucketPtr next b ∧ bckNew ≠ none ∧
        slots next b = .item (itemAt table bck).key (itemAt table bck).data := by
  induction places generalizing tableNew held items last with
  | nil => exact ⟨tableNew, last, rfl, holds, fun bck none => by cases none⟩
  | cons first rest ih =>
      rw [List.length_cons] at room
      obtain ⟨fresh, nodup⟩ := List.nodup_cons.mp nodup
      obtain ⟨found, live⟩ := read first (List.mem_cons_self ..)
      obtain ⟨next, bck, b, done, inside, pointed, here, held'⟩ := rehash_item holds (by omega) (itemAt table first) live
        (absent first (List.mem_cons_self ..))
      obtain ⟨final, bckNew, ran, kept, placed⟩ := ih (some bck) held' (by omega)
        (fun other member => read other (List.mem_cons_of_mem _ member)) nodup fun other member => by
          rw [Function.update_of_ne fun equal => fresh (List.mem_map.mpr ⟨other, member, equal⟩)]
          exact absent other (List.mem_cons_of_mem _ member)
      refine ⟨final, bckNew, ?_, ?_, ?_⟩
      · simp only [rehashItems, found, done, bind, Except.bind, ran]
      · rw [List.length_cons, show items + (rest.length + 1) = items + 1 + rest.length by omega]
        exact kept
      · intro other isLast
        cases rest with
        | nil =>
            cases isLast
            cases ran
            exact ⟨b, inside, pointed.symm, by rintro ⟨⟩, here⟩
        | cons second rest => exact placed other (by rwa [List.getLast?_cons_cons] at isLast)

theorem item_here {b : Nat} {bck : BucketPtr} {key : Bytes} {value : UInt64}
    (pointed : bucketPtr table b = some bck) (here : slots table b = .item key value) :
    bucketAt table bck = .ok ⟨value, key⟩ ∧ itemAt table bck = ⟨value, key⟩ ∧ value ≠ DELETED := by
  obtain ⟨stored, live⟩ := slot_of_item _ key value here
  have read := bucket_at table b bck _ pointed stored
  exact ⟨read, by rw [itemAt, read], live⟩

theorem pointer_injective {a b : Nat} {bck : BucketPtr} (atA : bucketPtr table a = some bck) (atB : bucketPtr table b = some bck) :
    a = b := by
  obtain ⟨bin, found, here⟩ := Option.bind_eq_some_iff.mp atA
  obtain ⟨other, found', here'⟩ := Option.bind_eq_some_iff.mp atB
  cases setA : bin.bmOccupied.getLsbD (a % 64) with
  | false => simp [setA] at here
  | true =>
      cases setB : other.bmOccupied.getLsbD (b % 64) with
      | false => simp [setB] at here'
      | true =>
          rw [setA, if_pos rfl] at here
          rw [setB, if_pos rfl] at here'
          cases here
          simp only [Option.some.injEq, BucketPtr.mk.injEq] at here'
          obtain ⟨group, offset⟩ := here'
          rw [group] at found'
          obtain rfl := Option.some.inj (found.symm.trans found')
          exact location_split group.symm (Nat.count_injective setA setB offset.symm)

-- The buckets that HashFirstBucket and HashNextBucket show.
def livePlaces (table : List SparseBin) (n : Nat) : List BucketPtr :=
  (List.range n).filterMap fun b => if (slots table b).isItem then bucketPtr table b else none

theorem is_item {slot : Probing.Slot Bytes UInt64} (item : slot.isItem = true) : ∃ key value, slot = .item key value := by
  cases slot with
  | empty => cases item
  | gone => cases item
  | item key value => exact ⟨key, value, rfl⟩

theorem pointed_at (sound : Sound table) {b : Nat} {key : Bytes} {value : UInt64} (here : slots table b = .item key value) :
    ∃ bck, bucketPtr table b = some bck := by
  rcases bucket_cases table sound b with ⟨-, stored⟩ | ⟨bck, -, pointed, -⟩
  · rw [slots, stored] at here
    cases here
  · exact ⟨bck, pointed⟩

theorem live_places_iff (table : List SparseBin) (n : Nat) (bck : BucketPtr) :
    bck ∈ livePlaces table n ↔ ∃ b < n, ∃ key value, slots table b = .item key value ∧ bucketPtr table b = some bck := by
  rw [livePlaces, List.mem_filterMap]
  constructor
  · rintro ⟨b, inside, pointed⟩
    cases live : (slots table b).isItem with
    | false => simp [live] at pointed
    | true =>
        rw [live, if_pos rfl] at pointed
        obtain ⟨key, value, here⟩ := is_item live
        exact ⟨b, List.mem_range.mp inside, key, value, here, pointed⟩
  · rintro ⟨b, inside, key, value, here, pointed⟩
    exact ⟨b, List.mem_range.mpr inside, by rw [here, Probing.Slot.isItem, if_pos rfl, pointed]⟩

theorem live_places_nodup (table : List SparseBin) (n : Nat) : (livePlaces table n).Nodup := by
  refine List.Nodup.filterMap ?_ List.nodup_range
  intro a b bck atA atB
  cases liveA : (slots table a).isItem with
  | false => simp [liveA] at atA
  | true =>
      cases liveB : (slots table b).isItem with
      | false => simp [liveB] at atB
      | true =>
          rw [liveA, if_pos rfl] at atA
          rw [liveB, if_pos rfl] at atB
          exact pointer_injective atA atB

theorem live_places_length (sound : Sound table) (n : Nat) :
    (livePlaces table n).length = Nat.count (fun b => (slots table b).isItem = true) n := by
  induction n with
  | zero => rw [livePlaces, List.range_zero, List.filterMap_nil, List.length_nil, Nat.count_zero]
  | succ n ih =>
      rw [livePlaces, List.range_succ, List.filterMap_append, List.length_append, ← livePlaces, ih, Nat.count_succ]
      congr 1
      cases live : (slots table n).isItem with
      | false => simp [live]
      | true =>
          obtain ⟨key, value, here⟩ := is_item live
          obtain ⟨bck, pointed⟩ := pointed_at sound here
          simp [live, pointed]

theorem live_places_lists (held : TableHolds table k map items gone) : Lists table map (livePlaces table (2 ^ k)) := by
  refine ⟨fun bck member => ?_, ?_, fun key value => ?_⟩
  · obtain ⟨b, -, key, value, here, pointed⟩ := (live_places_iff table (2 ^ k) bck).mp member
    obtain ⟨read, item, live⟩ := item_here pointed here
    rw [item]
    exact ⟨read, live⟩
  · refine List.Nodup.map_on ?_ (live_places_nodup table (2 ^ k))
    intro p atP q atQ same
    obtain ⟨a, insideA, key, v, hereA, pointedA⟩ := (live_places_iff table (2 ^ k) p).mp atP
    obtain ⟨b, insideB, key', w, hereB, pointedB⟩ := (live_places_iff table (2 ^ k) q).mp atQ
    rw [(item_here pointedA hereA).2.1, (item_here pointedB hereB).2.1] at same
    cases same
    obtain rfl := held.holds.once a insideA b insideB key v w hereA hereB
    exact Option.some.inj (pointedA.symm.trans pointedB)
  · rw [← held.holds.stores key value]
    constructor
    · rintro ⟨bck, member, item⟩
      obtain ⟨b, inside, other, v, here, pointed⟩ := (live_places_iff table (2 ^ k) bck).mp member
      rw [(item_here pointed here).2.1] at item
      cases item
      exact ⟨b, inside, here⟩
    · rintro ⟨b, inside, here⟩
      obtain ⟨bck, pointed⟩ := pointed_at held.sound here
      exact ⟨bck, (live_places_iff table (2 ^ k) bck).mpr ⟨b, inside, key, value, here, pointed⟩, (item_here pointed here).2.1⟩

theorem hash_buckets (ht : HashTable) (size : ht.cBuckets = 2 ^ k) (held : TableHolds ht.table k map items gone) :
    hashBuckets ht = .ok (livePlaces ht.table (2 ^ k)) := by
  have positive := Nat.two_pow_pos k
  have bounded : 2 ^ k ≤ 2 ^ 30 := Nat.pow_le_pow_right (by decide) held.small
  have length := held.length
  have groups : sparseGroups (2 ^ k) = ht.table.length := by
    rw [← length]
    exact sparse_groups ht.table.length (by omega) (by omega)
  have all : placesFrom 0 ht.table = (List.range (2 ^ k)).filterMap (bucketPtr ht.table) := by rw [all_places ht.table held.sound, length]
  have yields := sparse_yields ht.table (2 ^ k) groups
  rw [all] at yields
  have few := List.length_filterMap_le (bucketPtr ht.table) (List.range (2 ^ k))
  rw [List.length_range] at few
  have decided : ∀ bck ∈ (List.range (2 ^ k)).filterMap (bucketPtr ht.table),
      ht.live bck = .ok ((itemAt ht.table bck).data != DELETED) := by
    intro bck member
    obtain ⟨b, -, pointed⟩ := List.mem_filterMap.mp member
    rcases bucket_cases ht.table held.sound b with ⟨none, -⟩ | ⟨other, item, pointed', -, read⟩
    · rw [none] at pointed
      cases pointed
    · obtain rfl := Option.some.inj (pointed.symm.trans pointed')
      simp only [HashTable.live, read, itemAt, bind, Except.bind, pure, Except.pure]
  have shown := Cursor.skip_yields .diverges ht.live (fun bck => (itemAt ht.table bck).data != DELETED)
    (sparseNextBucket ht.table (2 ^ k)) _ sparseStart (2 ^ k + 1) yields decided (Nat.lt_succ_of_le few)
  have same : ((List.range (2 ^ k)).filterMap (bucketPtr ht.table)).filter (fun bck => (itemAt ht.table bck).data != DELETED) =
      livePlaces ht.table (2 ^ k) := by
    rw [List.filter_filterMap, livePlaces]
    refine List.filterMap_congr fun b _ => ?_
    rcases bucket_cases ht.table held.sound b with ⟨none, stored⟩ | ⟨bck, item, pointed, stored, read⟩
    · rw [none]
      split_ifs <;> rfl
    · rw [pointed, slots, stored, slotOf, Option.filter, itemAt, read]
      by_cases gone : item.data = DELETED
      · simp [gone, Probing.Slot.isItem]
      · simp [gone, Probing.Slot.isItem]
  rw [same] at shown
  have fewer : (livePlaces ht.table (2 ^ k)).length < 2 ^ k + 1 := by
    rw [← same]
    exact Nat.lt_succ_of_le (Nat.le_trans (List.length_filter_le _ _) few)
  rw [hashBuckets, hashNextBucket, size]
  exact Cursor.visits_yields .diverges _ _ _ sparseStart shown fewer

-- SparseAllocate makes at least one group, so that a table has 64 buckets or more.
theorem allocate_holds (j : Nat) (small : j ≤ 30) :
    ∃ fresh, sparseAllocate (2 ^ j) = .ok (fresh, 2 ^ max 6 j) ∧ TableHolds fresh (max 6 j) (fun _ => none) 0 0 := by
  have groups : ∃ n, sparseGroups (2 ^ j) = n ∧ n * 64 = 2 ^ max 6 j ∧ n < 2 ^ 25 := by
    by_cases few : j ≤ 6
    · have bounded : 2 ^ j ≤ 2 ^ 6 := Nat.pow_le_pow_right (by decide) few
      have positive := Nat.two_pow_pos j
      refine ⟨1, ?_, by rw [Nat.max_eq_left few]; rfl, by decide⟩
      rw [sparseGroups, ulong_pred (2 ^ j) positive (by omega), Nat.div_eq_of_lt (by omega)]
    · obtain ⟨d, rfl⟩ := Nat.exists_eq_add_of_le (show 6 ≤ j by omega)
      have split : 2 ^ (6 + d) = 2 ^ d * 64 := by rw [Nat.pow_add, Nat.mul_comm]
      have bounded : 2 ^ d < 2 ^ 25 := Nat.pow_lt_pow_right (by decide) (by omega)
      refine ⟨2 ^ d, ?_, by rw [Nat.max_eq_right (by omega), split], bounded⟩
      rw [split]
      exact sparse_groups (2 ^ d) (Nat.two_pow_pos d) (by omega)
  obtain ⟨n, counted, size, bounded⟩ := groups
  have made : sparseAllocate (2 ^ j) = .ok (List.replicate n ⟨[], 0#64, 0⟩, 2 ^ max 6 j) := by
    rw [sparseAllocate, counted, Nat.mod_eq_of_lt (by omega), if_pos (by omega), size]
  obtain ⟨length, -, sound, bare⟩ := sparse_allocated _ _ _ made
  have empty : ∀ b, slots (List.replicate n (⟨[], 0#64, 0⟩ : SparseBin)) b = .empty := fun b => by rw [slots, bare]; rfl
  refine ⟨_, made, sound, length.symm, Nat.max_le.mpr ⟨by decide, small⟩, Probing.holds_empty _ fun b _ => empty b, ?_, ?_⟩
  · exact Nat.count_iff_forall_not.mpr fun b _ item => by rw [empty b] at item; cases item
  · exact Nat.count_iff_forall_not.mpr fun b _ item => by rw [empty b] at item; cases item

-- The order of the loop: the buckets but bckWatch, and then bckWatch.
theorem watch_last (places : List BucketPtr) (nodup : places.Nodup) (bckWatch : Option BucketPtr)
    (watched : ∀ bck, bckWatch = some bck → bck ∈ places) :
    (places.filter (fun bck => some bck ≠ bckWatch) ++ bckWatch.toList).Perm places := by
  cases bckWatch with
  | none => simp
  | some bck =>
      have erased : places.filter (fun other => some other ≠ some bck) = places.erase bck := by
        rw [nodup.erase_eq_filter]
        refine List.filter_congr fun other _ => ?_
        by_cases same : other = bck <;> simp [same]
      rw [erased, Option.toList_some]
      exact (List.perm_append_singleton bck _).trans (List.perm_cons_erase (watched bck rfl)).symm

theorem rehash_done (ht : HashTable) (cNewBuckets size : Nat) (bckWatch bckNew : Option BucketPtr) (fresh table : List SparseBin)
    (buckets : List BucketPtr) (made : sparseAllocate cNewBuckets = .ok (fresh, size)) (shown : hashBuckets ht = .ok buckets)
    (ran : rehashItems ht.table size (buckets.filter (fun bck => some bck ≠ bckWatch) ++ bckWatch.toList) fresh none =
      .ok (table, bckNew)) :
    ht.rehash cNewBuckets bckWatch = .ok ({ ht with table := table, cBuckets := size, cDeletedItems := 0 }, bckNew) := by
  rw [HashTable.rehash, made, shown]
  simp only [bind, Except.bind, ran, pure, Except.pure]

-- Every item goes to the new table, and none of the deleted buckets.
theorem rehash_holds (ht : HashTable) (size : ht.cBuckets = 2 ^ k) (held : TableHolds ht.table k map items gone) (j : Nat)
    (small : j ≤ 30) (room : items < 2 ^ max 6 j) (bckWatch : Option BucketPtr)
    (watched : ∀ bck, bckWatch = some bck → bck ∈ livePlaces ht.table (2 ^ k)) :
    ∃ table bckNew, ht.rehash (2 ^ j) bckWatch = .ok ({ ht with table := table, cBuckets := 2 ^ max 6 j, cDeletedItems := 0 }, bckNew) ∧
      TableHolds table (max 6 j) map items 0 ∧
      ∀ bck, bckWatch = some bck → ∃ b < 2 ^ max 6 j, bckNew = bucketPtr table b ∧ bckNew ≠ none ∧
        slots table b = .item (itemAt ht.table bck).key (itemAt ht.table bck).data := by
  obtain ⟨fresh, made, bare⟩ := allocate_holds j small
  have perm := watch_last _ (live_places_nodup ht.table (2 ^ k)) bckWatch watched
  have visited := lists_perm (live_places_lists held) perm
  have count := perm.length_eq.trans ((live_places_length held.sound (2 ^ k)).trans held.items)
  have last : ∀ bck, bckWatch = some bck →
      ((livePlaces ht.table (2 ^ k)).filter (fun bck => some bck ≠ bckWatch) ++ bckWatch.toList).getLast? = some bck := by
    rintro bck rfl
    rw [Option.toList_some, List.getLast?_append, List.getLast?_singleton, Option.some_or]
  generalize ordered : (livePlaces ht.table (2 ^ k)).filter (fun bck => some bck ≠ bckWatch) ++ bckWatch.toList = places
    at perm visited count last
  have fits : 0 + places.length < 2 ^ max 6 j := by
    rw [Nat.zero_add, count]
    exact room
  obtain ⟨table, bckNew, done, kept, placed⟩ := rehash_items places none bare fits visited.read visited.keys fun _ _ => rfl
  rw [put_all_lists visited, count, Nat.zero_add] at kept
  refine ⟨table, bckNew, ?_, kept, fun bck isWatch => placed bck (last bck isWatch)⟩
  exact rehash_done ht _ _ bckWatch bckNew fresh table _ made (hash_buckets ht size held) (by rw [ordered, done])

end

end Synergy
