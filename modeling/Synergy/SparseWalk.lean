import Synergy.Lib.Cursor
import Synergy.SparseTable

set_option autoImplicit false

namespace Synergy

structure SparseIterator where
  posGroup : Int
  posOffset : Int

-- The next group from posGroup on that has an item.
def nextGroup (binSparse : List SparseBin) : Nat → Nat → Except Stop (SparseIterator × Option BucketPtr)
  | 0, posGroup => .ok (⟨posGroup, 0⟩, none)
  | left + 1, posGroup => do
      let bin ← binAt binSparse posGroup
      if 0 < bin.cOccupied then
        return (⟨posGroup, 0⟩, some ⟨posGroup, 0⟩)
      nextGroup binSparse left (posGroup + 1)

def sparseNextBucket (binSparse : List SparseBin) (cBuckets : Nat) (iter : SparseIterator) :
    Except Stop (SparseIterator × Option BucketPtr) := do
  let posGroup := (iter.posGroup + 1).toNat
  if iter.posOffset ≠ -1 then
    let bin ← binAt binSparse iter.posGroup.toNat
    if iter.posOffset + 1 < bin.cOccupied then
      return (⟨iter.posGroup, iter.posOffset + 1⟩, some ⟨iter.posGroup.toNat, (iter.posOffset + 1).toNat⟩)
  nextGroup binSparse (sparseGroups cBuckets - posGroup) posGroup

-- What SparseFirstBucket leaves in the iterator before it asks for the next bucket.
def sparseStart : SparseIterator := ⟨-1, -1⟩

-- All buckets in the order of SparseFirstBucket and SparseNextBucket.
def sparseBuckets (binSparse : List SparseBin) (cBuckets : Nat) : Except Stop (List BucketPtr) :=
  Cursor.visits .diverges (sparseNextBucket binSparse cBuckets) (cBuckets + 1) sparseStart

def placesFrom : Nat → List SparseBin → List BucketPtr
  | _, [] => []
  | group, bin :: rest => (List.range bin.cOccupied).map (BucketPtr.mk group) ++ placesFrom (group + 1) rest

theorem next_inside (binSparse : List SparseBin) (cBuckets group offset : Nat) (bin : SparseBin) (here : binSparse[group]? = some bin) :
    sparseNextBucket binSparse cBuckets ⟨group, offset⟩ =
      if offset + 1 < bin.cOccupied then .ok (⟨group, (offset + 1 : Nat)⟩, some ⟨group, offset + 1⟩)
      else nextGroup binSparse (sparseGroups cBuckets - (group + 1)) (group + 1) := by
  have started : ((offset : Int) ≠ -1) := by omega
  have whole : ((group : Int) + 1).toNat = group + 1 := by omega
  have next : ((offset : Int) + 1).toNat = offset + 1 := by omega
  simp only [sparseNextBucket, binAt, Int.toNat_natCast, here, bind, Except.bind, ne_eq, started, not_false_eq_true, if_true, whole, next,
    pure, Except.pure]
  by_cases more : offset + 1 < bin.cOccupied
  · rw [if_pos more, if_pos (by omega)]
    rfl
  · rw [if_neg more, if_neg (by omega)]

theorem group_yields (binSparse : List SparseBin) (cBuckets group : Nat) (bin : SparseBin) (here : binSparse[group]? = some bin)
    (rest : List BucketPtr)
    (onward : ∀ iter, sparseNextBucket binSparse cBuckets iter =
        nextGroup binSparse (sparseGroups cBuckets - (group + 1)) (group + 1) →
      Cursor.Yields (sparseNextBucket binSparse cBuckets) iter rest)
    (left offset : Nat) (count : bin.cOccupied = offset + 1 + left) :
    Cursor.Yields (sparseNextBucket binSparse cBuckets) ⟨group, offset⟩
      ((List.range' (offset + 1) left).map (BucketPtr.mk group) ++ rest) := by
  have step := next_inside binSparse cBuckets group offset bin here
  induction left generalizing offset with
  | zero =>
      rw [if_neg (by omega)] at step
      exact onward _ step
  | succ left ih =>
      rw [if_pos (by omega)] at step
      exact ⟨_, step, ih (offset + 1) (by omega) (next_inside binSparse cBuckets group (offset + 1) bin here)⟩

theorem groups_yield (binSparse : List SparseBin) (cBuckets : Nat) (groups : sparseGroups cBuckets = binSparse.length) (left group : Nat)
    (remain : group + left = binSparse.length) (iter : SparseIterator)
    (sent : sparseNextBucket binSparse cBuckets iter = nextGroup binSparse (sparseGroups cBuckets - group) group) :
    Cursor.Yields (sparseNextBucket binSparse cBuckets) iter (placesFrom group (binSparse.drop group)) := by
  induction left generalizing group iter with
  | zero =>
      rw [groups, show binSparse.length - group = 0 by omega, nextGroup] at sent
      rw [List.drop_of_length_le (by omega), placesFrom]
      exact ⟨_, sent⟩
  | succ left ih =>
      have inside : group < binSparse.length := by omega
      have here : binSparse[group]? = some binSparse[group] := List.getElem?_eq_getElem inside
      have onward := ih (group + 1) (by omega)
      rw [groups, show binSparse.length - group = (binSparse.length - (group + 1)) + 1 by omega, nextGroup, binAt, here] at sent
      simp only [bind, Except.bind] at sent
      rw [List.drop_eq_getElem_cons inside, placesFrom]
      by_cases taken : 0 < binSparse[group].cOccupied
      · rw [if_pos taken] at sent
        obtain ⟨more, count⟩ := Nat.exists_eq_add_of_lt taken
        rw [Nat.zero_add] at count
        have places : (List.range binSparse[group].cOccupied).map (BucketPtr.mk group) =
            ⟨group, 0⟩ :: (List.range' 1 more).map (BucketPtr.mk group) := by
          rw [count, List.range_eq_range', List.range'_succ, List.map_cons]
        rw [places, List.cons_append]
        exact ⟨_, sent, group_yields binSparse cBuckets group _ here _ onward more 0 (by omega)⟩
      · rw [if_neg taken, ← groups] at sent
        rw [Nat.eq_zero_of_not_pos taken, List.range_zero, List.map_nil, List.nil_append]
        exact onward iter sent

theorem next_first (binSparse : List SparseBin) (cBuckets : Nat) :
    sparseNextBucket binSparse cBuckets sparseStart = nextGroup binSparse (sparseGroups cBuckets - 0) 0 := by
  have fresh : ¬ sparseStart.posOffset ≠ -1 := fun moved => moved rfl
  have first : (sparseStart.posGroup + 1).toNat = 0 := rfl
  rw [sparseNextBucket, if_neg fresh, first]

theorem sparse_yields (binSparse : List SparseBin) (cBuckets : Nat) (groups : sparseGroups cBuckets = binSparse.length) :
    Cursor.Yields (sparseNextBucket binSparse cBuckets) sparseStart (placesFrom 0 binSparse) :=
  groups_yield binSparse cBuckets groups binSparse.length 0 (Nat.zero_add _) sparseStart (next_first binSparse cBuckets)

theorem group_places (bin : SparseBin) (group n : Nat) :
    (List.range (rank bin.bmOccupied n)).map (BucketPtr.mk group) =
      (List.range n).filterMap fun p =>
        if bin.bmOccupied.getLsbD p then some (BucketPtr.mk group (rank bin.bmOccupied p)) else none := by
  induction n with
  | zero => rw [rank, Nat.count_zero, List.range_zero, List.map_nil, List.filterMap_nil]
  | succ n ih =>
      have next : rank bin.bmOccupied (n + 1) = rank bin.bmOccupied n + if bin.bmOccupied.getLsbD n = true then 1 else 0 :=
        Nat.count_succ _ n
      rw [List.range_succ, List.filterMap_append, ← ih, next]
      cases set : bin.bmOccupied.getLsbD n with
      | false => simp [set]
      | true => simp [set, List.range_succ]

theorem places_from (group : Nat) (binSparse : List SparseBin) (sound : Sound binSparse) :
    placesFrom group binSparse = (List.range (binSparse.length * 64)).filterMap fun location =>
      (bucketPtr binSparse location).map fun bck => ⟨group + bck.group, bck.offset⟩ := by
  induction binSparse generalizing group with
  | nil => rfl
  | cons bin rest ih =>
      have first := sound bin (List.mem_cons_self ..)
      have others : Sound rest := fun other member => sound other (List.mem_cons_of_mem _ member)
      rw [placesFrom, ih (group + 1) others, first.counted, group_places, List.length_cons, Nat.add_mul, Nat.one_mul,
        Nat.add_comm _ 64, List.range_add, List.filterMap_append, List.filterMap_map]
      congr 1
      · refine List.filterMap_congr fun p member => ?_
        have inside : p < 64 := List.mem_range.mp member
        rw [bucketPtr, Nat.div_eq_of_lt inside, Nat.mod_eq_of_lt inside, List.getElem?_cons_zero, Option.bind_some]
        cases bin.bmOccupied.getLsbD p <;> rfl
      · refine List.filterMap_congr fun location _ => ?_
        have group_ : (64 + location) / 64 = location / 64 + 1 := by omega
        have position : (64 + location) % 64 = location % 64 := by omega
        rw [Function.comp_apply, bucketPtr, bucketPtr, group_, position, List.getElem?_cons_succ]
        cases rest[location / 64]? with
        | none => rfl
        | some other =>
            rw [Option.bind_some, Option.bind_some]
            cases other.bmOccupied.getLsbD (location % 64) with
            | false => rfl
            | true => simp only [if_true, Option.map_some, Option.some.injEq, BucketPtr.mk.injEq, and_true]; omega

theorem all_places (binSparse : List SparseBin) (sound : Sound binSparse) :
    placesFrom 0 binSparse = (List.range (binSparse.length * 64)).filterMap (bucketPtr binSparse) := by
  rw [places_from 0 binSparse sound]
  refine List.filterMap_congr fun location _ => ?_
  cases bucketPtr binSparse location with
  | none => rfl
  | some bck => rw [Option.map_some, Nat.zero_add]

theorem sparse_groups (groups : Nat) (positive : 0 < groups) (bounded : groups < 2 ^ 32) : sparseGroups (groups * 64) = groups := by
  have small : groups * 64 ≤ 2 ^ 64 := by omega
  have whole : (groups * 64 - 1) / 64 + 1 = groups := by omega
  rw [sparseGroups, ulong_pred (groups * 64) (by omega) small, whole]

theorem sparse_buckets (binSparse : List SparseBin) (sound : Sound binSparse) (positive : 0 < binSparse.length)
    (bounded : binSparse.length < 2 ^ 32) :
    sparseBuckets binSparse (binSparse.length * 64) =
      .ok ((List.range (binSparse.length * 64)).filterMap (bucketPtr binSparse)) := by
  have few := List.length_filterMap_le (bucketPtr binSparse) (List.range (binSparse.length * 64))
  rw [List.length_range] at few
  rw [← all_places binSparse sound] at few ⊢
  exact Cursor.visits_yields .diverges _ _ _ sparseStart
    (sparse_yields binSparse _ (sparse_groups _ positive bounded)) (Nat.lt_succ_of_le few)

theorem sparse_allocated (cBuckets : Nat) (binSparse : List SparseBin) (size : Nat)
    (made : sparseAllocate cBuckets = .ok (binSparse, size)) :
    size = binSparse.length * 64 ∧ size < 2 ^ 31 ∧ Sound binSparse ∧ bucket binSparse = fun _ => none := by
  rw [sparseAllocate] at made
  split_ifs at made with fits
  cases made
  rw [List.length_replicate]
  refine ⟨rfl, fits, ?_, ?_⟩
  · intro bin member
    rw [List.eq_of_mem_replicate member]
    exact ⟨rfl, (Nat.count_iff_forall_not.mpr fun p _ => by simp).symm⟩
  · funext location
    rw [bucket, List.getElem?_replicate]
    split_ifs
    · rw [Option.bind_some, SparseBin.bucket, BitVec.getLsbD_zero, if_neg Bool.false_ne_true]
    · rfl

-- A run of SparseInsert calls with what each leaves in *pfOverwrite, and the same calls on an array of optional items.
def sparseRun : List SparseBin → List (HTItem × Nat × Bool) → Except Stop (List SparseBin × List Bool)
  | binSparse, [] => .ok (binSparse, [])
  | binSparse, (item, location, fOverwrite) :: rest => do
      let (next, _, told) ← sparseInsert binSparse item location fOverwrite
      let (last, flags) ← sparseRun next rest
      return (last, told :: flags)

def arrayRun : (Nat → Option HTItem) → List (HTItem × Nat × Bool) → (Nat → Option HTItem) × List Bool
  | array, [] => (array, [])
  | array, (item, location, fOverwrite) :: rest =>
      let next := if (array location).isSome && !fOverwrite then array else Function.update array location (some item)
      ((arrayRun next rest).1, (array location).isSome :: (arrayRun next rest).2)

theorem sparse_run (binSparse : List SparseBin) (sound : Sound binSparse) (inserts : List (HTItem × Nat × Bool))
    (inside : ∀ insert ∈ inserts, insert.2.1 < binSparse.length * 64) :
    ∃ last, sparseRun binSparse inserts = .ok (last, (arrayRun (bucket binSparse) inserts).2) ∧ Sound last ∧
      last.length = binSparse.length ∧ bucket last = (arrayRun (bucket binSparse) inserts).1 := by
  induction inserts generalizing binSparse with
  | nil => exact ⟨binSparse, rfl, sound, rfl, rfl⟩
  | cons insert rest ih =>
      obtain ⟨item, location, fOverwrite⟩ := insert
      have here := inside (item, location, fOverwrite) (List.mem_cons_self ..)
      have step : ∃ next bck, sparseInsert binSparse item location fOverwrite = .ok (next, bck, (bucket binSparse location).isSome) ∧
          Sound next ∧ next.length = binSparse.length ∧ bucket next =
            if (bucket binSparse location).isSome && !fOverwrite then bucket binSparse
            else Function.update (bucket binSparse) location (some item) := by
        rcases bucket_cases binSparse sound location with ⟨-, stored⟩ | ⟨bck, old, pointed, stored, -⟩
        · obtain ⟨next, bck, done, written, -⟩ := insert_empty binSparse sound location item fOverwrite here stored
          rw [stored]
          exact ⟨next, bck, done, written.sound, written.length, written.buckets⟩
        · obtain ⟨left, next, done, written, -⟩ := insert_occupied binSparse sound location item here bck pointed
          rw [stored]
          cases fOverwrite with
          | false => exact ⟨binSparse, bck, left, sound, rfl, rfl⟩
          | true => exact ⟨next, bck, done, written.sound, written.length, written.buckets⟩
      obtain ⟨next, bck, done, kept, length, buckets⟩ := step
      obtain ⟨last, ran, final, size, array⟩ := ih next kept fun insert member =>
        length ▸ inside insert (List.mem_cons_of_mem _ member)
      rw [buckets] at ran array
      refine ⟨last, ?_, final, size.trans length, array⟩
      rw [sparseRun, done]
      simp only [bind, Except.bind, ran, pure, Except.pure, arrayRun]

theorem read_places (binSparse : List SparseBin) (sound : Sound binSparse) (locations : List Nat) :
    (locations.filterMap (bucketPtr binSparse)).mapM (bucketAt binSparse) = .ok (locations.filterMap (bucket binSparse)) := by
  induction locations with
  | nil => rfl
  | cons location rest ih =>
      rcases bucket_cases binSparse sound location with ⟨pointed, stored⟩ | ⟨bck, item, pointed, stored, read⟩
      · rw [List.filterMap_cons_none pointed, ih, List.filterMap_cons_none stored]
      · rw [List.filterMap_cons_some pointed, List.filterMap_cons_some stored, List.mapM_cons, read, ih]
        rfl

-- From SparseAllocate on, over any inserts at locations of the table.
theorem sparse_refines_array (cBuckets : Nat) (binSparse : List SparseBin) (size : Nat)
    (made : sparseAllocate cBuckets = .ok (binSparse, size)) (positive : 0 < size) (inserts : List (HTItem × Nat × Bool))
    (inside : ∀ insert ∈ inserts, insert.2.1 < size) :
    ∃ last, sparseRun binSparse inserts = .ok (last, (arrayRun (fun _ => none) inserts).2) ∧
      (∀ location < size, match (arrayRun (fun _ => none) inserts).1 location with
        | none => sparseFind last location = .ok none
        | some item => ∃ bck, sparseFind last location = .ok (some bck) ∧ bucketAt last bck = .ok item) ∧
      ∃ places, sparseBuckets last size = .ok places ∧
        places.mapM (bucketAt last) = .ok ((List.range size).filterMap (arrayRun (fun _ => none) inserts).1) := by
  obtain ⟨rfl, small, sound, bare⟩ := sparse_allocated cBuckets binSparse size made
  obtain ⟨last, ran, final, length, array⟩ := sparse_run binSparse sound inserts inside
  rw [bare] at ran array
  rw [← length] at positive small ⊢
  refine ⟨last, ran, ?_, _, sparse_buckets last final (by omega) (by omega), ?_⟩
  · intro location within
    rw [find_bucket last final location within, ← array]
    rcases bucket_cases last final location with ⟨pointed, stored⟩ | ⟨bck, item, pointed, stored, read⟩
    · rw [pointed, stored]
    · rw [pointed, stored]
      exact ⟨bck, rfl, read⟩
  · rw [read_places last final, array]

theorem sparse_refines_array_thrice :
    ∃ binSparse, sparseAllocate 512 = .ok (binSparse, 512) ∧
      ∃ last, sparseRun binSparse [(⟨1, [97]⟩, 130, false), (⟨2, [98]⟩, 128, false), (⟨3, [97]⟩, 130, true)] =
        .ok (last, [false, false, true]) := by
  obtain ⟨binSparse, made⟩ : ∃ binSparse, sparseAllocate 512 = .ok (binSparse, 512) := ⟨_, rfl⟩
  obtain ⟨last, ran, -⟩ := sparse_refines_array 512 binSparse 512 made (by decide)
    [(⟨1, [97]⟩, 130, false), (⟨2, [98]⟩, 128, false), (⟨3, [97]⟩, 130, true)] (by decide)
  exact ⟨binSparse, made, last, ran⟩

end Synergy
