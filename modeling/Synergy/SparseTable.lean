import Mathlib.Data.Nat.Count
import Mathlib.Tactic.IntervalCases
import Synergy.Lib.Probing
import Synergy.Wire

set_option autoImplicit false

namespace Synergy

-- An HTItem of a table of strings: its key is the table's own copy of the characters before the NUL.
structure HTItem where
  data : UInt64
  key : Bytes
deriving DecidableEq, Repr

-- LOG_WORD_SIZE is 6 and LOG_BM_WORDS is 0, so that a group has 64 buckets and an HTBitmap is one ulong.
structure SparseBin where
  binSparse : List HTItem
  bmOccupied : BitVec 64
  cOccupied : Nat
deriving DecidableEq

-- A pointer into the array of a group: binSparse[group].binSparse + offset.
structure BucketPtr where
  group : Nat
  offset : Nat
deriving DecidableEq, Repr

def rgcBits : Array Nat :=
  #[0, 1, 1, 2, 1, 2, 2, 3, 1, 2, 2, 3, 2, 3, 3, 4,
    1, 2, 2, 3, 2, 3, 3, 4, 2, 3, 3, 4, 3, 4, 4, 5,
    1, 2, 2, 3, 2, 3, 3, 4, 2, 3, 3, 4, 3, 4, 4, 5,
    2, 3, 3, 4, 3, 4, 4, 5, 3, 4, 4, 5, 4, 5, 5, 6,
    1, 2, 2, 3, 2, 3, 3, 4, 2, 3, 3, 4, 3, 4, 4, 5,
    2, 3, 3, 4, 3, 4, 4, 5, 3, 4, 4, 5, 4, 5, 5, 6,
    2, 3, 3, 4, 3, 4, 4, 5, 3, 4, 4, 5, 4, 5, 5, 6,
    3, 4, 4, 5, 4, 5, 5, 6, 4, 5, 5, 6, 5, 6, 6, 7,
    1, 2, 2, 3, 2, 3, 3, 4, 2, 3, 3, 4, 3, 4, 4, 5,
    2, 3, 3, 4, 3, 4, 4, 5, 3, 4, 4, 5, 4, 5, 5, 6,
    2, 3, 3, 4, 3, 4, 4, 5, 3, 4, 4, 5, 4, 5, 5, 6,
    3, 4, 4, 5, 4, 5, 5, 6, 4, 5, 5, 6, 5, 6, 6, 7,
    2, 3, 3, 4, 3, 4, 4, 5, 3, 4, 4, 5, 4, 5, 5, 6,
    3, 4, 4, 5, 4, 5, 5, 6, 4, 5, 5, 6, 5, 6, 6, 7,
    3, 4, 4, 5, 4, 5, 5, 6, 4, 5, 5, 6, 5, 6, 6, 7,
    4, 5, 5, 6, 5, 6, 6, 7, 5, 6, 6, 7, 6, 7, 7, 8]

-- rgcBits[(*bm >> shift) & ((1 << i) - 1)], with 255 for the mask where i is 8.
def bitsUpto (bm : BitVec 64) (shift i : Nat) : Nat := rgcBits.getD ((bm >>> shift) &&& BitVec.ofNat 64 (2 ^ i - 1)).toNat 0

-- A position is at most 64, so that the loop before the switch has no round.
def entriesUpto (bm : BitVec 64) (i : Nat) : Nat :=
  if i = 0 then 0
  else if i ≤ 8 then bitsUpto bm 0 i
  else if i ≤ 16 then bitsUpto bm 0 8 + bitsUpto bm 8 (i - 8)
  else if i ≤ 24 then bitsUpto bm 0 8 + bitsUpto bm 8 8 + bitsUpto bm 16 (i - 16)
  else if i ≤ 32 then bitsUpto bm 0 8 + bitsUpto bm 8 8 + bitsUpto bm 16 8 + bitsUpto bm 24 (i - 24)
  else if i ≤ 40 then
    bitsUpto bm 0 8 + bitsUpto bm 8 8 + bitsUpto bm 16 8 + bitsUpto bm 24 8 + bitsUpto bm 32 (i - 32)
  else if i ≤ 48 then
    bitsUpto bm 0 8 + bitsUpto bm 8 8 + bitsUpto bm 16 8 + bitsUpto bm 24 8 + bitsUpto bm 32 8 + bitsUpto bm 40 (i - 40)
  else if i ≤ 56 then
    bitsUpto bm 0 8 + bitsUpto bm 8 8 + bitsUpto bm 16 8 + bitsUpto bm 24 8 + bitsUpto bm 32 8 + bitsUpto bm 40 8 +
      bitsUpto bm 48 (i - 48)
  else
    bitsUpto bm 0 8 + bitsUpto bm 8 8 + bitsUpto bm 16 8 + bitsUpto bm 24 8 + bitsUpto bm 32 8 + bitsUpto bm 40 8 +
      bitsUpto bm 48 8 + bitsUpto bm 56 (i - 56)

theorem rgc_bits : ∀ b < 256, rgcBits.getD b 0 = Nat.count (fun p => b.testBit p = true) 8 := by decide +kernel

theorem bits_upto (bm : BitVec 64) (shift i : Nat) (small : i ≤ 8) :
    bitsUpto bm shift i = Nat.count (fun p => bm.getLsbD (shift + p) = true) i := by
  have bit : ∀ p, ((bm >>> shift) &&& BitVec.ofNat 64 (2 ^ i - 1)).toNat.testBit p =
      (bm.getLsbD (shift + p) && decide (p < i)) := by
    intro p
    rw [← BitVec.getLsbD, BitVec.getLsbD_and, BitVec.getLsbD_ushiftRight, BitVec.getLsbD_ofNat, Nat.testBit_two_pow_sub_one]
    by_cases inside : p < i
    · simp [inside, show p < 64 by omega]
    · simp [inside]
  have byte : ((bm >>> shift) &&& BitVec.ofNat 64 (2 ^ i - 1)).toNat < 256 := by
    refine Nat.lt_of_le_of_lt (m := 2 ^ i - 1) ?_ ?_
    · rw [BitVec.toNat_and]
      exact Nat.le_trans Nat.and_le_right (by rw [BitVec.toNat_ofNat]; exact Nat.mod_le _ _)
    · have := Nat.pow_le_pow_right (n := 2) (by decide) small
      have := Nat.two_pow_pos i
      omega
  rw [bitsUpto, rgc_bits _ byte]
  simp only [bit, Bool.and_eq_true, decide_eq_true_eq]
  obtain ⟨d, rest⟩ := Nat.exists_eq_add_of_le small
  rw [rest, Nat.count_add]
  have low : Nat.count (fun p => bm.getLsbD (shift + p) = true ∧ p < i) i = Nat.count (fun p => bm.getLsbD (shift + p) = true) i :=
    le_antisymm (Nat.count_mono_left fun _ _ both => both.1) (Nat.count_mono_left fun _ less set => ⟨set, less⟩)
  have high : Nat.count (fun p => bm.getLsbD (shift + (i + p)) = true ∧ i + p < i) d = 0 :=
    Nat.count_iff_forall_not.mpr fun p _ both => absurd both.2 (by omega)
  rw [low, high, Nat.add_zero]

-- The number of set bits in 0..i-1.
def rank (bm : BitVec 64) (i : Nat) : Nat := Nat.count (fun p => bm.getLsbD p = true) i

theorem rank_add (bm : BitVec 64) (shift i : Nat) (small : i ≤ 8) : rank bm (shift + i) = rank bm shift + bitsUpto bm shift i := by
  rw [rank, Nat.count_add, ← bits_upto bm shift i small, rank]

theorem entries_upto (bm : BitVec 64) (i : Nat) (inside : i ≤ 64) : entriesUpto bm i = rank bm i := by
  have b8 : rank bm 8 = rank bm 0 + bitsUpto bm 0 8 := rank_add bm 0 8 (by decide)
  have b16 : rank bm 16 = rank bm 8 + bitsUpto bm 8 8 := rank_add bm 8 8 (by decide)
  have b24 : rank bm 24 = rank bm 16 + bitsUpto bm 16 8 := rank_add bm 16 8 (by decide)
  have b32 : rank bm 32 = rank bm 24 + bitsUpto bm 24 8 := rank_add bm 24 8 (by decide)
  have b40 : rank bm 40 = rank bm 32 + bitsUpto bm 32 8 := rank_add bm 32 8 (by decide)
  have b48 : rank bm 48 = rank bm 40 + bitsUpto bm 40 8 := rank_add bm 40 8 (by decide)
  have b56 : rank bm 56 = rank bm 48 + bitsUpto bm 48 8 := rank_add bm 48 8 (by decide)
  have none : rank bm 0 = 0 := Nat.count_zero _
  have part : ∀ shift, shift ≤ i → i ≤ shift + 8 → rank bm i = rank bm shift + bitsUpto bm shift (i - shift) := by
    intro shift start stop
    rw [← rank_add bm shift (i - shift) (by omega), Nat.add_sub_cancel' start]
  rw [entriesUpto]
  split_ifs with h0 h8 h16 h24 h32 h40 h48 h56
  · rw [h0, none]
  · have := part 0 (by omega) (by omega)
    rw [Nat.sub_zero] at this
    omega
  · have := part 8 (by omega) (by omega)
    omega
  · have := part 16 (by omega) (by omega)
    omega
  · have := part 24 (by omega) (by omega)
    omega
  · have := part 32 (by omega) (by omega)
    omega
  · have := part 40 (by omega) (by omega)
    omega
  · have := part 48 (by omega) (by omega)
    omega
  · have := part 56 (by omega) (by omega)
    omega

def testBitmap (bm : BitVec 64) (i : Nat) : Bool := bm &&& (1#64 <<< (i % 64)) != 0#64

def setBitmap (bm : BitVec 64) (i : Nat) : BitVec 64 := bm ||| (1#64 <<< (i % 64))

def ulongPred (number : Nat) : Nat := (number + (2 ^ 64 - 1)) % 2 ^ 64

def sparseGroups (cBuckets : Nat) : Nat := ulongPred cBuckets / 64 + 1

-- cGroups is an int, which the number of groups is cut to and whose shift has to stay an int.
def sparseAllocate (cBuckets : Nat) : Except Stop (List SparseBin × Nat) :=
  let cGroups := sparseGroups cBuckets % 2 ^ 32
  if cGroups * 64 < 2 ^ 31 then .ok (List.replicate cGroups ⟨[], 0#64, 0⟩, cGroups * 64) else .error .undefined

def binAt (binSparse : List SparseBin) (group : Nat) : Except Stop SparseBin :=
  match binSparse[group]? with
  | some bin => .ok bin
  | none => .error .undefined

def sparseIsEmpty (binSparse : List SparseBin) (location : Nat) : Except Stop Bool := do
  let bin ← binAt binSparse (location / 64)
  return !testBitmap bin.bmOccupied (location % 64)

def sparseFind (binSparse : List SparseBin) (location : Nat) : Except Stop (Option BucketPtr) := do
  if ← sparseIsEmpty binSparse location then
    return none
  let bin ← binAt binSparse (location / 64)
  return some ⟨location / 64, entriesUpto bin.bmOccupied (location % 64)⟩

-- *bck, read and written.
def bucketAt (binSparse : List SparseBin) (bck : BucketPtr) : Except Stop HTItem := do
  let bin ← binAt binSparse bck.group
  match bin.binSparse[bck.offset]? with
  | some item => return item
  | none => .error .undefined

def setBucket (binSparse : List SparseBin) (bck : BucketPtr) (item : HTItem) : Except Stop (List SparseBin) := do
  let bin ← binAt binSparse bck.group
  if bck.offset < bin.binSparse.length then
    return binSparse.set bck.group { bin with binSparse := bin.binSparse.set bck.offset item }
  else .error .undefined

-- What memmove shifts up by one bucket are the cOccupied - offset items from offset on.
def SparseBin.place (bin : SparseBin) (bckInsert : HTItem) (position : Nat) : Except Stop (SparseBin × Nat) :=
  let offset := entriesUpto bin.bmOccupied position
  if offset ≤ bin.cOccupied then
    .ok ({ binSparse := bin.binSparse.take offset ++ bckInsert :: (bin.binSparse.drop offset).take (bin.cOccupied - offset)
           bmOccupied := setBitmap bin.bmOccupied position
           cOccupied := bin.cOccupied + 1 }, offset)
  else .error .undefined

def sparseInsert (binSparse : List SparseBin) (bckInsert : HTItem) (location : Nat) (fOverwrite : Bool) :
    Except Stop (List SparseBin × BucketPtr × Bool) := do
  match ← sparseFind binSparse location with
  | some bckPlace =>
      if fOverwrite then
        return (← setBucket binSparse bckPlace bckInsert, bckPlace, true)
      return (binSparse, bckPlace, true)
  | none =>
      let bin ← binAt binSparse (location / 64)
      let (placed, offset) ← bin.place bckInsert (location % 64)
      return (binSparse.set (location / 64) placed, ⟨location / 64, offset⟩, false)

theorem wraps_below (number modulus : Nat) (positive : 0 < number) (bounded : number ≤ modulus) :
    (number + (modulus - 1)) % modulus = number - 1 := by
  have shifted : number + (modulus - 1) = (number - 1) + modulus := by omega
  rw [shifted, Nat.add_mod_right, Nat.mod_eq_of_lt (by omega)]

theorem ulong_pred (number : Nat) (positive : 0 < number) (bounded : number ≤ 2 ^ 64) : ulongPred number = number - 1 :=
  wraps_below number (2 ^ 64) positive bounded

theorem test_bitmap (bm : BitVec 64) (i : Nat) (inside : i < 64) : testBitmap bm i = bm.getLsbD i := by
  have one : ∀ p, (bm &&& (1#64 <<< i)).getLsbD p = (bm.getLsbD p && decide (p = i)) := by
    intro p
    rw [BitVec.getLsbD_and, BitVec.getLsbD_shiftLeft, BitVec.getLsbD_one]
    by_cases same : p = i
    · simp [same, inside]
    · by_cases below : p < i
      · simp [same, below]
      · simp [same, show p - i ≠ 0 by omega]
  rw [testBitmap, Nat.mod_eq_of_lt inside]
  cases set : bm.getLsbD i with
  | true =>
      have kept := one i
      rw [set] at kept
      refine bne_iff_ne.mpr fun zero => ?_
      rw [zero, BitVec.getLsbD_zero] at kept
      simp at kept
  | false =>
      refine bne_eq_false_iff_eq.mpr (BitVec.eq_of_getLsbD_eq fun p _ => ?_)
      rw [one p, BitVec.getLsbD_zero]
      by_cases same : p = i
      · rw [same, set, Bool.false_and]
      · rw [decide_eq_false same, Bool.and_false]

theorem set_bitmap (bm : BitVec 64) (i p : Nat) (inside : i < 64) :
    (setBitmap bm i).getLsbD p = (bm.getLsbD p || decide (p = i)) := by
  rw [setBitmap, Nat.mod_eq_of_lt inside, BitVec.getLsbD_or, BitVec.getLsbD_shiftLeft, BitVec.getLsbD_one]
  by_cases same : p = i
  · simp [same, inside]
  · by_cases below : p < i
    · simp [same, below]
    · simp [same, show p - i ≠ 0 by omega]

theorem rank_set (bm : BitVec 64) (i n : Nat) (inside : i < 64) (clear : bm.getLsbD i = false) :
    rank (setBitmap bm i) n = rank bm n + if i < n then 1 else 0 := by
  by_cases below : i < n
  · have changed := Probing.count_changed (fun p => (setBitmap bm i).getLsbD p = true) (fun p => bm.getLsbD p = true) i
      (fun a other => by simp [set_bitmap bm i a inside, other]) n below
    simp only [clear, set_bitmap bm i i inside, decide_true, Bool.or_true, if_true, Bool.false_eq_true, if_false] at changed
    rw [rank, rank, if_pos below]
    exact changed
  · rw [if_neg below, Nat.add_zero, rank, rank]
    refine le_antisymm (Nat.count_mono_left ?_) (Nat.count_mono_left ?_)
    · intro a less set
      rwa [set_bitmap bm i a inside, decide_eq_false (by omega), Bool.or_false] at set
    · intro a less set
      rw [set_bitmap bm i a inside, set, Bool.true_or]

-- As many items in the array of a group as its bitmap and its count say.
structure SparseBin.Sound (bin : SparseBin) : Prop where
  size : bin.binSparse.length = bin.cOccupied
  counted : bin.cOccupied = rank bin.bmOccupied 64

def SparseBin.bucket (bin : SparseBin) (position : Nat) : Option HTItem :=
  if bin.bmOccupied.getLsbD position then bin.binSparse[rank bin.bmOccupied position]? else none

theorem rank_lt {bm : BitVec 64} {p q : Nat} (set : bm.getLsbD p = true) (less : p < q) : rank bm p < rank bm q :=
  Nat.count_strict_mono set less

theorem rank_le {bm : BitVec 64} {p q : Nat} (le : p ≤ q) : rank bm p ≤ rank bm q := Nat.count_monotone _ le

theorem rank_inside {bin : SparseBin} (sound : bin.Sound) {p : Nat} (inside : p < 64) (set : bin.bmOccupied.getLsbD p = true) :
    rank bin.bmOccupied p < bin.binSparse.length := by
  rw [sound.size, sound.counted]
  exact rank_lt set inside

theorem bucket_some_iff {bin : SparseBin} (sound : bin.Sound) {p : Nat} (inside : p < 64) :
    (bin.bucket p).isSome = bin.bmOccupied.getLsbD p := by
  rw [SparseBin.bucket]
  cases set : bin.bmOccupied.getLsbD p with
  | false => rfl
  | true => rw [if_pos rfl, List.getElem?_eq_getElem (rank_inside sound inside set), Option.isSome_some]

theorem shifted_before {α : Type} (array : List α) (item : α) (r j : Nat) (room : r ≤ array.length) (before : j < r) :
    (array.take r ++ item :: array.drop r)[j]? = array[j]? := by
  rw [List.getElem?_append_left (by rw [List.length_take]; omega), List.getElem?_take_of_lt before]

theorem shifted_at {α : Type} (array : List α) (item : α) (r : Nat) (room : r ≤ array.length) :
    (array.take r ++ item :: array.drop r)[r]? = some item := by
  rw [List.getElem?_append_right (by rw [List.length_take]; omega), List.length_take, Nat.min_eq_left room, Nat.sub_self,
    List.getElem?_cons_zero]

theorem shifted_after {α : Type} (array : List α) (item : α) (r j : Nat) (room : r ≤ array.length) (after : r ≤ j) :
    (array.take r ++ item :: array.drop r)[j + 1]? = array[j]? := by
  rw [List.getElem?_append_right (by rw [List.length_take]; omega), List.length_take, Nat.min_eq_left room,
    show j + 1 - r = (j - r) + 1 by omega, List.getElem?_cons_succ, List.getElem?_drop, Nat.add_sub_cancel' after]

theorem place_bucket (bin : SparseBin) (sound : bin.Sound) (item : HTItem) (position : Nat) (inside : position < 64)
    (clear : bin.bmOccupied.getLsbD position = false) :
    ∃ placed, bin.place item position = .ok (placed, rank bin.bmOccupied position) ∧ placed.Sound ∧
      placed.bmOccupied = setBitmap bin.bmOccupied position ∧
      ∀ p < 64, placed.bucket p = if p = position then some item else bin.bucket p := by
  have room : rank bin.bmOccupied position ≤ bin.binSparse.length := by
    rw [sound.size, sound.counted]
    exact rank_le (Nat.le_of_lt inside)
  have whole : (bin.binSparse.drop (rank bin.bmOccupied position)).take (bin.cOccupied - rank bin.bmOccupied position) =
      bin.binSparse.drop (rank bin.bmOccupied position) :=
    List.take_of_length_le (by rw [List.length_drop, sound.size])
  refine ⟨_, by rw [SparseBin.place, entries_upto bin.bmOccupied position (by omega), if_pos (sound.size ▸ room), whole],
    ⟨?_, ?_⟩, rfl, ?_⟩
  · have size := sound.size
    rw [List.length_append, List.length_cons, List.length_take, List.length_drop]
    dsimp only
    omega
  · rw [rank_set bin.bmOccupied position 64 inside clear, if_pos inside, ← sound.counted]
  · intro p within
    rw [SparseBin.bucket, SparseBin.bucket]
    dsimp only
    rw [set_bitmap bin.bmOccupied position p inside, rank_set bin.bmOccupied position p inside clear]
    rcases Nat.lt_trichotomy p position with before | rfl | behind
    · rw [if_neg (Nat.ne_of_lt before), if_neg (by omega : ¬ position < p), Nat.add_zero, decide_eq_false (Nat.ne_of_lt before),
        Bool.or_false]
      cases set : bin.bmOccupied.getLsbD p with
      | false => rfl
      | true => rw [if_pos rfl, if_pos rfl, shifted_before _ _ _ _ room (rank_lt set before)]
    · rw [decide_eq_true rfl, Bool.or_true, if_pos rfl, if_pos rfl, if_neg (Nat.lt_irrefl _), Nat.add_zero, shifted_at _ _ _ room]
    · rw [if_neg (Nat.ne_of_gt behind), if_pos behind, decide_eq_false (Nat.ne_of_gt behind), Bool.or_false,
        shifted_after _ _ _ _ room (rank_le (Nat.le_of_lt behind))]

-- The table as an array of optional items, and where the item of a location lies.
def bucket (binSparse : List SparseBin) (location : Nat) : Option HTItem :=
  (binSparse[location / 64]?).bind fun bin => bin.bucket (location % 64)

def bucketPtr (binSparse : List SparseBin) (location : Nat) : Option BucketPtr :=
  (binSparse[location / 64]?).bind fun bin =>
    if bin.bmOccupied.getLsbD (location % 64) then some ⟨location / 64, rank bin.bmOccupied (location % 64)⟩ else none

def Sound (binSparse : List SparseBin) : Prop := ∀ bin ∈ binSparse, bin.Sound

theorem group_at {binSparse : List SparseBin} (sound : Sound binSparse) {location : Nat} (inside : location < binSparse.length * 64) :
    ∃ bin, binSparse[location / 64]? = some bin ∧ binAt binSparse (location / 64) = .ok bin ∧ bin.Sound := by
  have group : location / 64 < binSparse.length := Nat.div_lt_of_lt_mul (by omega)
  refine ⟨binSparse[location / 64], List.getElem?_eq_getElem group, ?_, sound _ (List.getElem_mem group)⟩
  rw [binAt, List.getElem?_eq_getElem group]

theorem find_bucket (binSparse : List SparseBin) (sound : Sound binSparse) (location : Nat) (inside : location < binSparse.length * 64) :
    sparseFind binSparse location = .ok (bucketPtr binSparse location) := by
  obtain ⟨bin, here, found, -⟩ := group_at sound inside
  have position : location % 64 < 64 := Nat.mod_lt _ (by decide)
  rw [sparseFind, sparseIsEmpty, found]
  simp only [bind, Except.bind, pure, Except.pure, bucketPtr, here, Option.bind_some, test_bitmap _ _ position]
  cases set : bin.bmOccupied.getLsbD (location % 64) with
  | false => rfl
  | true => simp [entries_upto bin.bmOccupied (location % 64) (by omega)]

theorem bucket_ptr_none (binSparse : List SparseBin) (sound : Sound binSparse) (location : Nat) :
    bucketPtr binSparse location = none ↔ bucket binSparse location = none := by
  have position : location % 64 < 64 := Nat.mod_lt _ (by decide)
  rw [bucketPtr, bucket]
  cases here : binSparse[location / 64]? with
  | none => simp
  | some bin =>
      have occupied := bucket_some_iff (sound bin (List.mem_of_getElem? here)) position
      rw [Option.bind_some, Option.bind_some]
      cases set : bin.bmOccupied.getLsbD (location % 64) with
      | false =>
          rw [set] at occupied
          simpa using occupied
      | true =>
          rw [set] at occupied
          simp only [if_true, reduceCtorEq, false_iff]
          exact fun empty => by simp [empty] at occupied

theorem bucket_at (binSparse : List SparseBin) (location : Nat) (bck : BucketPtr) (item : HTItem)
    (pointed : bucketPtr binSparse location = some bck) (here : bucket binSparse location = some item) :
    bucketAt binSparse bck = .ok item := by
  obtain ⟨bin, found, pointed⟩ := Option.bind_eq_some_iff.mp pointed
  rw [bucket, found, Option.bind_some, SparseBin.bucket] at here
  cases set : bin.bmOccupied.getLsbD (location % 64) with
  | false => simp [set] at pointed
  | true =>
      rw [set, if_pos rfl] at pointed here
      cases pointed
      simp only [bucketAt, binAt, found, bind, Except.bind, here, pure, Except.pure]

theorem bucket_cases (binSparse : List SparseBin) (sound : Sound binSparse) (location : Nat) :
    (bucketPtr binSparse location = none ∧ bucket binSparse location = none) ∨
      ∃ bck item, bucketPtr binSparse location = some bck ∧ bucket binSparse location = some item ∧ bucketAt binSparse bck = .ok item := by
  have empty := bucket_ptr_none binSparse sound location
  cases pointed : bucketPtr binSparse location with
  | none => exact .inl ⟨rfl, empty.mp pointed⟩
  | some bck =>
      cases stored : bucket binSparse location with
      | none =>
          rw [empty.mpr stored] at pointed
          cases pointed
      | some item => exact .inr ⟨bck, item, rfl, rfl, bucket_at binSparse location bck item pointed stored⟩

theorem bucket_set (binSparse : List SparseBin) (group : Nat) (bin : SparseBin) (inside : group < binSparse.length) (location : Nat) :
    bucket (binSparse.set group bin) location =
      if location / 64 = group then bin.bucket (location % 64) else bucket binSparse location := by
  rw [bucket, bucket, List.getElem?_set]
  by_cases here : group = location / 64
  · rw [if_pos here, if_pos (by omega), if_pos here.symm, Option.bind_some]
  · rw [if_neg here, if_neg (Ne.symm here)]

theorem sound_set {binSparse : List SparseBin} (sound : Sound binSparse) (group : Nat) {bin : SparseBin} (fresh : bin.Sound) :
    Sound (binSparse.set group bin) := by
  intro other member
  rcases List.mem_or_eq_of_mem_set member with old | rfl
  · exact sound other old
  · exact fresh

structure BucketSet (binSparse next : List SparseBin) (location : Nat) (item : HTItem) : Prop where
  sound : Sound next
  length : next.length = binSparse.length
  buckets : bucket next = Function.update (bucket binSparse) location (some item)

theorem location_split {a b : Nat} (group : a / 64 = b / 64) (position : a % 64 = b % 64) : a = b := by omega

theorem set_bucket (binSparse : List SparseBin) (sound : Sound binSparse) (location : Nat) (bck : BucketPtr) (item : HTItem)
    (pointed : bucketPtr binSparse location = some bck) :
    ∃ next, setBucket binSparse bck item = .ok next ∧ BucketSet binSparse next location item ∧
      ∀ other, bucketPtr next other = bucketPtr binSparse other := by
  obtain ⟨bin, found, pointed⟩ := Option.bind_eq_some_iff.mp pointed
  have position : location % 64 < 64 := Nat.mod_lt _ (by decide)
  have member := sound bin (List.mem_of_getElem? found)
  have inside : location / 64 < binSparse.length := (List.getElem?_eq_some_iff.mp found).1
  cases set : bin.bmOccupied.getLsbD (location % 64) with
  | false => simp [set] at pointed
  | true =>
      rw [set, if_pos rfl] at pointed
      cases pointed
      have room := rank_inside member position set
      refine ⟨binSparse.set (location / 64) { bin with binSparse := bin.binSparse.set (rank bin.bmOccupied (location % 64)) item },
        ?_, ⟨sound_set sound _ ⟨?_, member.counted⟩, List.length_set, ?_⟩, ?_⟩
      · simp only [setBucket, binAt, found, bind, Except.bind, if_pos room, pure, Except.pure]
      · exact List.length_set.trans member.size
      · funext other
        rw [bucket_set binSparse _ _ inside]
        by_cases same : other = location
        · rw [same, if_pos rfl, Function.update_self, SparseBin.bucket, set, if_pos rfl, List.getElem?_set_self room]
        · rw [Function.update_of_ne same]
          by_cases group : other / 64 = location / 64
          · rw [if_pos group, bucket, group, found, Option.bind_some, SparseBin.bucket, SparseBin.bucket]
            cases taken : bin.bmOccupied.getLsbD (other % 64) with
            | false => rfl
            | true =>
                rw [if_pos rfl, if_pos rfl, List.getElem?_set_ne]
                exact fun equal => same (location_split group (Nat.count_injective set taken equal).symm)
          · rw [if_neg group]
      · intro other
        rw [bucketPtr, bucketPtr, List.getElem?_set]
        by_cases group : location / 64 = other / 64
        · rw [if_pos group, if_pos (by omega), ← group, found, Option.bind_some, Option.bind_some]
        · rw [if_neg group]

theorem insert_empty (binSparse : List SparseBin) (sound : Sound binSparse) (location : Nat) (item : HTItem) (fOverwrite : Bool)
    (inside : location < binSparse.length * 64) (empty : bucket binSparse location = none) :
    ∃ next bck, sparseInsert binSparse item location fOverwrite = .ok (next, bck, false) ∧
      BucketSet binSparse next location item ∧ bucketPtr next location = some bck := by
  have none := (bucket_ptr_none binSparse sound location).mpr empty
  obtain ⟨bin, here, found, member⟩ := group_at sound inside
  have position : location % 64 < 64 := Nat.mod_lt _ (by decide)
  have group : location / 64 < binSparse.length := (List.getElem?_eq_some_iff.mp here).1
  have clear : bin.bmOccupied.getLsbD (location % 64) = false := by
    rw [bucketPtr, here, Option.bind_some] at none
    by_contra set
    simp [set] at none
  obtain ⟨placed, done, fresh, bitmap, buckets⟩ := place_bucket bin member item (location % 64) position clear
  refine ⟨binSparse.set (location / 64) placed, ⟨location / 64, rank bin.bmOccupied (location % 64)⟩, ?_,
    ⟨sound_set sound _ fresh, List.length_set, ?_⟩, ?_⟩
  · simp only [sparseInsert, find_bucket binSparse sound location inside, none, bind, Except.bind, found, done, pure, Except.pure]
  · funext other
    rw [bucket_set binSparse _ _ group]
    by_cases same : other = location
    · rw [same, if_pos rfl, Function.update_self, buckets _ position, if_pos rfl]
    · rw [Function.update_of_ne same]
      by_cases equal : other / 64 = location / 64
      · rw [if_pos equal, buckets _ (Nat.mod_lt _ (by decide)), if_neg fun p => same (location_split equal p), bucket, equal, here,
          Option.bind_some]
      · rw [if_neg equal]
  · rw [bucketPtr, List.getElem?_set_self group, Option.bind_some, bitmap, set_bitmap _ _ _ position, decide_eq_true rfl, Bool.or_true,
      if_pos rfl, rank_set _ _ _ position clear, if_neg (Nat.lt_irrefl _), Nat.add_zero]

theorem insert_occupied (binSparse : List SparseBin) (sound : Sound binSparse) (location : Nat) (item : HTItem)
    (inside : location < binSparse.length * 64) (bck : BucketPtr) (pointed : bucketPtr binSparse location = some bck) :
    sparseInsert binSparse item location false = .ok (binSparse, bck, true) ∧
    ∃ next, sparseInsert binSparse item location true = .ok (next, bck, true) ∧
      BucketSet binSparse next location item ∧ bucketPtr next location = some bck := by
  constructor
  · simp only [sparseInsert, find_bucket binSparse sound location inside, pointed, bind, Except.bind, Bool.false_eq_true, if_false, pure,
      Except.pure]
  · obtain ⟨next, done, written, kept⟩ := set_bucket binSparse sound location bck item pointed
    refine ⟨next, ?_, written, (kept location).trans pointed⟩
    simp only [sparseInsert, find_bucket binSparse sound location inside, pointed, bind, Except.bind, if_true, done, pure, Except.pure]

end Synergy
