import Synergy.SparseWalk

set_option autoImplicit false

namespace Synergy

-- A char is signed where the daemon runs: (ulong) key[i].
def charWord (key : Bytes) (i : Nat) : UInt64 := (key.getD i 0).toInt8.toInt64.toUInt64

-- WORD_AT(key + i)
def hashWordAt (key : Bytes) (i : Nat) : UInt64 :=
  charWord key i + (charWord key (i + 1) <<< 8) + (charWord key (i + 2) <<< 16) + (charWord key (i + 3) <<< 24) +
    (charWord key (i + 4) <<< 32) + (charWord key (i + 5) <<< 40) + (charWord key (i + 6) <<< 48) + (charWord key (i + 7) <<< 56)

def mix (a b c : UInt64) : UInt64 × UInt64 × UInt64 :=
  let a := (a - b - c) ^^^ (c >>> 43)
  let b := (b - c - a) ^^^ (a <<< 9)
  let c := (c - a - b) ^^^ (b >>> 8)
  let a := (a - b - c) ^^^ (c >>> 38)
  let b := (b - c - a) ^^^ (a <<< 23)
  let c := (c - a - b) ^^^ (b >>> 5)
  let a := (a - b - c) ^^^ (c >>> 35)
  let b := (b - c - a) ^^^ (a <<< 49)
  let c := (c - a - b) ^^^ (b >>> 11)
  let a := (a - b - c) ^^^ (c >>> 12)
  let b := (b - c - a) ^^^ (a <<< 18)
  let c := (c - a - b) ^^^ (b >>> 22)
  (a, b, c)

-- The rounds over 24 characters each.
def hashBlocks (key : Bytes) : Nat → Nat → UInt64 × UInt64 × UInt64 → UInt64 × UInt64 × UInt64
  | 0, _, words => words
  | left + 1, start, (a, b, c) =>
      hashBlocks key left (start + 24) (mix (a + hashWordAt key start) (b + hashWordAt key (start + 8)) (c + hashWordAt key (start + 16)))

-- case cchKey down to case first, which falls through: key[j - 1] << 8 * (j - base) for each case j.
def fallThrough (key : Bytes) (start base first cchKey : Nat) (word : UInt64) : UInt64 :=
  (List.range' first (cchKey + 1 - first)).foldr (fun j sum => sum + (charWord key (start + j - 1) <<< UInt64.ofNat (8 * (j - base)))) word

-- number & (cBuckets - 1)
def maskBuckets (number cBuckets : Nat) : Nat := number &&& ulongPred cBuckets

-- The string is key up to its NUL, so that strlen(key) is its length.
def hash (key : Bytes) (cBuckets : Nat) : Nat :=
  let start := key.length / 24 * 24
  let cchKey := key.length % 24
  let (a, b, c) := hashBlocks key (key.length / 24) 0 (0x9e3779b9, 0x9e3779b9, 0x9e3779b9)
  let c := c + UInt64.ofNat key.length
  let (a, b, c) :=
    if 16 ≤ cchKey then
      (a + hashWordAt key start, b + hashWordAt key (start + 8), fallThrough key start 16 17 cchKey c)
    else if 8 ≤ cchKey then (a + hashWordAt key start, fallThrough key start 9 9 cchKey b, c)
    else (fallThrough key start 1 1 cchKey a, b, c)
  maskBuckets (mix a b c).2.2.toNat cBuckets

def DELETED : UInt64 := 0xFFFFFFFFFFFFFFFE

-- posLastFind is what malloc gave until the first Find.
structure HashTable where
  cItems : Nat
  cDeletedItems : Nat
  cBuckets : Nat
  table : List SparseBin
  cDeltaGoalSize : Int
  posLastFind : Except Stop (Option BucketPtr)

-- AllocateHashTable(0, 1)
def allocateHashTable : Except Stop HashTable := do
  let (table, cBuckets) ← sparseAllocate 512
  return ⟨0, 0, cBuckets, table, 0, .error .undefined⟩

-- !IS_BCK_DELETED(bck)
def HashTable.live (ht : HashTable) (bck : BucketPtr) : Except Stop Bool := do
  let item ← bucketAt ht.table bck
  return item.data != DELETED

def hashNextBucket (ht : HashTable) : SparseIterator → Except Stop (SparseIterator × Option BucketPtr) :=
  Cursor.skip .diverges ht.live (sparseNextBucket ht.table ht.cBuckets) (ht.cBuckets + 1)

-- for (bck = HashFirstBucket(ht); bck; bck = HashNextBucket(ht))
def hashBuckets (ht : HashTable) : Except Stop (List BucketPtr) :=
  Cursor.visits .diverges (hashNextBucket ht) (ht.cBuckets + 1) sparseStart

-- JUMP(key, offset) is ++offset. A walk that meets no end in cBuckets rounds only goes round and round.
def emptyFrom (tableNew : List SparseBin) (cNewBuckets : Nat) : Nat → Nat → Nat → Except Stop Nat
  | 0, _, _ => .error .diverges
  | fuel + 1, iBucketFirst, offset => do
      if ← sparseIsEmpty tableNew iBucketFirst then
        return iBucketFirst
      emptyFrom tableNew cNewBuckets fuel (maskBuckets (iBucketFirst + (offset + 1)) cNewBuckets) (offset + 1)

def rehashItem (tableNew : List SparseBin) (cNewBuckets : Nat) (bck : HTItem) : Except Stop (List SparseBin × BucketPtr) := do
  let iBucketFirst ← emptyFrom tableNew cNewBuckets (cNewBuckets + 1) (hash bck.key cNewBuckets) 0
  let (next, bckNew, _) ← sparseInsert tableNew bck iBucketFirst false
  return (next, bckNew)

def rehashItems (table : List SparseBin) (cNewBuckets : Nat) :
    List BucketPtr → List SparseBin → Option BucketPtr → Except Stop (List SparseBin × Option BucketPtr)
  | [], tableNew, bckNew => .ok (tableNew, bckNew)
  | bck :: rest, tableNew, _ => do
      let item ← bucketAt table bck
      let (next, bckNew) ← rehashItem tableNew cNewBuckets item
      rehashItems table cNewBuckets rest next (some bckNew)

-- The loop does not touch the old table, so that the buckets it meets can be listed first. bckWatch goes last.
def HashTable.rehash (ht : HashTable) (cNewBuckets : Nat) (bckWatch : Option BucketPtr) :
    Except Stop (HashTable × Option BucketPtr) := do
  let (tableNew, cNewBuckets) ← sparseAllocate cNewBuckets
  let buckets ← hashBuckets ht
  let (tableNew, bckNew) ←
    rehashItems ht.table cNewBuckets (buckets.filter (fun bck => some bck ≠ bckWatch) ++ bckWatch.toList) tableNew none
  return ({ ht with table := tableNew, cBuckets := cNewBuckets, cDeletedItems := 0 }, bckNew)

-- With the first open bucket the walk passed, which *piEmpty is set to.
def HashTable.findLoop (ht : HashTable) (key : Bytes) :
    Nat → Nat → Nat → Option Nat → Except Stop (Option BucketPtr × Option Nat)
  | 0, _, _, _ => .error .diverges
  | fuel + 1, iBucketFirst, offset, iEmpty => do
      let jump := maskBuckets (iBucketFirst + (offset + 1)) ht.cBuckets
      match ← sparseFind ht.table iBucketFirst with
      | none => return (none, some (iEmpty.getD iBucketFirst))
      | some item =>
          let held ← bucketAt ht.table item
          if held.data = DELETED then
            ht.findLoop key fuel jump (offset + 1) (some (iEmpty.getD iBucketFirst))
          else if key = held.key then
            return (some item, iEmpty)
          else
            ht.findLoop key fuel jump (offset + 1) iEmpty

def HashTable.find (ht : HashTable) (key : Bytes) : Except Stop (HashTable × Option BucketPtr × Option Nat) := do
  let (item, iEmpty) ← ht.findLoop key (ht.cBuckets + 1) (hash key ht.cBuckets) 0 none
  return ({ ht with posLastFind := .ok item }, item, iEmpty)

-- The lowest set bit goes in each round of the loop, so that there are fewer than 64.
def topBit : Nat → Nat → Nat
  | 0, x => x
  | fuel + 1, x => if x &&& (x - 1) ≠ 0 then topBit fuel (x &&& (x - 1)) else x

def nextPow2 (x : Nat) : Nat := 2 * topBit 64 (if 2 ^ 63 ≤ x then x / 2 else x)

-- The end of Insert. OCCUPANCY_PCT is 0.5, and half of a power of two is exact.
def HashTable.grow (ht : HashTable) (item : BucketPtr) : Except Stop (HashTable × BucketPtr) := do
  if ht.cBuckets ≤ 2 * ((ht.cItems + ht.cDeletedItems) % 2 ^ 64) ∨ ht.cDeltaGoalSize < 0 then
    match ← ht.rehash (nextPow2 (2 * (ht.cDeltaGoalSize.toNat + ht.cItems))) (some item) with
    | (ht, some item) => return (ht, item)
    | (_, none) => .error .undefined
  else
    return (ht, item)

-- The item put at iEmpty, which may be a deleted bucket.
def HashTable.insertAt (ht : HashTable) (key : Bytes) (data : UInt64) (iEmpty : Nat) (fOverwrite : Bool) :
    Except Stop (HashTable × BucketPtr) := do
  let (table, item, fOverwrite) ← sparseInsert ht.table ⟨data, key⟩ iEmpty fOverwrite
  let ht := { ht with
    table := table
    cDeletedItems := if fOverwrite then ulongPred ht.cDeletedItems else ht.cDeletedItems
    cItems := (ht.cItems + 1) % 2 ^ 64
    cDeltaGoalSize := if 0 < ht.cDeltaGoalSize then ht.cDeltaGoalSize - 1 else ht.cDeltaGoalSize }
  ht.grow item

def HashTable.insert (ht : HashTable) (key : Bytes) (data : UInt64) (fOverwrite : Bool) : Except Stop (HashTable × BucketPtr) := do
  let (ht, item, iEmpty) ← ht.find key
  let ht := { ht with posLastFind := .ok none }
  match item, iEmpty with
  | some item, _ =>
      if fOverwrite then
        let held ← bucketAt ht.table item
        return ({ ht with table := ← setBucket ht.table item { held with data := data } }, item)
      return (ht, item)
  | none, none => .error .undefined
  | none, some iEmpty => ht.insertAt key data iEmpty fOverwrite

-- The end of Delete. cBuckets * OCCUPANCY_PCT * 0.4 is a fifth of a power of two, which no number of items comes near.
def HashTable.shrink (ht : HashTable) (fShrink : Bool) : Except Stop HashTable := do
  if fShrink ∧ 5 * ht.cItems < ht.cBuckets ∧ 0 ≤ ht.cDeltaGoalSize ∧ 512 ≤ ht.cBuckets / 2 then
    let (ht, _) ← ht.rehash (nextPow2 (2 * (ht.cItems + ht.cDeltaGoalSize.toNat))) none
    return { ht with posLastFind := .ok none }
  else
    return { ht with posLastFind := .ok none }

def HashTable.deleteLast (ht : HashTable) (fShrink : Bool) : Except Stop HashTable := do
  match ← ht.posLastFind with
  | none => .error .undefined
  | some bck =>
      let held ← bucketAt ht.table bck
      let table ← setBucket ht.table bck { held with data := DELETED }
      let ht := { ht with
        table := table
        cItems := ulongPred ht.cItems
        cDeletedItems := (ht.cDeletedItems + 1) % 2 ^ 64
        cDeltaGoalSize := if ht.cDeltaGoalSize < 0 then ht.cDeltaGoalSize + 1 else ht.cDeltaGoalSize }
      ht.shrink fShrink

-- Delete(ht, key, fShrink, 0)
def HashTable.delete (ht : HashTable) (key : Bytes) (fShrink : Bool) : Except Stop (HashTable × Bool) := do
  let (ht, item, _) ← ht.find key
  match item with
  | none => return (ht, false)
  | some _ => return (← ht.deleteLast fShrink, true)

def hashFind (ht : HashTable) (key : Bytes) : Except Stop (HashTable × Option BucketPtr) := do
  let (ht, item, _) ← ht.find key
  return (ht, item)

def hashFindOrInsert (ht : HashTable) (key : Bytes) (dataInsert : UInt64) : Except Stop (HashTable × BucketPtr) :=
  ht.insert key dataInsert false

def hashInsert (ht : HashTable) (key : Bytes) (data : UInt64) : Except Stop (HashTable × BucketPtr) := ht.insert key data true

def hashDelete (ht : HashTable) (key : Bytes) : Except Stop (HashTable × Bool) := ht.delete key true

def hashDeleteLast (ht : HashTable) : Except Stop (HashTable × Bool) := do
  match ← ht.posLastFind with
  | none => return (ht, false)
  | some _ => return (← ht.deleteLast true, true)

end Synergy
