import Synergy.Pipe

set_option autoImplicit false

namespace Synergy

-- What one call of read_shared_memory meets: the block once the read semaphore is taken, and what malloc does.
structure Reading where
  block : Segment
  memory : Bool

-- The two semaphores between calls, and what comes through the block.
structure Passage where
  rSem : Nat
  wSem : Nat
  readings : List Reading

-- sem_wait(r_sem). The other process has posted it, or it writes and posts once it has taken the write semaphore.
def Passage.wait (passage : Passage) : Except Stop (Reading × Passage) :=
  match passage.readings with
  | [] => .error .blocked
  | reading :: later =>
      if 0 < passage.rSem then .ok (reading, { passage with rSem := passage.rSem - 1, readings := later })
      else if 0 < passage.wSem then .ok (reading, { passage with wSem := passage.wSem - 1, readings := later })
      else .error .blocked

-- The pointer *data after the call.
inductive Temp where
  | copied (data : Bytes)
  | null
  | indeterminate
deriving DecidableEq

structure ReadResult where
  code : Nat
  temp : Temp
  len : Nat
  totalChunk : Nat

def readSharedMemory (host : HostOrder) (passage : Passage) : Except Stop (ReadResult × Passage) := do
  let (reading, passage) ← passage.wait
  let len := reading.block.len host
  let totalChunk := reading.block.total host
  if len ≤ 0 ∨ len > maxBytes then return (⟨1, .indeterminate, len, totalChunk⟩, passage)
  if reading.memory = false then return (⟨1, .null, len, totalChunk⟩, passage)
  if len > maxBytes - 8 * 2 - 4 then throw .undefined
  return (⟨0, .copied (reading.block.data len), len, totalChunk⟩, { passage with wSem := passage.wSem + 1 })

-- size_t arithmetic.
def sizeT (number : Nat) : Nat := number % 2 ^ 64

-- memcpy from the pointer a read gave.
def copyTemp (block : List (Option UInt8)) (offset : Nat) (result : ReadResult) : Except Stop (List (Option UInt8)) :=
  match result.temp with
  | .copied data =>
      match Pieces.place block offset data with
      | some filled => .ok filled
      | none => .error .undefined
  | _ => .error .undefined

def freeTemp (temp : Temp) : Except Stop Unit :=
  match temp with
  | .indeterminate => .error .undefined
  | _ => .ok ()

-- The loop. After a failed read it frees *data and goes on with it.
def readMiddle (host : HostOrder) (sizePerChunk : Nat) : Nat → Nat → List (Option UInt8) → Passage →
    Except Stop (List (Option UInt8) × Passage)
  | 0, _, block, passage => .ok (block, passage)
  | left + 1, i, block, passage => do
      let (result, passage) ← readSharedMemory host passage
      let block ← copyTemp block (sizeT (i * sizePerChunk)) result
      freeTemp result.temp
      let block := if result.code ≠ 0 then [] else block
      readMiddle host sizePerChunk left (i + 1) block passage

def reallocate (block : List (Option UInt8)) (size : Nat) : List (Option UInt8) :=
  block.take size ++ Pieces.fresh (size - block.length)

-- The return code, and *data with *len when it is 0.
structure Received where
  code : Nat
  item : Option (List (Option UInt8) × Nat)
deriving DecidableEq

def readLast (host : HostOrder) (sizePerChunk totalChunk : Nat) (block : List (Option UInt8)) (passage : Passage) :
    Except Stop (Received × Passage) :=
  if totalChunk > 1 then do
    let (result, passage) ← readSharedMemory host passage
    let block ← copyTemp block (sizeT ((totalChunk - 1) * sizePerChunk)) result
    if result.code ≠ 0 then return (⟨1, none⟩, passage)
    let len := sizeT ((totalChunk - 1) * sizePerChunk + result.len)
    let block := if result.len ≠ sizePerChunk then reallocate block len else block
    return (⟨0, some (block, len)⟩, passage)
  else return (⟨0, some (block, sizeT (totalChunk * sizePerChunk))⟩, passage)

-- recv_item on the semaphores. The mallocs of the item itself give memory.
def receiveItem (host : HostOrder) (passage : Passage) : Except Stop (Received × Passage) := do
  let (first, passage) ← readSharedMemory host passage
  if first.code ≠ 0 then
    freeTemp first.temp
    return (⟨1, none⟩, passage)
  let block ← copyTemp (Pieces.fresh (sizeT (first.totalChunk * first.len))) 0 first
  freeTemp first.temp
  let (block, passage) ← readMiddle host first.len (first.totalChunk - 2) 1 block passage
  readLast host first.len first.totalChunk block passage

def Passage.Calm (passage : Passage) : Prop := passage.rSem + passage.wSem = 1

-- read_shared_memory does not return 1 on it.
def Reading.Succeeds (host : HostOrder) (reading : Reading) : Prop :=
  0 < reading.block.len host ∧ reading.block.len host ≤ maxBytes ∧ reading.memory = true

-- The chunks of the item that comes, as its first chunk announces them.
def Passage.item (host : HostOrder) (passage : Passage) : List Reading :=
  match passage.readings with
  | [] => []
  | first :: later => first :: later.take (first.block.total host - 1)

-- After recv_item the next write can be taken, and it has reported a chunk it did not read.
def Passage.Usable (host : HostOrder) (passage : Passage) : Prop :=
  (∀ received after, receiveItem host passage = .ok (received, after) → after.Calm) ∧
    ((∃ reading ∈ passage.item host, ¬ reading.Succeeds host) →
      ∃ received after, receiveItem host passage = .ok (received, after) ∧ received.code = 1)

theorem wait_calm (passage next : Passage) (reading : Reading) (calm : passage.Calm)
    (taken : passage.wait = .ok (reading, next)) :
    passage.readings = reading :: next.readings ∧ next.rSem = 0 ∧ next.wSem = 0 := by
  unfold Passage.Calm at calm
  unfold Passage.wait at taken
  split at taken
  · cases taken
  · rename_i first later arrived
    split at taken
    · cases taken
      exact ⟨arrived, by simp only; omega, by simp only; omega⟩
    · split at taken
      · cases taken
        exact ⟨arrived, by simp only; omega, by simp only; omega⟩
      · cases taken

theorem wait_takes (passage : Passage) (reading : Reading) (later : List Reading) (calm : passage.Calm)
    (arrived : passage.readings = reading :: later) : passage.wait = .ok (reading, ⟨0, 0, later⟩) := by
  unfold Passage.Calm at calm
  simp only [Passage.wait, arrived]
  by_cases posted : 0 < passage.rSem
  · have spent : passage.rSem - 1 = 0 := by omega
    have held : passage.wSem = 0 := by omega
    rw [if_pos posted, spent, held]
  · have none : passage.rSem = 0 := by omega
    have free : passage.wSem - 1 = 0 := by omega
    rw [if_neg posted, if_pos (by omega), none, free]

theorem read_shared_memory_cases (host : HostOrder) (passage next : Passage) (result : ReadResult) (calm : passage.Calm)
    (done : readSharedMemory host passage = .ok (result, next)) :
    ∃ reading, passage.readings = reading :: next.readings ∧ next.rSem = 0 ∧
      result.totalChunk = reading.block.total host ∧
      ((reading.Succeeds host ∧ result.code = 0 ∧ next.wSem = 1 ∧ ∃ data, result.temp = .copied data) ∨
        (¬ reading.Succeeds host ∧ result.code = 1 ∧ next.wSem = 0 ∧ ∀ data, result.temp ≠ .copied data)) := by
  obtain ⟨⟨reading, middle⟩, taken, done⟩ := bind_ok _ _ _ done
  obtain ⟨arrived, rSem, wSem⟩ := wait_calm passage middle reading calm taken
  refine ⟨reading, ?_⟩
  dsimp only at done
  by_cases refused : reading.block.len host ≤ 0 ∨ reading.block.len host > maxBytes
  · rw [if_pos refused] at done
    cases done
    refine ⟨arrived, rSem, rfl, Or.inr ⟨?_, rfl, wSem, by simp⟩⟩
    rintro ⟨positive, small, _⟩
    omega
  · rw [if_neg refused] at done
    by_cases failed : reading.memory = false
    · rw [if_pos failed] at done
      cases done
      refine ⟨arrived, rSem, rfl, Or.inr ⟨?_, rfl, wSem, by simp⟩⟩
      rintro ⟨_, _, given⟩
      simp [failed] at given
    · rw [if_neg failed] at done
      split at done
      · cases done
      · cases done
        refine ⟨arrived, rSem, rfl, Or.inl ⟨⟨by omega, by omega, by simpa using failed⟩, rfl, ?_, _, rfl⟩⟩
        simp only [wSem]

theorem copy_temp_ok (block filled : List (Option UInt8)) (offset : Nat) (result : ReadResult)
    (done : copyTemp block offset result = .ok filled) : ∃ data, result.temp = .copied data := by
  unfold copyTemp at done
  split at done
  · rename_i data known
    exact ⟨data, known⟩
  · cases done

theorem read_copied (host : HostOrder) (passage next : Passage) (result : ReadResult) (block filled : List (Option UInt8))
    (offset : Nat) (calm : passage.Calm) (done : readSharedMemory host passage = .ok (result, next))
    (copied : copyTemp block offset result = .ok filled) :
    ∃ reading, passage.readings = reading :: next.readings ∧ reading.Succeeds host ∧ result.code = 0 ∧ next.Calm := by
  obtain ⟨data, known⟩ := copy_temp_ok block filled offset result copied
  obtain ⟨reading, arrived, rSem, _, ⟨succeeds, code, wSem, _⟩ | ⟨_, _, _, uncopied⟩⟩ :=
    read_shared_memory_cases host passage next result calm done
  · exact ⟨reading, arrived, succeeds, code, by simp only [Passage.Calm, rSem, wSem]⟩
  · exact absurd known (uncopied data)

theorem read_middle_ok (host : HostOrder) (sizePerChunk left i : Nat) (block final : List (Option UInt8))
    (passage after : Passage) (calm : passage.Calm)
    (done : readMiddle host sizePerChunk left i block passage = .ok (final, after)) :
    after.Calm ∧ ∃ used, passage.readings = used ++ after.readings ∧ used.length = left ∧
      ∀ reading ∈ used, reading.Succeeds host := by
  induction left generalizing i block passage with
  | zero =>
      cases done
      exact ⟨calm, [], rfl, rfl, by simp⟩
  | succ left ih =>
      obtain ⟨⟨result, next⟩, read, done⟩ := bind_ok _ _ _ done
      obtain ⟨filled, copied, done⟩ := bind_ok _ _ _ done
      obtain ⟨_, _, done⟩ := bind_ok _ _ _ done
      obtain ⟨reading, arrived, succeeds, _, nextCalm⟩ :=
        read_copied host passage next result block filled _ calm read copied
      obtain ⟨afterCalm, used, rest, count, all⟩ := ih _ _ next nextCalm done
      refine ⟨afterCalm, reading :: used, by rw [arrived, rest, List.cons_append], by simp [count], ?_⟩
      intro other member
      rcases List.mem_cons.mp member with same | behind
      · exact same ▸ succeeds
      · exact all other behind

theorem read_last_ok (host : HostOrder) (sizePerChunk totalChunk : Nat) (block : List (Option UInt8))
    (passage after : Passage) (received : Received) (calm : passage.Calm)
    (done : readLast host sizePerChunk totalChunk block passage = .ok (received, after)) :
    after.Calm ∧ received.code = 0 ∧
      ∃ used, passage.readings = used ++ after.readings ∧ used.length = (if totalChunk > 1 then 1 else 0) ∧
        ∀ reading ∈ used, reading.Succeeds host := by
  by_cases several : totalChunk > 1
  · rw [readLast, if_pos several] at done
    obtain ⟨⟨result, next⟩, read, done⟩ := bind_ok _ _ _ done
    obtain ⟨filled, copied, done⟩ := bind_ok _ _ _ done
    obtain ⟨reading, arrived, succeeds, code, nextCalm⟩ :=
      read_copied host passage next result block filled _ calm read copied
    rw [if_neg (by simp [code])] at done
    cases done
    exact ⟨nextCalm, rfl, [reading], arrived, by simp [several], by simpa using succeeds⟩
  · rw [readLast, if_neg several] at done
    cases done
    exact ⟨calm, rfl, [], rfl, by simp [several], by simp⟩

theorem receive_item_cases (host : HostOrder) (passage after : Passage) (received : Received) (calm : passage.Calm)
    (done : receiveItem host passage = .ok (received, after)) :
    (received.code = 0 ∧ after.Calm ∧ ∀ reading ∈ passage.item host, reading.Succeeds host) ∨
      (received.code = 1 ∧ ¬ after.Calm ∧ ∃ reading ∈ passage.item host, ¬ reading.Succeeds host) := by
  obtain ⟨⟨first, next⟩, read, done⟩ := bind_ok _ _ _ done
  obtain ⟨reading, arrived, rSem, total, ⟨succeeds, code, wSem, _⟩ | ⟨fails, code, wSem, _⟩⟩ :=
    read_shared_memory_cases host passage next first calm read
  · have nextCalm : next.Calm := by simp only [Passage.Calm, rSem, wSem]
    dsimp only at done
    rw [if_neg (by simp [code])] at done
    obtain ⟨block, _, done⟩ := bind_ok _ _ _ done
    obtain ⟨_, _, done⟩ := bind_ok _ _ _ done
    obtain ⟨⟨middle, behind⟩, looped, done⟩ := bind_ok _ _ _ done
    obtain ⟨behindCalm, used1, split1, count1, all1⟩ := read_middle_ok host _ _ _ _ _ next behind nextCalm looped
    obtain ⟨afterCalm, zero, used2, split2, count2, all2⟩ := read_last_ok host _ _ _ behind after received behindCalm done
    refine Or.inl ⟨zero, afterCalm, ?_⟩
    have count : (used1 ++ used2).length = reading.block.total host - 1 := by
      rw [List.length_append, count1, count2, ← total]
      split <;> omega
    have chunks : passage.item host = reading :: (used1 ++ used2) := by
      simp only [Passage.item, arrived, split1, split2, ← List.append_assoc]
      rw [List.take_left' count]
    intro other member
    rw [chunks] at member
    rcases List.mem_cons.mp member with same | behind
    · exact same ▸ succeeds
    · exact (List.mem_append.mp behind).elim (all1 other) (all2 other)
  · dsimp only at done
    rw [if_pos (by simp [code])] at done
    obtain ⟨_, _, done⟩ := bind_ok _ _ _ done
    cases done
    refine Or.inr ⟨rfl, by simp [Passage.Calm, rSem, wSem], reading, ?_, fails⟩
    simp [Passage.item, arrived]

-- A block that holds the chunk, and memory for it.
structure Reading.Holds (host : HostOrder) (chunk : Chunk) (reading : Reading) : Prop where
  stands : reading.block.read host = .ok (some chunk)
  memory : reading.memory = true

theorem segment_read_some (host : HostOrder) (segment : Segment) (chunk : Chunk)
    (stands : segment.read host = .ok (some chunk)) :
    segment.len host = chunk.data.length ∧ segment.total host = chunk.total.toNat ∧
      segment.data chunk.data.length = chunk.data := by
  unfold Segment.read at stands
  dsimp only at stands
  split at stands
  · cases stands
  · rename_i accepted
    split at stands
    · rename_i inside
      have same := Option.some.inj (Except.ok.inj stands)
      have positive := (data_valid segment _ accepted inside).1
      have header : maxBytes - 8 * 2 - 4 = maxBytes - 20 := by decide
      have exact : (segment.data (segment.len host)).length = segment.len host := by
        simp only [Segment.data, List.length_take, List.length_drop, segment.size]
        omega
      have small : segment.total host < 2 ^ 64 := by
        have bound := load_bound host ((segment.bytes.drop (4 + 8)).take 8)
        have width : ((segment.bytes.drop (4 + 8)).take 8).length ≤ 8 := by
          rw [List.length_take]
          omega
        exact lt_of_lt_of_le bound (Nat.pow_le_pow_right (by decide) width)
      subst same
      refine ⟨exact.symm, ?_, by rw [exact]⟩
      simp only [UInt64.toNat_ofNat']
      exact (Nat.mod_eq_of_lt small).symm
    · cases stands

theorem reading_written (host : HostOrder) (segment : Segment) (chunk : Chunk) :
    Reading.Holds host chunk ⟨segment.write host chunk, true⟩ where
  stands := read_write host segment chunk
  memory := rfl

theorem failed_transfer_iff (host : HostOrder) (passage : Passage) (calm : passage.Calm) :
    passage.Usable host ↔ ∀ reading ∈ passage.item host, reading.Succeeds host := by
  constructor
  · rintro ⟨restored, reported⟩
    by_contra some
    have fails : ∃ reading ∈ passage.item host, ¬ reading.Succeeds host := by simpa using some
    obtain ⟨received, after, done, one⟩ := reported fails
    obtain ⟨zero, _⟩ | ⟨_, lost, _⟩ := receive_item_cases host passage after received calm done
    · omega
    · exact lost (restored received after done)
  · intro all
    refine ⟨fun received after done => ?_, fun ⟨reading, member, fails⟩ => absurd (all reading member) fails⟩
    obtain ⟨_, kept, _⟩ | ⟨_, _, reading, member, fails⟩ := receive_item_cases host passage after received calm done
    · exact kept
    · exact absurd (all reading member) fails

-- One chunk, and the malloc of read_shared_memory fails.
def sampleReading (memory : Bool) : Reading := ⟨Segment.zeroed.write .little ⟨0, 1, [83], by decide⟩, memory⟩

theorem sample_len (memory : Bool) : (sampleReading memory).block.len .little = 1 :=
  (segment_read_some .little _ _ (read_write .little Segment.zeroed _)).1

theorem failed_malloc_loses_semaphores :
    receiveItem .little ⟨0, 1, [sampleReading false]⟩ = .ok (⟨1, none⟩, ⟨0, 0, []⟩) ∧
      ¬ ∀ host : HostOrder, ∀ passage : Passage, passage.Calm → passage.Usable host := by
  have lost : receiveItem .little ⟨0, 1, [sampleReading false]⟩ = .ok (⟨1, none⟩, ⟨0, 0, []⟩) := by
    have len := sample_len false
    have small : ¬ (1 ≤ 0 ∨ 1 > maxBytes) := by decide
    simp only [receiveItem, readSharedMemory, Passage.wait, len, small, bind, Except.bind, pure, Except.pure, if_false,
      Nat.lt_irrefl, Nat.zero_lt_one, if_true]
    rfl
  refine ⟨lost, fun usable => ?_⟩
  have calm := (usable .little ⟨0, 1, [sampleReading false]⟩ rfl).1 _ _ lost
  simp [Passage.Calm] at calm

theorem failed_transfer_iff_sample :
    Passage.Usable .little ⟨0, 1, [sampleReading true]⟩ ∧ ¬ Passage.Usable .little ⟨0, 1, [sampleReading false]⟩ := by
  constructor
  · apply (failed_transfer_iff .little ⟨0, 1, [sampleReading true]⟩ rfl).mpr
    intro reading member
    cases List.mem_singleton.mp (by simpa [Passage.item] using member : reading ∈ [sampleReading true])
    exact ⟨by rw [sample_len]; decide, by rw [sample_len]; decide, rfl⟩
  · intro usable
    have all := (failed_transfer_iff .little ⟨0, 1, [sampleReading false]⟩ rfl).mp usable
    have memory := (all (sampleReading false) (by simp [Passage.item])).2.2
    cases memory

theorem held_written (host : HostOrder) (segment : Segment) (chunks : List Chunk) :
    List.Forall₂ (Reading.Holds host) chunks (chunks.map fun chunk => ⟨segment.write host chunk, true⟩) := by
  induction chunks with
  | nil => exact List.Forall₂.nil
  | cons chunk chunks ih => exact List.Forall₂.cons (reading_written host segment chunk) ih

theorem read_held (host : HostOrder) (passage : Passage) (reading : Reading) (later : List Reading) (chunk : Chunk)
    (calm : passage.Calm) (arrived : passage.readings = reading :: later) (held : reading.Holds host chunk) :
    readSharedMemory host passage =
      .ok (⟨0, .copied chunk.data, chunk.data.length, chunk.total.toNat⟩, ⟨0, 1, later⟩) := by
  obtain ⟨len, total, data⟩ := segment_read_some host reading.block chunk held.stands
  obtain ⟨positive, inside⟩ := chunk.valid
  have small : chunk.data.length ≤ maxBytes := inside.trans (by decide)
  have accepted : ¬ (chunk.data.length ≤ 0 ∨ chunk.data.length > maxBytes) := by omega
  have mapped : ¬ chunk.data.length > maxBytes - 8 * 2 - 4 := by omega
  simp only [readSharedMemory, wait_takes passage reading later calm arrived, len, total, accepted, held.memory, mapped,
    data, bind, Except.bind, pure, Except.pure, if_false, Bool.true_eq_false]

theorem copy_held (block : List (Option UInt8)) (offset : Nat) (chunk : Chunk) :
    copyTemp block offset ⟨0, .copied chunk.data, chunk.data.length, chunk.total.toNat⟩ = placeChunk block offset chunk := rfl

theorem read_middle_held (host : HostOrder) (sizePerChunk left i : Nat) (block final : List (Option UInt8))
    (chunks rest : List Chunk) (readings later : List Reading) (passage : Passage) (calm : passage.Calm)
    (arrived : passage.readings = readings ++ later) (held : List.Forall₂ (Reading.Holds host) chunks readings)
    (fits : (i + left) * sizePerChunk < 2 ^ 64)
    (read : recvMiddle sizePerChunk left i block chunks = .ok (final, rest)) :
    ∃ others after, readMiddle host sizePerChunk left i block passage = .ok (final, after) ∧ after.Calm ∧
      after.readings = others ++ later ∧ List.Forall₂ (Reading.Holds host) rest others := by
  induction left generalizing i block passage chunks readings with
  | zero =>
      cases read
      exact ⟨readings, passage, rfl, calm, arrived, held⟩
  | succ left ih =>
      cases held with
      | nil => simp [recvMiddle] at read
      | @cons chunk reading chunks readings here behind =>
          obtain ⟨filled, placed, read⟩ := bind_ok _ _ _ read
          have inside : i * sizePerChunk < 2 ^ 64 :=
            lt_of_le_of_lt (Nat.mul_le_mul_right _ (by omega)) fits
          have shift : i + (left + 1) = i + 1 + left := by omega
          obtain ⟨others, after, looped, afterCalm, still, rest⟩ :=
            ih (i + 1) filled chunks readings ⟨0, 1, readings ++ later⟩ rfl rfl behind (shift ▸ fits) read
          refine ⟨others, after, ?_, afterCalm, still, rest⟩
          simp only [readMiddle, read_held host passage reading (readings ++ later) chunk calm arrived here, sizeT,
            Nat.mod_eq_of_lt inside, copy_held, placed, freeTemp, bind, Except.bind, ne_eq, not_true_eq_false, if_false,
            looped]

theorem place_chunk_length (block filled : List (Option UInt8)) (offset : Nat) (chunk : Chunk)
    (placed : placeChunk block offset chunk = .ok filled) :
    offset + chunk.data.length ≤ block.length ∧ filled.length = block.length := by
  unfold placeChunk at placed
  split at placed
  · rename_i other known
    cases placed
    exact Pieces.place_length block filled offset chunk.data known
  · cases placed

theorem reallocate_inside (block : List (Option UInt8)) (size : Nat) (inside : size ≤ block.length) :
    reallocate block size = block.take size := by
  have none : size - block.length = 0 := by omega
  simp [reallocate, none, Pieces.fresh]

theorem read_last_held (host : HostOrder) (sizePerChunk totalChunk : Nat) (block final : List (Option UInt8))
    (chunks rest : List Chunk) (readings later : List Reading) (passage : Passage) (calm : passage.Calm)
    (arrived : passage.readings = readings ++ later) (held : List.Forall₂ (Reading.Holds host) chunks readings)
    (room : block.length = totalChunk * sizePerChunk) (fits : totalChunk * sizePerChunk < 2 ^ 64)
    (read : recvLast sizePerChunk totalChunk block chunks = .ok (final, rest)) :
    ∃ others after, readLast host sizePerChunk totalChunk block passage = .ok (⟨0, some (final, final.length)⟩, after) ∧
      after.Calm ∧ after.readings = others ++ later ∧ List.Forall₂ (Reading.Holds host) rest others := by
  by_cases several : totalChunk > 1
  · cases held with
    | nil => simp [recvLast, several] at read
    | @cons last reading chunks readings here behind =>
        simp only [recvLast, several, if_true] at read
        obtain ⟨filled, placed, read⟩ := bind_ok _ _ _ read
        cases read
        have whole : totalChunk * sizePerChunk = (totalChunk - 1) * sizePerChunk + sizePerChunk := by
          rw [← Nat.succ_mul]
          congr 1
          omega
        obtain ⟨inside, same⟩ := place_chunk_length block filled _ last placed
        have len : (filled.take ((totalChunk - 1) * sizePerChunk + last.data.length)).length =
            (totalChunk - 1) * sizePerChunk + last.data.length := by
          rw [List.length_take]
          omega
        have kept : (if last.data.length ≠ sizePerChunk then
            reallocate filled ((totalChunk - 1) * sizePerChunk + last.data.length) else filled) =
            filled.take ((totalChunk - 1) * sizePerChunk + last.data.length) := by
          by_cases full : last.data.length = sizePerChunk
          · rw [if_neg (by simpa using full), List.take_of_length_le (by omega)]
          · rw [if_pos full, reallocate_inside _ _ (by omega)]
        refine ⟨readings, ⟨0, 1, readings ++ later⟩, ?_, rfl, rfl, behind⟩
        have offset : sizeT ((totalChunk - 1) * sizePerChunk) = (totalChunk - 1) * sizePerChunk := Nat.mod_eq_of_lt (by omega)
        have size : sizeT ((totalChunk - 1) * sizePerChunk + last.data.length) =
            (totalChunk - 1) * sizePerChunk + last.data.length := Nat.mod_eq_of_lt (by omega)
        simp only [readLast, several, if_true, read_held host passage reading (readings ++ later) last calm arrived here,
          bind, Except.bind, pure, Except.pure, offset, copy_held, placed, ne_eq, not_true_eq_false, if_false, size, len]
        simp only [ne_eq] at kept
        rw [kept]
  · simp only [recvLast, several, if_false, Except.ok.injEq, Prod.mk.injEq] at read
    obtain ⟨rfl, rfl⟩ := read
    refine ⟨readings, passage, ?_, calm, arrived, held⟩
    rw [readLast, if_neg several, sizeT, Nat.mod_eq_of_lt fits, room]
    rfl

theorem recv_middle_length (sizePerChunk left i : Nat) (block final : List (Option UInt8)) (chunks rest : List Chunk)
    (read : recvMiddle sizePerChunk left i block chunks = .ok (final, rest)) : final.length = block.length := by
  induction left generalizing i block chunks with
  | zero =>
      cases read
      rfl
  | succ left ih =>
      cases chunks with
      | nil => cases read
      | cons chunk chunks =>
          obtain ⟨filled, placed, read⟩ := bind_ok _ _ _ read
          rw [ih (i + 1) filled chunks read, (place_chunk_length block filled _ chunk placed).2]

-- The semaphores and size_t change nothing while every read succeeds and the item is smaller than memory.
theorem receive_item_held (host : HostOrder) (chunks rest : List Chunk) (data : Bytes) (readings later : List Reading)
    (passage : Passage) (calm : passage.Calm) (arrived : passage.readings = readings ++ later)
    (held : List.Forall₂ (Reading.Holds host) chunks readings)
    (fits : ∀ first ∈ chunks.head?, first.total.toNat * first.data.length < 2 ^ 64)
    (read : recvItem chunks = .ok (data, rest)) :
    ∃ others after, receiveItem host passage = .ok (⟨0, some (data.map some, data.length)⟩, after) ∧ after.Calm ∧
      after.readings = others ++ later ∧ List.Forall₂ (Reading.Holds host) rest others := by
  cases held with
  | nil => cases read
  | @cons first reading chunks readings here behind =>
      have small := fits first rfl
      obtain ⟨block, placed, read⟩ := bind_ok _ _ _ read
      obtain ⟨⟨middle, between⟩, looped, read⟩ := bind_ok _ _ _ read
      obtain ⟨⟨final, ended⟩, closed, read⟩ := bind_ok _ _ _ read
      have room : block.length = first.total.toNat * first.data.length := by
        rw [(place_chunk_length _ block 0 first placed).2, Pieces.fresh, List.length_replicate]
      have middleRoom := (recv_middle_length _ _ 1 block middle chunks between looped).trans room
      have loopFits : (1 + (first.total.toNat - 2)) * first.data.length < 2 ^ 64 := by
        have inside := (place_chunk_length _ block 0 first placed).1
        rw [Pieces.fresh, List.length_replicate] at inside
        have positive : 0 < first.total.toNat := by
          by_contra none
          have zero : first.total.toNat = 0 := by omega
          have nonempty := first.valid.1
          rw [zero, Nat.zero_mul] at inside
          omega
        exact lt_of_le_of_lt (Nat.mul_le_mul_right _ (by omega)) small
      obtain ⟨others, after, done, afterCalm, still, same⟩ :=
        read_middle_held host _ _ 1 block middle chunks between readings later ⟨0, 1, readings ++ later⟩ rfl rfl behind
          loopFits looped
      obtain ⟨unread, ending, doneLast, endCalm, endStill, endSame⟩ :=
        read_last_held host _ _ middle final between ended others later after afterCalm still same middleRoom small closed
      cases whole : Pieces.written final with
      | none => simp [whole, throw, throwThe, MonadExceptOf.throw] at read
      | some bytes =>
          simp only [whole, pure, Except.pure, Except.ok.injEq, Prod.mk.injEq] at read
          obtain ⟨rfl, rfl⟩ := read
          have cells := Pieces.map_of_written final bytes whole
          refine ⟨unread, ending, ?_, endCalm, endStill, endSame⟩
          rw [cells, List.length_map] at doneLast
          simp only [receiveItem, read_held host passage reading (readings ++ later) first calm arrived here, sizeT,
            Nat.mod_eq_of_lt small, copy_held, placed, freeTemp, bind, Except.bind, pure, Except.pure, ne_eq,
            not_true_eq_false, if_false, done, doneLast]

theorem chunks_data (size count : Nat) (data : Bytes) (indices : List Nat) (chunks : List Chunk)
    (pieces : List.Forall₂ (IsChunk size count data) indices chunks) :
    chunks.map Chunk.data = indices.map fun index => Pieces.piece size index data := by
  induction pieces with
  | nil => rfl
  | cons here _ ih => rw [List.map_cons, List.map_cons, here.data, ih]

theorem chunks_alike (size count : Nat) (data : Bytes) (indices : List Nat) (chunks : List Chunk)
    (pieces : List.Forall₂ (IsChunk size count data) indices chunks) :
    ∀ chunk ∈ chunks, chunk.total = UInt64.ofNat count ∧ chunk.data.length ≤ size := by
  induction pieces with
  | nil => simp
  | cons here _ ih =>
      intro other member
      rcases List.mem_cons.mp member with same | behind
      · subst same
        exact ⟨here.total, by rw [here.data, Pieces.piece_length]; exact Nat.min_le_left _ _⟩
      · exact ih other behind

-- The steps a process has left for the chunks it has still to pass on.
def Phase.work : Phase → Nat → Nat
  | .waiting, chunks => 3 * chunks
  | .copying, chunks => 3 * chunks - 1
  | .posting, chunks => 3 * chunks + 1

def Pipe.work (chunks : List Chunk) (pipe : Pipe) : Nat :=
  pipe.producer.work pipe.pending.length + pipe.consumer.work (chunks.length - pipe.read.length)

theorem protocol_unread_count (host : HostOrder) (chunks : List Chunk) (pipe : Pipe) (kept : pipe.Protocol host chunks)
    (full : pipe.full) : pipe.read.length < chunks.length := by
  obtain ⟨chunk, tail, _⟩ := kept.loaded full
  have whole := congrArg List.length kept.order
  rw [tail] at whole
  simp only [List.length_append, List.length_singleton] at whole
  omega

theorem step_work (host : HostOrder) (chunks : List Chunk) (pipe next : Pipe) (process : Process)
    (kept : pipe.Protocol host chunks) (taken : pipe.step host process = some next) :
    next.work chunks + 1 = pipe.work chunks := by
  cases process with
  | producer =>
      obtain ⟨phase, free, rfl⟩ | ⟨chunk, later, phase, rest, rfl⟩ | ⟨phase, rfl⟩ := produce_cases host pipe next taken
      · have some_ : 0 < pipe.pending.length := by
          cases pending : pipe.pending with
          | nil => simp [Pipe.step, Pipe.produce, phase, pending] at taken
          | cons chunk later => exact Nat.succ_pos _
        simp only [Pipe.work, phase, Phase.work]
        omega
      · simp only [Pipe.work, phase, rest, Phase.work, List.length_cons]
        omega
      · simp only [Pipe.work, phase, Phase.work]
        omega
  | consumer =>
      obtain ⟨phase, ready, rfl⟩ | ⟨chunk, phase, copied, rfl⟩ | ⟨phase, refused, rfl⟩ | ⟨phase, rfl⟩ :=
        consume_cases host pipe next taken
      · have unread := protocol_unread_count host chunks pipe kept (Or.inl (by have token := kept.token; omega))
        simp only [Pipe.work, phase, Phase.work]
        omega
      · have unread := protocol_unread_count host chunks pipe kept (Or.inr (Or.inr phase))
        simp only [Pipe.work, phase, Phase.work, List.length_append, List.length_singleton]
        omega
      · obtain ⟨_, _, stands⟩ := kept.loaded (Or.inr (Or.inr phase))
        rw [stands] at refused
        cases refused
      · simp only [Pipe.work, phase, Phase.work]
        omega

theorem run_work (host : HostOrder) (chunks : List Chunk) (schedule : List Process) (pipe final : Pipe)
    (kept : pipe.Protocol host chunks) (ran : Runs.run (Pipe.step host) pipe schedule = some final) :
    final.work chunks + schedule.length = pipe.work chunks := by
  induction schedule generalizing pipe with
  | nil =>
      cases ran
      rfl
  | cons process schedule ih =>
      obtain ⟨next, taken, ran⟩ := Runs.run_cons_some _ pipe final process schedule ran
      have less := step_work host chunks pipe next process kept taken
      have rest := ih next (step_protocol host chunks pipe process next kept taken) ran
      rw [List.length_cons]
      omega

-- Nobody is left waiting before the last chunk has been read.
theorem stuck_read_all (host : HostOrder) (chunks : List Chunk) (pipe : Pipe) (kept : pipe.Protocol host chunks)
    (stuck : ∀ process, pipe.step host process = none) : pipe.read = chunks := by
  have token := kept.token
  have order := kept.order
  have consumer := stuck .consumer
  have producer := stuck .producer
  cases reader : pipe.consumer with
  | posting => simp [Pipe.step, Pipe.consume, reader] at consumer
  | copying =>
      obtain ⟨chunk, _, stands⟩ := kept.loaded (Or.inr (Or.inr reader))
      simp [Pipe.step, Pipe.consume, reader, stands] at consumer
  | waiting =>
      have unread : pipe.rSem = 0 := by
        by_contra some_
        simp [Pipe.step, Pipe.consume, reader, Nat.pos_of_ne_zero some_] at consumer
      cases writer : pipe.producer with
      | posting => simp [Pipe.step, Pipe.produce, writer] at producer
      | _ =>
          simp only [reader, writer, unread, Phase.inside] at token
          have empty := drained_of_turn pipe kept.token
          cases pending : pipe.pending with
          | cons chunk later => simp [Pipe.step, Pipe.produce, writer, pending] at producer <;> omega
          | nil =>
              have drained := kept.drained (empty (by first | exact Or.inl (by omega) | exact Or.inr (Or.inl writer)))
              rw [pending, List.append_nil] at order
              rw [← drained, order]

-- send_item and recv_item at the two ends of the pipe: the chunks cover the string, every schedule passes all of
-- them on, and what comes out is the string.
theorem chunked_transfer (host : HostOrder) (data : Bytes) (nonempty : data ≠ []) :
    ∃ chunks, sendItem data = .ok chunks ∧ (chunks.map Chunk.data).flatten = data ∧
      (∀ chunk ∈ chunks, 0 < chunk.data.length ∧ chunk.data.length ≤ maxBytes - 8 * 2 - 4) ∧
      (∀ segment schedule pipe, Runs.run (Pipe.step host) (Pipe.start segment chunks) schedule = some pipe →
        schedule.length ≤ 6 * chunks.length ∧ ((∀ process, pipe.step host process = none) → pipe.read = chunks)) ∧
      (data.length + maxlen ≤ 2 ^ 64 → ∀ passage : Passage, ∀ readings later, passage.Calm →
        passage.readings = readings ++ later → List.Forall₂ (Reading.Holds host) chunks readings →
        ∃ after, receiveItem host passage = .ok (⟨0, some (data.map some, data.length)⟩, after) ∧ after.Calm ∧
          after.readings = later) := by
  obtain ⟨chunks, sent, pieces⟩ := send_item_chunks data nonempty
  have positive : 0 < data.length := List.length_pos_iff.mpr nonempty
  have covers := chunk_count_covers data.length
  have tight := chunk_count_tight data.length positive
  refine ⟨chunks, sent, ?_, fun chunk _ => chunk.valid, ?_, ?_⟩
  · rw [chunks_data _ _ data _ chunks pieces, Pieces.flatten_pieces, List.take_of_length_le covers]
  · intro segment schedule pipe ran
    have kept := run_protocol host segment chunks schedule pipe ran
    have work := run_work host chunks schedule _ pipe (start_protocol host segment chunks) ran
    refine ⟨?_, stuck_read_all host chunks pipe kept⟩
    simp only [Pipe.work, Pipe.start, Phase.work, List.length_nil, Nat.sub_zero] at work
    omega
  · intro bounded passage readings later calm arrived held
    have count := chunk_count_pos data.length
    have split : chunkCount data.length * maxlen = (chunkCount data.length - 1) * maxlen + maxlen := by
      rw [← Nat.succ_mul]
      congr 1
      omega
    have few : chunkCount data.length ≤ chunkCount data.length * maxlen := Nat.le_mul_of_pos_right _ maxlen_pos
    have total : (UInt64.ofNat (chunkCount data.length)).toNat = chunkCount data.length := by
      rw [UInt64.toNat_ofNat', Nat.mod_eq_of_lt (by omega)]
    have received := recv_pieces data maxlen _ chunks count total covers tight pieces
    have fits : ∀ first ∈ chunks.head?, first.total.toNat * first.data.length < 2 ^ 64 := by
      intro first front
      obtain ⟨known, size⟩ := chunks_alike _ _ data _ chunks pieces first (List.mem_of_mem_head? front)
      rw [known, total]
      exact lt_of_le_of_lt (Nat.mul_le_mul_left _ size) (by omega)
    obtain ⟨others, after, done, afterCalm, still, none⟩ :=
      receive_item_held host chunks [] data readings later passage calm arrived held fits received
    cases none
    exact ⟨after, done, afterCalm, still⟩

-- One byte more than a chunk holds.
theorem chunked_transfer_sample :
    ∃ chunks after, sendItem (List.replicate (maxlen + 1) 7) = .ok chunks ∧ chunks.length = 2 ∧
      receiveItem .little ⟨0, 1, chunks.map fun chunk => ⟨Segment.zeroed.write .little chunk, true⟩⟩ =
        .ok (⟨0, some ((List.replicate (maxlen + 1) 7).map some, maxlen + 1)⟩, after) ∧ after.Calm := by
  have size : (List.replicate (maxlen + 1) (7 : UInt8)).length = maxlen + 1 := List.length_replicate
  have some_ : List.replicate (maxlen + 1) (7 : UInt8) ≠ [] := List.ne_nil_of_length_eq_add_one size
  obtain ⟨chunks, sent, _, _, _, received⟩ := chunked_transfer .little (List.replicate (maxlen + 1) 7) some_
  obtain ⟨pieces, same, each⟩ := send_item_chunks (List.replicate (maxlen + 1) 7) some_
  cases sent.symm.trans same
  have two : chunks.length = 2 := by
    rw [← each.length_eq, List.length_range, size]
    decide
  obtain ⟨after, done, calm, _⟩ := received (by rw [size]; decide)
    ⟨0, 1, chunks.map fun chunk => ⟨Segment.zeroed.write .little chunk, true⟩⟩ _ [] rfl (List.append_nil _).symm
    (held_written .little Segment.zeroed chunks)
  rw [size] at done
  exact ⟨chunks, after, sent, two, done, calm⟩

end Synergy
