import Synergy.SharedMemory
import Synergy.Lib.Run

set_option autoImplicit false

namespace Synergy

-- The mapped block of MAX_BYTES: an unsigned id, the length, the total, then the data.
structure Segment where
  bytes : Bytes
  size : bytes.length = maxBytes

def Segment.zeroed : Segment := ⟨List.replicate maxBytes 0, List.length_replicate⟩

-- The four memcpy of write_shared_memory.
def Segment.written (host : HostOrder) (segment : Segment) (chunk : Chunk) : Bytes :=
  store host 4 chunk.id.toNat ++ store host 8 chunk.data.length ++ store host 8 chunk.total.toNat ++ chunk.data ++
    segment.bytes.drop (4 + 8 + 8 + chunk.data.length)

theorem written_size (host : HostOrder) (segment : Segment) (chunk : Chunk) :
    (segment.written host chunk).length = maxBytes := by
  have fits := chunk.valid.2
  have size := segment.size
  have header : maxBytes - 8 * 2 - 4 + 20 = maxBytes := by decide
  simp only [Segment.written, List.length_append, store_length, List.length_drop, size]
  omega

def Segment.write (host : HostOrder) (segment : Segment) (chunk : Chunk) : Segment :=
  ⟨segment.written host chunk, written_size host segment chunk⟩

def Segment.id (host : HostOrder) (segment : Segment) : Nat := load host (segment.bytes.take 4)
def Segment.len (host : HostOrder) (segment : Segment) : Nat := load host ((segment.bytes.drop 4).take 8)
def Segment.total (host : HostOrder) (segment : Segment) : Nat := load host ((segment.bytes.drop (4 + 8)).take 8)
def Segment.data (segment : Segment) (len : Nat) : Bytes := (segment.bytes.drop (4 + 8 + 8)).take len

theorem data_valid (segment : Segment) (len : Nat) (positive : ¬ (len ≤ 0 ∨ len > maxBytes))
    (inside : len ≤ maxBytes - 8 * 2 - 4) :
    0 < (segment.data len).length ∧ (segment.data len).length ≤ maxBytes - 8 * 2 - 4 := by
  have size := segment.size
  have header : maxBytes - 8 * 2 - 4 = maxBytes - 20 := by decide
  have exact : (segment.data len).length = len := by
    simp only [Segment.data, List.length_take, List.length_drop, size]
    omega
  rw [exact]
  exact ⟨by omega, inside⟩

-- What read_shared_memory copies out: none when it refuses the length and returns 1. A length it
-- lets pass may still reach beyond the mapping.
def Segment.read (host : HostOrder) (segment : Segment) : Except Stop (Option Chunk) :=
  let len := segment.len host
  if refused : len ≤ 0 ∨ len > maxBytes then .ok none
  else if inside : len ≤ maxBytes - 8 * 2 - 4 then
    .ok (some ⟨UInt32.ofNat (segment.id host), UInt64.ofNat (segment.total host), segment.data len,
      data_valid segment len refused inside⟩)
  else .error .undefined

theorem read_write (host : HostOrder) (segment : Segment) (chunk : Chunk) :
    (segment.write host chunk).read host = .ok (some chunk) := by
  have small : chunk.data.length ≤ maxBytes := chunk.valid.2.trans (by decide)
  have word : maxBytes < 256 ^ 8 := by decide
  have bytes : (segment.write host chunk).bytes = store host 4 chunk.id.toNat ++ (store host 8 chunk.data.length ++
      (store host 8 chunk.total.toNat ++ (chunk.data ++ segment.bytes.drop (4 + 8 + 8 + chunk.data.length)))) := by
    simp only [Segment.write, Segment.written, List.append_assoc]
  have id : (segment.write host chunk).id host = chunk.id.toNat := by
    rw [Segment.id, bytes, List.take_left' (store_length _ _ _), load_store host 4 _ chunk.id.toNat_lt]
  have afterId : (segment.write host chunk).bytes.drop 4 = store host 8 chunk.data.length ++
      (store host 8 chunk.total.toNat ++ (chunk.data ++ segment.bytes.drop (4 + 8 + 8 + chunk.data.length))) := by
    rw [bytes, List.drop_left' (store_length _ _ _)]
  have len : (segment.write host chunk).len host = chunk.data.length := by
    rw [Segment.len, afterId, List.take_left' (store_length _ _ _), load_store host 8 _ (small.trans_lt word)]
  have afterLen : (segment.write host chunk).bytes.drop (4 + 8) = store host 8 chunk.total.toNat ++
      (chunk.data ++ segment.bytes.drop (4 + 8 + 8 + chunk.data.length)) := by
    rw [← List.drop_drop, afterId, List.drop_left' (store_length _ _ _)]
  have total : (segment.write host chunk).total host = chunk.total.toNat := by
    rw [Segment.total, afterLen, List.take_left' (store_length _ _ _), load_store host 8 _ chunk.total.toNat_lt]
  have data : (segment.write host chunk).data chunk.data.length = chunk.data := by
    rw [Segment.data, ← List.drop_drop, afterLen, List.drop_left' (store_length _ _ _), List.take_left' rfl]
  have accepted : ¬ (chunk.data.length ≤ 0 ∨ chunk.data.length > maxBytes) := by
    have positive := chunk.valid.1
    omega
  simp only [Segment.read, len, accepted, chunk.valid.2, dif_pos, dif_neg, not_false_eq_true, id, total, data,
    UInt32.ofNat_toNat, UInt64.ofNat_toNat]

-- Where a process stands in write_shared_memory or read_shared_memory.
inductive Phase where
  | waiting
  | copying
  | posting
deriving DecidableEq, Repr

-- Past its sem_wait and not yet past its sem_post.
def Phase.inside : Phase → Nat
  | .waiting => 0
  | .copying => 1
  | .posting => 1

inductive Process where
  | producer
  | consumer
deriving DecidableEq, Repr

-- pending is what the producer has still to write. written and read are ghost.
structure Pipe where
  rSem : Nat
  wSem : Nat
  segment : Segment
  producer : Phase
  consumer : Phase
  pending : List Chunk
  written : List Chunk
  read : List Chunk

-- The state create_shared_memory leaves, whatever the block holds.
def Pipe.start (segment : Segment) (chunks : List Chunk) : Pipe :=
  { rSem := 0, wSem := 1, segment := segment, producer := .waiting, consumer := .waiting, pending := chunks, written := [],
    read := [] }

def Pipe.produce (host : HostOrder) (pipe : Pipe) : Option Pipe :=
  match pipe.producer, pipe.pending with
  | .waiting, _ :: _ => if 0 < pipe.wSem then some { pipe with wSem := pipe.wSem - 1, producer := .copying } else none
  | .copying, chunk :: later =>
      some
        { pipe with
          segment := pipe.segment.write host chunk
          pending := later
          written := pipe.written ++ [chunk]
          producer := .posting }
  | .posting, _ => some { pipe with rSem := pipe.rSem + 1, producer := .waiting }
  | _, [] => none

-- A read that returns 1 posts nothing, and the next call starts at sem_wait again.
def Pipe.consume (host : HostOrder) (pipe : Pipe) : Option Pipe :=
  match pipe.consumer with
  | .waiting => if 0 < pipe.rSem then some { pipe with rSem := pipe.rSem - 1, consumer := .copying } else none
  | .copying =>
      match pipe.segment.read host with
      | .ok (some chunk) =>
          some { pipe with segment := Segment.zeroed, read := pipe.read ++ [chunk], consumer := .posting }
      | .ok none => some { pipe with consumer := .waiting }
      | .error _ => none
  | .posting => some { pipe with wSem := pipe.wSem + 1, consumer := .waiting }

def Pipe.step (host : HostOrder) (pipe : Pipe) : Process → Option Pipe
  | .producer => pipe.produce host
  | .consumer => pipe.consume host

-- A chunk stands in the segment from the end of its write to the end of its read.
def Pipe.full (pipe : Pipe) : Prop := pipe.rSem = 1 ∨ pipe.producer = .posting ∨ pipe.consumer = .copying

structure Pipe.Protocol (host : HostOrder) (chunks : List Chunk) (pipe : Pipe) : Prop where
  token : pipe.rSem + pipe.wSem + pipe.producer.inside + pipe.consumer.inside = 1
  order : pipe.written ++ pipe.pending = chunks
  loaded : pipe.full → ∃ chunk, pipe.written = pipe.read ++ [chunk] ∧ pipe.segment.read host = .ok (some chunk)
  drained : ¬ pipe.full → pipe.written = pipe.read

theorem start_protocol (host : HostOrder) (segment : Segment) (chunks : List Chunk) :
    (Pipe.start segment chunks).Protocol host chunks where
  token := rfl
  order := rfl
  loaded := by simp [Pipe.full, Pipe.start]
  drained := fun _ => rfl

theorem produce_cases (host : HostOrder) (pipe next : Pipe) (taken : pipe.produce host = some next) :
    (pipe.producer = .waiting ∧ 0 < pipe.wSem ∧ next = { pipe with wSem := pipe.wSem - 1, producer := .copying }) ∨
    (∃ chunk later, pipe.producer = .copying ∧ pipe.pending = chunk :: later ∧
      next = { pipe with segment := pipe.segment.write host chunk, pending := later,
                         written := pipe.written ++ [chunk], producer := .posting }) ∨
    (pipe.producer = .posting ∧ next = { pipe with rSem := pipe.rSem + 1, producer := .waiting }) := by
  unfold Pipe.produce at taken
  split at taken
  · rename_i phase _
    split at taken
    · rename_i free
      exact Or.inl ⟨phase, free, (Option.some.inj taken).symm⟩
    · cases taken
  · rename_i chunk later phase rest
    exact Or.inr (Or.inl ⟨chunk, later, phase, rest, (Option.some.inj taken).symm⟩)
  · rename_i phase
    exact Or.inr (Or.inr ⟨phase, (Option.some.inj taken).symm⟩)
  · cases taken

theorem consume_cases (host : HostOrder) (pipe next : Pipe) (taken : pipe.consume host = some next) :
    (pipe.consumer = .waiting ∧ 0 < pipe.rSem ∧ next = { pipe with rSem := pipe.rSem - 1, consumer := .copying }) ∨
    (∃ chunk, pipe.consumer = .copying ∧ pipe.segment.read host = .ok (some chunk) ∧
      next = { pipe with segment := Segment.zeroed, read := pipe.read ++ [chunk], consumer := .posting }) ∨
    (pipe.consumer = .copying ∧ pipe.segment.read host = .ok none ∧ next = { pipe with consumer := .waiting }) ∨
    (pipe.consumer = .posting ∧ next = { pipe with wSem := pipe.wSem + 1, consumer := .waiting }) := by
  unfold Pipe.consume at taken
  split at taken
  · rename_i phase
    split at taken
    · rename_i ready
      exact Or.inl ⟨phase, ready, (Option.some.inj taken).symm⟩
    · cases taken
  · rename_i phase
    split at taken
    · rename_i chunk copied
      exact Or.inr (Or.inl ⟨chunk, phase, copied, (Option.some.inj taken).symm⟩)
    · rename_i refused
      exact Or.inr (Or.inr (Or.inl ⟨phase, refused, (Option.some.inj taken).symm⟩))
    · cases taken
  · rename_i phase
    exact Or.inr (Or.inr (Or.inr ⟨phase, (Option.some.inj taken).symm⟩))

-- While a process may write, or the one that reads has cleared the block, no chunk stands in it.
theorem drained_of_turn (pipe : Pipe) (token : pipe.rSem + pipe.wSem + pipe.producer.inside + pipe.consumer.inside = 1)
    (turn : 0 < pipe.wSem ∨ pipe.producer = .copying ∨ pipe.consumer = .posting) : ¬ pipe.full := by
  rintro (ready | posting | copying)
  · rcases turn with free | writing | clearing
    · omega
    · simp only [writing, Phase.inside] at token
      omega
    · simp only [clearing, Phase.inside] at token
      omega
  · rcases turn with free | writing | clearing
    · simp only [posting, Phase.inside] at token
      omega
    · simp [posting] at writing
    · simp only [posting, clearing, Phase.inside] at token
      omega
  · rcases turn with free | writing | clearing
    · simp only [copying, Phase.inside] at token
      omega
    · simp only [copying, writing, Phase.inside] at token
      omega
    · simp [copying] at clearing

theorem produce_protocol (host : HostOrder) (chunks : List Chunk) (pipe next : Pipe)
    (kept : pipe.Protocol host chunks) (taken : pipe.produce host = some next) : next.Protocol host chunks := by
  have token := kept.token
  obtain ⟨phase, free, rfl⟩ | ⟨chunk, later, phase, rest, rfl⟩ | ⟨phase, rfl⟩ := produce_cases host pipe next taken
  · have empty := drained_of_turn pipe token (Or.inl free)
    simp only [phase, Phase.inside] at token
    have nextToken : pipe.rSem + (pipe.wSem - 1) + Phase.copying.inside + pipe.consumer.inside = 1 := by
      simp only [Phase.inside]
      omega
    exact ⟨nextToken, kept.order, fun full => absurd full (drained_of_turn _ nextToken (Or.inr (Or.inl rfl))),
      fun _ => kept.drained empty⟩
  · have empty := drained_of_turn pipe token (Or.inr (Or.inl phase))
    simp only [phase, Phase.inside] at token
    refine ⟨token, ?_, fun _ => ⟨chunk, ?_, read_write host pipe.segment chunk⟩, fun drained => ?_⟩
    · rw [List.append_assoc, List.singleton_append, ← rest]
      exact kept.order
    · rw [kept.drained empty]
    · exact absurd (Or.inr (Or.inl rfl)) drained
  · have full : pipe.full := Or.inr (Or.inl phase)
    simp only [phase, Phase.inside] at token
    have nextToken : pipe.rSem + 1 + pipe.wSem + Phase.waiting.inside + pipe.consumer.inside = 1 := by
      simp only [Phase.inside]
      omega
    refine ⟨nextToken, kept.order, fun _ => kept.loaded full, fun drained => ?_⟩
    exact absurd (Or.inl (by simp only; omega)) drained

theorem consume_protocol (host : HostOrder) (chunks : List Chunk) (pipe next : Pipe)
    (kept : pipe.Protocol host chunks) (taken : pipe.consume host = some next) : next.Protocol host chunks := by
  have token := kept.token
  obtain ⟨phase, ready, rfl⟩ | ⟨chunk, phase, copied, rfl⟩ | ⟨phase, refused, rfl⟩ | ⟨phase, rfl⟩ :=
    consume_cases host pipe next taken
  · simp only [phase, Phase.inside] at token
    have full : pipe.full := Or.inl (by omega)
    refine ⟨by simp only [Phase.inside]; omega, kept.order, fun _ => kept.loaded full, fun drained => ?_⟩
    exact absurd (Or.inr (Or.inr rfl)) drained
  · obtain ⟨unread, tail, stands⟩ := kept.loaded (Or.inr (Or.inr phase))
    have same : unread = chunk := by
      rw [stands] at copied
      exact Option.some.inj (Except.ok.inj copied)
    simp only [phase, Phase.inside] at token
    exact ⟨token, kept.order, fun full => absurd full (drained_of_turn _ token (Or.inr (Or.inr rfl))),
      fun _ => by rw [tail, same]⟩
  · obtain ⟨unread, tail, stands⟩ := kept.loaded (Or.inr (Or.inr phase))
    rw [stands] at refused
    cases refused
  · have empty := drained_of_turn pipe token (Or.inr (Or.inr phase))
    simp only [phase, Phase.inside] at token
    have nextToken : pipe.rSem + (pipe.wSem + 1) + pipe.producer.inside + Phase.waiting.inside = 1 := by
      simp only [Phase.inside] at token ⊢
      omega
    exact ⟨nextToken, kept.order, fun full => absurd full (drained_of_turn _ nextToken (Or.inl (Nat.succ_pos _))),
      fun _ => kept.drained empty⟩

theorem step_protocol (host : HostOrder) (chunks : List Chunk) (pipe : Pipe) (process : Process) (next : Pipe)
    (kept : pipe.Protocol host chunks) (taken : pipe.step host process = some next) : next.Protocol host chunks := by
  cases process with
  | producer => exact produce_protocol host chunks pipe next kept taken
  | consumer => exact consume_protocol host chunks pipe next kept taken

theorem run_protocol (host : HostOrder) (segment : Segment) (chunks : List Chunk) (schedule : List Process) (pipe : Pipe)
    (ran : Runs.run (Pipe.step host) (Pipe.start segment chunks) schedule = some pipe) : pipe.Protocol host chunks :=
  Runs.run_invariant (Pipe.step host) (Pipe.Protocol host chunks) (step_protocol host chunks)
    (Pipe.start segment chunks) pipe schedule (start_protocol host segment chunks) ran

theorem protocol_unread (host : HostOrder) (chunks : List Chunk) (pipe : Pipe) (kept : pipe.Protocol host chunks) :
    ∃ unread, pipe.written = pipe.read ++ unread ∧ unread.length ≤ 1 := by
  by_cases full : pipe.full
  · obtain ⟨chunk, tail, _⟩ := kept.loaded full
    exact ⟨[chunk], tail, le_rfl⟩
  · exact ⟨[], by simpa using kept.drained full, Nat.zero_le 1⟩

-- The comment's (1,1) does not happen, from whatever block and in whatever order the two are scheduled.
theorem semaphore_protocol (host : HostOrder) (segment : Segment) (chunks : List Chunk) (schedule : List Process)
    (pipe : Pipe) (ran : Runs.run (Pipe.step host) (Pipe.start segment chunks) schedule = some pipe) :
    pipe.rSem + pipe.wSem + pipe.producer.inside + pipe.consumer.inside = 1 ∧
      ¬ (pipe.producer = .copying ∧ pipe.consumer = .copying) ∧ ¬ (pipe.rSem = 1 ∧ pipe.wSem = 1) ∧
      pipe.read <+: pipe.written ∧ pipe.written <+: chunks ∧ pipe.written.length ≤ pipe.read.length + 1 := by
  have kept := run_protocol host segment chunks schedule pipe ran
  have token := kept.token
  obtain ⟨unread, tail, few⟩ := protocol_unread host chunks pipe kept
  refine ⟨token, ?_, by omega, ⟨unread, tail.symm⟩, ⟨pipe.pending, kept.order⟩, ?_⟩
  · rintro ⟨producer, consumer⟩
    simp only [producer, consumer, Phase.inside] at token
    omega
  · rw [tail, List.length_append]
    omega

theorem semaphore_protocol_second_write :
    ∃ pipe : Pipe, pipe.rSem + pipe.wSem + pipe.producer.inside + pipe.consumer.inside = 1 ∧ pipe.producer = .posting ∧
      pipe.read.map Chunk.data = [[7]] ∧ pipe.written.length ≤ pipe.read.length + 1 := by
  have ran : ∃ pipe, Runs.run (Pipe.step .little)
      (Pipe.start Segment.zeroed [⟨0, 2, [7], by decide⟩, ⟨1, 2, [8, 9], by decide⟩])
      [.producer, .producer, .producer, .consumer, .consumer, .consumer, .producer, .producer] = some pipe ∧
      pipe.producer = .posting ∧ pipe.read.map Chunk.data = [[7]] := ⟨_, rfl, rfl, rfl⟩
  obtain ⟨pipe, reached, phase, seen⟩ := ran
  obtain ⟨token, _, _, _, _, few⟩ := semaphore_protocol .little Segment.zeroed _ _ pipe reached
  exact ⟨pipe, token, phase, seen, few⟩

end Synergy
