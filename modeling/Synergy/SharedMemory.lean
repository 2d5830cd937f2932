import Synergy.Wire
import Synergy.Lib.Pieces
import Mathlib.Data.List.Forall2

set_option autoImplicit false

namespace Synergy

def maxBytes : Nat := 4000000

-- MAX_BYTES less an unsigned, two size_t and a pointer.
def maxlen : Nat := maxBytes - 4 - 8 * 2 - 8

-- The bytes of a chunk that write_shared_memory passes its assertion on.
structure Chunk where
  id : UInt32
  total : UInt64
  data : Bytes
  valid : 0 < data.length ∧ data.length ≤ maxBytes - 8 * 2 - 4
deriving DecidableEq

def chunkOf (data : Bytes) (id : UInt32) (total : UInt64) : Except Stop Chunk :=
  if valid : 0 < data.length ∧ data.length ≤ maxBytes - 8 * 2 - 4 then .ok ⟨id, total, data, valid⟩
  else .error .aborted

def chunkCount (len : Nat) : Nat :=
  let chunks := if len > maxlen then len / maxlen else 1
  if chunks * maxlen < len then chunks + 1 else chunks

-- The chunks send_item passes through the segment one after the other.
def sendItem (data : Bytes) : Except Stop (List Chunk) :=
  let chunks := chunkCount data.length
  (List.range chunks).mapM fun i =>
    let ustart := i * maxlen
    let ulen := if chunks = 1 then data.length else if i = chunks - 1 then data.length - maxlen * i else maxlen
    chunkOf ((data.drop ustart).take ulen) (UInt32.ofNat i) (UInt64.ofNat chunks)

-- memcpy to offset i * size_per_chunk of the block: out of its bounds it is undefined.
def placeChunk (block : List (Option UInt8)) (offset : Nat) (chunk : Chunk) : Except Stop (List (Option UInt8)) :=
  match Pieces.place block offset chunk.data with
  | some filled => .ok filled
  | none => .error .undefined

-- The loop from i to total_chunk - 2; left counts its remaining rounds.
def recvMiddle (sizePerChunk : Nat) : Nat → Nat → List (Option UInt8) → List Chunk →
    Except Stop (List (Option UInt8) × List Chunk)
  | 0, _, block, chunks => .ok (block, chunks)
  | _ + 1, _, _, [] => .error .blocked
  | left + 1, i, block, chunk :: chunks => do
      let filled ← placeChunk block (i * sizePerChunk) chunk
      recvMiddle sizePerChunk left (i + 1) filled chunks

-- The chunk after the loop, when there is more than one. The block then gets the size of what was read.
def recvLast (sizePerChunk totalChunk : Nat) (block : List (Option UInt8)) (chunks : List Chunk) :
    Except Stop (List (Option UInt8) × List Chunk) :=
  if totalChunk > 1 then
    match chunks with
    | [] => .error .blocked
    | last :: chunks => do
        let filled ← placeChunk block ((totalChunk - 1) * sizePerChunk) last
        return (filled.take ((totalChunk - 1) * sizePerChunk + last.data.length), chunks)
  else .ok (block, chunks)

-- recv_item on the chunks that come through the segment, and the chunks it leaves. A hole in the
-- block it returns is indeterminate. With total_chunk 0 the block has size 0 and the first memcpy overruns it.
def recvItem : List Chunk → Except Stop (Bytes × List Chunk)
  | [] => .error .blocked
  | first :: chunks => do
      let sizePerChunk := first.data.length
      let totalChunk := first.total.toNat
      let block ← placeChunk (Pieces.fresh (totalChunk * sizePerChunk)) 0 first
      let (block, chunks) ← recvMiddle sizePerChunk (totalChunk - 2) 1 block chunks
      let (block, chunks) ← recvLast sizePerChunk totalChunk block chunks
      match Pieces.written block with
      | some data => return (data, chunks)
      | none => throw .undefined

theorem maxlen_pos : 0 < maxlen := by decide

theorem chunk_count_pos (len : Nat) : 0 < chunkCount len := by
  have unit := maxlen_pos
  unfold chunkCount
  by_cases big : len > maxlen
  · have quotient : 0 < len / maxlen := Nat.div_pos (by omega) unit
    simp only [big, if_true]
    split <;> omega
  · simp only [big, if_false]
    split <;> omega

theorem chunk_count_covers (len : Nat) : len ≤ chunkCount len * maxlen := by
  have division := Nat.div_add_mod len maxlen
  have remainder := Nat.mod_lt len maxlen_pos
  unfold chunkCount
  by_cases big : len > maxlen
  · simp only [big, if_true]
    split
    · rw [Nat.succ_mul, Nat.mul_comm]
      omega
    · omega
  · simp only [big, if_false]
    split <;> omega

theorem chunk_count_tight (len : Nat) (nonempty : 0 < len) : (chunkCount len - 1) * maxlen < len := by
  have division := Nat.div_add_mod len maxlen
  have unit := maxlen_pos
  unfold chunkCount
  by_cases big : len > maxlen
  · have quotient : 0 < len / maxlen := Nat.div_pos (by omega) unit
    have below : (len / maxlen - 1) * maxlen + maxlen = len / maxlen * maxlen := by
      rw [← Nat.succ_mul]
      congr 1
      omega
    have commute := Nat.mul_comm (len / maxlen) maxlen
    simp only [big, if_true]
    split
    · rename_i short
      simpa using short
    · omega
  · simp only [big, if_false]
    have one : ¬ 1 * maxlen < len := by omega
    rw [if_neg one]
    simpa using nonempty

theorem recv_middle_frame (sizePerChunk left i : Nat) (block final : List (Option UInt8)) (chunks rest : List Chunk)
    (read : recvMiddle sizePerChunk left i block chunks = .ok (final, rest)) :
    ∃ used, chunks = used ++ rest ∧ used.length = left ∧
      (∀ more, recvMiddle sizePerChunk left i block (used ++ more) = .ok (final, more)) ∧
      ∀ k < left, recvMiddle sizePerChunk left i block (used.take k) = .error .blocked := by
  induction left generalizing i block chunks with
  | zero =>
      simp only [recvMiddle, Except.ok.injEq, Prod.mk.injEq] at read
      obtain ⟨sameBlock, sameRest⟩ := read
      exact ⟨[], by simp [sameRest], rfl, fun more => by simp [recvMiddle, sameBlock], by simp⟩
  | succ left ih =>
      cases chunks with
      | nil => simp [recvMiddle] at read
      | cons chunk later =>
          cases filled : placeChunk block (i * sizePerChunk) chunk with
          | error stop => simp [recvMiddle, filled, bind, Except.bind] at read
          | ok next =>
              simp only [recvMiddle, filled, bind, Except.bind] at read
              obtain ⟨used, split, count, frame, wait⟩ := ih (i + 1) next later read
              refine ⟨chunk :: used, by simp [split], by simp [count], fun more => ?_, fun k short => ?_⟩
              · simpa only [List.cons_append, recvMiddle, filled, bind, Except.bind] using frame more
              · cases k with
                | zero => rfl
                | succ k =>
                    simpa only [List.take_succ_cons, recvMiddle, filled, bind, Except.bind] using wait k (by omega)

theorem recv_last_frame (sizePerChunk totalChunk : Nat) (block final : List (Option UInt8)) (chunks rest : List Chunk)
    (read : recvLast sizePerChunk totalChunk block chunks = .ok (final, rest)) :
    ∃ used, chunks = used ++ rest ∧ used.length = (if totalChunk > 1 then 1 else 0) ∧
      (∀ more, recvLast sizePerChunk totalChunk block (used ++ more) = .ok (final, more)) ∧
      (totalChunk > 1 → recvLast sizePerChunk totalChunk block [] = .error .blocked) := by
  by_cases several : totalChunk > 1
  · cases chunks with
    | nil => simp [recvLast, several] at read
    | cons last later =>
        cases filled : placeChunk block ((totalChunk - 1) * sizePerChunk) last with
        | error stop => simp [recvLast, several, filled, bind, Except.bind] at read
        | ok next =>
            simp only [recvLast, several, if_true, filled, bind, Except.bind, pure, Except.pure, Except.ok.injEq,
              Prod.mk.injEq] at read
            obtain ⟨sameBlock, sameRest⟩ := read
            refine ⟨[last], by simp [sameRest], by simp [several], fun more => ?_, fun _ => by simp [recvLast, several]⟩
            simp [recvLast, several, filled, bind, Except.bind, pure, Except.pure, sameBlock]
  · simp only [recvLast, several, if_false, Except.ok.injEq, Prod.mk.injEq] at read
    obtain ⟨sameBlock, sameRest⟩ := read
    exact ⟨[], by simp [sameRest], by simp [several], fun more => by simp [recvLast, several, sameBlock],
      fun large => absurd large several⟩

theorem recv_item_frame (data : Bytes) (chunks rest : List Chunk) (read : recvItem chunks = .ok (data, rest)) :
    ∃ used, chunks = used ++ rest ∧ used ≠ [] ∧ (∀ more, recvItem (used ++ more) = .ok (data, more)) ∧
      ∀ k < used.length, recvItem (used.take k) = .error .blocked := by
  cases chunks with
  | nil => simp [recvItem] at read
  | cons first chunks =>
      cases placed : placeChunk (Pieces.fresh (first.total.toNat * first.data.length)) 0 first with
      | error stop => simp [recvItem, placed, bind, Except.bind] at read
      | ok opened =>
          cases looped : recvMiddle first.data.length (first.total.toNat - 2) 1 opened chunks with
          | error stop => simp [recvItem, placed, looped, bind, Except.bind] at read
          | ok middle =>
              obtain ⟨block, later⟩ := middle
              cases closed : recvLast first.data.length first.total.toNat block later with
              | error stop => simp [recvItem, placed, looped, closed, bind, Except.bind] at read
              | ok ended =>
                  obtain ⟨final, left⟩ := ended
                  cases whole : Pieces.written final with
                  | none =>
                      simp [recvItem, placed, looped, closed, whole, bind, Except.bind, throw, throwThe,
                        MonadExceptOf.throw] at read
                  | some bytes =>
                      simp only [recvItem, placed, looped, closed, whole, bind, Except.bind, pure, Except.pure,
                        Except.ok.injEq, Prod.mk.injEq] at read
                      obtain ⟨sameData, sameRest⟩ := read
                      obtain ⟨used1, split1, count1, frame1, wait1⟩ :=
                        recv_middle_frame _ _ _ _ _ _ _ looped
                      obtain ⟨used2, split2, count2, frame2, wait2⟩ := recv_last_frame _ _ _ _ _ _ closed
                      refine ⟨first :: (used1 ++ used2), by simp [split1, split2, sameRest], by simp, fun more => ?_,
                        fun k short => ?_⟩
                      · simp [recvItem, placed, frame1, frame2, whole, sameData, bind, Except.bind, pure, Except.pure]
                      · cases k with
                        | zero => rfl
                        | succ k =>
                            by_cases early : k < used1.length
                            · have cut : (used1 ++ used2).take k = used1.take k :=
                                List.take_append_of_le_length (by omega)
                              simp [recvItem, placed, cut, wait1 k (by omega), bind, Except.bind]
                            · have several : first.total.toNat > 1 := by
                                by_contra single
                                simp [count2, single] at short
                                omega
                              have cut : (used1 ++ used2).take k = used1 := by
                                rw [List.take_append, List.take_of_length_le (by omega)]
                                simp [count2, several] at short ⊢
                                omega
                              have start := frame1 []
                              rw [List.append_nil] at start
                              simp [recvItem, placed, cut, start, wait2 several, bind, Except.bind]

theorem map_m_forall₂ {α β : Type} (f : α → Except Stop β) (relate : α → β → Prop) (list : List α)
    (each : ∀ a ∈ list, ∃ b, f a = .ok b ∧ relate a b) :
    ∃ results, list.mapM f = .ok results ∧ List.Forall₂ relate list results := by
  induction list with
  | nil => exact ⟨[], rfl, List.Forall₂.nil⟩
  | cons a rest ih =>
      obtain ⟨b, done, related⟩ := each a (by simp)
      obtain ⟨results, mapped, all⟩ := ih fun other member => each other (by simp [member])
      refine ⟨b :: results, ?_, List.Forall₂.cons related all⟩
      simp [List.mapM_cons, done, mapped, bind, Except.bind, pure, Except.pure]

-- Chunk number i of an item cut into pieces of the given size.
structure IsChunk (size count : Nat) (data : Bytes) (i : Nat) (chunk : Chunk) : Prop where
  data : chunk.data = Pieces.piece size i data
  total : chunk.total = UInt64.ofNat count
  id : chunk.id = UInt32.ofNat i

theorem send_item_chunks (data : Bytes) (nonempty : data ≠ []) :
    ∃ chunks, sendItem data = .ok chunks ∧
      List.Forall₂ (IsChunk maxlen (chunkCount data.length) data) (List.range (chunkCount data.length)) chunks := by
  have positive : 0 < data.length := List.length_pos_iff.mpr nonempty
  have covers := chunk_count_covers data.length
  have tight := chunk_count_tight data.length positive
  apply map_m_forall₂
  intro i member
  have inside : i < chunkCount data.length := List.mem_range.mp member
  have before : i * maxlen ≤ (chunkCount data.length - 1) * maxlen := Nat.mul_le_mul_right _ (by omega)
  have commute : maxlen * i = i * maxlen := Nat.mul_comm _ _
  have cut : (data.drop (i * maxlen)).take (if chunkCount data.length = 1 then data.length else
      if i = chunkCount data.length - 1 then data.length - maxlen * i else maxlen) = Pieces.piece maxlen i data := by
    split
    · rename_i single
      have first : i = 0 := by omega
      rw [single, Nat.one_mul] at covers
      simp [Pieces.piece, first, List.take_of_length_le covers]
    · split
      · rename_i several last
        have split : chunkCount data.length * maxlen = i * maxlen + maxlen := by
          rw [← Nat.succ_mul]
          congr 1
          omega
        rw [Pieces.piece, List.take_of_length_le (by simp; omega), List.take_of_length_le (by simp; omega)]
      · rfl
  have unit : maxlen ≤ maxBytes - 8 * 2 - 4 := by decide
  have left : 0 < data.length - i * maxlen := by omega
  have valid : 0 < (Pieces.piece maxlen i data).length ∧ (Pieces.piece maxlen i data).length ≤ maxBytes - 8 * 2 - 4 := by
    rw [Pieces.piece_length]
    exact ⟨Nat.lt_min.mpr ⟨maxlen_pos, left⟩, (Nat.min_le_left _ _).trans unit⟩
  refine ⟨⟨UInt32.ofNat i, UInt64.ofNat (chunkCount data.length), Pieces.piece maxlen i data, valid⟩, ?_, ⟨rfl, rfl, rfl⟩⟩
  simp only [cut]
  rw [chunkOf, dif_pos valid]

theorem recv_middle_pieces (data : Bytes) (size count i left room : Nat) (chunks rest : List Chunk)
    (inside : (i + left) * size ≤ data.length)
    (pieces : List.Forall₂ (IsChunk size count data) (List.range' i left) chunks) :
    recvMiddle size left i ((data.take (i * size)).map some ++ Pieces.fresh (left * size + room)) (chunks ++ rest) =
      .ok ((data.take ((i + left) * size)).map some ++ Pieces.fresh room, rest) := by
  induction left generalizing i chunks with
  | zero =>
      cases pieces
      simp [recvMiddle]
  | succ left ih =>
      cases pieces with
      | @cons _ chunk _ later here others =>
          have bound : (i + 1) * size ≤ (i + (left + 1)) * size := Nat.mul_le_mul_right _ (by omega)
          have split : (i + 1) * size = i * size + size := Nat.succ_mul i size
          have spare : (left + 1) * size + room = size + (left * size + room) := by
            rw [Nat.succ_mul]
            omega
          have full : chunk.data.length = size := by
            rw [here.data]
            exact Pieces.piece_full size i data (by omega)
          have done : (data.take (i * size)).length = i * size := by
            rw [List.length_take]
            omega
          have placed : placeChunk ((data.take (i * size)).map some ++ Pieces.fresh ((left + 1) * size + room)) (i * size)
              chunk = .ok ((data.take ((i + 1) * size)).map some ++ Pieces.fresh (left * size + room)) := by
            have next := Pieces.place_next (data.take (i * size)) chunk.data ((left + 1) * size + room) (by omega)
            rw [done] at next
            rw [placeChunk, next, full, here.data, Pieces.take_piece]
            simp only [spare, Nat.add_sub_cancel_left]
          simp only [List.cons_append, recvMiddle, placed, bind, Except.bind]
          have shift : i + (left + 1) = i + 1 + left := by omega
          rw [shift]
          exact ih (i + 1) later (by rw [← shift]; exact inside) others

theorem place_first (chunk : Chunk) (size : Nat) (fits : chunk.data.length ≤ size) :
    placeChunk (Pieces.fresh size) 0 chunk =
      .ok (chunk.data.map some ++ Pieces.fresh (size - chunk.data.length)) := by
  have next := Pieces.place_next [] chunk.data size fits
  simp only [List.map_nil, List.nil_append, List.length_nil] at next
  rw [placeChunk, next]

theorem recv_single (data : Bytes) (first : Chunk) (size : Nat) (short : data.length ≤ size)
    (here : IsChunk size 1 data 0 first) : recvItem [first] = .ok (data, []) := by
  have total : first.total.toNat = 1 := by rw [here.total]; rfl
  have whole : first.data = data := by
    rw [here.data]
    simp [Pieces.piece, List.take_of_length_le short]
  have placed := place_first first data.length (by rw [whole])
  have noRoom : Pieces.fresh (α := UInt8) 0 = [] := rfl
  simp only [whole, Nat.sub_self, noRoom, List.append_nil] at placed
  simp [recvItem, recvMiddle, recvLast, total, whole, placed, bind, Except.bind, pure, Except.pure]

theorem recv_several (data : Bytes) (first last : Chunk) (middle : List Chunk) (size count : Nat)
    (exact : (UInt64.ofNat (count + 2)).toNat = count + 2) (covers : data.length ≤ (count + 2) * size)
    (tight : (count + 1) * size < data.length) (here : IsChunk size (count + 2) data 0 first)
    (between : List.Forall₂ (IsChunk size (count + 2) data) (List.range' 1 count) middle)
    (ending : IsChunk size (count + 2) data (count + 1) last) :
    recvItem (first :: (middle ++ [last])) = .ok (data, []) := by
  have step1 : (count + 1) * size = count * size + size := Nat.succ_mul _ _
  have step2 : (count + 2) * size = (count + 1) * size + size := Nat.succ_mul _ _
  have total : first.total.toNat = count + 2 := by rw [here.total, exact]
  have full : first.data.length = size := by
    rw [here.data]
    exact Pieces.piece_full size 0 data (by omega)
  have opening : first.data = data.take (1 * size) := by
    rw [here.data]
    simp [Pieces.piece]
  have placed := place_first first ((count + 2) * size) (by omega)
  have room : (count + 2) * size - first.data.length = count * size + size := by omega
  rw [room, opening] at placed
  have looped := recv_middle_pieces data size (count + 2) 1 count size middle [last] (by rw [Nat.add_comm]; omega) between
  have lastSize : last.data.length = data.length - (count + 1) * size := by
    rw [ending.data, Pieces.piece_length]
    omega
  have done : (data.take ((1 + count) * size)).length = (count + 1) * size := by
    rw [List.length_take, Nat.add_comm 1 count]
    omega
  have next := Pieces.place_next (data.take ((1 + count) * size)) last.data size (by omega)
  have joined : data.take ((1 + count) * size) ++ last.data = data := by
    rw [ending.data, Nat.add_comm 1 count, Pieces.take_piece, List.take_of_length_le covers]
  rw [done, joined] at next
  have closed : placeChunk ((data.take ((1 + count) * size)).map some ++ Pieces.fresh size) ((count + 1) * size)
      last = .ok (data.map some ++ Pieces.fresh (size - last.data.length)) := by
    rw [placeChunk, next]
  have whole : (count + 1) * size + last.data.length = (data.map some).length := by
    rw [List.length_map]
    omega
  have rounds : count + 2 - 2 = count := by omega
  have several : count + 2 > 1 := by omega
  have lastIndex : count + 2 - 1 = count + 1 := by omega
  simp only [recvItem, total, full, placed, rounds, looped, recvLast, several, lastIndex, closed, if_true, whole,
    List.take_left, Pieces.written_map_some, bind, Except.bind, pure, Except.pure]

theorem recv_pieces (data : Bytes) (size count : Nat) (chunks : List Chunk) (positive : 0 < count)
    (exact : (UInt64.ofNat count).toNat = count) (covers : data.length ≤ count * size)
    (tight : (count - 1) * size < data.length)
    (pieces : List.Forall₂ (IsChunk size count data) (List.range count) chunks) : recvItem chunks = .ok (data, []) := by
  obtain ⟨rounds, count⟩ : ∃ rounds, count = rounds + 1 := ⟨count - 1, by omega⟩
  subst count
  rw [List.range_eq_range', List.range'_succ] at pieces
  cases pieces with
  | @cons _ first _ others here between =>
      cases rounds with
      | zero =>
          cases between
          exact recv_single data first size (by omega) here
      | succ rounds =>
          rw [List.range'_concat] at between
          have ends := List.rel_reverse between
          simp only [List.reverse_append, List.reverse_cons, List.reverse_nil, List.nil_append, List.singleton_append] at ends
          obtain ⟨last, middle, ending, before, split⟩ := List.forall₂_cons_left_iff.mp ends
          have order := List.rel_reverse before
          rw [List.reverse_reverse] at order
          have lastIndex : 0 + 1 + 1 * rounds = rounds + 1 := by omega
          have joined : others = middle.reverse ++ [last] := by
            rw [← List.reverse_reverse others, split, List.reverse_cons]
          rw [joined]
          exact recv_several data first last middle.reverse size rounds exact covers tight here order (lastIndex ▸ ending)

theorem recv_send_item (data : Bytes) (nonempty : data ≠ []) (bounded : data.length < 2 ^ 63) :
    ∃ chunks, sendItem data = .ok chunks ∧ recvItem chunks = .ok (data, []) := by
  obtain ⟨chunks, sent, pieces⟩ := send_item_chunks data nonempty
  have positive : 0 < data.length := List.length_pos_iff.mpr nonempty
  have tight := chunk_count_tight data.length positive
  have few : chunkCount data.length - 1 < data.length :=
    lt_of_le_of_lt (Nat.le_mul_of_pos_right _ maxlen_pos) tight
  have exact : (UInt64.ofNat (chunkCount data.length)).toNat = chunkCount data.length := by
    rw [UInt64.toNat_ofNat']
    omega
  exact ⟨chunks, sent, recv_pieces data maxlen _ chunks (chunk_count_pos _) exact (chunk_count_covers _) tight pieces⟩

end Synergy
