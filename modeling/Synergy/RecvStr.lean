import Synergy.Tokens
import Synergy.Transfer

set_option autoImplicit false

namespace Synergy

-- An int where a size_t is wanted: a negative one is sign-extended to 64 bits.
def signedSize (value : Int32) : Nat := value.toInt64.toUInt64.toNat

-- No object is larger than PTRDIFF_MAX; short of that, malloc gives memory.
def malloc (size : Nat) : Option (List (Option UInt8)) := if size < 2 ^ 63 then some (Pieces.fresh size) else none

-- What bzero and zmq_recv do to the front of a block.
def overwrite (block : Option (List (Option UInt8))) (bytes : Bytes) : Except Stop (List (Option UInt8)) :=
  match block.bind fun block => Pieces.place block 0 bytes with
  | some filled => .ok filled
  | none => .error .undefined

-- p2pm_recv_str, with the block that it leaves in *str. zmq_recv returns the size of the frame, INT_MAX at most.
def p2pmRecvStrBlock (announced : UInt32) (frame : Bytes) : Except Stop (List (Option UInt8)) := do
  let stralen := signedSize announced.toInt32
  let str ← overwrite (malloc stralen) (List.replicate stralen 0)
  let str ← overwrite (some str) (frame.take stralen)
  let stralen := signedSize (Int32.ofNat (min frame.length (2 ^ 31 - 1)))
  -- with a size of 0 realloc frees the block and returns NULL, and the block is freed once more
  if stralen = 0 then throw .undefined
  return reallocate str stralen

theorem overwrite_front (block : List (Option UInt8)) (bytes : Bytes) (room : bytes.length ≤ block.length) :
    overwrite (some block) bytes = .ok (bytes.map some ++ block.drop bytes.length) := by
  rw [overwrite, Option.bind_some, Pieces.place_front block bytes room]

theorem cleared (size : Nat) (small : size < 2 ^ 63) :
    overwrite (malloc size) (List.replicate size 0) = .ok ((List.replicate size 0).map some) := by
  have room : (List.replicate size (0 : UInt8)).length = size := List.length_replicate
  rw [malloc, if_pos small, overwrite_front _ _ (by simp [Pieces.fresh]), room, Pieces.fresh, List.drop_replicate, Nat.sub_self,
    List.replicate_zero, List.append_nil]

theorem block_string_fresh (size : Nat) : blockString (Pieces.fresh size) = .error .undefined := by
  cases size <;> rfl

theorem block_string_written (chars : Bytes) (size : Nat) :
    blockString (chars.map some ++ Pieces.fresh size) = if 0 ∈ chars then .ok (cstr chars) else .error .undefined := by
  induction chars with
  | nil => exact (block_string_fresh size).trans (if_neg List.not_mem_nil).symm
  | cons c later ih =>
      rw [List.map_cons, List.cons_append, blockString, ih]
      by_cases zero : c = 0
      · rw [if_pos zero, if_pos (zero ▸ List.mem_cons_self), cstr, List.takeWhile_cons_of_neg (by simpa using zero)]
      · rw [if_neg zero, cstr_letter c later zero]
        by_cases ends : 0 ∈ later
        · rw [if_pos ends, if_pos (List.mem_cons_of_mem _ ends)]
          rfl
        · rw [if_neg ends, if_neg fun member => ends ((List.mem_cons.mp member).resolve_left fun same => zero same.symm)]
          rfl

theorem reallocate_written (chars : Bytes) (behind : List (Option UInt8)) (size : Nat) (room : chars.length ≤ size)
    (none_ : chars.length < size → behind = []) :
    reallocate (chars.map some ++ behind) size = chars.map some ++ Pieces.fresh (size - chars.length) := by
  have whole : (chars.map some).length = chars.length := List.length_map some
  by_cases more : chars.length < size
  · rw [none_ more, List.append_nil, reallocate, List.take_of_length_le (by omega), whole]
  · have same : size = (chars.map some).length := by omega
    rw [reallocate, same, List.take_left, List.length_append, whole, Nat.sub_self, Nat.sub_eq_zero_of_le (Nat.le_add_right _ _)]

theorem signed_size_bits (value : Int32) :
    signedSize value = value.toBitVec.toNat + if 2 ^ 31 ≤ value.toBitVec.toNat then 2 ^ 64 - 2 ^ 32 else 0 := by
  have bits : signedSize value = (value.toBitVec.signExtend 64).toNat := rfl
  have small := value.toBitVec.isLt
  rw [bits, BitVec.toNat_signExtend, BitVec.msb_eq_decide, BitVec.toNat_setWidth, Nat.mod_eq_of_lt (by omega)]
  simp

theorem size_small (announced : UInt32) (small : announced.toNat < 2 ^ 31) : signedSize announced.toInt32 = announced.toNat := by
  have bits : announced.toInt32.toBitVec.toNat = announced.toNat := rfl
  rw [signed_size_bits, bits, if_neg (by omega), Nat.add_zero]

theorem size_large (announced : UInt32) (large : 2 ^ 31 ≤ announced.toNat) : 2 ^ 63 ≤ signedSize announced.toInt32 := by
  have bits : announced.toInt32.toBitVec.toNat = announced.toNat := rfl
  rw [signed_size_bits, bits, if_pos large]
  omega

theorem size_of_frame (length : Nat) (small : length < 2 ^ 31) : signedSize (Int32.ofNat length) = length := by
  have bits : (Int32.ofNat length).toBitVec.toNat = length := Nat.mod_eq_of_lt (by omega)
  rw [signed_size_bits, bits, if_neg (by omega), Nat.add_zero]

theorem copied (size : Nat) (small : size < 2 ^ 63) (frame : Bytes) :
    (overwrite (malloc size) (List.replicate size 0) >>= fun str => overwrite (some str) (frame.take size)) =
      .ok ((frame.take size).map some ++ ((List.replicate size 0).map some).drop (frame.take size).length) := by
  rw [cleared size small]
  refine overwrite_front _ _ ?_
  rw [List.length_map, List.length_replicate, List.length_take]
  omega

-- Nothing of what bzero has cleared is left: a shorter frame takes the block with it, a longer one has written it all.
theorem recv_block (announced : UInt32) (frame : Bytes) (small : announced.toNat < 2 ^ 31) (some_ : frame ≠ []) :
    p2pmRecvStrBlock announced frame = .ok ((frame.take announced.toNat).map some ++
      Pieces.fresh (min frame.length (2 ^ 31 - 1) - (frame.take announced.toNat).length)) := by
  have length := List.length_pos_iff.mpr some_
  have taken : (frame.take announced.toNat).length = min announced.toNat frame.length := List.length_take
  have sized := size_of_frame (min frame.length (2 ^ 31 - 1)) (by omega)
  have filled := copied announced.toNat (by omega) frame
  unfold p2pmRecvStrBlock
  simp only [size_small announced small, sized]
  rw [← bind_assoc, filled]
  change (if _ then _ else _) = _
  rw [if_neg (by omega)]
  refine congrArg Except.ok (reallocate_written _ _ _ (by omega) fun longer => ?_)
  rw [List.drop_eq_nil_iff, List.length_map, List.length_replicate]
  omega

theorem recv_block_large (announced : UInt32) (frame : Bytes) (large : 2 ^ 31 ≤ announced.toNat) :
    p2pmRecvStrBlock announced frame = .error .undefined := by
  have huge := size_large announced large
  have refused : malloc (signedSize announced.toInt32) = none := if_neg (by omega)
  unfold p2pmRecvStrBlock
  simp only [refused]
  rfl

theorem recv_block_empty (announced : UInt32) (small : announced.toNat < 2 ^ 31) : p2pmRecvStrBlock announced [] = .error .undefined := by
  unfold p2pmRecvStrBlock
  simp only [size_small announced small, size_of_frame (min ([] : Bytes).length (2 ^ 31 - 1)) (by simp)]
  rw [← bind_assoc, copied announced.toNat (by omega) []]
  rfl

theorem recv_str_block (announced : UInt32) (frame : Bytes) :
    p2pmRecvStr announced frame = p2pmRecvStrBlock announced frame >>= blockString := by
  unfold p2pmRecvStr
  by_cases large : 2 ^ 31 ≤ announced.toNat
  · rw [if_pos (Or.inl large), recv_block_large announced frame large]
    rfl
  · by_cases empty : frame = []
    · rw [if_pos (Or.inr empty), empty, recv_block_empty announced (by omega)]
      rfl
    · rw [if_neg (not_or.mpr ⟨large, empty⟩), recv_block announced frame (by omega) empty]
      exact (block_string_written _ _).symm

-- The block that p2pm_recv_str leaves has a NUL in it, and what p2pm_send_str sends comes back.
structure ReceivesStrings (announced : UInt32) (frame : Bytes) : Prop where
  ends : ∀ block, p2pmRecvStrBlock announced frame = .ok block → some 0 ∈ block
  sent : ∀ (sender receiver : HostOrder) (str : Bytes), NulFree str →
    p2pmRecvUint32 receiver (p2pmSendStr sender str).1 = .ok announced → frame = (p2pmSendStr sender str).2 →
    (p2pmRecvStrBlock announced frame >>= blockString) = .ok str

-- Of what is announced as a size that an int can hold, some byte is a NUL; and no string was sent that is longer than that.
structure EndsInside (announced : UInt32) (frame : Bytes) : Prop where
  ends : announced.toNat < 2 ^ 31 → frame ≠ [] → 0 ∈ frame.take announced.toNat
  fits : ∀ str, NulFree str → announced = UInt32.ofNat (str.length + 1) → frame = str ++ [0] → str.length + 1 < 2 ^ 31

theorem received_inside (announced : UInt32) (str chars : Bytes) (clean : NulFree str)
    (received : p2pmRecvStr announced (str ++ [0]) = .ok chars) : str.length + 1 ≤ announced.toNat ∧ announced.toNat < 2 ^ 31 := by
  unfold p2pmRecvStr at received
  split at received
  · cases received
  · rename_i good
    split at received
    · rename_i ends
      refine ⟨?_, by omega⟩
      by_contra short
      rw [List.take_append_of_le_length (by omega)] at ends
      exact clean (List.mem_of_mem_take ends)
    · cases received

-- A string always comes terminated, and as it was sent, if and only if what is announced reaches a NUL.
theorem recv_str_ends_iff (announced : UInt32) (frame : Bytes) : ReceivesStrings announced frame ↔ EndsInside announced frame := by
  constructor
  · intro receives
    refine ⟨fun small some_ => ?_, fun str clean length same => ?_⟩
    · have found := receives.ends _ (recv_block announced frame small some_)
      exact (Pieces.mem_written 0 _ _).mp found
    · have back := receives.sent .big .big str clean (by rw [length]; exact recv_send_uint32 .big .big _) same
      rw [← recv_str_block, same] at back
      obtain ⟨inside, small⟩ := received_inside announced str str clean back
      omega
  · intro inside
    refine ⟨fun block received => ?_, fun sender receiver str clean length same => ?_⟩
    · by_cases large : 2 ^ 31 ≤ announced.toNat
      · rw [recv_block_large announced frame large] at received
        cases received
      · by_cases empty : frame = []
        · rw [empty, recv_block_empty announced (by omega)] at received
          cases received
        · rw [recv_block announced frame (by omega) empty] at received
          cases received
          exact (Pieces.mem_written 0 _ _).mpr (inside.ends (by omega) empty)
    · have is : announced = UInt32.ofNat (str.length + 1) := by
        rw [p2pmSendStr, recv_send_uint32] at length
        exact (Except.ok.inj length).symm
      rw [← recv_str_block, same, is]
      exact recv_send_str_short str clean (inside.fits str clean is same)

-- A byte that is no NUL, announced as one byte.
theorem letter_unterminated : ¬ ∀ announced frame, ReceivesStrings announced frame := by
  intro claim
  have received : p2pmRecvStrBlock 1 [65] = .ok [some 65] := by decide
  exact absurd ((claim 1 [65]).ends _ received) (by decide)

end Synergy
