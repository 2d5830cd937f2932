import Synergy.Wire
import Synergy.Lib.Pieces

set_option autoImplicit false

namespace Synergy

-- P2PM_MAX_ID_LEN.
def maxIdLen : Nat := 256

-- count << P2PM_MAX_ID_LEN_SHFT, in bytes.
def shiftId (count : UInt32) : UInt32 := count <<< 8

-- What successor lists need of p2pm_node_info_t.
structure NodeInfo where
  successorList : Bytes
  r : UInt32
  rMax : UInt32

-- The address at successor_list + P2PM_MAX_ID_LEN * i.
def NodeInfo.slot (self : NodeInfo) (i : Nat) : Bytes := cstr (Pieces.piece maxIdLen i self.successorList)

-- The for loop of p2pm_ni_copy_successor_list; i counts bytes.
def copyLoop (source : Bytes) : Nat → Nat → Bytes → Except Stop Bytes
  | 0, _, list => .ok list
  | rounds + 1, i, list =>
      if list.length < i + maxIdLen then .error (.outside (i / maxIdLen))
      else if source.length < i then .error .undefined
      else
        copyLoop source rounds (i + maxIdLen)
          (list.take i ++ (source.drop (i - maxIdLen)).take maxIdLen ++ list.drop (i + maxIdLen))

-- The loop starts behind the first address and ends before (n_r + 1) << P2PM_MAX_ID_LEN_SHFT. No caller looks at the result code.
def p2pmNiCopySuccessorList (self : NodeInfo) (list : Bytes) (nR : UInt32) : Except Stop NodeInfo :=
  if 0 ∉ list then .error .undefined
  else if (cstr list).length + 1 > maxIdLen then .ok self
  else do
    let (r, nR) := if nR + 1 > self.rMax then (self.rMax, self.rMax - 1) else (nR + 1, nR)
    let copied ← copyLoop list (((shiftId (nR + 1)).toNat - 1) / maxIdLen) maxIdLen self.successorList
    return { self with successorList := copied, r := r }

theorem copy_loop_result (source : Bytes) (rounds i : Nat) (list : Bytes) (first : maxIdLen ≤ i)
    (room : i + rounds * maxIdLen ≤ list.length) (enough : i - maxIdLen + rounds * maxIdLen ≤ source.length) :
    copyLoop source rounds i list =
      .ok (list.take i ++ (source.drop (i - maxIdLen)).take (rounds * maxIdLen) ++ list.drop (i + rounds * maxIdLen)) := by
  induction rounds generalizing i list with
  | zero => simp [copyLoop]
  | succ rounds ih =>
      rw [Nat.succ_mul] at room enough
      have inside : ¬ list.length < i + maxIdLen := by omega
      have given : ¬ source.length < i := by omega
      have piece : ((source.drop (i - maxIdLen)).take maxIdLen).length = maxIdLen := by
        rw [List.length_take, List.length_drop]
        omega
      have front : (list.take i ++ (source.drop (i - maxIdLen)).take maxIdLen).length = i + maxIdLen := by
        rw [List.length_append, List.length_take, piece]
        omega
      have size : (list.take i ++ (source.drop (i - maxIdLen)).take maxIdLen ++ list.drop (i + maxIdLen)).length = list.length := by
        rw [List.length_append, front, List.length_drop]
        omega
      rw [copyLoop, if_neg inside, if_neg given, ih _ _ (by omega) (by omega) (by omega)]
      have behind : (list.take i ++ (source.drop (i - maxIdLen)).take maxIdLen ++ list.drop (i + maxIdLen)).drop
          (i + maxIdLen + rounds * maxIdLen) = list.drop (i + (rounds + 1) * maxIdLen) := by
        have split : i + (rounds + 1) * maxIdLen = i + maxIdLen + rounds * maxIdLen := by ring
        rw [split, ← List.drop_drop (i := rounds * maxIdLen), List.drop_left' front, List.drop_drop]
      have middle : (source.drop (i - maxIdLen)).take ((rounds + 1) * maxIdLen) =
          (source.drop (i - maxIdLen)).take maxIdLen ++ (source.drop i).take (rounds * maxIdLen) := by
        have split : (rounds + 1) * maxIdLen = maxIdLen + rounds * maxIdLen := by ring
        have next : i - maxIdLen + maxIdLen = i := by omega
        rw [split, List.take_add, List.drop_drop, next]
      rw [behind, middle, List.take_append_of_le_length (by omega), List.take_of_length_le (by omega), Nat.add_sub_cancel]
      simp only [List.append_assoc]

theorem shift_id_blocks (count : UInt32) : (shiftId count).toNat = count.toNat % 2 ^ 24 * maxIdLen := by
  have size : maxIdLen = 2 ^ 8 := by decide
  have eight : (8 : UInt32).toNat % 32 = 8 := by decide
  have word : (2 : Nat) ^ 32 = 2 ^ 24 * 2 ^ 8 := by decide
  rw [shiftId, UInt32.toNat_shiftLeft, eight, size, Nat.shiftLeft_eq, word, Nat.mul_mod_mul_right]

theorem shift_id_bound (count : UInt32) : (shiftId count).toNat ≤ count.toNat * maxIdLen := by
  rw [shift_id_blocks]
  exact Nat.mul_le_mul_right _ (Nat.mod_le _ _)

theorem shift_id_bytes (count : UInt32) (small : count.toNat < 2 ^ 24) : (shiftId count).toNat = count.toNat * maxIdLen := by
  have size : maxIdLen = 2 ^ 8 := by decide
  have eight : (8 : UInt32).toNat % 32 = 8 := by decide
  rw [shiftId, UInt32.toNat_shiftLeft, eight, size, Nat.shiftLeft_eq]
  exact Nat.mod_eq_of_lt (by omega)

theorem rounds_of_blocks (count : Nat) (size : Nat) (positive : 0 < count) (room : 0 < size) :
    (count * size - 1) / size = count - 1 := by
  obtain ⟨rest, same⟩ : ∃ rest, count = rest + 1 := ⟨count - 1, by omega⟩
  subst same
  rw [Nat.succ_mul, Nat.add_sub_assoc (by omega), Nat.add_comm, Nat.add_mul_div_right _ _ room,
    Nat.div_eq_of_lt (by omega), Nat.zero_add, Nat.add_sub_cancel]

-- The first address of a list that has one is all that PSTRLEN sees.
theorem first_address (list : Bytes) (size : Nat) (room : size ≤ list.length)
    (short : (cstr (Pieces.piece size 0 list)).length < size) : 0 ∈ list ∧ cstr list = cstr (Pieces.piece size 0 list) := by
  have front : Pieces.piece size 0 list = list.take size := by rw [Pieces.piece, Nat.zero_mul, List.drop_zero]
  rw [front] at short ⊢
  have cut : ¬ ((list.take size).takeWhile (· ≠ 0)).length = (list.take size).length := by
    rw [List.length_take, Nat.min_eq_left room]
    exact Nat.ne_of_lt short
  constructor
  · by_contra missing
    have clean : NulFree (list.take size) := fun member => missing (List.mem_of_mem_take member)
    exact cut (congrArg List.length ((cstr_eq_self _).mpr clean))
  · have whole : cstr (list.take size ++ list.drop size) = cstr (list.take size) := by
      rw [cstr, List.takeWhile_append, if_neg cut, cstr]
    rwa [List.take_append_drop] at whole

-- old with the slots from 1 to r - 1 taken from list.
def spliced (old list : Bytes) (r : Nat) : Bytes :=
  old.take maxIdLen ++ list.take ((r - 1) * maxIdLen) ++ old.drop (r * maxIdLen)

section

variable (old list : Bytes) (r : Nat) (positive : 1 ≤ r) (room : r * maxIdLen ≤ old.length) (given : (r - 1) * maxIdLen ≤ list.length)

include positive room given

theorem spliced_length : (spliced old list r).length = old.length := by
  have whole : (list.take ((r - 1) * maxIdLen)).length = (r - 1) * maxIdLen := List.length_take_of_le given
  have sum : 1 + (r - 1) = r := by omega
  have length := Pieces.splice_length maxIdLen 1 (r - 1) old _ (sum.symm ▸ room) whole
  rwa [sum, Nat.one_mul] at length

theorem spliced_slot (k : Nat) : Pieces.piece maxIdLen k (spliced old list r) =
    if 1 ≤ k ∧ k < r then Pieces.piece maxIdLen (k - 1) list else Pieces.piece maxIdLen k old := by
  have whole : (list.take ((r - 1) * maxIdLen)).length = (r - 1) * maxIdLen := List.length_take_of_le given
  have sum : 1 + (r - 1) = r := by omega
  have slot := Pieces.piece_spliced maxIdLen 1 (r - 1) k old _ (sum.symm ▸ room) whole
  rw [sum, Nat.one_mul] at slot
  rw [spliced, slot]
  split
  · rename_i within
    exact Pieces.piece_of_take _ _ _ _ (Nat.mul_le_mul_right _ (by omega))
  · rfl

end

-- Both sides of the clamping come to the smaller of nR + 1 and rMax.
theorem copy_spliced (self : NodeInfo) (list : Bytes) (nR : UInt32) (most : 1 ≤ self.rMax.toNat)
    (bounded : self.rMax.toNat < 2 ^ 24) (unwrapped : nR.toNat + 1 < 2 ^ 32)
    (room : self.rMax.toNat * maxIdLen ≤ self.successorList.length)
    (enough : max 1 (min nR.toNat (self.rMax.toNat - 1)) * maxIdLen ≤ list.length)
    (short : (cstr (Pieces.piece maxIdLen 0 list)).length < maxIdLen) :
    ∃ r : UInt32, r.toNat = min (nR.toNat + 1) self.rMax.toNat ∧
      p2pmNiCopySuccessorList self list nR =
        .ok { self with successorList := spliced self.successorList list r.toNat, r := r } := by
  have one : 1 * maxIdLen ≤ max 1 (min nR.toNat (self.rMax.toNat - 1)) * maxIdLen := Nat.mul_le_mul_right _ (Nat.le_max_left _ _)
  obtain ⟨ends, address⟩ := first_address list maxIdLen (by omega) short
  have fits : ¬ (cstr list).length + 1 > maxIdLen := by rw [address]; omega
  have more : (nR + 1).toNat = nR.toNat + 1 := by
    rw [UInt32.toNat_add, show (1 : UInt32).toNat = 1 from rfl]
    omega
  obtain ⟨r, last, chosen, count, next⟩ : ∃ r last, (if nR + 1 > self.rMax then (self.rMax, self.rMax - 1) else (nR + 1, nR)) = (r, last) ∧
      r.toNat = min (nR.toNat + 1) self.rMax.toNat ∧ last + 1 = r := by
    by_cases full : nR + 1 > self.rMax
    · have above := UInt32.lt_iff_toNat_lt.mp full
      exact ⟨_, _, if_pos full, by omega, UInt32.sub_add_cancel _ _⟩
    · have below : ¬ self.rMax.toNat < (nR + 1).toNat := fun above => full (UInt32.lt_iff_toNat_lt.mpr above)
      exact ⟨_, _, if_neg full, by omega, rfl⟩
  have rounds : ((shiftId (last + 1)).toNat - 1) / maxIdLen = r.toNat - 1 := by
    rw [next, shift_id_bytes r (by omega)]
    exact rounds_of_blocks r.toNat maxIdLen (by omega) (by decide)
  have whole : maxIdLen + (r.toNat - 1) * maxIdLen = r.toNat * maxIdLen := by
    rw [Nat.add_comm, ← Nat.succ_mul]
    congr 1
    omega
  have inside : r.toNat * maxIdLen ≤ self.rMax.toNat * maxIdLen := Nat.mul_le_mul_right _ (by omega)
  have available : (r.toNat - 1) * maxIdLen ≤ max 1 (min nR.toNat (self.rMax.toNat - 1)) * maxIdLen := Nat.mul_le_mul_right _ (by omega)
  have looped := copy_loop_result list (r.toNat - 1) maxIdLen self.successorList (Nat.le_refl _) (by omega) (by omega)
  rw [Nat.sub_self, List.drop_zero, whole] at looped
  refine ⟨r, count, ?_⟩
  simp only [p2pmNiCopySuccessorList, ends, not_true_eq_false, if_false, fits, chosen, rounds, looped, bind, Except.bind, pure,
    Except.pure, spliced]

theorem copy_successor_list (self : NodeInfo) (list : Bytes) (nR : UInt32) (bounded : self.rMax.toNat < 2 ^ 24)
    (size : self.successorList.length = self.rMax.toNat * maxIdLen) (positive : 1 ≤ nR.toNat) (inside : nR.toNat ≤ self.rMax.toNat)
    (listSize : list.length = nR.toNat * maxIdLen) (short : (cstr (Pieces.piece maxIdLen 0 list)).length < maxIdLen) :
    ∃ copied, p2pmNiCopySuccessorList self list nR = .ok copied ∧ copied.rMax = self.rMax ∧
      copied.successorList.length = self.successorList.length ∧ copied.r.toNat = min (nR.toNat + 1) self.rMax.toNat ∧
      copied.slot 0 = self.slot 0 ∧
      ∀ k, k + 1 < copied.r.toNat → copied.slot (k + 1) = cstr (Pieces.piece maxIdLen k list) := by
  have given : max 1 (min nR.toNat (self.rMax.toNat - 1)) * maxIdLen ≤ nR.toNat * maxIdLen := Nat.mul_le_mul_right _ (by omega)
  obtain ⟨r, count, done⟩ := copy_spliced self list nR (by omega) bounded (by omega) (by omega) (by omega) short
  have room : r.toNat * maxIdLen ≤ self.successorList.length := by
    rw [size]
    exact Nat.mul_le_mul_right _ (by omega)
  have available : (r.toNat - 1) * maxIdLen ≤ list.length := by
    rw [listSize]
    exact Nat.mul_le_mul_right _ (by omega)
  have slots := spliced_slot self.successorList list r.toNat (by omega) room available
  refine ⟨_, done, rfl, spliced_length _ _ _ (by omega) room available, count, ?_, ?_⟩
  · rw [NodeInfo.slot, slots, if_neg (by omega), NodeInfo.slot]
  · intro k within
    rw [NodeInfo.slot, slots, if_pos ⟨by omega, within⟩, Nat.add_sub_cancel]

end Synergy
