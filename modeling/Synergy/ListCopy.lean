import Synergy.P2pm

set_option autoImplicit false

namespace Synergy

-- p2pm_ni_copy_successor_list on a whole p2pm_node_info_t.
def P2pmNodeInfo.copySuccessorList (self : P2pmNodeInfo) (list : Bytes) (nR : UInt32) : Except Stop P2pmNodeInfo := do
  let copied ← p2pmNiCopySuccessorList self.toNodeInfo list nR
  return { self with toNodeInfo := copied }

-- A list to copy slots from. Its first address is looked at even when no slot is copied.
structure Copyable (slots : Nat) (list : Bytes) : Prop where
  enough : max 1 slots * maxIdLen ≤ list.length
  short : (cstr (Pieces.piece maxIdLen 0 list)).length < maxIdLen

structure ListCopied (before : P2pmNodeInfo) (list : Bytes) (nR : UInt32) (after : P2pmNodeInfo) : Prop where
  count : after.r.toNat = min (nR.toNat + 1) before.rMax.toNat
  taken : ∀ k, 1 ≤ k → k < after.r.toNat →
    Pieces.piece maxIdLen k after.successorList = Pieces.piece maxIdLen (k - 1) list
  kept : ∀ k, k = 0 ∨ after.r.toNat ≤ k → Pieces.piece maxIdLen k after.successorList = Pieces.piece maxIdLen k before.successorList
  size : after.successorList.length = before.successorList.length
  frame : after = { before with successorList := after.successorList, r := after.r }
  -- another list with the same first slots gives the same result, so nothing behind them is copied
  reads : ∀ other, Copyable (after.r.toNat - 1) other →
    (∀ k, k < after.r.toNat - 1 → Pieces.piece maxIdLen k other = Pieces.piece maxIdLen k list) →
    before.copySuccessorList other nR = .ok after

theorem spliced_congr (old list other : Bytes) (r : Nat)
    (same : ∀ k, k < r - 1 → Pieces.piece maxIdLen k other = Pieces.piece maxIdLen k list) :
    spliced old other r = spliced old list r := by
  have pieces : (List.range (r - 1)).map (fun k => Pieces.piece maxIdLen k other) =
      (List.range (r - 1)).map (fun k => Pieces.piece maxIdLen k list) :=
    List.map_congr_left fun k member => same k (List.mem_range.mp member)
  rw [spliced, spliced, ← Pieces.flatten_pieces maxIdLen (r - 1) other, pieces, Pieces.flatten_pieces]

-- The block has the rMax slots it was made with, or more: none of those behind them is written.
theorem copies_slots (self : P2pmNodeInfo) (list : Bytes) (nR : UInt32) (most : 1 ≤ self.rMax.toNat)
    (bounded : self.rMax.toNat < 2 ^ 24) (unwrapped : nR.toNat + 1 < 2 ^ 32)
    (room : self.rMax.toNat * maxIdLen ≤ self.successorList.length)
    (source : Copyable (min nR.toNat (self.rMax.toNat - 1)) list) :
    ∃ copied, self.copySuccessorList list nR = .ok copied ∧ ListCopied self list nR copied := by
  obtain ⟨r, count, done⟩ := copy_spliced self.toNodeInfo list nR most bounded unwrapped room source.enough source.short
  have fewer : min nR.toNat (self.rMax.toNat - 1) = r.toNat - 1 := by omega
  have inside : r.toNat * maxIdLen ≤ self.rMax.toNat * maxIdLen := Nat.mul_le_mul_right _ (by omega)
  have available : (r.toNat - 1) * maxIdLen ≤ list.length :=
    Nat.le_trans (Nat.mul_le_mul_right _ (fewer ▸ Nat.le_max_right _ _)) source.enough
  have slots := spliced_slot self.successorList list r.toNat (by omega) (Nat.le_trans inside room) available
  refine ⟨{ self with successorList := spliced self.successorList list r.toNat, r := r }, ?_, count, ?_, ?_, ?_, rfl, ?_⟩
  · rw [P2pmNodeInfo.copySuccessorList, done]
    rfl
  · intro k first within
    exact (slots k).trans (if_pos ⟨first, within⟩)
  · intro k outside
    refine (slots k).trans (if_neg ?_)
    rintro ⟨first, within⟩
    rcases outside with zero | behind
    · exact absurd zero (by omega)
    · exact absurd within (Nat.not_lt.mpr behind)
  · exact spliced_length self.successorList list r.toNat (by omega) (Nat.le_trans inside room) available
  · intro other given same
    obtain ⟨r', count', done'⟩ := copy_spliced self.toNodeInfo other nR most bounded unwrapped room (fewer ▸ given.enough) given.short
    have equal : r' = r := UInt32.toNat_inj.mp (count'.trans count.symm)
    subst equal
    rw [P2pmNodeInfo.copySuccessorList, done', spliced_congr self.successorList list other r'.toNat same]
    rfl

-- Two addresses announced, and room for one.
def sampleNodeInfo : P2pmNodeInfo :=
  { successorList := List.replicate 512 7
    r := 1
    rMax := 2
    predecessor := [80]
    successor := [83]
    tempPredecessor := []
    tempSuccessor := [] }

def sampleAnnounced : Bytes := [65, 66] ++ List.replicate 254 0

theorem copies_slots_clamped :
    ∃ copied, sampleNodeInfo.copySuccessorList sampleAnnounced 2 = .ok copied ∧ ListCopied sampleNodeInfo sampleAnnounced 2 copied := by
  have slot : sampleAnnounced.length = maxIdLen := by
    rw [sampleAnnounced, List.length_append, List.length_replicate]
    rfl
  have block : sampleNodeInfo.successorList.length = 2 * maxIdLen := List.length_replicate
  have whole : Pieces.piece maxIdLen 0 sampleAnnounced = sampleAnnounced := by
    rw [Pieces.piece, Nat.zero_mul, List.drop_zero, ← slot, List.take_length]
  have address : cstr sampleAnnounced = [65, 66] := cstr_terminated [65, 66] (List.replicate 253 0) (by decide)
  refine copies_slots sampleNodeInfo sampleAnnounced 2 (by decide) (by decide) (by decide) (Nat.le_of_eq block.symm) ⟨?_, ?_⟩
  · exact Nat.le_of_eq ((Nat.one_mul _).trans slot.symm)
  · rw [whole, address]
    decide

end Synergy
