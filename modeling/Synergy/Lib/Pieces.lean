import Mathlib.Data.List.Basic
import Mathlib.Tactic.Ring

set_option autoImplicit false

-- A list cut into pieces of one size, and the buffer in which a reader puts them together again.
namespace Pieces

universe u

variable {α : Type u}

def piece (size index : Nat) (list : List α) : List α := (list.drop (index * size)).take size

theorem piece_length (size index : Nat) (list : List α) :
    (piece size index list).length = min size (list.length - index * size) := by
  simp [piece]

theorem piece_full (size index : Nat) (list : List α) (inside : (index + 1) * size ≤ list.length) :
    (piece size index list).length = size := by
  have split : (index + 1) * size = index * size + size := Nat.succ_mul index size
  rw [piece_length]
  omega

theorem take_piece (size index : Nat) (list : List α) :
    list.take (index * size) ++ piece size index list = list.take ((index + 1) * size) := by
  rw [piece, Nat.succ_mul, List.take_add]

theorem flatten_pieces (size count : Nat) (list : List α) :
    ((List.range count).map fun index => piece size index list).flatten = list.take (count * size) := by
  induction count with
  | zero => simp
  | succ count ih =>
      rw [List.range_succ, List.map_append, List.flatten_append, ih, List.map_singleton, List.flatten_singleton, take_piece]

theorem piece_front (size : Nat) (first rest : List α) (exact : first.length = size) : piece size 0 (first ++ rest) = first := by
  rw [piece, Nat.zero_mul, List.drop_zero, ← exact, List.take_left]

theorem piece_behind (size index : Nat) (first rest : List α) (exact : first.length = size) :
    piece size (index + 1) (first ++ rest) = piece size index rest := by
  have split : (index + 1) * size = first.length + index * size := by rw [Nat.succ_mul, exact, Nat.add_comm]
  rw [piece, split, List.drop_length_add_append, piece]

theorem piece_inside (size index : Nat) (list rest : List α) (inside : (index + 1) * size ≤ list.length) :
    piece size index (list ++ rest) = piece size index list := by
  rw [Nat.succ_mul] at inside
  rw [piece, piece, List.drop_append_of_le_length (by omega), List.take_append_of_le_length (by rw [List.length_drop]; omega)]

theorem piece_of_take (size index count : Nat) (list : List α) (inside : (index + 1) * size ≤ count) :
    piece size index (list.take count) = piece size index list := by
  rw [Nat.succ_mul] at inside
  rw [piece, piece, List.drop_take, List.take_take, Nat.min_eq_left (by omega)]

-- A block of items written over a part of one piece touches that piece alone.
theorem piece_written (size index other : Nat) (list items : List α) (inside : index * size + items.length ≤ list.length)
    (fits : items.length ≤ size) :
    piece size other (list.take (index * size) ++ items ++ list.drop (index * size + items.length)) =
      if other = index then items ++ (piece size index list).drop items.length else piece size other list := by
  have front : (list.take (index * size)).length = index * size := by
    rw [List.length_take]
    omega
  by_cases same : other = index
  · rw [if_pos same, same, piece, List.append_assoc, List.drop_left' front, List.take_append, List.take_of_length_le fits, piece,
      List.drop_take, List.drop_drop]
  · rw [if_neg same]
    by_cases before : other < index
    · have room : (other + 1) * size ≤ index * size := Nat.mul_le_mul_right size before
      rw [List.append_assoc, piece_inside _ _ _ _ (by omega), piece_of_take _ _ _ _ room]
    · have room : (index + 1) * size ≤ other * size := Nat.mul_le_mul_right size (by omega)
      rw [Nat.succ_mul] at room
      have written : (list.take (index * size) ++ items).length = index * size + items.length := by
        rw [List.length_append, front]
      obtain ⟨gap, reach⟩ : ∃ gap, other * size = index * size + items.length + gap :=
        ⟨other * size - (index * size + items.length), by omega⟩
      rw [piece, piece, reach, ← written, List.drop_length_add_append, List.drop_drop]

theorem splice_length (size start count : Nat) (list items : List α) (inside : (start + count) * size ≤ list.length)
    (whole : items.length = count * size) :
    (list.take (start * size) ++ items ++ list.drop ((start + count) * size)).length = list.length := by
  rw [Nat.add_mul] at inside ⊢
  simp only [List.length_append, List.length_take, List.length_drop, whole]
  omega

theorem piece_spliced (size start count index : Nat) (list items : List α) (inside : (start + count) * size ≤ list.length)
    (whole : items.length = count * size) :
    piece size index (list.take (start * size) ++ items ++ list.drop ((start + count) * size)) =
      if start ≤ index ∧ index < start + count then piece size (index - start) items else piece size index list := by
  have front : (list.take (start * size)).length = start * size := by
    rw [Nat.add_mul] at inside
    rw [List.length_take]
    omega
  by_cases before : index < start
  · have room : (index + 1) * size ≤ start * size := Nat.mul_le_mul_right size before
    rw [if_neg (by omega), List.append_assoc, piece_inside _ _ _ _ (by omega), piece_of_take _ _ _ _ room]
  · obtain ⟨offset, same⟩ : ∃ offset, index = start + offset := ⟨index - start, by omega⟩
    subst same
    by_cases within : offset < count
    · have room : (offset + 1) * size ≤ items.length := by
        rw [whole]
        exact Nat.mul_le_mul_right size within
      have split : (start + offset) * size = (list.take (start * size)).length + offset * size := by rw [front, Nat.add_mul]
      rw [if_pos (by omega), Nat.add_sub_cancel_left, ← piece_inside size offset items (list.drop ((start + count) * size)) room,
        piece, split, List.append_assoc, List.drop_length_add_append, piece]
    · obtain ⟨gap, reach⟩ : ∃ gap, offset = count + gap := ⟨offset - count, by omega⟩
      have written : (list.take (start * size) ++ items).length = (start + count) * size := by
        rw [List.length_append, front, whole, Nat.add_mul]
      have split : (start + offset) * size = (list.take (start * size) ++ items).length + gap * size := by
        rw [written, reach, ← Nat.add_assoc, Nat.add_mul]
      rw [if_neg (by omega), piece, piece, split, List.drop_length_add_append, List.drop_drop, written]

-- Cells of a block not written yet are none.
def place (buffer : List (Option α)) (offset : Nat) (items : List α) : Option (List (Option α)) :=
  if offset + items.length ≤ buffer.length then
    some (buffer.take offset ++ items.map some ++ buffer.drop (offset + items.length))
  else none

def fresh (size : Nat) : List (Option α) := List.replicate size none

-- The whole block, when every cell has been written.
def written : List (Option α) → Option (List α)
  | [] => some []
  | none :: _ => none
  | some item :: rest => (written rest).map (item :: ·)

@[simp] theorem written_map_some (items : List α) : written (items.map some) = some items := by
  induction items with
  | nil => rfl
  | cons item rest ih => simp [written, ih]

theorem map_of_written (buffer : List (Option α)) (items : List α) (whole : written buffer = some items) :
    buffer = items.map some := by
  induction buffer generalizing items with
  | nil =>
      cases whole
      rfl
  | cons cell rest ih =>
      cases cell with
      | none => simp [written] at whole
      | some item =>
          simp only [written, Option.map_eq_some_iff] at whole
          obtain ⟨others, behind, rfl⟩ := whole
          rw [ih others behind, List.map_cons]

theorem place_length (buffer filled : List (Option α)) (offset : Nat) (items : List α)
    (placed : place buffer offset items = some filled) :
    offset + items.length ≤ buffer.length ∧ filled.length = buffer.length := by
  by_cases inside : offset + items.length ≤ buffer.length
  · rw [place, if_pos inside] at placed
    cases placed
    refine ⟨inside, ?_⟩
    simp only [List.length_append, List.length_take, List.length_map, List.length_drop]
    omega
  · rw [place, if_neg inside] at placed
    cases placed

theorem place_front (buffer : List (Option α)) (items : List α) (room : items.length ≤ buffer.length) :
    place buffer 0 items = some (items.map some ++ buffer.drop items.length) := by
  rw [place, if_pos (by omega), List.take_zero, List.nil_append, Nat.zero_add]

theorem place_next (done items : List α) (room : Nat) (fits : items.length ≤ room) :
    place (done.map some ++ fresh room) done.length items =
      some ((done ++ items).map some ++ fresh (room - items.length)) := by
  have bound : done.length + items.length ≤ (done.map some ++ fresh room).length := by
    simp [fresh]
    omega
  rw [place, if_pos bound]
  have before : (done.map some ++ fresh room).take done.length = done.map some := by
    simp
  have after : (done.map some ++ fresh room).drop (done.length + items.length) =
      fresh (room - items.length) := by
    rw [List.drop_append]
    simp [fresh]
  simp only [before, after, List.map_append, List.append_assoc]

theorem mem_written (item : α) (items : List α) (size : Nat) : some item ∈ items.map some ++ fresh size ↔ item ∈ items := by
  simp [fresh]

end Pieces
