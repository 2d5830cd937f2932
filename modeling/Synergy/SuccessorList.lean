import Synergy.FailOver
import Synergy.Ring
import Synergy.Lib.Slots
import Synergy.Lib.Run

set_option autoImplicit false

namespace Synergy

-- memcpy to successor_list + offset.
def copyTo (list : Bytes) (offset : Nat) (items : Bytes) : Except Stop Bytes :=
  if list.length < offset + items.length then .error (.outside (offset / maxIdLen))
  else .ok (list.take offset ++ items ++ list.drop (offset + items.length))

-- found is what the blocks from malloc hold at first.
def p2pmNiCreate (found : Nat → Bytes) (rMax : UInt32) (joinAddr : Bytes) : Except Stop P2pmNodeInfo :=
  if joinAddr.length + 1 > maxIdLen then .error .undefined
  else .ok {
    successor := found 0
    predecessor := joinAddr
    tempPredecessor := found 1
    tempSuccessor := found 2
    successorList := List.replicate (rMax.toNat * maxIdLen) 0
    r := 0
    rMax := rMax }

-- The loop of p2pm_ni_add_successor, in slots: where it stops.
def emptySlot (list : Bytes) : Nat → Nat → Except Stop Nat
  | 0, i => .ok i
  | rounds + 1, i =>
      match list[i * maxIdLen]? with
      | none => .error (.outside i)
      | some byte => if byte = 0 then .ok i else emptySlot list rounds (i + 1)

def p2pmNiAddSuccessor (self : P2pmNodeInfo) (successor : Bytes) : Except Stop (P2pmOpcodes × P2pmNodeInfo) :=
  if successor.length + 1 > maxIdLen then .ok (.invalid, self)
  else do
    let fixed ← p2pmNiFixSuccessorList self.toNodeInfo
    let last := (shiftId self.rMax).toNat / maxIdLen
    let i ← emptySlot fixed.successorList last 0
    if i = last then return (.failure, { self with toNodeInfo := fixed })
    else do
      let list ← copyTo fixed.successorList (i * maxIdLen) (successor ++ [0])
      let added := { fixed with successorList := list }
      if i = 0 then return (.success, { self with toNodeInfo := added, successor := successor })
      else return (.success, { self with toNodeInfo := added })

-- memory is what the block from realloc holds behind the list, or none when there is no such block.
def p2pmNiResetRMax (self : P2pmNodeInfo) (rMax : UInt32) (memory : Option (Nat → UInt8)) : P2pmOpcodes × P2pmNodeInfo :=
  if rMax < self.rMax then (.invalid, self)
  else
    match memory with
    | none => (.failure, self)
    | some byte =>
        let behind := (List.range ((rMax.toNat - self.rMax.toNat) * maxIdLen)).map byte
        (.success, { self with successorList := self.successorList ++ behind, rMax := rMax })

def p2pmNiRemoveSuccessor (self : P2pmNodeInfo) (i : UInt32) : Except Stop (P2pmOpcodes × P2pmNodeInfo) :=
  if i ≥ self.rMax then .ok (.invalid, self)
  else do
    let list ← copyTo self.successorList (shiftId i).toNat [0]
    let fixed ← p2pmNiFixSuccessorList { self.toNodeInfo with successorList := list }
    return (.success, { self with toNodeInfo := fixed })

-- The loop of p2pm_ni_move_successor_list, in slots.
def moveLoop (source : Bytes) : Nat → Nat → Bytes → Except Stop Bytes
  | 0, _, list => .ok list
  | rounds + 1, i, list => do
      let block ← readSlot source i
      let list ← writeSlot list i block
      moveLoop source rounds (i + 1) list

def p2pmNiMoveSuccessorList (self : P2pmNodeInfo) (source : Bytes) (nR : UInt32) : Except Stop (P2pmOpcodes × P2pmNodeInfo) := do
  let cleared ← clearSlots self.successorList self.rMax
  if 0 ∉ source then throw .undefined
  else if (cstr source).length + 1 > maxIdLen then return (.invalid, { self with successorList := cleared })
  else do
    let (r, nR) := if nR + 1 > self.rMax then (self.rMax, self.rMax - 1) else (nR, nR)
    let moved ← moveLoop source ((shiftId nR).toNat / maxIdLen) 0 cleared
    let fixed ← p2pmNiFixSuccessorList { self.toNodeInfo with successorList := moved, r := r }
    return (.success, { self with toNodeInfo := fixed })

-- A list of addresses as p2pm_ni_move_successor_list is given it, n_r of them in slots.
structure GivenList where
  block : Bytes
  nR : UInt32
  entries : List Endpoint
  count : entries.length = nR.toNat
  room : nR.toNat * maxIdLen ≤ block.length
  entry : ∀ (k : Nat) (entry : Endpoint), entries[k]? = some entry → cstr (Pieces.piece maxIdLen k block) = entry.chars
  ends : 0 ∈ block

inductive ListOp where
  | add (successor : Endpoint)
  | remove (i : UInt32)
  | fix
  | move (given : GivenList)
  | reset (rMax : UInt32) (memory : Option (Nat → UInt8))

-- p2pm_ni_fix_successor_list returns nothing.
def ListOp.perform (self : P2pmNodeInfo) : ListOp → Except Stop (P2pmOpcodes × P2pmNodeInfo)
  | .add successor => p2pmNiAddSuccessor self successor.chars
  | .remove i => p2pmNiRemoveSuccessor self i
  | .fix => do
      let fixed ← p2pmNiFixSuccessorList self.toNodeInfo
      return (.success, { self with toNodeInfo := fixed })
  | .move given => p2pmNiMoveSuccessorList self given.block given.nR
  | .reset rMax memory => .ok (p2pmNiResetRMax self rMax memory)

-- What the operations are for: a list with a bound.
structure BoundedList where
  rMax : UInt32
  entries : List Endpoint
  bounded : entries.length ≤ rMax.toNat

def BoundedList.append (list : BoundedList) (entry : Endpoint) : Option BoundedList :=
  if room : list.entries.length < list.rMax.toNat then
    some ⟨list.rMax, list.entries ++ [entry], by rw [List.length_append, List.length_singleton]; exact room⟩
  else none

def BoundedList.delete (list : BoundedList) (i : Nat) : BoundedList :=
  ⟨list.rMax, list.entries.eraseIdx i, (List.length_eraseIdx_le _ _).trans list.bounded⟩

def BoundedList.replace (list : BoundedList) (entries : List Endpoint) : BoundedList :=
  ⟨list.rMax, entries.take list.rMax.toNat, List.length_take_le _ _⟩

def BoundedList.enlarge (list : BoundedList) (rMax : UInt32) : BoundedList :=
  if more : list.rMax ≤ rMax then ⟨rMax, list.entries, list.bounded.trans more⟩ else list

def BoundedList.after (list : BoundedList) : ListOp → BoundedList
  | .add successor => (list.append successor).getD list
  | .remove i => list.delete i.toNat
  | .fix => list
  | .move given => list.replace given.entries
  | .reset rMax memory => if memory.isSome then list.enlarge rMax else list

structure Implements (node : P2pmNodeInfo) (list : BoundedList) : Prop where
  bound : node.rMax = list.rMax
  listed : Slots.occupied [] node.rMax.toNat node.slot = list.entries.map (·.chars)
  packed : Slots.Packed [] node.rMax.toNat node.slot
  first : list.entries ≠ [] → node.successor = node.slot 0

-- p2pm_ni_add_successor fails exactly when the list is full.
def BoundedList.Refuses (list : BoundedList) (code : P2pmOpcodes) : ListOp → Prop
  | .add _ => code = .success ∧ list.entries.length < list.rMax.toNat ∨ code = .failure ∧ list.entries.length = list.rMax.toNat
  | _ => True

structure ListRun where
  node : P2pmNodeInfo
  list : BoundedList

def ListRun.start (node : P2pmNodeInfo) : ListRun := { node := node, list := ⟨node.rMax, [], Nat.zero_le _⟩ }

def ListRun.step (run : ListRun) (op : ListOp) : Option ListRun :=
  match op.perform run.node with
  | .ok (_, next) => some { node := next, list := run.list.after op }
  | .error _ => none

def ListRun.Follows (run : ListRun) (op : ListOp) : Prop :=
  ∃ code next, op.perform run.node = .ok (code, next) ∧ run.list.Refuses code op ∧ Implements next (run.list.after op)

-- How many slots the loops get to.
def NodeInfo.reach (self : NodeInfo) : Nat := self.rMax.toNat % 2 ^ 24

def ListRun.Spares (run : ListRun) (count : Nat) : Prop := run.node.clearsSecond → run.list.entries.length ≤ count

def ListRun.Keeps (run : ListRun) : ListOp → Prop
  | .add _ => run.Spares 1 ∧ (run.list.entries.length < run.node.reach ∨ run.list.entries.length = run.node.rMax.toNat)
  | .remove i =>
      run.node.rMax ≤ i ∨ (run.list.entries.length ≤ i.toNat % 2 ^ 24 ∧ run.Spares 1) ∨
        (i.toNat + 1 = run.list.entries.length ∧ run.Spares 2)
  | .fix => run.Spares 1
  | .move given =>
      (given.nR < run.node.rMax ∧ given.nR.toNat < 2 ^ 24 ∧ run.list.entries.length ≤ max run.node.reach given.nR.toNat ∧
          (given.nR.toNat ≤ 1 ∨ run.node.reach ≤ 1) ∨
        given.nR.toNat = 2 ^ 32 - 1 ∧ run.node.rMax.toNat = 2 ^ 24 - 1) ∧
      ∀ entry, given.entries[0]? = some entry → run.node.successor = entry.chars
  | .reset rMax memory =>
      rMax < run.node.rMax ∨ ∀ byte, memory = some byte → ∀ k < rMax.toNat - run.node.rMax.toNat, byte (k * maxIdLen) = 0

theorem reach_blocks (self : NodeInfo) : (shiftId self.rMax).toNat / maxIdLen = self.reach := by
  rw [shift_id_blocks, Nat.mul_div_cancel _ (by decide), NodeInfo.reach]

theorem fix_slots (self : NodeInfo) (size : self.successorList.length = self.rMax.toNat * maxIdLen) :
    ∃ list, p2pmNiFixSuccessorList self = .ok { self with successorList := list } ∧ list.length = self.successorList.length ∧
      ∀ k, NodeInfo.slot { self with successorList := list } k = if k = 1 ∧ self.clearsSecond then [] else self.slot k := by
  by_cases two : 2 ≤ self.rMax.toNat
  · have room : 2 * maxIdLen ≤ self.successorList.length := by
      rw [size]
      exact Nat.mul_le_mul_right _ two
    obtain ⟨first, second, later, list, full, fullSecond, _⟩ := two_slots self room
    have block : (if self.clearsSecond then List.replicate maxIdLen 0 else second).length = maxIdLen := by
      split
      · exact List.length_replicate
      · exact fullSecond
    refine ⟨_, fix_second self first second later list full fullSecond, ?_, fun k => ?_⟩
    · rw [list]
      simp only [List.length_append, block, fullSecond]
    · unfold NodeInfo.slot
      dsimp only
      rw [list]
      match k with
      | 0 => rw [Pieces.piece_front _ _ _ full, Pieces.piece_front _ _ _ full, if_neg (by simp)]
      | 1 =>
          rw [Pieces.piece_behind _ _ _ _ full, Pieces.piece_behind _ _ _ _ full, Pieces.piece_front _ _ _ block,
            Pieces.piece_front _ _ _ fullSecond]
          by_cases clears : self.clearsSecond
          · rw [if_pos clears, if_pos ⟨rfl, clears⟩]
            exact cstr_zeros _
          · rw [if_neg clears, if_neg fun both => clears both.2]
      | k + 2 =>
          rw [Pieces.piece_behind _ _ _ _ full, Pieces.piece_behind _ _ _ _ full, Pieces.piece_behind _ _ _ _ block,
            Pieces.piece_behind _ _ _ _ fullSecond, if_neg (by omega)]
  · have spared : ¬ self.clearsSecond := fun clears => by
      have many := clears.2
      have less := Nat.mod_le self.rMax.toNat (2 ^ 24)
      omega
    refine ⟨self.successorList, ?_, rfl, fun k => (if_neg fun both => spared both.2).symm⟩
    unfold p2pmNiFixSuccessorList
    split
    · rfl
    · have rounds : self.reach ≤ 1 := by
        have less := Nat.mod_le self.rMax.toNat (2 ^ 24)
        unfold NodeInfo.reach
        omega
      rw [reach_blocks]
      generalize self.reach = reach at rounds
      match reach with
      | 0 => rfl
      | 1 => rfl

theorem copy_slots (list items : Bytes) (i : Nat) (inside : (i + 1) * maxIdLen ≤ list.length) (fits : items.length ≤ maxIdLen) :
    ∃ copied, copyTo list (i * maxIdLen) items = .ok copied ∧ copied.length = list.length ∧
      ∀ k, cstr (Pieces.piece maxIdLen k copied) =
        if k = i then cstr (items ++ (Pieces.piece maxIdLen i list).drop items.length) else cstr (Pieces.piece maxIdLen k list) := by
  rw [Nat.succ_mul] at inside
  have room : ¬ list.length < i * maxIdLen + items.length := by omega
  refine ⟨_, by rw [copyTo, if_neg room], ?_, fun k => ?_⟩
  · simp only [List.length_append, List.length_take, List.length_drop]
    omega
  · rw [Pieces.piece_written maxIdLen i k list items (by omega) fits]
    split
    · rfl
    · rfl

theorem first_byte (list : Bytes) (k : Nat) (inside : (k + 1) * maxIdLen ≤ list.length) :
    ∃ byte, list[k * maxIdLen]? = some byte ∧ (byte = 0 ↔ cstr (Pieces.piece maxIdLen k list) = []) := by
  have full := Pieces.piece_full maxIdLen k list inside
  have head : (Pieces.piece maxIdLen k list).head? = list[k * maxIdLen]? := by
    rw [Pieces.piece, List.head?_take, if_neg (by decide), List.head?_drop]
  rw [Nat.succ_mul] at inside
  have positive : 0 < maxIdLen := by decide
  have within : k * maxIdLen < list.length := by omega
  refine ⟨list[k * maxIdLen], List.getElem?_eq_getElem within, ?_⟩
  rw [← starts_empty _ full, head, List.getElem?_eq_getElem within, Option.some.injEq]

theorem empty_slot_found (list : Bytes) (rounds i : Nat) (inside : (i + rounds) * maxIdLen ≤ list.length) :
    ∃ found, emptySlot list rounds i = .ok found ∧ i ≤ found ∧ found ≤ i + rounds ∧
      (∀ k, i ≤ k → k < found → cstr (Pieces.piece maxIdLen k list) ≠ []) ∧
      (found < i + rounds → cstr (Pieces.piece maxIdLen found list) = []) := by
  induction rounds generalizing i with
  | zero => exact ⟨i, rfl, le_rfl, le_rfl, fun k behind before => absurd before (by omega), fun before => absurd before (by omega)⟩
  | succ rounds ih =>
      have here : (i + 1) * maxIdLen ≤ list.length := (Nat.mul_le_mul_right _ (by omega)).trans inside
      obtain ⟨byte, read, empty⟩ := first_byte list i here
      unfold emptySlot
      rw [read]
      dsimp only
      by_cases zero : byte = 0
      · rw [if_pos zero]
        exact ⟨i, rfl, le_rfl, by omega, fun k behind before => absurd before (by omega), fun _ => empty.mp zero⟩
      · rw [if_neg zero]
        obtain ⟨found, stops, behind, within, used, stopped⟩ := ih (i + 1) (by rw [Nat.add_assoc, Nat.add_comm 1]; exact inside)
        refine ⟨found, stops, by omega, by omega, fun k after before => ?_, fun less => stopped (by omega)⟩
        by_cases same : k = i
        · rw [same]
          exact fun none_ => zero (empty.mpr none_)
        · exact used k (by omega) before

def NodeInfo.condensed (self : NodeInfo) (k : Nat) : Bytes := if k = 1 ∧ self.clearsSecond then [] else self.slot k

theorem reach_within (self : NodeInfo) : self.reach ≤ self.rMax.toNat := Nat.mod_le _ _

theorem clears_within (self : NodeInfo) (clears : self.clearsSecond) : 2 ≤ self.reach := clears.2

theorem string_ends (chars rest : Bytes) (clean : NulFree chars) : cstr ((chars ++ [0]) ++ rest) = chars := by
  rw [List.append_assoc, List.singleton_append, cstr_terminated chars rest clean]

theorem add_slots (self : P2pmNodeInfo) (entry : Endpoint) (size : self.successorList.length = self.rMax.toNat * maxIdLen) :
    ∃ i ≤ self.reach, (∀ k < i, self.condensed k ≠ []) ∧ (i < self.reach → self.condensed i = []) ∧
      ∃ next, p2pmNiAddSuccessor self entry.chars = .ok (if i < self.reach then .success else .failure, next) ∧
        next.rMax = self.rMax ∧ (i < self.reach ∧ i = 0 → next.successor = entry.chars) ∧
        (¬ (i < self.reach ∧ i = 0) → next.successor = self.successor) ∧
        ∀ k, next.slot k = if i < self.reach ∧ k = i then entry.chars else self.condensed k := by
  obtain ⟨list, fixed, length, slots⟩ := fix_slots self.toNodeInfo size
  have room : self.reach * maxIdLen ≤ list.length := by
    rw [length, size]
    exact Nat.mul_le_mul_right _ (reach_within self.toNodeInfo)
  obtain ⟨i, found, _, within, used, free⟩ := empty_slot_found list self.reach 0 (by rw [Nat.zero_add]; exact room)
  rw [Nat.zero_add] at within free
  have short := entry.short
  have fits : ¬ entry.chars.length + 1 > maxIdLen := by omega
  refine ⟨i, within, fun k before => ?_, fun inside => ?_, ?_⟩
  · exact fun none_ => used k (Nat.zero_le k) before ((slots k).trans none_)
  · exact (slots i).symm.trans (free inside)
  · unfold p2pmNiAddSuccessor
    rw [if_neg fits, fixed]
    dsimp only [bind, Except.bind]
    rw [reach_blocks, found]
    dsimp only
    by_cases full : i = self.reach
    · have none_ : ¬ i < self.reach := by omega
      rw [if_pos full, if_neg none_]
      refine ⟨_, rfl, rfl, fun both => absurd both.1 none_, fun _ => rfl, fun k => ?_⟩
      rw [if_neg fun both => none_ both.1]
      exact slots k
    · have inside : i < self.reach := by omega
      have whole : (i + 1) * maxIdLen ≤ list.length := (Nat.mul_le_mul_right _ inside).trans room
      obtain ⟨copied, copies, _, written⟩ := copy_slots list (entry.chars ++ [0]) i whole
        (by rw [List.length_append, List.length_singleton]; omega)
      have shown : ∀ k, cstr (Pieces.piece maxIdLen k copied) = if i < self.reach ∧ k = i then entry.chars else self.condensed k := by
        intro k
        rw [written k]
        by_cases here : k = i
        · rw [if_pos here, if_pos ⟨inside, here⟩, string_ends _ _ entry.clean]
        · rw [if_neg here, if_neg fun both => here both.2]
          exact slots k
      rw [if_neg full, if_pos inside, copies]
      dsimp only
      by_cases first : i = 0
      · rw [if_pos first]
        exact ⟨_, rfl, rfl, fun _ => rfl, fun other => absurd ⟨inside, first⟩ other, shown⟩
      · rw [if_neg first]
        exact ⟨_, rfl, rfl, fun both => absurd both.2 first, fun _ => rfl, shown⟩

structure ListRun.Holds (run : ListRun) : Prop where
  bound : run.node.rMax = run.list.rMax
  size : run.node.successorList.length = run.node.rMax.toNat * maxIdLen
  positive : 1 ≤ run.node.rMax.toNat
  small : run.list.entries.length < 2 ^ 24
  held : Slots.Holds [] run.node.rMax.toNat run.node.slot (run.list.entries.map (·.chars))
  first : run.list.entries ≠ [] → run.node.successor = run.node.slot 0

theorem endpoints_filled (entries : List Endpoint) : ∀ chars ∈ entries.map (·.chars), chars ≠ [] := by
  intro chars member
  obtain ⟨entry, _, rfl⟩ := List.mem_map.mp member
  exact entry.nonempty

theorem implements_iff (node : P2pmNodeInfo) (list : BoundedList) (bound : node.rMax = list.rMax) :
    Implements node list ↔ Slots.Holds [] node.rMax.toNat node.slot (list.entries.map (·.chars)) ∧
      (list.entries ≠ [] → node.successor = node.slot 0) := by
  have bounded : (list.entries.map (·.chars)).length ≤ node.rMax.toNat := by
    rw [List.length_map, bound]
    exact list.bounded
  have held := Slots.holds_iff node.rMax.toNat node.slot _ (endpoints_filled list.entries) bounded
  exact ⟨fun done => ⟨held.mpr ⟨done.listed, done.packed⟩, done.first⟩,
    fun done => ⟨bound, (held.mp done.1).1, (held.mp done.1).2, done.2⟩⟩

theorem follows_iff (run : ListRun) (op : ListOp) (code : P2pmOpcodes) (next : P2pmNodeInfo)
    (done : op.perform run.node = .ok (code, next)) :
    run.Follows op ↔ run.list.Refuses code op ∧ Implements next (run.list.after op) := by
  constructor
  · rintro ⟨other, last, same, right⟩
    cases done.symm.trans same
    exact right
  · exact fun right => ⟨code, next, done, right⟩

theorem ListRun.Holds.bounded {run : ListRun} (holds : run.Holds) : run.list.entries.length ≤ run.node.rMax.toNat := by
  rw [holds.bound]
  exact run.list.bounded

theorem ListRun.Holds.slots {run : ListRun} (holds : run.Holds) (k : Nat) (room : k < run.node.rMax.toNat) :
    run.node.slot k ≠ [] ↔ k < run.list.entries.length := by
  have taken := Slots.filled_iff _ _ _ holds.held (endpoints_filled run.list.entries) k room
  rwa [List.length_map] at taken

theorem condensed_spared (run : ListRun) (holds : run.Holds) :
    Slots.Holds [] run.node.rMax.toNat run.node.condensed (run.list.entries.map (·.chars)) ↔ run.Spares 1 := by
  have bounded := holds.bounded
  refine (Slots.holds_freed_iff _ _ _ (fun k => k = 1 ∧ run.node.clearsSecond) holds.held (endpoints_filled _)
    (by rw [List.length_map]; exact bounded)).trans ?_
  rw [List.length_map]
  constructor
  · intro spared clears
    by_contra more
    exact spared 1 (by omega) ⟨rfl, clears⟩
  · rintro spared k inside ⟨second, clears⟩
    have less := spared clears
    omega

theorem append_room (list : BoundedList) (entry : Endpoint) (room : list.entries.length < list.rMax.toNat) :
    (list.after (.add entry)).entries = list.entries ++ [entry] ∧ (list.after (.add entry)).rMax = list.rMax := by
  simp only [BoundedList.after, BoundedList.append, dif_pos room, Option.getD_some, and_self]

theorem append_full (list : BoundedList) (entry : Endpoint) (full : list.entries.length = list.rMax.toNat) :
    list.after (.add entry) = list := by
  have none_ : ¬ list.entries.length < list.rMax.toNat := by omega
  simp only [BoundedList.after, BoundedList.append, dif_neg none_, Option.getD_none]

theorem condensed_first (self : NodeInfo) : self.condensed 0 = self.slot 0 := if_neg fun both => absurd both.1 (by omega)

theorem add_spared (run : ListRun) (holds : run.Holds) (entry : Endpoint) (spared : run.Spares 1) :
    run.Follows (.add entry) ↔
      run.list.entries.length < run.node.reach ∨ run.list.entries.length = run.node.rMax.toNat := by
  have bounded := holds.bounded
  have within := reach_within run.node.toNodeInfo
  have kept := (condensed_spared run holds).mpr spared
  have taken := Slots.filled_iff _ _ _ kept (endpoints_filled run.list.entries)
  rw [List.length_map] at taken
  obtain ⟨i, inside, used, free, next, done, bound, renamed, same, slots⟩ := add_slots run.node entry holds.size
  have notAbove : i ≤ run.list.entries.length := by
    by_contra above
    have last := used run.list.entries.length (by omega)
    have less := (taken _ (by omega)).mp last
    omega
  rw [follows_iff run (.add entry) _ next done]
  by_cases room : run.list.entries.length < run.node.reach
  · have here : i = run.list.entries.length := by
      by_contra before
      exact (taken i (by omega)).mpr (by omega) (free (by omega))
    have more : run.list.entries.length < run.list.rMax.toNat := by
      rw [← holds.bound]
      omega
    have reached : i < run.node.reach := by omega
    obtain ⟨appended, unchanged⟩ := append_room run.list entry more
    rw [if_pos reached]
    refine ⟨fun _ => Or.inl room, fun _ => ⟨Or.inl ⟨rfl, more⟩, ?_⟩⟩
    rw [implements_iff next _ ((bound.trans holds.bound).trans unchanged.symm), appended, bound]
    constructor
    · have added := Slots.holds_append _ _ _ entry.chars kept
      rw [List.length_map] at added
      rw [List.map_append, List.map_singleton]
      intro k below
      rw [slots k, ← added k below, ← here]
      dsimp only
      by_cases last : k = i
      · rw [if_pos ⟨reached, last⟩, if_pos last]
      · rw [if_neg fun both => last both.2, if_neg last]
    · intro _
      rw [slots 0]
      by_cases none_ : i = 0
      · rw [if_pos ⟨reached, none_.symm⟩, renamed ⟨reached, none_⟩]
      · have some_ : run.list.entries ≠ [] := fun nil => none_ (by rw [here, nil, List.length_nil])
        rw [if_neg fun both => none_ both.2.symm, same fun both => none_ both.2, condensed_first, holds.first some_]
  · have last : i = run.node.reach := by
      by_contra before
      exact (taken i (by omega)).mpr (by omega) (free (by omega))
    have stopped : ¬ i < run.node.reach := by omega
    rw [if_neg stopped]
    constructor
    · rintro ⟨⟨wrong, _⟩ | ⟨_, full⟩, _⟩
      · cases wrong
      · exact Or.inr (by rw [holds.bound]; exact full)
    · rintro (room_ | full)
      · exact absurd room_ room
      · have filled : run.list.entries.length = run.list.rMax.toNat := by rw [full, holds.bound]
        refine ⟨Or.inr ⟨rfl, filled⟩, ?_⟩
        rw [append_full run.list entry filled, implements_iff next _ (bound.trans holds.bound), bound]
        refine ⟨fun k below => ?_, fun some_ => ?_⟩
        · rw [slots k, if_neg fun both => stopped both.1]
          exact kept k below
        · rw [slots 0, if_neg fun both => stopped both.1, same fun both => stopped both.1, condensed_first, holds.first some_]

theorem add_cleared (run : ListRun) (holds : run.Holds) (entry : Endpoint) (cleared : ¬ run.Spares 1) :
    ¬ run.Follows (.add entry) := by
  have bounded := holds.bounded
  have within := reach_within run.node.toNodeInfo
  obtain ⟨clears, many⟩ : run.node.clearsSecond ∧ 1 < run.list.entries.length := by
    simpa [ListRun.Spares] using cleared
  have two := clears_within run.node.toNodeInfo clears
  obtain ⟨i, inside, used, free, next, done, bound, _, _, slots⟩ := add_slots run.node entry holds.size
  have second : i = 1 := by
    by_contra other
    by_cases above : 1 < i
    · exact used 1 above (if_pos ⟨rfl, clears⟩)
    · have first : i = 0 := by omega
      have empty := free (by omega)
      rw [first, condensed_first] at empty
      exact (holds.slots 0 (by omega)).mpr (by omega) empty
  have reached : i < run.node.reach := by omega
  rw [follows_iff run (.add entry) _ next done, if_pos reached]
  rintro ⟨⟨_, room⟩ | ⟨wrong, _⟩, implements⟩
  · obtain ⟨appended, unchanged⟩ := append_room run.list entry room
    have held := ((implements_iff next _ ((bound.trans holds.bound).trans unchanged.symm)).mp implements).1
    have below : run.list.entries.length < next.rMax.toNat := by
      rw [bound, holds.bound]
      exact room
    have some_ := (Slots.holds_inside _ _ _ held (endpoints_filled _) run.list.entries.length
      (by rw [List.length_map, appended, List.length_append, List.length_singleton]; omega) below).2
    have apart : ¬ (i < run.node.reach ∧ run.list.entries.length = i) := by omega
    have behind : ¬ (run.list.entries.length = 1 ∧ run.node.clearsSecond) := by omega
    rw [slots, if_neg apart, NodeInfo.condensed, if_neg behind] at some_
    have less := (holds.slots _ (by rw [← bound]; exact below)).mp some_
    omega
  · cases wrong

theorem add_follows_iff (run : ListRun) (holds : run.Holds) (entry : Endpoint) :
    run.Follows (.add entry) ↔ run.Keeps (.add entry) := by
  by_cases spared : run.Spares 1
  · exact (add_spared run holds entry spared).trans ⟨fun room => ⟨spared, room⟩, fun keeps => keeps.2⟩
  · exact ⟨fun follows => absurd follows (add_cleared run holds entry spared), fun keeps => absurd keeps.1 spared⟩

theorem fix_follows_iff (run : ListRun) (holds : run.Holds) : run.Follows .fix ↔ run.Keeps .fix := by
  obtain ⟨list, fixed, _, slots⟩ := fix_slots run.node.toNodeInfo holds.size
  obtain ⟨next, done, bound, same, shown⟩ : ∃ next : P2pmNodeInfo, ListOp.fix.perform run.node = .ok (.success, next) ∧
      next.rMax = run.node.rMax ∧ next.successor = run.node.successor ∧ next.slot = run.node.condensed := by
    refine ⟨{ run.node with toNodeInfo := { run.node.toNodeInfo with successorList := list } }, ?_, rfl, rfl, funext slots⟩
    simp only [ListOp.perform, fixed, bind, Except.bind, pure, Except.pure]
  have spared := condensed_spared run holds
  have kept : run.list.after .fix = run.list := rfl
  rw [follows_iff run .fix _ _ done, kept, implements_iff _ _ (bound.trans holds.bound), bound, same, shown, condensed_first]
  exact ⟨fun follows => spared.mp follows.2.1, fun keeps => ⟨trivial, spared.mpr keeps, holds.first⟩⟩

-- What shows of the slots when one of them has been emptied and the condense loop has passed.
def NodeInfo.Freed (self : NodeInfo) (i k : Nat) : Prop := k = i ∨ (k = 1 ∧ self.clearsSecond)

instance (self : NodeInfo) (i : Nat) : DecidablePred (self.Freed i) := fun _ => inferInstanceAs (Decidable (_ ∨ _))

theorem remove_slots (self : P2pmNodeInfo) (i : UInt32) (size : self.successorList.length = self.rMax.toNat * maxIdLen)
    (inside : i < self.rMax) :
    ∃ next, p2pmNiRemoveSuccessor self i = .ok (.success, next) ∧ next.rMax = self.rMax ∧ next.successor = self.successor ∧
      next.slot = fun k => if self.Freed (i.toNat % 2 ^ 24) k then [] else self.slot k := by
  have below : i.toNat < self.rMax.toNat := UInt32.lt_iff_toNat_lt.mp inside
  have less := Nat.mod_le i.toNat (2 ^ 24)
  have room : (i.toNat % 2 ^ 24 + 1) * maxIdLen ≤ self.successorList.length := by
    rw [size]
    exact Nat.mul_le_mul_right _ (by omega)
  obtain ⟨list, copies, length, emptied⟩ := copy_slots self.successorList [0] (i.toNat % 2 ^ 24) room (by decide)
  obtain ⟨fixed, fixes, _, slots⟩ := fix_slots { self.toNodeInfo with successorList := list } (length.trans size)
  refine ⟨{ self with toNodeInfo := { self.toNodeInfo with successorList := fixed } }, ?_, rfl, rfl, funext fun k => ?_⟩
  · unfold p2pmNiRemoveSuccessor
    rw [if_neg (UInt32.not_le.mpr inside), shift_id_blocks, copies]
    simp only [bind, Except.bind, fixes, pure, Except.pure]
  · refine (slots k).trans ?_
    by_cases clears : k = 1 ∧ self.clearsSecond
    · exact (if_pos clears).trans (if_pos (Or.inr clears)).symm
    · refine (if_neg clears).trans ((emptied k).trans ?_)
      by_cases here : k = i.toNat % 2 ^ 24
      · rw [if_pos here, if_pos (show self.Freed _ k from Or.inl here)]
        rfl
      · rw [if_neg here, if_neg (show ¬ self.Freed _ k from fun freed => freed.elim here clears)]
        rfl

theorem freed_implements (run : ListRun) (holds : run.Holds) (next : P2pmNodeInfo) (list : BoundedList) (i : Nat)
    (bound : next.rMax = run.node.rMax) (same : next.successor = run.node.successor) (unchanged : list.rMax = run.list.rMax)
    (slots : next.slot = fun k => if run.node.Freed i k then [] else run.node.slot k)
    (some_ : list.entries ≠ [] → run.list.entries ≠ []) :
    Implements next list ↔ Slots.Holds [] run.node.rMax.toNat
      (fun k => if run.node.Freed i k then [] else run.node.slot k) (list.entries.map (·.chars)) := by
  rw [implements_iff next list ((bound.trans holds.bound).trans unchanged.symm), bound, ← slots]
  refine ⟨fun both => both.1, fun held => ⟨held, fun left_ => ?_⟩⟩
  have positive := holds.positive
  have first := (Slots.holds_inside _ _ _ held (endpoints_filled _) 0
    (by rw [List.length_map]; exact List.length_pos_iff.mpr left_) (by omega)).2
  rw [same, holds.first (some_ left_)]
  rw [slots] at first ⊢
  dsimp only at first ⊢
  by_cases freed : run.node.Freed i 0
  · rw [if_pos freed] at first
    exact absurd rfl first
  · rw [if_neg freed]

theorem freed_outside (run : ListRun) (i : Nat) :
    (∀ k < run.list.entries.length, ¬ run.node.Freed i k) ↔ run.list.entries.length ≤ i ∧ run.Spares 1 := by
  constructor
  · intro spared
    refine ⟨?_, fun clears => ?_⟩
    · by_contra inside
      exact spared i (by omega) (Or.inl rfl)
    · by_contra more
      exact spared 1 (by omega) (Or.inr ⟨rfl, clears⟩)
  · rintro ⟨outside, spared⟩ k inside (here | ⟨second, clears⟩)
    · omega
    · have less := spared clears
      omega

theorem freed_last (run : ListRun) (i : Nat) (inside : i < run.list.entries.length) :
    (∀ k < run.list.entries.length, (run.node.Freed i k ↔ k + 1 = run.list.entries.length)) ↔
      i + 1 = run.list.entries.length ∧ run.Spares 2 := by
  constructor
  · intro only
    refine ⟨(only i inside).mp (Or.inl rfl), fun clears => ?_⟩
    by_contra more
    have second := (only 1 (by omega)).mp (Or.inr ⟨rfl, clears⟩)
    omega
  · rintro ⟨last, spared⟩ k within
    constructor
    · rintro (here | ⟨second, clears⟩)
      · omega
      · have less := spared clears
        omega
    · intro same
      exact Or.inl (by omega)

theorem remove_follows_iff (run : ListRun) (holds : run.Holds) (i : UInt32) :
    run.Follows (.remove i) ↔ run.Keeps (.remove i) := by
  have bounded := holds.bounded
  have small := holds.small
  by_cases outside : run.node.rMax ≤ i
  · have done : (ListOp.remove i).perform run.node = .ok (.invalid, run.node) := if_pos outside
    have above : run.node.rMax.toNat ≤ i.toNat := UInt32.le_iff_toNat_le.mp outside
    have kept : (run.list.delete i.toNat).entries = run.list.entries := List.eraseIdx_of_length_le (by omega)
    have implements : Implements run.node (run.list.delete i.toNat) := by
      refine (implements_iff run.node (run.list.delete i.toNat) holds.bound).mpr ?_
      rw [kept]
      exact ⟨holds.held, holds.first⟩
    rw [follows_iff run _ _ _ done]
    exact ⟨fun _ => Or.inl outside, fun _ => ⟨trivial, implements⟩⟩
  · obtain ⟨next, done, bound, same, slots⟩ := remove_slots run.node i holds.size (UInt32.not_le.mp outside)
    have freed := freed_implements run holds next (run.list.delete i.toNat) _ bound same rfl slots
      (fun some_ nil => some_ (by simp [BoundedList.delete, nil]))
    have full : (run.list.entries.map (·.chars)).length ≤ run.node.rMax.toNat := by
      rw [List.length_map]
      exact bounded
    have less := Nat.mod_le i.toNat (2 ^ 24)
    have follows : run.Follows (.remove i) ↔ Implements next (run.list.delete i.toNat) :=
      (follows_iff run (.remove i) _ next done).trans ⟨fun both => both.2, fun implements => ⟨trivial, implements⟩⟩
    have keeps : run.Keeps (.remove i) ↔ (run.list.entries.length ≤ i.toNat % 2 ^ 24 ∧ run.Spares 1) ∨
        (i.toNat + 1 = run.list.entries.length ∧ run.Spares 2) := ⟨fun any => any.resolve_left outside, Or.inr⟩
    rw [follows, freed, keeps]
    by_cases inside : i.toNat < run.list.entries.length
    · have here : i.toNat % 2 ^ 24 = i.toNat := Nat.mod_eq_of_lt (by omega)
      have erased := Slots.holds_erased_iff _ _ _ (run.node.Freed i.toNat) i.toNat holds.held (endpoints_filled _) full
        (by rw [List.length_map]; exact inside) (Or.inl rfl)
      rw [List.length_map, freed_last run i.toNat inside] at erased
      rw [here]
      dsimp only [BoundedList.delete]
      rw [List.eraseIdx_map] at erased
      rw [erased]
      exact ⟨Or.inr, fun any => any.resolve_left fun other => absurd other.1 (by omega)⟩
    · have kept : (run.list.delete i.toNat).entries = run.list.entries := List.eraseIdx_of_length_le (by omega)
      have spared := Slots.holds_freed_iff _ _ _ (run.node.Freed (i.toNat % 2 ^ 24)) holds.held (endpoints_filled _) full
      rw [List.length_map, freed_outside] at spared
      rw [kept, spared]
      exact ⟨Or.inl, fun any => any.resolve_right fun other => absurd other.1 (by omega)⟩

theorem reset_slots (self : P2pmNodeInfo) (rMax : UInt32) (byte : Nat → UInt8)
    (size : self.successorList.length = self.rMax.toNat * maxIdLen) (more : self.rMax ≤ rMax) :
    ∃ next, p2pmNiResetRMax self rMax (some byte) = (.success, next) ∧ next.rMax = rMax ∧ next.successor = self.successor ∧
      next.successorList.length = rMax.toNat * maxIdLen ∧ (∀ k < self.rMax.toNat, next.slot k = self.slot k) ∧
      ∀ k < rMax.toNat - self.rMax.toNat, next.slot (self.rMax.toNat + k) = [] ↔ byte (k * maxIdLen) = 0 := by
  have above : self.rMax.toNat ≤ rMax.toNat := UInt32.le_iff_toNat_le.mp more
  have length : (self.successorList ++ (List.range ((rMax.toNat - self.rMax.toNat) * maxIdLen)).map byte).length =
      rMax.toNat * maxIdLen := by
    rw [List.length_append, List.length_map, List.length_range, size, ← Nat.add_mul, Nat.add_sub_cancel' above]
  refine ⟨{ self with
    successorList := self.successorList ++ (List.range ((rMax.toNat - self.rMax.toNat) * maxIdLen)).map byte
    rMax := rMax }, if_neg (UInt32.not_lt.mpr more), rfl, rfl, length, fun k inside => ?_, fun k inside => ?_⟩
  · unfold NodeInfo.slot
    rw [Pieces.piece_inside _ _ _ _ (by rw [size]; exact Nat.mul_le_mul_right _ inside)]
  · have within : (self.rMax.toNat + k + 1) * maxIdLen ≤
        (self.successorList ++ (List.range ((rMax.toNat - self.rMax.toNat) * maxIdLen)).map byte).length := by
      rw [length]
      exact Nat.mul_le_mul_right _ (by omega)
    obtain ⟨first, read, empty⟩ := first_byte _ _ within
    have positive : 0 < maxIdLen := by decide
    have behind : k * maxIdLen < (rMax.toNat - self.rMax.toNat) * maxIdLen := Nat.mul_lt_mul_of_pos_right inside positive
    rw [List.getElem?_append_right (by rw [size]; exact Nat.mul_le_mul_right _ (by omega)), size, ← Nat.sub_mul,
      Nat.add_sub_cancel_left, List.getElem?_map, List.getElem?_range behind] at read
    cases read
    exact empty.symm

theorem reset_follows_iff (run : ListRun) (holds : run.Holds) (rMax : UInt32) (memory : Option (Nat → UInt8)) :
    run.Follows (.reset rMax memory) ↔ run.Keeps (.reset rMax memory) := by
  have bounded := holds.bounded
  have stays : ∀ code : P2pmOpcodes, (ListOp.reset rMax memory).perform run.node = .ok (code, run.node) →
      run.list.after (.reset rMax memory) = run.list → run.Follows (.reset rMax memory) := by
    intro code done same
    rw [follows_iff run _ _ _ done, same]
    exact ⟨trivial, (implements_iff _ _ holds.bound).mpr ⟨holds.held, holds.first⟩⟩
  by_cases less : rMax < run.node.rMax
  · refine ⟨fun _ => Or.inl less, fun _ => stays .invalid ?_ ?_⟩
    · exact congrArg Except.ok (if_pos less)
    · have fewer : ¬ run.list.rMax ≤ rMax := UInt32.not_le.mpr (holds.bound ▸ less)
      simp only [BoundedList.after, BoundedList.enlarge, dif_neg fewer, ite_self]
  · have more : run.node.rMax ≤ rMax := UInt32.not_lt.mp less
    cases memory with
    | none =>
        refine ⟨fun _ => Or.inr fun byte absent => (by cases absent), fun _ => stays .failure ?_ rfl⟩
        exact congrArg Except.ok (if_neg less)
    | some byte =>
        obtain ⟨next, done, bound, same, _, old, new⟩ := reset_slots run.node rMax byte holds.size more
        have enlarged : run.list.after (.reset rMax (some byte)) = ⟨rMax, run.list.entries, run.list.bounded.trans (holds.bound ▸ more)⟩ := by
          have fewer : run.list.rMax ≤ rMax := holds.bound ▸ more
          simp only [BoundedList.after, BoundedList.enlarge, dif_pos fewer, Option.isSome_some, if_true]
        have keeps : run.Keeps (.reset rMax (some byte)) ↔ ∀ k < rMax.toNat - run.node.rMax.toNat, byte (k * maxIdLen) = 0 :=
          ⟨fun any => any.resolve_left less byte rfl, fun all => Or.inr fun _ same => Option.some.inj same ▸ all⟩
        have above : run.node.rMax.toNat ≤ rMax.toNat := UInt32.le_iff_toNat_le.mp more
        have positive := holds.positive
        have performed : (ListOp.reset rMax (some byte)).perform run.node = .ok (.success, next) := congrArg Except.ok done
        rw [follows_iff run _ _ next performed, enlarged, implements_iff next _ bound, bound, keeps]
        constructor
        · rintro ⟨_, held, _⟩ k inside
          have empty := Slots.holds_outside _ _ _ held (run.node.rMax.toNat + k) (by rw [List.length_map]; dsimp only; omega) (by omega)
          exact (new k inside).mp empty
        · intro zero
          refine ⟨trivial, fun k inside => ?_, fun some_ => ?_⟩
          · by_cases before : k < run.node.rMax.toNat
            · rw [old k before]
              exact holds.held k before
            · have shift : k = run.node.rMax.toNat + (k - run.node.rMax.toNat) := by omega
              rw [List.getElem?_eq_none (by rw [List.length_map]; dsimp only; omega), Option.getD_none, shift]
              exact (new _ (by omega)).mpr (zero _ (by omega))
          · rw [same, old 0 (by omega)]
            exact holds.first some_

theorem move_loop_slots (source list : Bytes) (rounds i : Nat) (room : (i + rounds) * maxIdLen ≤ list.length)
    (given : (i + rounds) * maxIdLen ≤ source.length) :
    ∃ moved, moveLoop source rounds i list = .ok moved ∧ moved.length = list.length ∧
      ∀ k, cstr (Pieces.piece maxIdLen k moved) =
        if i ≤ k ∧ k < i + rounds then cstr (Pieces.piece maxIdLen k source) else cstr (Pieces.piece maxIdLen k list) := by
  induction rounds generalizing i list with
  | zero => exact ⟨list, rfl, rfl, fun k => (if_neg (by omega)).symm⟩
  | succ rounds ih =>
      have later : i + 1 + rounds = i + (rounds + 1) := by omega
      have inside : (i + 1) * maxIdLen ≤ list.length := (Nat.mul_le_mul_right _ (by omega)).trans room
      have there : (i + 1) * maxIdLen ≤ source.length := (Nat.mul_le_mul_right _ (by omega)).trans given
      have whole := Pieces.piece_full maxIdLen i source there
      have read : readSlot source i = .ok (Pieces.piece maxIdLen i source) := if_neg (by omega)
      have write : ∃ written, writeSlot list i (Pieces.piece maxIdLen i source) = .ok written ∧ written.length = list.length ∧
          ∀ k, Pieces.piece maxIdLen k written = if k = i then Pieces.piece maxIdLen i source else Pieces.piece maxIdLen k list := by
        refine ⟨_, if_neg (by omega), ?_, fun k => ?_⟩
        · rw [Nat.succ_mul] at inside ⊢
          simp only [List.length_append, List.length_take, List.length_drop, whole]
          omega
        · have behind : (i + 1) * maxIdLen = i * maxIdLen + (Pieces.piece maxIdLen i source).length := by rw [whole, Nat.succ_mul]
          have none_ : (Pieces.piece maxIdLen i list).drop (Pieces.piece maxIdLen i source).length = [] := by
            rw [whole, List.drop_eq_nil_iff, Pieces.piece_full maxIdLen i list inside]
          rw [behind, Pieces.piece_written maxIdLen i k list _ (by rw [← behind]; exact inside) (by rw [whole]), none_, List.append_nil]
      obtain ⟨written, writes, length, pieces⟩ := write
      obtain ⟨moved, moves, same, shown⟩ := ih written (i + 1) (by rw [later, length]; exact room) (by rw [later]; exact given)
      refine ⟨moved, ?_, same.trans length, fun k => ?_⟩
      · simp only [moveLoop, read, writes, bind, Except.bind]
        exact moves
      · rw [shown k, later]
        by_cases here : k = i
        · rw [if_neg (by omega), if_pos (by omega), pieces k, if_pos here, here]
        · rw [pieces k, if_neg here]
          by_cases moving : i ≤ k ∧ k < i + (rounds + 1)
          · rw [if_pos (by omega), if_pos moving]
          · rw [if_neg (by omega), if_neg moving]

theorem move_loop_room (source list moved : Bytes) (rounds i : Nat) (done : moveLoop source rounds i list = .ok moved) :
    rounds = 0 ∨ (i + rounds) * maxIdLen ≤ list.length := by
  induction rounds generalizing i list with
  | zero => exact Or.inl rfl
  | succ rounds ih =>
      unfold moveLoop at done
      obtain ⟨block, read, rest⟩ := bind_ok _ _ _ done
      obtain ⟨written, write, moves⟩ := bind_ok _ _ _ rest
      unfold readSlot at read
      split at read
      · cases read
      · rename_i there
        cases read
        have same := write_slot_length list _ _ i (Pieces.piece_full maxIdLen i source (by omega)) write
        unfold writeSlot at write
        split at write
        · cases write
        · rename_i inside
          refine Or.inr ?_
          rcases ih written (i + 1) moves with none_ | room
          · rw [none_]
            exact Nat.le_of_not_lt inside
          · have later : i + (rounds + 1) = i + 1 + rounds := by omega
            rw [later, ← same]
            exact room

def NodeInfo.wiped (self : NodeInfo) (k : Nat) : Bytes := if k < self.reach then [] else self.slot k

theorem clear_shown (self : NodeInfo) (size : self.successorList.length = self.rMax.toNat * maxIdLen) :
    ∃ cleared, clearSlots self.successorList self.rMax = .ok cleared ∧ cleared.length = self.successorList.length ∧
      ∀ k, cstr (Pieces.piece maxIdLen k cleared) = self.wiped k := by
  have len : (shiftId self.rMax).toNat = self.reach * maxIdLen := shift_id_blocks self.rMax
  have room : self.reach * maxIdLen ≤ self.successorList.length := by
    rw [size]
    exact Nat.mul_le_mul_right _ (reach_within self)
  have done : clearSlots self.successorList self.rMax =
      .ok (List.replicate (self.reach * maxIdLen) 0 ++ self.successorList.drop (self.reach * maxIdLen)) := by
    unfold clearSlots
    dsimp only
    rw [len]
    exact if_neg (by omega)
  refine ⟨_, done, clear_slots_length _ _ _ done, fun k => ?_⟩
  unfold NodeInfo.wiped
  by_cases inside : k < self.reach
  · have within : (k + 1) * maxIdLen ≤ (List.replicate (self.reach * maxIdLen) (0 : UInt8)).length := by
      rw [List.length_replicate]
      exact Nat.mul_le_mul_right _ inside
    rw [if_pos inside, Pieces.piece_inside _ _ _ _ within, Pieces.piece, List.drop_replicate, List.take_replicate]
    exact cstr_zeros _
  · have reach : k * maxIdLen = self.reach * maxIdLen + (k - self.reach) * maxIdLen := by
      rw [← Nat.add_mul, Nat.add_sub_cancel' (by omega)]
    have whole : (List.replicate (self.reach * maxIdLen) (0 : UInt8)).length = self.reach * maxIdLen := List.length_replicate
    rw [if_neg inside, NodeInfo.slot, Pieces.piece, Pieces.piece, reach]
    nth_rewrite 1 [← whole]
    rw [List.drop_length_add_append, List.drop_drop]

theorem given_entry (given : GivenList) (rMax k : Nat) (inside : k < given.nR.toNat) (room : k < rMax) :
    ((given.entries.take rMax).map (·.chars))[k]? = some (cstr (Pieces.piece maxIdLen k given.block)) ∧
      cstr (Pieces.piece maxIdLen k given.block) ≠ [] := by
  have within : k < given.entries.length := by
    rw [given.count]
    exact inside
  have shown := given.entry k _ (List.getElem?_eq_getElem within)
  rw [List.getElem?_map, List.getElem?_take_of_lt room, List.getElem?_eq_getElem within, Option.map_some, shown]
  exact ⟨rfl, given.entries[k].nonempty⟩

theorem given_none (given : GivenList) (rMax k : Nat) (outside : given.nR.toNat ≤ k) :
    ((given.entries.take rMax).map (·.chars))[k]? = none := by
  apply List.getElem?_eq_none
  rw [List.length_map, List.length_take, given.count]
  omega

theorem given_fits (given : GivenList) (some_ : 1 ≤ given.nR.toNat) : ¬ (cstr given.block).length + 1 > maxIdLen := by
  obtain ⟨entry, shown⟩ : ∃ entry : Endpoint, cstr (Pieces.piece maxIdLen 0 given.block) = entry.chars :=
    ⟨_, given.entry 0 _ (List.getElem?_eq_getElem (by rw [given.count]; omega))⟩
  have short := entry.short
  rw [← shown] at short
  have room : maxIdLen ≤ given.block.length := (Nat.le_mul_of_pos_left _ some_).trans given.room
  rw [(first_address given.block maxIdLen room short).2]
  omega

-- The new r and the number of slots that p2pm_ni_move_successor_list copies.
def movedCounts (rMax nR : UInt32) : UInt32 × UInt32 := if nR + 1 > rMax then (rMax, rMax - 1) else (nR, nR)

theorem moved_counts (rMax nR : UInt32) (positive : 1 ≤ rMax.toNat) :
    (rMax.toNat ≤ nR.toNat ∧ nR.toNat + 1 < 2 ^ 32 ∧ (movedCounts rMax nR).1 = rMax ∧ (movedCounts rMax nR).2.toNat = rMax.toNat - 1) ∨
      ((nR.toNat < rMax.toNat ∨ nR.toNat + 1 = 2 ^ 32) ∧ movedCounts rMax nR = (nR, nR)) := by
  have one : (1 : UInt32).toNat = 1 := rfl
  have next : (nR + 1).toNat = (nR.toNat + 1) % 2 ^ 32 := by rw [UInt32.toNat_add, one]
  have bound := nR.toNat_lt
  unfold movedCounts
  by_cases over_ : nR + 1 > rMax
  · have above := UInt32.lt_iff_toNat_lt.mp over_
    have less : (rMax - 1).toNat = rMax.toNat - 1 := UInt32.toNat_sub_of_le _ _ (UInt32.le_iff_toNat_le.mpr positive)
    rw [if_pos over_]
    exact Or.inl ⟨by omega, by omega, rfl, less⟩
  · have below : ¬ rMax.toNat < (nR + 1).toNat := fun above => over_ (UInt32.lt_iff_toNat_lt.mpr above)
    rw [if_neg over_]
    exact Or.inr ⟨by omega, rfl⟩

def ListRun.moved (run : ListRun) (given : GivenList) (k : Nat) : Bytes :=
  if k = 1 ∧ (movedCounts run.node.rMax given.nR).1 < run.node.rMax ∧ 2 ≤ run.node.reach then []
  else if k < (movedCounts run.node.rMax given.nR).2.toNat % 2 ^ 24 then cstr (Pieces.piece maxIdLen k given.block)
  else run.node.wiped k

theorem move_slots (run : ListRun) (holds : run.Holds) (given : GivenList) (fits : ¬ (cstr given.block).length + 1 > maxIdLen)
    (inside : (movedCounts run.node.rMax given.nR).2.toNat % 2 ^ 24 ≤ run.node.rMax.toNat) :
    ∃ next, (ListOp.move given).perform run.node = .ok (.success, next) ∧ next.rMax = run.node.rMax ∧
      next.successor = run.node.successor ∧ next.slot = run.moved given := by
  obtain ⟨cleared, clears, length, wiped⟩ := clear_shown run.node.toNodeInfo holds.size
  have rounds : (shiftId (movedCounts run.node.rMax given.nR).2).toNat / maxIdLen =
      (movedCounts run.node.rMax given.nR).2.toNat % 2 ^ 24 := by
    rw [shift_id_blocks, Nat.mul_div_cancel _ (by decide)]
  have few : (movedCounts run.node.rMax given.nR).2.toNat % 2 ^ 24 ≤ given.nR.toNat := by
    have less := Nat.mod_le (movedCounts run.node.rMax given.nR).2.toNat (2 ^ 24)
    rcases moved_counts run.node.rMax given.nR holds.positive with ⟨_, _, _, count⟩ | ⟨_, same⟩
    · omega
    · rw [same] at less ⊢
      exact less
  obtain ⟨moved, moves, same, shown⟩ := move_loop_slots given.block cleared
    ((movedCounts run.node.rMax given.nR).2.toNat % 2 ^ 24) 0
    (by rw [Nat.zero_add, length, holds.size]; exact Nat.mul_le_mul_right _ inside)
    (by rw [Nat.zero_add]; exact (Nat.mul_le_mul_right _ few).trans given.room)
  obtain ⟨fixed, fixes, _, slots⟩ := fix_slots
    { run.node.toNodeInfo with successorList := moved, r := (movedCounts run.node.rMax given.nR).1 }
    ((same.trans length).trans holds.size)
  refine ⟨{ run.node with toNodeInfo :=
    { run.node.toNodeInfo with successorList := fixed, r := (movedCounts run.node.rMax given.nR).1 } }, ?_, rfl, rfl, funext fun k => ?_⟩
  · have ends : ¬ 0 ∉ given.block := fun absent => absent given.ends
    have chosen : (if given.nR + 1 > run.node.rMax then (run.node.rMax, run.node.rMax - 1) else (given.nR, given.nR)) =
        movedCounts run.node.rMax given.nR := rfl
    simp only [ListOp.perform, p2pmNiMoveSuccessorList, clears, bind, Except.bind, if_neg ends, if_neg fits]
    rw [chosen, rounds, moves]
    dsimp only
    rw [fixes]
    rfl
  · refine (slots k).trans ?_
    unfold ListRun.moved
    by_cases cleared_ : k = 1 ∧ (movedCounts run.node.rMax given.nR).1 < run.node.rMax ∧ 2 ≤ run.node.reach
    · exact (if_pos cleared_).trans (if_pos cleared_).symm
    · refine (if_neg cleared_).trans (Eq.trans ?_ (if_neg cleared_).symm)
      refine (shown k).trans ?_
      rw [Nat.zero_add, wiped k]
      by_cases copied : k < (movedCounts run.node.rMax given.nR).2.toNat % 2 ^ 24
      · rw [if_pos ⟨Nat.zero_le k, copied⟩, if_pos copied]
      · rw [if_neg fun both => copied both.2, if_neg copied]

theorem moved_lost (run : ListRun) (holds : run.Holds) (given : GivenList) (k : Nat) (room : k < run.node.rMax.toNat)
    (wanted : k < given.nR.toNat) (behind : (movedCounts run.node.rMax given.nR).2.toNat % 2 ^ 24 ≤ k)
    (gone : k < run.node.reach ∨ run.list.entries.length ≤ k) :
    ¬ Slots.Holds [] run.node.rMax.toNat (run.moved given) ((given.entries.take run.node.rMax.toNat).map (·.chars)) := by
  intro held
  obtain ⟨entry, some_⟩ := given_entry given run.node.rMax.toNat k wanted room
  have here := held k room
  rw [entry, Option.getD_some] at here
  rw [← here] at some_
  apply some_
  have copied : ¬ k < (movedCounts run.node.rMax given.nR).2.toNat % 2 ^ 24 := by omega
  have empty : run.node.wiped k = [] := by
    unfold NodeInfo.wiped
    by_cases inside : k < run.node.reach
    · exact if_pos inside
    · rw [if_neg inside]
      by_contra left_
      have less := (holds.slots k room).mp left_
      omega
  unfold ListRun.moved
  rw [if_neg copied, empty, ite_self]

theorem moved_short (run : ListRun) (holds : run.Holds) (given : GivenList) (short : given.nR.toNat < run.node.rMax.toNat)
    (few : given.nR.toNat < 2 ^ 24) :
    Slots.Holds [] run.node.rMax.toNat (run.moved given) ((given.entries.take run.node.rMax.toNat).map (·.chars)) ↔
      run.list.entries.length ≤ max run.node.reach given.nR.toNat ∧ (given.nR.toNat ≤ 1 ∨ run.node.reach ≤ 1) := by
  have within := reach_within run.node.toNodeInfo
  have bounded := holds.bounded
  have counts : movedCounts run.node.rMax given.nR = (given.nR, given.nR) := by
    rcases moved_counts run.node.rMax given.nR holds.positive with ⟨above, _⟩ | ⟨_, same⟩
    · omega
    · exact same
  have copied : given.nR.toNat % 2 ^ 24 = given.nR.toNat := Nat.mod_eq_of_lt few
  have less : given.nR < run.node.rMax := UInt32.lt_iff_toNat_lt.mpr short
  have moved : ∀ k, run.moved given k = if k = 1 ∧ 2 ≤ run.node.reach then []
      else if k < given.nR.toNat then cstr (Pieces.piece maxIdLen k given.block) else run.node.wiped k := by
    intro k
    unfold ListRun.moved
    rw [counts]
    dsimp only
    simp only [copied, less, true_and]
  constructor
  · intro held
    constructor
    · by_contra more
      have inside : max run.node.reach given.nR.toNat < run.node.rMax.toNat := by omega
      have here := held _ inside
      have apart : ¬ (max run.node.reach given.nR.toNat = 1 ∧ 2 ≤ run.node.reach) := by omega
      rw [given_none given _ _ (le_max_right _ _), moved, if_neg apart, if_neg (by omega), NodeInfo.wiped, if_neg (by omega)] at here
      exact (holds.slots _ inside).mpr (by omega) here
    · by_contra many
      obtain ⟨entry, some_⟩ := given_entry given run.node.rMax.toNat 1 (by omega) (by omega)
      have here := held 1 (by omega)
      rw [entry, moved, if_pos ⟨rfl, by omega⟩] at here
      exact some_ here.symm
  · rintro ⟨rest, few_⟩ k room
    rw [moved]
    by_cases cleared : k = 1 ∧ 2 ≤ run.node.reach
    · rw [if_pos cleared, given_none given _ _ (by omega), Option.getD_none]
    · rw [if_neg cleared]
      by_cases inside : k < given.nR.toNat
      · rw [if_pos inside, (given_entry given _ k inside room).1, Option.getD_some]
      · rw [if_neg inside, given_none given _ _ (by omega), Option.getD_none]
        unfold NodeInfo.wiped
        by_cases reached : k < run.node.reach
        · exact if_pos reached
        · rw [if_neg reached]
          by_contra left_
          have before := (holds.slots k room).mp left_
          omega

theorem move_inside (run : ListRun) (holds : run.Holds) (given : GivenList) (code : P2pmOpcodes) (next : P2pmNodeInfo)
    (fits : ¬ (cstr given.block).length + 1 > maxIdLen) (done : (ListOp.move given).perform run.node = .ok (code, next)) :
    (movedCounts run.node.rMax given.nR).2.toNat % 2 ^ 24 ≤ run.node.rMax.toNat := by
  have ends : ¬ 0 ∉ given.block := fun absent => absent given.ends
  have chosen : (if given.nR + 1 > run.node.rMax then (run.node.rMax, run.node.rMax - 1) else (given.nR, given.nR)) =
      movedCounts run.node.rMax given.nR := rfl
  obtain ⟨cleared, clears, rest⟩ := bind_ok _ _ _ done
  rw [if_neg ends, if_neg fits, chosen] at rest
  obtain ⟨moved, moves, _⟩ := bind_ok _ _ _ rest
  have length := clear_slots_length _ _ _ clears
  have room := move_loop_room _ _ _ _ _ moves
  rw [shift_id_blocks, Nat.mul_div_cancel _ (by decide), Nat.zero_add, length, holds.size] at room
  rcases room with none_ | room
  · exact none_.le.trans (Nat.zero_le _)
  · exact Nat.le_of_mul_le_mul_right room (by decide)

theorem moved_first (given : GivenList) (rMax : Nat) (positive : 1 ≤ rMax) (slot : Nat → Bytes) (successor : Bytes)
    (held : Slots.Holds [] rMax slot ((given.entries.take rMax).map (·.chars))) :
    (given.entries.take rMax ≠ [] → successor = slot 0) ↔
      ∀ entry, given.entries[0]? = some entry → successor = entry.chars := by
  have first := held 0 (by omega)
  rw [List.getElem?_map, List.getElem?_take_of_lt (by omega)] at first
  cases entries : given.entries with
  | nil => simp
  | cons entry rest =>
      rw [entries] at first
      obtain ⟨less, same⟩ : ∃ less, rMax = less + 1 := ⟨rMax - 1, by omega⟩
      rw [same]
      simp only [List.take_succ_cons, ne_eq, reduceCtorEq, not_false_eq_true, forall_const, List.getElem?_cons_zero, Option.some.injEq,
        forall_eq']
      rw [first]
      rfl

theorem moved_implements (run : ListRun) (holds : run.Holds) (given : GivenList) (next : P2pmNodeInfo) (slot : Nat → Bytes)
    (bound : next.rMax = run.node.rMax) (same : next.successor = run.node.successor) (slots : next.slot = slot) :
    Implements next (run.list.after (.move given)) ↔
      Slots.Holds [] run.node.rMax.toNat slot ((given.entries.take run.node.rMax.toNat).map (·.chars)) ∧
        ∀ entry, given.entries[0]? = some entry → run.node.successor = entry.chars := by
  have entries : (run.list.after (.move given)).entries = given.entries.take run.node.rMax.toNat := by rw [holds.bound]; rfl
  rw [implements_iff next (run.list.after (.move given)) (bound.trans holds.bound), bound, same, slots, entries]
  exact and_congr_right fun held => moved_first given _ holds.positive slot _ held

theorem moved_holds_iff (run : ListRun) (holds : run.Holds) (given : GivenList)
    (inside : (movedCounts run.node.rMax given.nR).2.toNat % 2 ^ 24 ≤ run.node.rMax.toNat) :
    Slots.Holds [] run.node.rMax.toNat (run.moved given) ((given.entries.take run.node.rMax.toNat).map (·.chars)) ↔
      (given.nR < run.node.rMax ∧ given.nR.toNat < 2 ^ 24 ∧ run.list.entries.length ≤ max run.node.reach given.nR.toNat ∧
          (given.nR.toNat ≤ 1 ∨ run.node.reach ≤ 1) ∨
        given.nR.toNat = 2 ^ 32 - 1 ∧ run.node.rMax.toNat = 2 ^ 24 - 1) := by
  have small := holds.small
  have positive := holds.positive
  have bound := run.node.rMax.toNat_lt
  have reach : run.node.reach = run.node.rMax.toNat % 2 ^ 24 := rfl
  by_cases short : given.nR.toNat < run.node.rMax.toNat
  · have less : given.nR < run.node.rMax := UInt32.lt_iff_toNat_lt.mpr short
    by_cases few : given.nR.toNat < 2 ^ 24
    · rw [moved_short run holds given short few]
      constructor
      · exact fun both => Or.inl ⟨less, few, both⟩
      · rintro (both | last)
        · exact both.2.2
        · omega
    · have counts : movedCounts run.node.rMax given.nR = (given.nR, given.nR) := by
        rcases moved_counts run.node.rMax given.nR positive with ⟨above, _⟩ | ⟨_, same⟩
        · omega
        · exact same
      have lost := moved_lost run holds given (2 ^ 24 - 1) (by omega) (by omega) (by rw [counts]; dsimp only; omega) (by omega)
      constructor
      · exact fun held => absurd held lost
      · rintro (both | last)
        · exact absurd both.2.1 few
        · omega
  · have not_less : ¬ given.nR < run.node.rMax := fun less => short (UInt32.lt_iff_toNat_lt.mp less)
    rcases moved_counts run.node.rMax given.nR positive with ⟨above, wraps, _, count⟩ | ⟨less | last, counts⟩
    · have lost := moved_lost run holds given (min (run.node.rMax.toNat - 1) (2 ^ 24 - 1)) (by omega) (by omega)
        (by rw [count]; omega) (by omega)
      constructor
      · exact fun held => absurd held lost
      · rintro (both | both)
        · exact absurd both.1 not_less
        · omega
    · exact absurd less short
    · rw [counts] at inside
      dsimp only at inside
      by_cases whole : run.node.rMax.toNat = 2 ^ 24 - 1
      · refine ⟨fun _ => Or.inr ⟨by omega, whole⟩, fun _ k room => ?_⟩
        have more : ¬ given.nR < run.node.rMax := not_less
        have copied : k < given.nR.toNat % 2 ^ 24 := by omega
        unfold ListRun.moved
        rw [counts]
        dsimp only
        rw [if_neg fun both => more both.2.1, if_pos copied, (given_entry given _ k (by omega) room).1, Option.getD_some]
      · have lost := moved_lost run holds given (2 ^ 24 - 1) (by omega) (by omega) (by rw [counts]; dsimp only; omega) (by omega)
        constructor
        · exact fun held => absurd held lost
        · rintro (both | both)
          · exact absurd both.1 not_less
          · exact absurd both.2 whole

theorem wiped_holds_iff (run : ListRun) (holds : run.Holds) :
    Slots.Holds [] run.node.rMax.toNat run.node.wiped [] ↔ run.list.entries.length ≤ run.node.reach := by
  have bounded := holds.bounded
  constructor
  · intro held
    by_contra more
    have here := held run.node.reach (by omega)
    rw [NodeInfo.wiped, if_neg (lt_irrefl _), List.getElem?_nil, Option.getD_none] at here
    exact (holds.slots _ (by omega)).mpr (by omega) here
  · intro less k room
    rw [List.getElem?_nil, Option.getD_none]
    unfold NodeInfo.wiped
    by_cases reached : k < run.node.reach
    · exact if_pos reached
    · rw [if_neg reached]
      by_contra left_
      have before := (holds.slots k room).mp left_
      omega

theorem move_follows_iff (run : ListRun) (holds : run.Holds) (given : GivenList) :
    run.Follows (.move given) ↔ run.Keeps (.move given) := by
  have positive := holds.positive
  by_cases fits : (cstr given.block).length + 1 > maxIdLen
  · have none_ : given.nR.toNat = 0 := by
      by_contra some_
      exact given_fits given (by omega) fits
    have nil : given.entries = [] := List.length_eq_zero_iff.mp (given.count.trans none_)
    obtain ⟨cleared, clears, _, wiped⟩ := clear_shown run.node.toNodeInfo holds.size
    have ends : ¬ 0 ∉ given.block := fun absent => absent given.ends
    have done : (ListOp.move given).perform run.node = .ok (.invalid, { run.node with successorList := cleared }) := by
      simp only [ListOp.perform, p2pmNiMoveSuccessorList, clears, bind, Except.bind, if_neg ends, if_pos fits, pure, Except.pure]
    have implements := moved_implements run holds given { run.node with successorList := cleared } run.node.wiped rfl rfl (funext wiped)
    have less : given.nR < run.node.rMax := UInt32.lt_iff_toNat_lt.mpr (by omega)
    rw [follows_iff run _ _ _ done, implements, nil, List.take_nil, List.map_nil, wiped_holds_iff run holds]
    unfold ListRun.Keeps
    dsimp only
    rw [nil]
    constructor
    · rintro ⟨_, room, first⟩
      exact ⟨Or.inl ⟨less, by omega, by omega, by omega⟩, first⟩
    · rintro ⟨⟨_, _, room, _⟩ | ⟨last, _⟩, first⟩
      · exact ⟨trivial, by omega, first⟩
      · omega
  · by_cases inside : (movedCounts run.node.rMax given.nR).2.toNat % 2 ^ 24 ≤ run.node.rMax.toNat
    · obtain ⟨next, done, bound, same, slots⟩ := move_slots run holds given fits inside
      rw [follows_iff run _ _ next done, moved_implements run holds given next _ bound same slots, moved_holds_iff run holds given inside]
      exact ⟨fun both => both.2, fun both => ⟨trivial, both⟩⟩
    · constructor
      · rintro ⟨code, next, done, _⟩
        exact absurd (move_inside run holds given code next fits done) inside
      · rintro ⟨⟨less, _⟩ | ⟨last, whole⟩, _⟩
        · have short := UInt32.lt_iff_toNat_lt.mp less
          rcases moved_counts run.node.rMax given.nR positive with ⟨above, _⟩ | ⟨_, counts⟩
          · omega
          · rw [counts] at inside
            dsimp only at inside
            omega
        · rcases moved_counts run.node.rMax given.nR positive with ⟨_, wraps, _⟩ | ⟨_, counts⟩
          · omega
          · rw [counts] at inside
            dsimp only at inside
            omega

theorem copy_to_length (list items copied : Bytes) (offset : Nat) (done : copyTo list offset items = .ok copied) :
    copied.length = list.length := by
  unfold copyTo at done
  split at done
  · cases done
  · cases done
    simp only [List.length_append, List.length_take, List.length_drop]
    omega

theorem move_loop_length (source list moved : Bytes) (rounds i : Nat) (done : moveLoop source rounds i list = .ok moved) :
    moved.length = list.length := by
  induction rounds generalizing i list with
  | zero =>
      cases done
      rfl
  | succ rounds ih =>
      unfold moveLoop at done
      obtain ⟨block, read, rest⟩ := bind_ok _ _ _ done
      obtain ⟨written, write, moves⟩ := bind_ok _ _ _ rest
      unfold readSlot at read
      split at read
      · cases read
      · cases read
        have whole := Pieces.piece_full maxIdLen i source (by omega)
        exact (ih written (i + 1) moves).trans (write_slot_length list _ _ i whole write)

-- The block of r_max slots.
def NodeInfo.Sized (self : NodeInfo) : Prop := self.successorList.length = self.rMax.toNat * maxIdLen

theorem fix_sized (self fixed : NodeInfo) (sized : self.Sized) (done : p2pmNiFixSuccessorList self = .ok fixed) : fixed.Sized := by
  obtain ⟨list, fixes, length, _⟩ := fix_slots self sized
  cases fixes.symm.trans done
  exact length.trans sized

theorem perform_sized (self next : P2pmNodeInfo) (op : ListOp) (code : P2pmOpcodes) (sized : self.Sized)
    (done : op.perform self = .ok (code, next)) : next.Sized := by
  cases op with
  | add successor =>
      simp only [ListOp.perform, p2pmNiAddSuccessor] at done
      split at done
      · cases done
        exact sized
      · obtain ⟨fixed, fixes, rest⟩ := bind_ok _ _ _ done
        obtain ⟨i, _, rest⟩ := bind_ok _ _ _ rest
        have whole := fix_sized _ _ sized fixes
        split at rest
        · cases rest
          exact whole
        · obtain ⟨list, copies, rest⟩ := bind_ok _ _ _ rest
          have length := copy_to_length _ _ _ _ copies
          split at rest
          · cases rest
            exact length.trans whole
          · cases rest
            exact length.trans whole
  | remove i =>
      simp only [ListOp.perform, p2pmNiRemoveSuccessor] at done
      split at done
      · cases done
        exact sized
      · obtain ⟨list, copies, rest⟩ := bind_ok _ _ _ done
        obtain ⟨fixed, fixes, rest⟩ := bind_ok _ _ _ rest
        cases rest
        exact fix_sized _ _ (by exact (copy_to_length _ _ _ _ copies).trans sized) fixes
  | fix =>
      obtain ⟨fixed, fixes, rest⟩ := bind_ok _ _ _ done
      cases rest
      exact fix_sized _ _ sized fixes
  | move given =>
      obtain ⟨cleared, clears, rest⟩ := bind_ok _ _ _ done
      have length := clear_slots_length _ _ _ clears
      split at rest
      · cases rest
      · split at rest
        · cases rest
          exact length.trans sized
        · obtain ⟨moved, moves, rest⟩ := bind_ok _ _ _ rest
          obtain ⟨fixed, fixes, rest⟩ := bind_ok _ _ _ rest
          cases rest
          exact fix_sized _ _ (by exact ((move_loop_length _ _ _ _ _ moves).trans length).trans sized) fixes
  | reset rMax memory =>
      by_cases less : rMax < self.rMax
      · have same : (ListOp.reset rMax memory).perform self = .ok (.invalid, self) := congrArg Except.ok (if_pos less)
        cases same.symm.trans done
        exact sized
      · cases memory with
        | none =>
            have same : (ListOp.reset rMax none).perform self = .ok (.failure, self) := congrArg Except.ok (if_neg less)
            cases same.symm.trans done
            exact sized
        | some byte =>
            obtain ⟨larger, resets, bound, _, length, _⟩ := reset_slots self rMax byte sized (UInt32.not_lt.mp less)
            have same : (ListOp.reset rMax (some byte)).perform self = .ok (.success, larger) := congrArg Except.ok resets
            cases same.symm.trans done
            unfold NodeInfo.Sized
            rw [length, bound]

theorem follows_iff_keeps (run : ListRun) (op : ListOp) (holds : run.Holds) : run.Follows op ↔ run.Keeps op := by
  cases op with
  | add successor => exact add_follows_iff run holds successor
  | remove i => exact remove_follows_iff run holds i
  | fix => exact fix_follows_iff run holds
  | move given => exact move_follows_iff run holds given
  | reset rMax memory => exact reset_follows_iff run holds rMax memory

theorem after_bound (list : BoundedList) (op : ListOp) : list.rMax.toNat ≤ (list.after op).rMax.toNat := by
  cases op with
  | add successor =>
      simp only [BoundedList.after, BoundedList.append]
      split
      · exact le_rfl
      · exact le_rfl
  | remove i => exact le_rfl
  | fix => exact le_rfl
  | move given => exact le_rfl
  | reset rMax memory =>
      simp only [BoundedList.after, BoundedList.enlarge]
      split
      · split
        · rename_i more
          exact UInt32.le_iff_toNat_le.mp more
        · exact le_rfl
      · exact le_rfl

-- An operation that keeps the list leaves it shorter than what the loops get to.
theorem after_small (run : ListRun) (op : ListOp) (holds : run.Holds) (keeps : run.Keeps op) :
    (run.list.after op).entries.length < 2 ^ 24 := by
  have small := holds.small
  cases op with
  | add successor =>
      have reach : run.node.reach < 2 ^ 24 := Nat.mod_lt _ (by decide)
      rcases keeps.2 with room | full
      · have more : run.list.entries.length < run.list.rMax.toNat := by
          rw [← holds.bound]
          exact room.trans_le (reach_within run.node.toNodeInfo)
        rw [(append_room run.list successor more).1, List.length_append, List.length_singleton]
        omega
      · rw [append_full run.list successor (by rw [full, holds.bound])]
        exact small
  | remove i => exact (List.length_eraseIdx_le _ _).trans_lt small
  | fix => exact small
  | move given =>
      have taken : (run.list.after (.move given)).entries.length = min run.list.rMax.toNat given.nR.toNat := by
        rw [← given.count]
        exact List.length_take
      rw [taken, ← holds.bound]
      rcases keeps.1 with ⟨_, few, _⟩ | ⟨_, whole⟩
      · omega
      · omega
  | reset rMax memory =>
      simp only [BoundedList.after, BoundedList.enlarge]
      split
      · split
        · exact small
        · exact small
      · exact small

theorem list_step_holds (run next : ListRun) (op : ListOp) (holds : run.Holds) (keeps : run.Keeps op)
    (taken : run.step op = some next) : next.Holds := by
  obtain ⟨code, node, done, _, implements⟩ := (follows_iff_keeps run op holds).mpr keeps
  have same : run.step op = some { node := node, list := run.list.after op } := by rw [ListRun.step, done]
  cases same.symm.trans taken
  have held := (implements_iff node _ implements.bound).mp implements
  refine ⟨implements.bound, perform_sized _ _ op code holds.size done, ?_, after_small run op holds keeps, held.1, held.2⟩
  have positive := holds.positive
  rw [implements.bound]
  rw [holds.bound] at positive
  exact positive.trans (after_bound run.list op)

theorem list_start_holds (found : Nat → Bytes) (rMax : UInt32) (joinAddr : Bytes) (node : P2pmNodeInfo) (positive : 1 ≤ rMax.toNat)
    (created : p2pmNiCreate found rMax joinAddr = .ok node) : (ListRun.start node).Holds := by
  unfold p2pmNiCreate at created
  split at created
  · cases created
  · cases created
    refine ⟨rfl, List.length_replicate, positive, (by decide : 0 < 2 ^ 24), fun k room => ?_, fun some_ => absurd rfl some_⟩
    dsimp only [ListRun.start, NodeInfo.slot]
    rw [Pieces.piece, List.drop_replicate, List.take_replicate]
    exact cstr_zeros _

-- From an empty list on, the slots follow the list operation by operation exactly as long as each of them keeps it.
theorem successor_list_follows_iff (found : Nat → Bytes) (rMax : UInt32) (joinAddr : Bytes) (node : P2pmNodeInfo) (ops : List ListOp)
    (positive : 1 ≤ rMax.toNat) (created : p2pmNiCreate found rMax joinAddr = .ok node) :
    Runs.Obeys ListRun.step ListRun.Follows (ListRun.start node) ops ↔
      Runs.Obeys ListRun.step ListRun.Keeps (ListRun.start node) ops :=
  Runs.obeys_iff_guarded ListRun.step ListRun.Follows ListRun.Keeps ListRun.Holds
    (fun run op holds => follows_iff_keeps run op holds)
    (fun run op next holds keeps taken => list_step_holds run next op holds keeps taken)
    (ListRun.start node) ops (list_start_holds found rMax joinAddr node positive created)

def sampleCreated (rMax : UInt32) : P2pmNodeInfo :=
  { successor := [], predecessor := [49], tempPredecessor := [], tempSuccessor := []
    successorList := List.replicate (rMax.toNat * maxIdLen) 0, r := 0, rMax := rMax }

def sampleAddress : Endpoint := ⟨⟨[49], by decide⟩, by simp, by decide⟩

theorem sample_block_length : ([49] ++ 0 :: List.replicate 254 (0 : UInt8)).length = maxIdLen := by
  simp only [List.length_append, List.length_cons, List.length_nil, List.length_replicate, maxIdLen]

def sampleGiven : GivenList where
  block := [49] ++ 0 :: List.replicate 254 0
  nR := 1
  entries := [sampleAddress]
  count := rfl
  room := sample_block_length.ge
  entry k entry here := by
    match k with
    | 0 =>
        cases here
        rw [Pieces.piece, Nat.zero_mul, List.drop_zero, List.take_of_length_le sample_block_length.le]
        exact cstr_terminated [49] _ (by decide)
    | _ + 1 => cases here
  ends := List.mem_append_right _ List.mem_cons_self

set_option maxRecDepth 20000 in
theorem sample_list_keeps :
    Runs.Obeys ListRun.step ListRun.Keeps (ListRun.start (sampleCreated 3)) [.add sampleAddress, .move sampleGiven] := by
  refine ⟨⟨fun _ => by decide, Or.inl (by decide)⟩, fun next taken => ?_⟩
  obtain ⟨added, step, bound, one, first⟩ : ∃ added, (ListRun.start (sampleCreated 3)).step (.add sampleAddress) = some added ∧
      added.node.rMax = 3 ∧ added.list.entries = [sampleAddress] ∧ added.node.successor = [49] := ⟨_, rfl, rfl, rfl, rfl⟩
  cases step.symm.trans taken
  refine ⟨⟨Or.inl ⟨?_, by decide, ?_, Or.inl (by decide)⟩, fun entry given => ?_⟩, fun _ _ => trivial⟩
  · rw [bound]
    decide
  · rw [one]
    exact le_max_of_le_right (by decide)
  · cases given
    exact first

-- One address is added to an empty list, and a list of it moved there.
theorem successor_list_follows_iff_sample : p2pmNiCreate (fun _ => []) 3 [49] = .ok (sampleCreated 3) ∧
    Runs.Obeys ListRun.step ListRun.Follows (ListRun.start (sampleCreated 3)) [.add sampleAddress, .move sampleGiven] :=
  ⟨rfl, (successor_list_follows_iff (fun _ => []) 3 [49] (sampleCreated 3) [.add sampleAddress, .move sampleGiven] (by decide) rfl).mpr
    sample_list_keeps⟩

-- With room for one entry nothing is moved.
theorem moved_nothing : ¬ ∀ (found : Nat → Bytes) (rMax : UInt32) (joinAddr : Bytes) (node : P2pmNodeInfo) (ops : List ListOp),
    1 ≤ rMax.toNat → p2pmNiCreate found rMax joinAddr = .ok node →
      Runs.Obeys ListRun.step ListRun.Follows (ListRun.start node) ops := by
  intro all
  have obeys := all (fun _ => []) 1 [49] (sampleCreated 1) [.move sampleGiven] (by decide) rfl
  have holds := list_start_holds (fun _ => []) 1 [49] (sampleCreated 1) (by decide) rfl
  have keeps := (follows_iff_keeps _ _ holds).mp obeys.1
  rcases keeps.1 with ⟨less, _⟩ | ⟨last, _⟩
  · exact absurd less (by decide)
  · exact absurd last (by decide)

end Synergy
