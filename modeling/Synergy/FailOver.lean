import Synergy.P2pmMessages

set_option autoImplicit false

namespace Synergy

-- ready has been reached from self over count executions of the step, between which nothing touches the list.
inductive FailedOver (env : P2pmEnv) (self : P2pm) : Nat → P2pm → Prop where
  | start (ready : P2pm) (kept : ready.nodeList = self.nodeList) : FailedOver env self 0 ready
  | again (count : Nat) (before after ready : P2pm) (reached : FailedOver env self count before)
      (done : failOver env before = .ok after) (kept : ready.nodeList = after.nodeList) : FailedOver env self (count + 1) ready

-- The current successor is disconnected and the address takes its place.
structure SwitchesTo (env : P2pmEnv) (ready after : P2pm) (address : Bytes) : Prop where
  successor : after.nodeList.successor = address
  socket : after.successorSocket =
    (zmqConnect env ready.closed (zmqDisconnect ready.successorSocket ready.nodeList.successor) address).2

def noMoreSuccessors (self : P2pm) : P2pm :=
  { self with
    serverTriggeredActions := .stabilizeFindHead
    currentStatus := .findingHead
    successorSocketExpectedActions := .noXpv }

-- Execution by execution, the entries behind the first and then none.
def WalksList (env : P2pmEnv) (self : P2pm) (entries : List Bytes) : Prop :=
  ∀ count ready, FailedOver env self count ready →
    (count + 1 < entries.length → ∃ after entry, failOver env ready = .ok after ∧ entries[count + 1]? = some entry ∧
      SwitchesTo env ready after entry) ∧
    (count + 1 = entries.length → failOver env ready = .ok (noMoreSuccessors ready))

-- A block of r_max slots: distinct addresses in the first r, and nothing behind them.
structure HoldsEntries (info : NodeInfo) (entries : List Bytes) : Prop where
  size : info.successorList.length = info.rMax.toNat * maxIdLen
  count : info.r.toNat = entries.length
  fits : info.r.toNat ≤ info.rMax.toNat
  entry : ∀ i entry, entries[i]? = some entry → info.slot i = entry ∧ entry ≠ [] ∧ entry.length < maxIdLen
  behind : ∀ i, entries.length ≤ i → i < info.rMax.toNat → info.slot i = []
  distinct : entries.Nodup

-- The condense loop gets to the second slot, and clears it.
def NodeInfo.clearsSecond (self : NodeInfo) : Prop := self.r < self.rMax ∧ 2 ≤ self.rMax.toNat % 2 ^ 24

instance (self : NodeInfo) : Decidable self.clearsSecond := inferInstanceAs (Decidable (_ ∧ _))

theorem read_first (first later : Bytes) (full : first.length = maxIdLen) : readSlot (first ++ later) 0 = .ok first := by
  have room : ¬ (first ++ later).length < (0 + 1) * maxIdLen := by
    rw [List.length_append]
    omega
  rw [readSlot, if_neg room, Pieces.piece_front maxIdLen first later full]

theorem read_second (first second later : Bytes) (full : first.length = maxIdLen) (fullSecond : second.length = maxIdLen) :
    readSlot (first ++ (second ++ later)) 1 = .ok second := by
  have room : ¬ (first ++ (second ++ later)).length < (1 + 1) * maxIdLen := by
    rw [List.length_append, List.length_append]
    omega
  rw [readSlot, if_neg room, Pieces.piece_behind maxIdLen 0 first _ full, Pieces.piece_front maxIdLen second later fullSecond]

theorem write_first (first later block : Bytes) (full : first.length = maxIdLen) :
    writeSlot (first ++ later) 0 block = .ok (block ++ later) := by
  have room : ¬ (first ++ later).length < (0 + 1) * maxIdLen := by
    rw [List.length_append]
    omega
  rw [writeSlot, if_neg room, Nat.zero_mul, List.take_zero, List.nil_append, Nat.zero_add, Nat.one_mul, ← full, List.drop_left]

theorem write_second (first second later block : Bytes) (full : first.length = maxIdLen) (fullSecond : second.length = maxIdLen) :
    writeSlot (first ++ (second ++ later)) 1 block = .ok (first ++ (block ++ later)) := by
  have room : ¬ (first ++ (second ++ later)).length < (1 + 1) * maxIdLen := by
    rw [List.length_append, List.length_append]
    omega
  have both : (1 + 1) * maxIdLen = (first ++ second).length := by rw [List.length_append]; omega
  rw [writeSlot, if_neg room, both, ← List.append_assoc, List.drop_left, Nat.one_mul, ← full, List.append_assoc first second,
    List.take_left, List.append_assoc]

-- Behind the second slot ok is never set again.
theorem condense_idle (rounds ptr : Nat) (list : Bytes) (behind : ptr ≠ 0) : condenseLoop rounds ptr false list = .ok list := by
  induction rounds generalizing ptr with
  | zero => rfl
  | succ rounds ih => rw [condenseLoop, if_neg behind, if_neg Bool.false_ne_true, ih (ptr + 1) (Nat.succ_ne_zero ptr)]

theorem condense_second (rounds : Nat) (first second later : Bytes) (full : first.length = maxIdLen)
    (fullSecond : second.length = maxIdLen) :
    condenseLoop rounds 0 false (first ++ (second ++ later)) =
      .ok (first ++ ((if 2 ≤ rounds then List.replicate maxIdLen 0 else second) ++ later)) := by
  cases rounds with
  | zero => rfl
  | succ rounds =>
      rw [condenseLoop, if_pos rfl]
      cases rounds with
      | zero => rfl
      | succ rounds =>
          have many : 2 ≤ rounds + 1 + 1 := by omega
          have second_ : ¬ 0 + 1 = 0 := by omega
          rw [condenseLoop, if_neg second_, if_pos rfl, read_first first _ full, if_pos many]
          simp only [bind, Except.bind, Nat.zero_add]
          rw [write_second first second later first full fullSecond]
          simp only
          rw [write_second first first later _ full full]
          exact condense_idle rounds (1 + 1) _ (by omega)

theorem fix_second (self : NodeInfo) (first second later : Bytes) (list : self.successorList = first ++ (second ++ later))
    (full : first.length = maxIdLen) (fullSecond : second.length = maxIdLen) :
    p2pmNiFixSuccessorList self =
      .ok { self with
            successorList := first ++ ((if self.clearsSecond then List.replicate maxIdLen 0 else second) ++ later) } := by
  have slots : (shiftId self.rMax).toNat / maxIdLen = self.rMax.toNat % 2 ^ 24 := by
    rw [shift_id_blocks, Nat.mul_div_cancel _ (by decide)]
  rw [p2pmNiFixSuccessorList]
  by_cases room : self.r ≥ self.rMax
  · have stays : ¬ self.clearsSecond := fun ⟨below, _⟩ => absurd below (UInt32.not_lt.mpr room)
    rw [if_pos room, if_neg stays, ← list]
  · have below : self.r < self.rMax := UInt32.not_le.mp room
    rw [if_neg room, slots, list, condense_second _ first second later full fullSecond]
    by_cases many : 2 ≤ self.rMax.toNat % 2 ^ 24
    · rw [if_pos many, if_pos ⟨below, many⟩]
      rfl
    · rw [if_neg many, if_neg fun both => many both.2]
      rfl

theorem fail_over_second (env : P2pmEnv) (self : P2pm) (first second later : Bytes)
    (list : self.nodeList.successorList = first ++ (second ++ later)) (full : first.length = maxIdLen)
    (fullSecond : second.length = maxIdLen) (some_ : second.head? ≠ some 0) (ends : 0 ∈ second) :
    ∃ after, failOver env self = .ok after ∧ SwitchesTo env self after (cstr second) ∧
      after.successorSocketExpectedActions = .pingAndStabilizeReq ∧ after.currentStatus = self.currentStatus ∧
      after.nodeList.rMax = self.nodeList.rMax ∧
      after.nodeList.successorList =
        second ++ ((if self.nodeList.clearsSecond then List.replicate maxIdLen 0 else second) ++ later) := by
  have present : ¬ 0 ∉ second := fun absent => absent ends
  have fixed := fix_second { self.nodeList.toNodeInfo with successorList := second ++ (second ++ later) } second second later rfl fullSecond
    fullSecond
  have same : ({ self.nodeList.toNodeInfo with successorList := second ++ (second ++ later) } : NodeInfo).clearsSecond ↔
      self.nodeList.clearsSecond := Iff.rfl
  rw [failOver, list, read_second first second later full fullSecond]
  simp only [bind, Except.bind, some_, ne_eq, not_false_eq_true, if_true]
  rw [write_first first _ second full]
  simp only [fixed, same]
  rw [read_first second _ fullSecond]
  simp only [present, if_false, pure, Except.pure]
  exact ⟨_, rfl, ⟨rfl, rfl⟩, rfl, rfl, rfl, rfl⟩

theorem fail_over_endless (env : P2pmEnv) (self : P2pm) (first second later : Bytes)
    (list : self.nodeList.successorList = first ++ (second ++ later)) (full : first.length = maxIdLen)
    (fullSecond : second.length = maxIdLen) (some_ : second.head? ≠ some 0) (endless : 0 ∉ second) :
    failOver env self = .error .undefined := by
  have fixed := fix_second { self.nodeList.toNodeInfo with successorList := second ++ (second ++ later) } second second later rfl fullSecond
    fullSecond
  rw [failOver, list, read_second first second later full fullSecond]
  simp only [bind, Except.bind, some_, ne_eq, not_false_eq_true, if_true]
  rw [write_first first _ second full]
  simp only [fixed]
  rw [read_first second _ fullSecond]
  simp only [endless, not_false_eq_true, if_true]
  rfl

theorem fail_over_none (env : P2pmEnv) (self : P2pm) (first second later : Bytes)
    (list : self.nodeList.successorList = first ++ (second ++ later)) (full : first.length = maxIdLen)
    (fullSecond : second.length = maxIdLen) (none_ : second.head? = some 0) :
    failOver env self = .ok (noMoreSuccessors self) := by
  rw [failOver, list, read_second first second later full fullSecond]
  simp only [bind, Except.bind, none_, ne_eq, not_true_eq_false, if_false]
  rfl

theorem starts_empty (block : Bytes) (full : block.length = maxIdLen) : block.head? = some 0 ↔ cstr block = [] := by
  cases block with
  | nil => cases full
  | cons c rest =>
      by_cases zero : c = 0
      · simp [cstr, zero]
      · simp [cstr, zero]

theorem ends_inside (block : Bytes) (full : block.length = maxIdLen) (short : (cstr block).length < maxIdLen) : 0 ∈ block := by
  have front : Pieces.piece maxIdLen 0 block = block := by
    rw [Pieces.piece, Nat.zero_mul, List.drop_zero, ← full, List.take_length]
  exact (first_address block maxIdLen full.ge (front.symm ▸ short)).1

theorem two_slots (self : NodeInfo) (room : 2 * maxIdLen ≤ self.successorList.length) :
    ∃ first second later, self.successorList = first ++ (second ++ later) ∧ first.length = maxIdLen ∧ second.length = maxIdLen ∧
      cstr second = self.slot 1 := by
  have split : self.successorList = self.successorList.take maxIdLen ++
      ((self.successorList.drop maxIdLen).take maxIdLen ++ (self.successorList.drop maxIdLen).drop maxIdLen) := by
    rw [List.take_append_drop, List.take_append_drop]
  have full : (self.successorList.take maxIdLen).length = maxIdLen := by
    rw [List.length_take]
    omega
  have fullSecond : ((self.successorList.drop maxIdLen).take maxIdLen).length = maxIdLen := by
    rw [List.length_take, List.length_drop]
    omega
  refine ⟨_, _, _, split, full, fullSecond, ?_⟩
  rw [NodeInfo.slot, Pieces.piece, Nat.one_mul]

theorem fail_over_slot (env : P2pmEnv) (self : P2pm) (size : self.nodeList.successorList.length = self.nodeList.rMax.toNat * maxIdLen)
    (two : 2 ≤ self.nodeList.rMax.toNat) (short : (self.nodeList.slot 1).length < maxIdLen) :
    (self.nodeList.slot 1 = [] ∧ failOver env self = .ok (noMoreSuccessors self)) ∨
      (self.nodeList.slot 1 ≠ [] ∧ ∃ after, failOver env self = .ok after ∧ SwitchesTo env self after (self.nodeList.slot 1) ∧
        after.successorSocketExpectedActions = .pingAndStabilizeReq ∧
        after.nodeList.rMax = self.nodeList.rMax ∧
        after.nodeList.successorList.length = self.nodeList.successorList.length ∧
        after.nodeList.slot 1 = if self.nodeList.clearsSecond then [] else self.nodeList.slot 1) := by
  have room : 2 * maxIdLen ≤ self.nodeList.successorList.length := by
    rw [size]
    exact Nat.mul_le_mul_right _ two
  obtain ⟨first, second, later, list, full, fullSecond, address⟩ := two_slots self.nodeList.toNodeInfo room
  rw [← address] at short ⊢
  by_cases empty : cstr second = []
  · exact Or.inl ⟨empty, fail_over_none env self first second later list full fullSecond ((starts_empty second fullSecond).mpr empty)⟩
  · right
    obtain ⟨after, done, switched, expected, _, rMax, stored⟩ := fail_over_second env self first second later list full fullSecond
      (fun zero => empty ((starts_empty second fullSecond).mp zero)) (ends_inside second fullSecond short)
    refine ⟨empty, after, done, switched, expected, rMax, ?_, ?_⟩
    · rw [stored, list]
      split <;> simp [full, fullSecond]
    · have zeros : (List.replicate maxIdLen (0 : UInt8)).length = maxIdLen := List.length_replicate
      have blank : cstr (List.replicate maxIdLen 0) = [] := (starts_empty _ zeros).mp rfl
      rw [NodeInfo.slot, stored, Pieces.piece_behind maxIdLen 0 second _ fullSecond]
      split
      · rw [Pieces.piece_front maxIdLen _ later zeros, blank]
      · rw [Pieces.piece_front maxIdLen _ later fullSecond]

theorem fail_over_outside (env : P2pmEnv) (self : P2pm) (short : self.nodeList.successorList.length < 2 * maxIdLen) :
    failOver env self = .error (.outside 1) := by
  rw [failOver, readSlot, if_pos short]
  rfl

theorem failed_over_start (env : P2pmEnv) (self ready : P2pm) (reached : FailedOver env self 0 ready) :
    ready.nodeList = self.nodeList := by
  cases reached with
  | start ready kept => exact kept

theorem failed_over_again (env : P2pmEnv) (self ready : P2pm) (count : Nat) (reached : FailedOver env self (count + 1) ready) :
    ∃ before after, FailedOver env self count before ∧ failOver env before = .ok after ∧ ready.nodeList = after.nodeList := by
  cases reached with
  | again _ before after _ reached done kept => exact ⟨before, after, reached, done, kept⟩

section

variable (env : P2pmEnv) {self : P2pm} {entries : List Bytes} (holds : HoldsEntries self.nodeList.toNodeInfo entries)

include holds

theorem second_slot (two : 2 ≤ self.nodeList.rMax.toNat) :
    (entries.length ≤ 1 ∧ self.nodeList.slot 1 = []) ∨
      ∃ entry, entries[1]? = some entry ∧ self.nodeList.slot 1 = entry ∧ entry ≠ [] ∧ entry.length < maxIdLen := by
  cases second : entries[1]? with
  | none =>
      have few := List.getElem?_eq_none_iff.mp second
      exact Or.inl ⟨few, holds.behind 1 few (by omega)⟩
  | some entry =>
      obtain ⟨here, nonempty, short⟩ := holds.entry 1 entry second
      exact Or.inr ⟨entry, rfl, here, nonempty, short⟩

theorem first_switch (ready : P2pm) (kept : ready.nodeList = self.nodeList) (entry : Bytes) (second : entries[1]? = some entry) :
    ∃ after, failOver env ready = .ok after ∧ SwitchesTo env ready after entry ∧
      after.nodeList.rMax = self.nodeList.rMax ∧
      after.nodeList.successorList.length = self.nodeList.successorList.length ∧
      after.nodeList.slot 1 = if self.nodeList.clearsSecond then [] else entry := by
  obtain ⟨here, nonempty, short⟩ := holds.entry 1 entry second
  have many : 1 < entries.length := (List.getElem?_eq_some_iff.mp second).1
  have two : 2 ≤ self.nodeList.rMax.toNat := by
    have count := holds.count
    have fits := holds.fits
    omega
  have step := fail_over_slot env ready (by rw [kept]; exact holds.size) (by rw [kept]; exact two) (by rw [kept, here]; exact short)
  rw [kept, here] at step
  rcases step with ⟨empty, _⟩ | ⟨_, after, done, switched, _, rMax, length, slot⟩
  · exact absurd empty nonempty
  · exact ⟨after, done, switched, rMax, length, slot⟩

theorem second_switch (before after ready : P2pm) (reached : FailedOver env self 0 before) (done : failOver env before = .ok after)
    (kept : ready.nodeList = after.nodeList) (entry : Bytes) (second : entries[1]? = some entry) :
    after.nodeList.successor = entry ∧
      if self.nodeList.clearsSecond then failOver env ready = .ok (noMoreSuccessors ready)
      else ∃ last, failOver env ready = .ok last ∧ last.nodeList.successor = entry ∧
        last.successorSocketExpectedActions = .pingAndStabilizeReq := by
  obtain ⟨here, nonempty, short⟩ := holds.entry 1 entry second
  obtain ⟨went, first, switched, rMax, length, slot⟩ :=
    first_switch env holds before (failed_over_start env self before reached) entry second
  rw [done] at first
  cases first
  refine ⟨switched.successor, ?_⟩
  have many : 1 < entries.length := (List.getElem?_eq_some_iff.mp second).1
  have two : 2 ≤ self.nodeList.rMax.toNat := by
    have count := holds.count
    have fits := holds.fits
    omega
  have step := fail_over_slot env ready (by rw [kept, length, rMax]; exact holds.size) (by rw [kept, rMax]; exact two)
    (by
      rw [kept, slot]
      split
      · decide
      · exact short)
  rw [kept, slot] at step
  by_cases clears : self.nodeList.clearsSecond
  · rw [if_pos clears] at step ⊢
    rcases step with ⟨_, stopped⟩ | ⟨some_, _⟩
    · exact stopped
    · exact absurd rfl some_
  · rw [if_neg clears] at step ⊢
    rcases step with ⟨empty, _⟩ | ⟨_, last, again, switched, expected, _⟩
    · exact absurd empty nonempty
    · exact ⟨last, again, switched.successor, expected⟩

end

theorem walks_list_few (env : P2pmEnv) (self : P2pm) (entries : List Bytes) (holds : HoldsEntries self.nodeList.toNodeInfo entries)
    (walks : WalksList env self entries) :
    entries.length = 0 ∨ (entries.length = 1 ∧ 2 ≤ self.nodeList.rMax.toNat) ∨
      (entries.length = 2 ∧ 3 ≤ self.nodeList.rMax.toNat ∧ 2 ≤ self.nodeList.rMax.toNat % 2 ^ 24) := by
  have count := holds.count
  have fits := holds.fits
  have start : FailedOver env self 0 self := .start self rfl
  match length : entries.length with
  | 0 => exact Or.inl rfl
  | 1 =>
      by_contra few
      have one : self.nodeList.rMax.toNat = 1 := by omega
      have short : self.nodeList.successorList.length < 2 * maxIdLen := by
        have size : self.nodeList.successorList.length = self.nodeList.rMax.toNat * maxIdLen := holds.size
        have positive : 0 < maxIdLen := by decide
        rw [size, one]
        omega
      have stopped := (walks 0 self start).2 (by omega)
      rw [fail_over_outside env self short] at stopped
      cases stopped
  | k + 2 =>
      have inside : 1 < entries.length := by omega
      obtain ⟨entry, second⟩ : ∃ entry, entries[1]? = some entry := ⟨entries[1], List.getElem?_eq_getElem inside⟩
      obtain ⟨after, done, _⟩ := first_switch env holds self rfl entry second
      have again : FailedOver env self 1 after := .again 0 self after after start done rfl
      obtain ⟨stands, outcome⟩ := second_switch env holds self after after start done rfl entry second
      cases k with
      | zero =>
          have stopped := (walks 1 after again).2 (by omega)
          by_cases cleared : self.nodeList.clearsSecond
          · have room := UInt32.lt_iff_toNat_lt.mp cleared.1
            exact Or.inr (Or.inr ⟨rfl, by omega, cleared.2⟩)
          · rw [if_neg cleared] at outcome
            obtain ⟨last, went, _, expected⟩ := outcome
            rw [stopped] at went
            cases went
            cases expected
      | succ k =>
          -- the third address is never gone to
          obtain ⟨last, third, went, there, switches⟩ := (walks 1 after again).1 (by omega)
          have repeated : last.nodeList.successor = entry := by
            by_cases cleared : self.nodeList.clearsSecond
            · rw [if_pos cleared, went] at outcome
              cases outcome
              exact stands
            · rw [if_neg cleared] at outcome
              obtain ⟨other, same, address, _⟩ := outcome
              rw [went] at same
              cases same
              exact address
          rw [switches.successor] at repeated
          subst repeated
          have apart := (List.getElem?_inj inside holds.distinct).mp (second.trans there.symm)
          omega

theorem few_walks_list (env : P2pmEnv) (self : P2pm) (entries : List Bytes) (holds : HoldsEntries self.nodeList.toNodeInfo entries)
    (few : entries.length = 0 ∨ (entries.length = 1 ∧ 2 ≤ self.nodeList.rMax.toNat) ∨
      (entries.length = 2 ∧ 3 ≤ self.nodeList.rMax.toNat ∧ 2 ≤ self.nodeList.rMax.toNat % 2 ^ 24)) :
    WalksList env self entries := by
  intro count ready reached
  rcases few with none_ | ⟨one, room⟩ | ⟨two, room, slots⟩
  · refine ⟨fun below => by omega, fun last => by omega⟩
  · refine ⟨fun below => by omega, fun last => ?_⟩
    have zero : count = 0 := by omega
    subst zero
    have kept := failed_over_start env self ready reached
    rcases second_slot holds room with ⟨_, empty⟩ | ⟨entry, second, _⟩
    · have step := fail_over_slot env ready (by rw [kept]; exact holds.size) (by rw [kept]; exact room) (by rw [kept, empty]; decide)
      rw [kept, empty] at step
      rcases step with ⟨_, stopped⟩ | ⟨some_, _⟩
      · exact stopped
      · exact absurd rfl some_
    · have many := (List.getElem?_eq_some_iff.mp second).1
      omega
  · have inside : 1 < entries.length := by omega
    obtain ⟨entry, second⟩ : ∃ entry, entries[1]? = some entry := ⟨entries[1], List.getElem?_eq_getElem inside⟩
    have cleared : self.nodeList.clearsSecond := by
      have count : self.nodeList.r.toNat = entries.length := holds.count
      exact ⟨UInt32.lt_iff_toNat_lt.mpr (by omega), slots⟩
    refine ⟨fun below => ?_, fun last => ?_⟩
    · have zero : count = 0 := by omega
      subst zero
      obtain ⟨after, done, switched, _⟩ := first_switch env holds ready (failed_over_start env self ready reached) entry second
      exact ⟨after, entry, done, second, switched⟩
    · have one : count = 0 + 1 := by omega
      subst one
      obtain ⟨before, after, reached, done, kept⟩ := failed_over_again env self ready 0 reached
      obtain ⟨_, outcome⟩ := second_switch env holds before after ready reached done kept entry second
      rwa [if_pos cleared] at outcome

theorem walks_list_iff (env : P2pmEnv) (self : P2pm) (entries : List Bytes) (holds : HoldsEntries self.nodeList.toNodeInfo entries) :
    WalksList env self entries ↔
      entries.length = 0 ∨ (entries.length = 1 ∧ 2 ≤ self.nodeList.rMax.toNat) ∨
        (entries.length = 2 ∧ 3 ≤ self.nodeList.rMax.toNat ∧ 2 ≤ self.nodeList.rMax.toNat % 2 ^ 24) :=
  ⟨walks_list_few env self entries holds, few_walks_list env self entries holds⟩

-- A slot with an address of one letter, and one with none.
def sampleSlot (letter : UInt8) : Bytes := letter :: List.replicate 255 0

theorem sample_slot_size (letter : UInt8) : (sampleSlot letter).length = maxIdLen := by
  rw [sampleSlot, List.length_cons, List.length_replicate]
  rfl

theorem sample_slot_cstr (letter : UInt8) : cstr (sampleSlot letter) = if letter = 0 then [] else [letter] := by
  by_cases zero : letter = 0
  · rw [if_pos zero, zero]
    exact cstr_terminated [] (List.replicate 255 0) List.not_mem_nil
  · rw [if_neg zero]
    exact cstr_terminated [letter] (List.replicate 254 0) fun member => zero (List.mem_singleton.mp member).symm

-- The successors S, T and a third one or none, with room for four.
def sampleSuccessors (third : UInt8) (r : UInt32) : NodeInfo :=
  { successorList := sampleSlot 83 ++ (sampleSlot 84 ++ (sampleSlot third ++ (sampleSlot 0 ++ []))), r := r, rMax := 4 }

theorem sample_successors_slots (third : UInt8) (r : UInt32) :
    (sampleSuccessors third r).slot 0 = [83] ∧ (sampleSuccessors third r).slot 1 = [84] ∧
      (sampleSuccessors third r).slot 2 = (if third = 0 then [] else [third]) ∧ (sampleSuccessors third r).slot 3 = [] := by
  have size := sample_slot_size
  simp only [NodeInfo.slot, sampleSuccessors, Pieces.piece_front maxIdLen _ _ (size _), Pieces.piece_behind maxIdLen 0 _ _ (size _),
    Pieces.piece_behind maxIdLen 1 _ _ (size _), Pieces.piece_behind maxIdLen 2 _ _ (size _), sample_slot_cstr]
  simp

theorem sample_successors_size (third : UInt8) (r : UInt32) :
    (sampleSuccessors third r).successorList.length = (sampleSuccessors third r).rMax.toNat * maxIdLen := by
  simp only [sampleSuccessors, List.length_append, sample_slot_size, List.length_nil]
  rfl

theorem sample_successors_two : HoldsEntries (sampleSuccessors 0 2) [[83], [84]] := by
  obtain ⟨s, t, none_, last⟩ := sample_successors_slots 0 2
  have room : (sampleSuccessors 0 2).rMax.toNat = 4 := rfl
  refine ⟨sample_successors_size 0 2, rfl, by decide, ?_, ?_, by decide⟩
  · intro i entry there
    match i with
    | 0 => cases there; exact ⟨s, by simp, by decide⟩
    | 1 => cases there; exact ⟨t, by simp, by decide⟩
    | i + 2 => cases there
  · intro i behind inside
    have four : i = 2 ∨ i = 3 := by
      simp only [List.length_cons, List.length_nil] at behind
      omega
    rcases four with two | three
    · exact two ▸ none_
    · exact three ▸ last

theorem sample_successors_three : HoldsEntries (sampleSuccessors 85 3) [[83], [84], [85]] := by
  obtain ⟨s, t, u, last⟩ := sample_successors_slots 85 3
  have room : (sampleSuccessors 85 3).rMax.toNat = 4 := rfl
  refine ⟨sample_successors_size 85 3, rfl, by decide, ?_, ?_, by decide⟩
  · intro i entry there
    match i with
    | 0 => cases there; exact ⟨s, by simp, by decide⟩
    | 1 => cases there; exact ⟨t, by simp, by decide⟩
    | 2 => cases there; exact ⟨u, by simp, by decide⟩
    | i + 3 => cases there
  · intro i behind inside
    have three : i = 3 := by
      simp only [List.length_cons, List.length_nil] at behind
      omega
    exact three ▸ last

def sampleFailing (successors : NodeInfo) : P2pm := { sampleP2pm with nodeList := { sampleP2pm.nodeList with toNodeInfo := successors } }

theorem walks_list_two : WalksList sampleP2pmEnv (sampleFailing (sampleSuccessors 0 2)) [[83], [84]] :=
  (walks_list_iff sampleP2pmEnv (sampleFailing (sampleSuccessors 0 2)) [[83], [84]] sample_successors_two).mpr
    (Or.inr (Or.inr ⟨rfl, by decide, by decide⟩))

-- With three of them the second failure finds no more successors, and U is never tried.
theorem third_successor_skipped :
    ¬ ∀ (env : P2pmEnv) (self : P2pm) (entries : List Bytes), HoldsEntries self.nodeList.toNodeInfo entries →
      WalksList env self entries := by
  intro claim
  have walks := claim sampleP2pmEnv (sampleFailing (sampleSuccessors 85 3)) [[83], [84], [85]] sample_successors_three
  have few := walks_list_few sampleP2pmEnv _ [[83], [84], [85]] sample_successors_three walks
  simp only [List.length_cons, List.length_nil] at few
  omega

end Synergy
