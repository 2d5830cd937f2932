import Synergy.Config
import Synergy.P2pmMessages
import Synergy.Lib.Outcome

set_option autoImplicit false

namespace Synergy

-- The computation does not stop at a slot that successor_list does not have, and its result is as given.
def StaysInside {α : Type} (good : α → Prop) (computation : Except Stop α) : Prop :=
  Outcomes.Holds (fun stop => ∀ slot, stop ≠ .outside slot) good computation

theorem inside_ok {α : Type} (good : α → Prop) (result : α) (is : good result) : StaysInside good (.ok result) := is

theorem inside_undefined {α : Type} (good : α → Prop) : StaysInside good (.error .undefined) := by
  intro slot
  exact fun same => by cases same

theorem inside_diverges {α : Type} (good : α → Prop) : StaysInside good (.error .diverges) := by
  intro slot
  exact fun same => by cases same

theorem inside_bind {α β : Type} (first : α → Prop) (good : β → Prop) (one : Except Stop α) (two : α → Except Stop β)
    (inside : StaysInside first one) (rest : ∀ result, first result → StaysInside good (two result)) :
    StaysInside good (one >>= two) := Outcomes.holds_bind _ first good one two inside rest

theorem inside_read {α β : Type} (good : β → Prop) (one : Except Stop α) (two : α → Except Stop β)
    (inside : StaysInside (fun _ => True) one) (rest : ∀ result, StaysInside good (two result)) :
    StaysInside good (one >>= two) := inside_bind _ good one two inside fun result _ => rest result

theorem inside_given {α : Type} (one : Except Stop α) (inside : StaysInside (fun _ => True) one) :
    StaysInside (fun result => one = .ok result) one := by
  cases one with
  | ok result => exact inside_ok _ _ rfl
  | error stop => exact inside

theorem recv_uint32_inside (host : HostOrder) (frame : Bytes) : StaysInside (fun _ => True) (p2pmRecvUint32 host frame) := by
  unfold p2pmRecvUint32
  split
  · exact inside_undefined _
  · exact inside_ok _ _ trivial

theorem part_word_inside (host : HostOrder) (part : MsgPart) : StaysInside (fun _ => True) (partWord host part) := by
  unfold partWord
  split
  · exact inside_undefined _
  · exact recv_uint32_inside host _

theorem part_long_inside (host : HostOrder) (part : MsgPart) : StaysInside (fun _ => True) (partLong host part) := by
  unfold partLong
  split
  · exact inside_undefined _
  · unfold p2pmRecvUint64
    split
    · exact inside_undefined _
    · exact inside_ok _ _ trivial

theorem recv_word_inside (host : HostOrder) (inbox : List MsgPart) : StaysInside (fun _ => True) (recvWord host inbox) := by
  cases inbox with
  | nil => exact inside_ok _ _ trivial
  | cons part later => exact inside_read _ _ _ (part_word_inside host part) fun _ => inside_ok _ _ trivial

theorem recv_long_inside (host : HostOrder) (inbox : List MsgPart) : StaysInside (fun _ => True) (recvLong host inbox) := by
  cases inbox with
  | nil => exact inside_ok _ _ trivial
  | cons part later => exact inside_read _ _ _ (part_long_inside host part) fun _ => inside_ok _ _ trivial

theorem recv_str_inside (announced : UInt32) (frame : Bytes) : StaysInside (fun _ => True) (p2pmRecvStr announced frame) := by
  unfold p2pmRecvStr
  repeat' split
  all_goals first | exact inside_undefined _ | exact inside_ok _ _ trivial

theorem recv_string_inside (host : HostOrder) (inbox : List MsgPart) : StaysInside (fun _ => True) (recvString host inbox) := by
  refine inside_read _ _ _ (recv_word_inside host inbox) fun received => ?_
  obtain ⟨announced, later⟩ := received
  cases announced with
  | none => exact inside_ok _ _ trivial
  | some announced =>
      cases later with
      | nil => exact inside_ok _ _ trivial
      | cons part later =>
          dsimp only
          split
          · exact inside_undefined _
          · exact inside_read _ _ _ (recv_str_inside announced _) fun _ => inside_ok _ _ trivial

theorem skip_pongs_inside (host : HostOrder) (sRecv : UInt32) (inbox : List MsgPart) :
    StaysInside (fun _ => True) (skipPongs host sRecv inbox) := by
  induction inbox generalizing sRecv with
  | nil =>
      unfold skipPongs
      split
      · exact inside_diverges _
      · exact inside_ok _ _ trivial
  | cons part later ih =>
      unfold skipPongs
      split
      · exact inside_read _ _ _ (part_word_inside host part) fun next => ih next
      · exact inside_ok _ _ trivial

theorem put_clientid_inside (clientid : Bytes) (identity : List (Option UInt8)) :
    StaysInside (fun _ => True) (putClientid clientid identity) := by
  unfold putClientid
  split
  · exact inside_undefined _
  · exact inside_ok _ _ trivial

-- Room for two addresses, for as many as r_max allows and for as many as r announces.
structure Ample (node : NodeInfo) : Prop where
  two : 2 * maxIdLen ≤ node.successorList.length
  most : node.rMax.toNat * maxIdLen ≤ node.successorList.length
  held : (shiftId node.r).toNat ≤ node.successorList.length

-- The same without what r announces.
def Spacious (self : NodeInfo) : Prop :=
  2 * maxIdLen ≤ self.successorList.length ∧ self.rMax.toNat * maxIdLen ≤ self.successorList.length

theorem Ample.spacious (self : NodeInfo) (ample : Ample self) : Spacious self := ⟨ample.two, ample.most⟩

theorem copied_bytes (count : UInt32) (size : Nat) (one : maxIdLen ≤ size) (room : (shiftId count).toNat ≤ size) :
    maxIdLen + ((shiftId count).toNat - 1) / maxIdLen * maxIdLen ≤ size := by
  have positive : 0 < maxIdLen := by decide
  rw [shift_id_blocks] at room ⊢
  by_cases zero : count.toNat % 2 ^ 24 = 0
  · rw [zero, Nat.zero_mul, Nat.zero_sub, Nat.zero_div, Nat.zero_mul]
    exact one
  · rw [rounds_of_blocks _ maxIdLen (by omega) positive]
    obtain ⟨rest, same⟩ : ∃ rest, count.toNat % 2 ^ 24 = rest + 1 := ⟨count.toNat % 2 ^ 24 - 1, by omega⟩
    rw [same, Nat.succ_mul] at room
    rw [same, Nat.add_sub_cancel]
    omega

theorem copy_loop_inside (source : Bytes) (rounds i : Nat) (list : Bytes) (room : i + rounds * maxIdLen ≤ list.length)
    (first : maxIdLen ≤ i) : StaysInside (fun copied => copied.length = list.length) (copyLoop source rounds i list) := by
  induction rounds generalizing i list with
  | zero => exact inside_ok _ _ rfl
  | succ rounds ih =>
      unfold copyLoop
      rw [Nat.succ_mul] at room
      rw [if_neg (by omega)]
      split
      · exact inside_undefined _
      · rename_i given
        have size : (list.take i ++ (source.drop (i - maxIdLen)).take maxIdLen ++ list.drop (i + maxIdLen)).length = list.length := by
          simp only [List.length_append, List.length_take, List.length_drop]
          omega
        have rest := ih (i + maxIdLen) _ (by rw [size]; omega) (by omega)
        rw [size] at rest
        exact rest

theorem copied_count (rMax nR : UInt32) :
    ((if nR + 1 > rMax then (rMax, rMax - 1) else (nR + 1, nR)) : UInt32 × UInt32).2 + 1 ≤ rMax ∧
      ((if nR + 1 > rMax then (rMax, rMax - 1) else (nR + 1, nR)) : UInt32 × UInt32).1 ≤ rMax := by
  split
  · rw [UInt32.sub_add_cancel]
    exact ⟨UInt32.le_refl _, UInt32.le_refl _⟩
  · rename_i fits
    exact ⟨UInt32.not_lt.mp fits, UInt32.not_lt.mp fits⟩

theorem shifted_within (count most : UInt32) (size : Nat) (fewer : count ≤ most) (room : most.toNat * maxIdLen ≤ size) :
    (shiftId count).toNat ≤ size := by
  have less : count.toNat * maxIdLen ≤ most.toNat * maxIdLen := Nat.mul_le_mul_right _ (UInt32.le_iff_toNat_le.mp fewer)
  exact Nat.le_trans (shift_id_bound count) (Nat.le_trans less room)

-- It writes below r_max, and either sets r by what it has written or leaves everything as it is.
theorem copy_list_inside (self : NodeInfo) (list : Bytes) (nR : UInt32) (spacious : Spacious self)
    (kept : maxIdLen ≤ (cstr list).length → (shiftId self.r).toNat ≤ self.successorList.length) :
    StaysInside Ample (p2pmNiCopySuccessorList self list nR) := by
  obtain ⟨two, most⟩ := spacious
  unfold p2pmNiCopySuccessorList
  split
  · exact inside_undefined _
  · split
    · rename_i long
      exact inside_ok _ _ ⟨two, most, kept (by omega)⟩
    · obtain ⟨below, counted⟩ := copied_count self.rMax nR
      have bytes := shifted_within _ _ _ below most
      refine inside_bind (fun copied => copied.length = self.successorList.length) _ _ _ ?_ fun copied same => ?_
      · exact copy_loop_inside _ _ _ _ (copied_bytes _ _ (by omega) bytes) (Nat.le_refl _)
      · refine inside_ok _ _ ⟨?_, ?_, ?_⟩
        · rw [same]
          exact two
        · rw [same]
          exact most
        · rw [same]
          exact shifted_within _ _ _ counted most

theorem read_slot_inside (list : Bytes) (k : Nat) (room : (k + 1) * maxIdLen ≤ list.length) :
    StaysInside (fun _ => True) (readSlot list k) := by
  unfold readSlot
  rw [if_neg (by omega)]
  exact inside_ok _ _ trivial

theorem write_slot_inside (list block : Bytes) (k : Nat) (room : (k + 1) * maxIdLen ≤ list.length) (whole : block.length = maxIdLen) :
    StaysInside (fun written => written.length = list.length) (writeSlot list k block) := by
  have done : writeSlot list k block = .ok (list.take (k * maxIdLen) ++ block ++ list.drop ((k + 1) * maxIdLen)) := by
    unfold writeSlot
    rw [if_neg (by omega)]
  rw [done]
  exact inside_ok _ _ (write_slot_length list _ block k whole done)

theorem write_address_inside (list chars : Bytes) (room : maxIdLen ≤ list.length) (short : chars.length < maxIdLen) :
    StaysInside (fun written => written.length = list.length) (writeAddress list chars) := by
  have done : writeAddress list chars = .ok (chars ++ 0 :: list.drop (chars.length + 1)) := by
    unfold writeAddress
    rw [if_neg (by omega)]
  rw [done]
  exact inside_ok _ _ (write_address_length list chars _ short done)

theorem clear_slots_inside (list : Bytes) (count : UInt32) (room : (shiftId count).toNat ≤ list.length) :
    StaysInside (fun cleared => cleared.length = list.length) (clearSlots list count) := by
  have done : clearSlots list count = .ok (List.replicate (shiftId count).toNat 0 ++ list.drop (shiftId count).toNat) := by
    unfold clearSlots
    exact if_neg (by omega)
  rw [done]
  exact inside_ok _ _ (clear_slots_length list _ count done)

theorem first_slots_inside (self : NodeInfo) (ample : Ample self) : StaysInside (fun _ => True) self.firstSlots := by
  have held := ample.held
  unfold NodeInfo.firstSlots
  dsimp only
  rw [if_neg (by omega)]
  exact inside_ok _ _ trivial

theorem Ample.resized (node : NodeInfo) (list : Bytes) (ample : Ample node) (same : list.length = node.successorList.length) :
    Ample { node with successorList := list } := by
  refine ⟨?_, ?_, ?_⟩
  · rw [same]
    exact ample.two
  · rw [same]
    exact ample.most
  · rw [same]
    exact ample.held

-- The handlers of the server.
def Served.Ample (result : P2pmOpcodes × P2pm) : Prop := Synergy.Ample result.2.nodeList.toNodeInfo

theorem send_clientid_inside (self : P2pm) (more : Bool) :
    StaysInside (fun told => told = serverSend self [⟨(cstr self.clientid).map some, more⟩]) (sendClientidPart self more) := by
  unfold sendClientidPart
  split
  · exact inside_ok _ _ rfl
  · exact inside_undefined _

theorem reply_slist_inside (env : P2pmEnv) (self : P2pm) (code : UInt32) (ample : Ample self.nodeList.toNodeInfo) :
    StaysInside (fun next => next.nodeList = self.nodeList) (replySlist env self code) :=
  inside_read _ _ _ (first_slots_inside _ ample) fun _ => inside_ok _ _ rfl

theorem get_req_inside (env : P2pmEnv) (self : P2pm) (ample : Ample self.nodeList.toNodeInfo) :
    StaysInside Served.Ample (getReqHandler env self) := by
  refine inside_bind _ _ _ _ (send_clientid_inside self true) fun told same => ?_
  subst same
  refine inside_read _ _ _ (recv_string_inside env.host _) fun received => ?_
  obtain ⟨buf, inbox⟩ := received
  dsimp only
  repeat' split
  all_goals first | exact inside_undefined _ | exact inside_ok _ _ ample

theorem join_req_inside (env : P2pmEnv) (self : P2pm) (ample : Ample self.nodeList.toNodeInfo) :
    StaysInside Served.Ample (joinReqHandler env self) := by
  refine inside_bind _ _ _ _ (send_clientid_inside self true) fun told same => ?_
  subst same
  refine inside_read _ _ _ (recv_string_inside env.host _) fun received => ?_
  obtain ⟨buf, inbox⟩ := received
  cases buf with
  | missing => exact inside_undefined _
  | freed => exact inside_undefined _
  | str chars =>
      dsimp only
      by_cases long : maxIdLen ≤ chars.length
      · rw [if_pos long]
        exact inside_undefined _
      · rw [if_neg long]
        split
        · exact inside_ok _ _ ample
        · split
          · refine inside_bind _ _ _ _ (reply_slist_inside env _ _ ample) fun next same => inside_ok _ _ ?_
            rw [Served.Ample, same]
            exact ample
          · exact inside_ok _ _ ample

-- The list that comes with JOIN_CMT has an end in its first address, or else the node holds no more than it has room for.
theorem join_commit_inside (env : P2pmEnv) (self : P2pm) (r : UInt32) (buf : Bytes) (spacious : Spacious self.nodeList.toNodeInfo)
    (kept : maxIdLen ≤ (cstr buf).length → (shiftId self.nodeList.r).toNat ≤ self.nodeList.successorList.length) :
    StaysInside (fun next => Ample next.nodeList.toNodeInfo) (joinCommit env self r buf) := by
  obtain ⟨two, most⟩ := spacious
  refine inside_bind _ _ _ _ (write_slot_inside _ _ 0 ?_ (filled_length env _ _)) fun list same => ?_
  · change (0 + 1) * maxIdLen ≤ self.nodeList.successorList.length
    omega
  · change list.length = self.nodeList.successorList.length at same
    refine inside_bind _ _ _ _ (copy_list_inside _ buf r ⟨?_, ?_⟩ ?_) fun copied ample => ?_
    · exact same ▸ two
    · exact same ▸ most
    · exact same ▸ kept
    · dsimp only
      repeat' split
      all_goals exact inside_ok _ _ ample

-- A JOIN_CMT sets r before the list has come, and r stays when none comes or when its first address has no end.
def JoinCmtFits (env : P2pmEnv) (self : P2pm) (inbox : List MsgPart) : Prop :=
  ∀ (r : UInt32) (rest : List MsgPart), recvWord env.host inbox = .ok (some r, rest) → r ≠ 0 →
    (shiftId r).toNat ≤ self.nodeList.successorList.length ∨
      ∃ part later, rest = part :: later ∧ (cstr (filled env (shiftId self.nodeList.rMax).toNat part.bytes)).length < maxIdLen

theorem join_cmt_inside (env : P2pmEnv) (self : P2pm) (ample : Ample self.nodeList.toNodeInfo)
    (fits : JoinCmtFits env self self.serverInbox) : StaysInside Served.Ample (joinCmtHandler env self) := by
  refine inside_bind _ _ _ _ (send_clientid_inside self true) fun told same => ?_
  subst same
  refine inside_bind _ _ _ _ (inside_given _ (recv_word_inside env.host _)) fun result received => ?_
  obtain ⟨word, rest⟩ := result
  cases word with
  | none => exact inside_ok _ _ ample
  | some r =>
      dsimp only
      split
      · exact inside_ok _ _ ample
      · rename_i positive
        rcases fits r rest received positive with held | ⟨part, later, same, ends⟩
        · cases rest with
          | nil => exact inside_ok _ _ ⟨ample.two, ample.most, held⟩
          | cons part later =>
              refine inside_bind _ _ _ _ (join_commit_inside env _ r _ ⟨ample.two, ample.most⟩ fun _ => held) fun next ample => ?_
              exact inside_ok _ _ ample
        · subst same
          refine inside_bind _ _ _ _ (join_commit_inside env _ r _ ⟨ample.two, ample.most⟩ ?_) fun next ample => ?_
          · intro long
            exact absurd ends (Nat.not_lt.mpr long)
          · exact inside_ok _ _ ample

theorem stabilize_nsyn_req_inside (self : P2pm) (ample : Ample self.nodeList.toNodeInfo) :
    StaysInside Served.Ample (stabilizeNsynReqHandler self) := by
  refine inside_bind _ _ _ _ (send_clientid_inside _ false) fun told same => ?_
  subst same
  exact inside_ok _ _ ample

theorem ping_req_inside (env : P2pmEnv) (self : P2pm) (ample : Ample self.nodeList.toNodeInfo) :
    StaysInside Served.Ample (pingReqHandler env self) := by
  refine inside_bind _ _ _ _ (send_clientid_inside self true) fun told same => ?_
  subst same
  exact inside_ok _ _ ample

theorem stabilize_req_inside (env : P2pmEnv) (self : P2pm) (ample : Ample self.nodeList.toNodeInfo) :
    StaysInside Served.Ample (stabilizeReqHandler env self) := by
  unfold stabilizeReqHandler
  split
  · exact inside_ok _ _ ample
  · refine inside_bind _ _ _ _ (send_clientid_inside _ true) fun told same => ?_
    subst same
    refine inside_read _ _ _ (recv_string_inside env.host _) fun received => ?_
    obtain ⟨addr, inbox⟩ := received
    cases addr with
    | freed => exact inside_undefined _
    | missing => exact inside_ok _ _ ample
    | str chars =>
        dsimp only
        split
        · exact inside_undefined _
        · refine inside_bind _ _ _ _ (reply_slist_inside env _ _ ample) fun next same => inside_ok _ _ ?_
          rw [Served.Ample, same]
          exact ample

theorem stabilize_syn_req_ample (env : P2pmEnv) (self : P2pm) (ample : Ample self.nodeList.toNodeInfo) :
    Served.Ample (stabilizeSynReqHandler env self) := by
  unfold stabilizeSynReqHandler
  repeat' split
  all_goals exact ample

theorem sync_slist_inside (env : P2pmEnv) (self : P2pm) (ample : Ample self.nodeList.toNodeInfo) :
    StaysInside Served.Ample (p2pmSyncSlistHandler env self) := by
  refine inside_bind _ _ _ _ (send_clientid_inside self true) fun told same => ?_
  subst same
  refine inside_read _ _ _ (recv_word_inside env.host _) fun received => ?_
  obtain ⟨ttl, inbox⟩ := received
  cases ttl with
  | none => exact inside_ok _ _ ample
  | some ttl =>
      refine inside_read _ _ _ (recv_word_inside env.host _) fun received => ?_
      obtain ⟨nr, inbox⟩ := received
      cases nr with
      | none => exact inside_ok _ _ ample
      | some nr =>
          dsimp only
          split
          · exact inside_ok _ _ ample
          · cases inbox with
            | nil => exact inside_ok _ _ ample
            | cons part later =>
                dsimp only
                split
                · refine inside_bind _ _ _ _ (copy_list_inside _ _ nr ample.spacious fun _ => ample.held) fun copied ample => ?_
                  exact inside_ok _ _ ample
                · exact inside_ok _ _ ample

theorem set_successor_inside (self : P2pmNodeInfo) (chars : Bytes) (ample : Ample self.toNodeInfo) :
    StaysInside (fun next => Ample next.toNodeInfo) (p2pmNiSetSuccessor self chars) := by
  have two := ample.two
  unfold p2pmNiSetSuccessor
  split
  · exact inside_ok _ _ ample
  · refine inside_bind _ _ _ _ (write_address_inside _ chars (by omega) (by omega)) fun list same => inside_ok _ _ ?_
    exact ample.resized _ list same

theorem set_predecessor_ample (self : P2pmNodeInfo) (chars : Bytes) (ample : Ample self.toNodeInfo) :
    Ample (p2pmNiSetPredecessor self chars).toNodeInfo := by
  unfold p2pmNiSetPredecessor
  split
  · exact ample
  · exact ample

theorem one_ring_join_inside (env : P2pmEnv) (self : P2pm) (ample : Ample self.nodeList.toNodeInfo) :
    StaysInside Served.Ample (oneRingJoinReqHandler env self) := by
  refine inside_bind _ _ _ _ (send_clientid_inside self true) fun told same => ?_
  subst same
  dsimp only
  split
  · exact inside_ok _ _ ample
  · refine inside_read _ _ _ (recv_string_inside env.host _) fun received => ?_
    obtain ⟨buf, inbox⟩ := received
    cases buf with
    | missing => exact inside_undefined _
    | freed => exact inside_undefined _
    | str chars =>
        refine inside_bind _ _ _ _ (set_successor_inside _ chars (set_predecessor_ample _ chars ample)) fun nodeList ample => ?_
        have two := ample.two
        refine inside_bind _ _ _ _ (clear_slots_inside _ nodeList.rMax
          (shifted_within _ _ _ (UInt32.le_refl _) ample.most)) fun cleared same => ?_
        refine inside_bind _ _ _ _ (write_slot_inside cleared _ 0 (by omega) (filled_length env _ _)) fun list written => ?_
        have kept := ample.resized _ list (written.trans same)
        dsimp only
        repeat' split
        all_goals exact inside_ok _ _ kept

theorem form_one_ring_inside (env : P2pmEnv) (self : P2pm) (ample : Ample self.nodeList.toNodeInfo) :
    StaysInside (fun next => Ample next.nodeList.toNodeInfo) (p2pmFormOneRing env self) := by
  have two := ample.two
  refine inside_bind _ _ _ _ (write_address_inside _ env.endpoint (by omega) env.short) fun list same => inside_ok _ _ ?_
  exact ample.resized _ list same

theorem form_one_ring_after_inside (env : P2pmEnv) (self : P2pm) (ample : Ample self.nodeList.toNodeInfo) :
    StaysInside Served.Ample (formOneRingAfter env self) :=
  inside_bind _ _ _ _ (form_one_ring_inside env self ample) fun _ formed => inside_ok _ _ formed

theorem tail_found_inside (env : P2pmEnv) (self : P2pm) (ample : Ample self.nodeList.toNodeInfo) :
    StaysInside Served.Ample (tailFoundHandler env self) := by
  refine inside_read _ _ _ (recv_string_inside env.host _) fun received => ?_
  obtain ⟨endpoint, inbox⟩ := received
  cases endpoint with
  | missing => exact form_one_ring_after_inside env _ ample
  | freed => exact form_one_ring_after_inside env _ ample
  | str chars =>
      dsimp only
      split
      · exact form_one_ring_after_inside env _ ample
      · split
        · exact form_one_ring_after_inside env _ ample
        · split
          · exact inside_undefined _
          · exact inside_ok _ _ ample

theorem head_found_inside (env : P2pmEnv) (self : P2pm) (ample : Ample self.nodeList.toNodeInfo) :
    StaysInside Served.Ample (headFoundHandler env self) := by
  have two := ample.two
  refine inside_read _ _ _ (recv_string_inside env.host _) fun received => ?_
  obtain ⟨endpoint, inbox⟩ := received
  cases endpoint with
  | missing => exact form_one_ring_after_inside env _ ample
  | freed => exact form_one_ring_after_inside env _ ample
  | str chars =>
      dsimp only
      split
      · exact form_one_ring_after_inside env _ ample
      · split
        · exact form_one_ring_after_inside env _ ample
        · refine inside_bind _ _ _ _ (clear_slots_inside _ self.nodeList.rMax
            (shifted_within _ _ _ (UInt32.le_refl _) ample.most)) fun cleared same => ?_
          split
          · exact inside_undefined _
          · rename_i short
            change cleared.length = self.nodeList.successorList.length at same
            refine inside_bind _ _ _ _ (write_address_inside cleared chars (by omega) (by omega)) fun list written => inside_ok _ _ ?_
            exact ample.resized _ list (written.trans same)

theorem recv_token_inside (host : HostOrder) (before : Token) (inbox : List MsgPart) :
    StaysInside (fun _ => True) (recvToken host before inbox) := by
  refine inside_read _ _ _ (recv_word_inside host _) fun id => ?_
  refine inside_read _ _ _ (recv_word_inside host _) fun ttl => ?_
  refine inside_read _ _ _ (recv_long_inside host _) fun len1 => ?_
  exact inside_read _ _ _ (recv_long_inside host _) fun len2 => inside_ok _ _ trivial

-- What the request of a pass has to keep to: a JOIN_CMT among them has to fit.
def RequestFits (env : P2pmEnv) (self : P2pm) (later : List MsgPart) : Prop :=
  ∀ ubuf inbox, recvWord env.host later = .ok (ubuf, inbox) → ServerCase.ofCode (ubuf.getD env.strayWord) = .joinCmt →
    JoinCmtFits env self inbox

theorem serve_inside (env : P2pmEnv) (self : P2pm) (request : ServerCase) (ample : Ample self.nodeList.toNodeInfo)
    (fits : request = .joinCmt → JoinCmtFits env self self.serverInbox) : StaysInside Served.Ample (serve env self request) := by
  cases request with
  | getReq => exact get_req_inside env self ample
  | joinReq => exact join_req_inside env self ample
  | joinCmt => exact join_cmt_inside env self ample (fits rfl)
  | stabilizeNsynReq => exact stabilize_nsyn_req_inside self ample
  | joinAbrt => exact inside_ok _ _ ample
  | predJoinCmt => exact inside_ok _ _ ample
  | predJoinAbrt => exact inside_ok _ _ ample
  | pingReq => exact ping_req_inside env self ample
  | stabilizeReq => exact stabilize_req_inside env self ample
  | stabilizeSynReq => exact inside_ok _ _ (stabilize_syn_req_ample env self ample)
  | syncSlist => exact sync_slist_inside env self ample
  | oneRingJoinReq => exact one_ring_join_inside env self ample
  | tailFound => exact tail_found_inside env self ample
  | headFound => exact head_found_inside env self ample
  | token => exact inside_read _ _ _ (recv_token_inside env.host _ _) fun _ => inside_ok _ _ ample
  | ignored => exact inside_ok _ _ ample

theorem serve_message_inside (env : P2pmEnv) (self : P2pm) (identity : MsgPart) (later : List MsgPart)
    (ample : Ample self.nodeList.toNodeInfo) (fits : RequestFits env self later) :
    StaysInside Served.Ample (serveMessage env self identity later) := by
  refine inside_read _ _ _ (put_clientid_inside _ _) fun clientid => ?_
  refine inside_bind _ _ _ _ (inside_given _ (recv_word_inside env.host later)) fun received same => ?_
  obtain ⟨ubuf, inbox⟩ := received
  exact serve_inside env _ _ ample fun joinCmt => fits ubuf inbox same joinCmt

def NodeAmple (self : P2pm) : Prop := Ample self.nodeList.toNodeInfo

theorem stabilize_acked_inside (env : P2pmEnv) (self : P2pm) (sRecv : UInt32) (ample : NodeAmple self) :
    StaysInside NodeAmple (stabilizeAcked env self sRecv) := by
  refine inside_read _ _ _ (skip_pongs_inside env.host sRecv _) fun skipped => ?_
  obtain ⟨word, inbox⟩ := skipped
  dsimp only
  split
  · exact inside_ok _ _ ample
  · refine inside_read _ _ _ (recv_word_inside env.host inbox) fun received => ?_
    obtain ⟨word, inbox⟩ := received
    cases word with
    | none => exact inside_ok _ _ ample
    | some r =>
        dsimp only
        split
        · exact inside_ok _ _ ample
        · rename_i accepted
          have most : r ≤ self.nodeList.rMax := UInt32.not_lt.mp fun above => accepted (Or.inr above)
          have held := shifted_within r self.nodeList.rMax _ most ample.most
          cases inbox with
          | nil => exact inside_ok NodeAmple _ ⟨ample.two, ample.most, held⟩
          | cons part later =>
              refine inside_bind _ _ _ _ (copy_list_inside _ _ r ⟨ample.two, ample.most⟩ fun _ => held) fun copied ample => ?_
              exact inside_ok _ _ ample

theorem successor_readable_inside (env : P2pmEnv) (self : P2pm) (ample : NodeAmple self) :
    StaysInside NodeAmple (successorReadable env self) := by
  unfold successorReadable
  dsimp only [zclockMono]
  split
  · exact inside_diverges _
  · refine inside_read _ _ _ (part_word_inside env.host _) fun sRecv => ?_
    have pinged : ∀ before : P2pm, NodeAmple before → NodeAmple (stabilizePinged env before sRecv) := by
      intro before ample
      unfold stabilizePinged
      split
      · exact ample
      · exact ample
    split
    · exact inside_ok _ _ (pinged _ ample)
    · exact inside_ok _ _ (pinged _ ample)
    · exact inside_ok _ _ (pinged _ ample)
    · exact stabilize_acked_inside env _ sRecv ample
    · exact inside_ok _ _ ample

theorem condense_loop_inside (rounds ptr : Nat) (ok : Bool) (list : Bytes) (two : 2 * maxIdLen ≤ list.length)
    (first : ok = true → ptr = 1) (later : ok = false → ptr ≠ 1) :
    StaysInside (fun condensed => condensed.length = list.length) (condenseLoop rounds ptr ok list) := by
  induction rounds generalizing ptr ok list with
  | zero => exact inside_ok _ _ rfl
  | succ rounds ih =>
      unfold condenseLoop
      by_cases start : ptr = 0
      · rw [if_pos start]
        exact ih (ptr + 1) true list two (fun _ => by omega) (fun same => by cases same)
      · rw [if_neg start]
        cases ok with
        | false =>
            have beyond := later rfl
            exact ih (ptr + 1) false list two (fun same => by cases same) (fun _ => by omega)
        | true =>
            have one := first rfl
            subst one
            rw [if_pos rfl]
            refine inside_bind _ _ _ _ (inside_given _ (read_slot_inside list 0 (by omega))) fun block read => ?_
            have whole := read_slot_length list block 0 read
            refine inside_bind _ _ _ _ (write_slot_inside list block 1 two whole) fun written size => ?_
            refine inside_bind _ _ _ _ (write_slot_inside written _ 1 (by omega) (List.length_replicate ..)) fun cleared same => ?_
            have rest := ih 2 false cleared (by omega) (fun same => by cases same) (fun _ => by omega)
            rw [same, size] at rest
            exact rest

theorem fix_list_inside (self : NodeInfo) (ample : Ample self) : StaysInside Ample (p2pmNiFixSuccessorList self) := by
  unfold p2pmNiFixSuccessorList
  split
  · exact inside_ok _ _ ample
  · refine inside_bind _ _ _ _ (condense_loop_inside _ 0 false _ ample.two (fun same => by cases same) (fun _ => by omega))
      fun condensed same => inside_ok _ _ ?_
    exact ample.resized _ condensed same

theorem fail_over_inside (env : P2pmEnv) (self : P2pm) (ample : NodeAmple self) : StaysInside NodeAmple (failOver env self) := by
  have two := ample.two
  refine inside_bind _ _ _ _ (inside_given _ (read_slot_inside _ 1 two)) fun next read => ?_
  have whole := read_slot_length _ next 1 read
  split
  · refine inside_bind _ _ _ _ (write_slot_inside _ next 0 (by omega) whole) fun list same => ?_
    refine inside_bind _ _ _ _ (fix_list_inside _ (ample.resized _ list same)) fun fixed ample => ?_
    have two := ample.two
    refine inside_read _ _ _ (read_slot_inside _ 0 (by omega)) fun first => ?_
    split
    · exact inside_undefined _
    · exact inside_ok _ _ ample
  · exact inside_ok _ _ ample

theorem successor_timeout_inside (env : P2pmEnv) (self : P2pm) (ample : NodeAmple self) :
    StaysInside NodeAmple (successorTimeout env self) := by
  unfold successorTimeout
  dsimp only [zclockMono]
  split
  · exact inside_ok _ _ ample
  · exact inside_ok _ _ ample
  · exact fail_over_inside env _ ample
  · exact fail_over_inside env _ ample
  · exact inside_ok _ _ ample

theorem successor_event_inside (env : P2pmEnv) (self : P2pm) (ample : NodeAmple self) :
    StaysInside NodeAmple (successorEvent env self) := by
  unfold successorEvent
  split
  · exact successor_readable_inside env self ample
  · dsimp only [zclockMono]
    split
    · exact successor_timeout_inside env _ ample
    · repeat' split
      all_goals exact inside_ok _ _ ample

theorem flush_token_inside (env : P2pmEnv) (self : P2pm) (ample : NodeAmple self) : StaysInside NodeAmple (flushToken env self) := by
  unfold flushToken
  dsimp only [zclockMono]
  repeat' split
  all_goals first | exact inside_undefined _ | exact inside_ok _ _ ample

theorem send_slist_inside (env : P2pmEnv) (self : P2pm) (ttl : UInt32) (ample : NodeAmple self) :
    StaysInside NodeAmple (sendSlist env self ttl) :=
  inside_read _ _ _ (first_slots_inside _ ample) fun _ => inside_ok NodeAmple _ ample

theorem predecessor_answered_inside (env : P2pmEnv) (self : P2pm) (ample : NodeAmple self) :
    StaysInside NodeAmple (predecessorAnswered env self) := by
  unfold predecessorAnswered
  split
  · exact inside_ok _ _ ample
  · exact inside_bind _ _ _ _ (send_slist_inside env self _ ample) fun _ sent => inside_ok NodeAmple _ sent
  · exact inside_bind _ _ _ _ (send_slist_inside env self _ ample) fun _ sent => inside_ok NodeAmple _ sent
  · exact inside_ok _ _ ample

theorem predecessor_readable_inside (env : P2pmEnv) (self : P2pm) (ample : NodeAmple self) :
    StaysInside NodeAmple (predecessorReadable env self) := by
  refine inside_read _ _ _ (recv_word_inside env.host _) fun received => ?_
  dsimp only [zclockMono]
  repeat' split
  all_goals first | exact predecessor_answered_inside env _ ample | exact inside_ok NodeAmple _ ample

theorem predecessor_failed_inside (env : P2pmEnv) (self : P2pm) (ample : NodeAmple self) :
    StaysInside NodeAmple (predecessorFailed env self) := by
  unfold predecessorFailed
  split
  · exact inside_ok _ _ ample
  · exact form_one_ring_inside env _ ample

theorem predecessor_idle_ample (env : P2pmEnv) (self : P2pm) (ample : NodeAmple self) : NodeAmple (predecessorIdle env self) := by
  unfold predecessorIdle
  dsimp only [zclockMono]
  repeat' split
  all_goals exact ample

theorem predecessor_handler_inside (env : P2pmEnv) (depth : Nat) (self : P2pm) (ample : NodeAmple self) :
    StaysInside NodeAmple (predecessorSocketHandler env depth self) := by
  induction depth generalizing self with
  | zero => exact inside_diverges _
  | succ depth ih =>
      unfold predecessorSocketHandler
      split
      · exact predecessor_readable_inside env self ample
      · dsimp only [zclockMono]
        split
        · split
          · exact inside_ok _ _ ample
          · exact inside_ok _ _ ample
          · exact predecessor_failed_inside env _ ample
          · exact predecessor_failed_inside env _ ample
          · exact ih _ ample
          · exact ih _ ample
          · exact inside_ok _ _ ample
        · exact inside_ok _ _ (predecessor_idle_ample env _ ample)

theorem loop_sockets_inside (env : P2pmEnv) (self : P2pm) (ample : NodeAmple self) : StaysInside NodeAmple (loopSockets env self) := by
  have timed : NodeAmple (stabilizeTimer env self) := by
    unfold stabilizeTimer
    dsimp only [zclockMono]
    repeat' split
    all_goals exact ample
  refine inside_bind _ _ _ _ (inside_bind _ _ _ _ (successor_event_inside env _ timed) fun _ event => flush_token_inside env _ event)
    fun middle ample => ?_
  exact inside_bind _ _ _ _ (predecessor_handler_inside env _ middle ample) fun _ last => inside_ok NodeAmple _ last

-- The message a pass receives fits.
def PassFits (env : P2pmEnv) (self : P2pm) : Prop :=
  ∀ identity later, self.revents.server = true → self.serverInbox = identity :: later → RequestFits env self later

theorem loop_server_inside (env : P2pmEnv) (self : P2pm) (ample : NodeAmple self) (fits : PassFits env self) :
    StaysInside Served.Ample (p2pmLoopServer env self) := by
  unfold p2pmLoopServer
  split
  · rename_i readable
    cases inbox : self.serverInbox with
    | nil => exact inside_ok _ _ ample
    | cons identity later =>
        refine inside_bind _ _ _ _ (serve_message_inside env self identity later ample (fits identity later readable inbox))
          fun served ample => ?_
        exact inside_bind _ _ _ _ (loop_sockets_inside env served.2 ample) fun _ last => inside_ok Served.Ample _ last
  · exact inside_bind _ _ _ _ (loop_sockets_inside env self ample) fun _ last => inside_ok Served.Ample _ last

theorem process_timeo_inside (env : P2pmEnv) (actor : P2pmdActor) (ample : NodeAmple actor.node) (fits : PassFits env actor.node) :
    StaysInside (fun next => NodeAmple next.node) (processTimeo env actor) := by
  refine inside_bind _ _ _ _ (loop_server_inside env actor.node ample fits) fun result ample => ?_
  have passed : NodeAmple (passUp { actor with node := result.2 }).node := by
    unfold passUp
    split
    · exact ample
    · exact ample
  dsimp only [zclockMono]
  split
  · exact inside_ok _ _ passed
  · exact inside_ok _ _ passed

theorem polled_list (actor : P2pmdActor) (turn : ActorTurn) : (actor.polled turn).node.nodeList = actor.node.nodeList := by
  cases turn with
  | interrupted => rfl
  | repeats arrivals => rfl
  | polls arrivals revents command =>
      simp only [P2pmdActor.polled]
      split
      · rfl
      · split
        · cases command with
          | _ => rfl
        · rfl

-- A JOIN_CMT of the turn announces no more than successor_list holds, or brings a list whose first address has an end.
def TurnFits (env : P2pmEnv) (actor : P2pmdActor) (turn : ActorTurn) : Prop := PassFits env (actor.polled turn).node

theorem actor_step_ample (env : P2pmEnv) (actor next : P2pmdActor) (turn : ActorTurn) (ample : NodeAmple actor.node)
    (fits : TurnFits env actor turn) (taken : actor.step env turn = some next) : NodeAmple next.node := by
  have polled : NodeAmple (actor.polled turn).node := by
    rw [NodeAmple, polled_list]
    exact ample
  unfold P2pmdActor.step at taken
  split at taken
  · cases taken
  · dsimp only at taken
    split at taken
    · cases taken
      exact polled
    · have inside := process_timeo_inside env _ polled fits
      cases passed : processTimeo env (actor.polled turn) with
      | error stop =>
          rw [passed] at taken
          cases taken
      | ok result =>
          rw [passed] at taken inside
          cases taken
          exact inside

-- The actor of a configuration, however far it has come in starting up.
def Configured (config : SngCfg) (actor : P2pmdActor) : Prop := actor.node.nodeList.toNodeInfo = config.nodeInfo.toNodeInfo

theorem configured_ample (config : SngCfg) (actor : P2pmdActor) (configured : Configured config actor)
    (size : config.nodeInfo.successorList.length = config.nodeInfo.r.toNat * maxIdLen) (two : 2 ≤ config.nodeInfo.r.toNat)
    (most : config.nodeInfo.rMax ≤ config.nodeInfo.r) : NodeAmple actor.node := by
  rw [NodeAmple, configured]
  refine ⟨?_, ?_, ?_⟩
  · rw [size]
    exact Nat.mul_le_mul_right _ two
  · rw [size]
    exact Nat.mul_le_mul_right _ (UInt32.le_iff_toNat_le.mp most)
  · rw [size]
    exact shift_id_bound _

-- With at least two successors in the configuration, no room promised beyond them and no JOIN_CMT that leaves r above them, no
-- pass of the actor reaches a slot that has not been allocated.
theorem list_accesses_inside (env : P2pmEnv) (before config : SngCfg) (fields : List (P2pmdField × BsonValue))
    (actor last : P2pmdActor) (turns : List ActorTurn) (turn : ActorTurn) (slot : Nat)
    (given : P2pmdField.successorList ∈ fields.map Prod.fst) (accepted : sngParseConfig before fields = some config)
    (configured : Configured config actor) (two : 2 ≤ config.nodeInfo.r.toNat) (most : config.nodeInfo.rMax ≤ config.nodeInfo.r)
    (fits : Runs.Meets (P2pmdActor.step env) (TurnFits env) actor turns)
    (ran : Runs.run (P2pmdActor.step env) actor turns = some last) (now : TurnFits env last turn) :
    processTimeo env (last.polled turn) ≠ .error (.outside slot) := by
  have ample := configured_ample config actor configured (parsed_list before config fields given accepted) two most
  have kept := Runs.run_guarded_invariant (P2pmdActor.step env) (TurnFits env) (fun actor => NodeAmple actor.node)
    (fun actor turn next ample fits taken => actor_step_ample env actor next turn ample fits taken) actor last turns ample fits ran
  have polled : NodeAmple (last.polled turn).node := by
    rw [NodeAmple, polled_list]
    exact kept
  intro stopped
  exact Outcomes.holds_stop _ _ _ _ (process_timeo_inside env _ polled now) stopped slot rfl

-- Two successors S and T, with the given r_max, in the order the parser takes them.
def sampleFields (rMax : Int32) : List (P2pmdField × BsonValue) :=
  [(.mode, .utf8 [109, 101, 109, 98, 101, 114]), (.endpoint, .utf8 [80]), (.successorList, .array [.utf8 [83], .utf8 [84]]),
    (.r, .int32 2), (.rMax, .int32 rMax), (.predecessor, .utf8 [79])]

def sampleBefore : SngCfg where
  p2pmdMode := .joining
  p2pmdEndpoint := []
  nodeInfo := { sampleP2pm.nodeList with successorList := [], r := 0, rMax := 0 }
  bv := []
  rList := 0

def sampleConfig (rMax : UInt32) : SngCfg where
  p2pmdMode := .member
  p2pmdEndpoint := [80]
  nodeInfo := { successorList := addressSlot [83] ++ addressSlot [84], r := 2, rMax := rMax, predecessor := [79], successor := [83],
                tempPredecessor := [], tempSuccessor := [] }
  bv := []
  rList := 2

set_option maxRecDepth 20000 in
theorem sample_config (rMax : Int32) : sngParseConfig sampleBefore (sampleFields rMax) = some (sampleConfig rMax.toUInt32) := rfl

def sampleActor (rMax : UInt32) : P2pmdActor where
  node := { sampleP2pm with nodeList := (sampleConfig rMax).nodeInfo }
  pipe := []
  again := false
  nextTimeo := 0
  terminated := false

-- A SYNC_SLIST with two addresses.
def sampleSlistTurn : ActorTurn :=
  .polls { server := [⟨[some 7], true⟩, wordPart .little P2pmReqtypes.syncSlist.code true, wordPart .little 3 true,
      wordPart .little 2 true, ⟨(addressSlot [84] ++ addressSlot [85]).map some, false⟩], successor := [], predecessor := [] }
    { server := true, successor := false, predecessor := false, pipe := false } .terminate

-- A JOIN_CMT that announces more addresses than there is room for, and brings two.
def sampleJoinCmtTurn : ActorTurn :=
  .polls { server := [⟨[some 7], true⟩, wordPart .little P2pmReqtypes.joinCmt.code true, wordPart .little 9 true,
      ⟨(addressSlot [84] ++ addressSlot [85]).map some, false⟩], successor := [], predecessor := [] }
    { server := true, successor := false, predecessor := false, pipe := false } .terminate

theorem sample_slist_fits (actor : P2pmdActor) (open_ : actor.node.closed = []) (empty : actor.node.serverInbox = []) :
    TurnFits sampleP2pmEnv actor sampleSlistTurn := by
  intro identity later _ inbox ubuf rest received joinCmt
  simp only [P2pmdActor.polled, sampleSlistTurn, open_] at inbox
  simp [P2pm.arrive, empty] at inbox
  obtain ⟨_, same⟩ := inbox
  subst same
  cases received
  exact absurd joinCmt (by decide)

set_option maxRecDepth 20000 in
theorem list_accesses_inside_sample : ∃ last : P2pmdActor,
    Runs.run (P2pmdActor.step sampleP2pmEnv) (sampleActor 2) [sampleSlistTurn] = some last ∧ last.node.nodeList.r = 2 ∧
      ∀ slot, processTimeo sampleP2pmEnv (last.polled sampleJoinCmtTurn) ≠ .error (.outside slot) := by
  obtain ⟨last, ran, r, rMax, closed, inbox⟩ : ∃ last : P2pmdActor,
      Runs.run (P2pmdActor.step sampleP2pmEnv) (sampleActor 2) [sampleSlistTurn] = some last ∧ last.node.nodeList.r = 2 ∧
        last.node.nodeList.rMax = 2 ∧ last.node.closed = [] ∧ last.node.serverInbox = [] := ⟨_, rfl, rfl, rfl, rfl, rfl⟩
  refine ⟨last, ran, r, fun slot => ?_⟩
  refine list_accesses_inside sampleP2pmEnv sampleBefore (sampleConfig 2) (sampleFields 2) (sampleActor 2) last [sampleSlistTurn]
    sampleJoinCmtTurn slot (by decide) (sample_config 2) rfl (by decide) (by decide) ?_ ran ?_
  · exact fun next _ => ⟨sample_slist_fits (sampleActor 2) rfl rfl, trivial⟩
  · intro identity later _ given ubuf rest received _ r after word _
    simp only [P2pmdActor.polled, sampleJoinCmtTurn, closed] at given
    simp [P2pm.arrive, inbox] at given
    obtain ⟨_, same⟩ := given
    subst same
    cases received
    cases word
    refine Or.inr ⟨_, _, rfl, ?_⟩
    rw [polled_list, rMax]
    decide

set_option maxRecDepth 20000 in
-- Room for three is promised, and the list has two slots.
theorem third_slot_written : ¬ ∀ (env : P2pmEnv) (before config : SngCfg) (fields : List (P2pmdField × BsonValue))
    (actor last : P2pmdActor) (turns : List ActorTurn) (turn : ActorTurn) (slot : Nat),
    P2pmdField.successorList ∈ fields.map Prod.fst → sngParseConfig before fields = some config → Configured config actor →
      Runs.run (P2pmdActor.step env) actor turns = some last → processTimeo env (last.polled turn) ≠ .error (.outside slot) := by
  intro claim
  exact claim sampleP2pmEnv sampleBefore (sampleConfig 3) (sampleFields 3) (sampleActor 3) (sampleActor 3) [] sampleSlistTurn 2
    (by decide) (sample_config 3) rfl rfl rfl

end Synergy
