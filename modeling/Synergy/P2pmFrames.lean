import Synergy.P2pmActor

set_option autoImplicit false

namespace Synergy

-- What each function of the server can change: everything else of its result is that of the state before.

theorem send_clientid_part (self next : P2pm) (more : Bool) (done : sendClientidPart self more = .ok next) :
    next = serverSend self [⟨(cstr self.clientid).map some, more⟩] := by
  unfold sendClientidPart at done
  split at done
  · exact (Except.ok.inj done).symm
  · cases done

theorem reply_slist_sent (env : P2pmEnv) (self next : P2pm) (code : UInt32) (done : replySlist env self code = .ok next) :
    ∃ list, self.nodeList.firstSlots = .ok list ∧
      next = serverSend self [wordPart env.host code true, wordPart env.host self.nodeList.r true, list] := by
  obtain ⟨list, listed, done⟩ := bind_ok _ _ _ done
  exact ⟨list, listed, (Except.ok.inj done).symm⟩

theorem copy_loop_length (source : Bytes) (rounds i : Nat) (list copied : Bytes) (first : maxIdLen ≤ i)
    (done : copyLoop source rounds i list = .ok copied) : copied.length = list.length := by
  induction rounds generalizing i list with
  | zero => rw [Except.ok.inj done]
  | succ rounds ih =>
      unfold copyLoop at done
      split at done
      · cases done
      · split at done
        · cases done
        · rename_i inside given
          rw [ih _ _ (by omega) done]
          simp only [List.length_append, List.length_take, List.length_drop]
          omega

theorem copy_list_frame (self copied : NodeInfo) (list : Bytes) (nR : UInt32) (done : p2pmNiCopySuccessorList self list nR = .ok copied) :
    copied = { self with successorList := copied.successorList, r := copied.r } ∧
      copied.successorList.length = self.successorList.length := by
  unfold p2pmNiCopySuccessorList at done
  split at done
  · cases done
  · split at done
    · cases done
      exact ⟨rfl, rfl⟩
    · obtain ⟨middle, looped, done⟩ := bind_ok _ _ _ done
      cases done
      exact ⟨rfl, copy_loop_length _ _ _ _ _ (Nat.le_refl _) looped⟩

theorem write_slot_length (list written block : Bytes) (k : Nat) (whole : block.length = maxIdLen)
    (done : writeSlot list k block = .ok written) : written.length = list.length := by
  unfold writeSlot at done
  split at done
  · cases done
  · rename_i inside
    cases done
    rw [Nat.succ_mul] at inside ⊢
    simp only [List.length_append, List.length_take, List.length_drop, whole]
    omega

theorem filled_length (env : P2pmEnv) (size : Nat) (bytes : List (Option UInt8)) : (filled env size bytes).length = size := by
  simp [filled]

theorem get_req_frame (env : P2pmEnv) (self next : P2pm) (code : P2pmOpcodes) (done : getReqHandler env self = .ok (code, next)) :
    next = { self with
      serverInbox := next.serverInbox
      serverSent := next.serverSent
      currentStatus := next.currentStatus
      nodeList := { self.nodeList with tempSuccessor := next.nodeList.tempSuccessor } } := by
  obtain ⟨told, sent, done⟩ := bind_ok _ _ _ done
  rw [send_clientid_part self told true sent] at done
  obtain ⟨⟨buf, inbox⟩, _, done⟩ := bind_ok _ _ _ done
  dsimp only at done
  repeat' split at done
  all_goals cases done
  all_goals rfl

theorem join_req_frame (env : P2pmEnv) (self next : P2pm) (code : P2pmOpcodes) (done : joinReqHandler env self = .ok (code, next)) :
    next = { self with
      serverInbox := next.serverInbox
      serverSent := next.serverSent
      nodeList := { self.nodeList with tempPredecessor := next.nodeList.tempPredecessor } } := by
  obtain ⟨told, sent, done⟩ := bind_ok _ _ _ done
  rw [send_clientid_part self told true sent] at done
  obtain ⟨⟨buf, inbox⟩, _, done⟩ := bind_ok _ _ _ done
  cases buf with
  | missing => cases done
  | freed => cases done
  | str chars =>
      dsimp only at done
      by_cases long : maxIdLen ≤ chars.length
      · rw [if_pos long] at done
        cases done
      · rw [if_neg long] at done
        split at done
        · cases done
          rfl
        · split at done
          · obtain ⟨replied, sent, done⟩ := bind_ok _ _ _ done
            obtain ⟨list, _, same⟩ := reply_slist_sent env _ replied _ sent
            cases done
            rw [same]
            rfl
          · cases done
            rfl

theorem join_commit_frame (env : P2pmEnv) (self next : P2pm) (r : UInt32) (buf : Bytes) (done : joinCommit env self r buf = .ok next) :
    next = { self with
        serverSent := next.serverSent
        successorSocket := next.successorSocket
        serverTriggeredActions := next.serverTriggeredActions
        currentStatus := next.currentStatus
        ticks := next.ticks
        nodeList := { self.nodeList with
          successorList := next.nodeList.successorList
          r := next.nodeList.r
          successor := self.nodeList.tempSuccessor
          tempSuccessor := [] } } ∧
      next.nodeList.successorList.length = self.nodeList.successorList.length := by
  obtain ⟨list, written, done⟩ := bind_ok _ _ _ done
  obtain ⟨copied, listed, done⟩ := bind_ok _ _ _ done
  obtain ⟨frame, length⟩ := copy_list_frame _ copied buf r listed
  have size := length.trans (write_slot_length _ list _ 0 (filled_length env _ _) written)
  rw [frame] at done
  dsimp only at done
  repeat' split at done
  all_goals cases done
  all_goals exact ⟨rfl, size⟩

theorem join_cmt_frame (env : P2pmEnv) (self next : P2pm) (code : P2pmOpcodes) (done : joinCmtHandler env self = .ok (code, next)) :
    next = { self with
        serverInbox := next.serverInbox
        serverSent := next.serverSent
        successorSocket := next.successorSocket
        serverTriggeredActions := next.serverTriggeredActions
        currentStatus := next.currentStatus
        ticks := next.ticks
        nodeList := { self.nodeList with
          successorList := next.nodeList.successorList
          r := next.nodeList.r
          successor := next.nodeList.successor
          tempSuccessor := next.nodeList.tempSuccessor } } ∧
      next.nodeList.successorList.length = self.nodeList.successorList.length := by
  obtain ⟨told, sent, done⟩ := bind_ok _ _ _ done
  rw [send_clientid_part self told true sent] at done
  obtain ⟨⟨word, inbox⟩, _, done⟩ := bind_ok _ _ _ done
  cases word with
  | none =>
      cases done
      exact ⟨rfl, rfl⟩
  | some r =>
      dsimp only at done
      by_cases zero : r = 0
      · rw [if_pos zero] at done
        cases done
        exact ⟨rfl, rfl⟩
      · rw [if_neg zero] at done
        cases inbox with
        | nil =>
            cases done
            exact ⟨rfl, rfl⟩
        | cons part later =>
            obtain ⟨committed, commit, done⟩ := bind_ok _ _ _ done
            obtain ⟨frame, length⟩ := join_commit_frame env _ committed r _ commit
            cases done
            refine ⟨?_, length⟩
            rw [frame]
            rfl

theorem stabilize_nsyn_req_frame (self next : P2pm) (code : P2pmOpcodes) (done : stabilizeNsynReqHandler self = .ok (code, next)) :
    next = { self with
      serverSent := next.serverSent
      currentStatus := endHandling .handlingStabilize self.currentStatus
      nodeList := { self.nodeList with tempPredecessor := [] } } := by
  obtain ⟨told, sent, done⟩ := bind_ok _ _ _ done
  have same := send_clientid_part _ told false sent
  cases done
  rw [same]
  rfl

theorem ping_req_frame (env : P2pmEnv) (self next : P2pm) (code : P2pmOpcodes) (done : pingReqHandler env self = .ok (code, next)) :
    next = { self with serverSent := next.serverSent } := by
  obtain ⟨told, sent, done⟩ := bind_ok _ _ _ done
  have same := send_clientid_part _ told true sent
  cases done
  rw [same]
  rfl

theorem stabilize_req_frame (env : P2pmEnv) (self next : P2pm) (code : P2pmOpcodes)
    (done : stabilizeReqHandler env self = .ok (code, next)) :
    next = { self with
      serverInbox := next.serverInbox
      serverSent := next.serverSent
      currentStatus := next.currentStatus
      nodeList := { self.nodeList with tempPredecessor := next.nodeList.tempPredecessor } } := by
  unfold stabilizeReqHandler at done
  split at done
  · cases done
    rfl
  · obtain ⟨told, sent, done⟩ := bind_ok _ _ _ done
    rw [send_clientid_part _ told true sent] at done
    obtain ⟨⟨addr, inbox⟩, _, done⟩ := bind_ok _ _ _ done
    cases addr with
    | freed => cases done
    | missing =>
        cases done
        rfl
    | str chars =>
        dsimp only at done
        by_cases long : maxIdLen ≤ chars.length
        · rw [if_pos long] at done
          cases done
        · rw [if_neg long] at done
          obtain ⟨replied, sent, done⟩ := bind_ok _ _ _ done
          obtain ⟨list, _, same⟩ := reply_slist_sent env _ replied _ sent
          cases done
          rw [same]
          rfl

theorem stabilize_syn_req_frame (env : P2pmEnv) (self : P2pm) :
    (stabilizeSynReqHandler env self).2 = { self with
      predecessorSocket := (stabilizeSynReqHandler env self).2.predecessorSocket
      serverTriggeredActions := (stabilizeSynReqHandler env self).2.serverTriggeredActions
      currentStatus := (stabilizeSynReqHandler env self).2.currentStatus
      nodeList := { self.nodeList with
        predecessor := (stabilizeSynReqHandler env self).2.nodeList.predecessor
        tempPredecessor := [] } } := by
  unfold stabilizeSynReqHandler
  by_cases other : self.currentStatus ≠ .handlingStabilize
  · simp only [if_pos other]
  · simp only [if_neg other]
    by_cases same : self.nodeList.predecessor = self.nodeList.tempPredecessor
    · simp only [if_pos same]
    · simp only [if_neg same]

theorem sync_slist_frame (env : P2pmEnv) (self next : P2pm) (code : P2pmOpcodes)
    (done : p2pmSyncSlistHandler env self = .ok (code, next)) :
    next = { self with
        serverInbox := next.serverInbox
        serverSent := next.serverSent
        serverTriggeredActions := next.serverTriggeredActions
        lastTtl := next.lastTtl
        nodeList := { self.nodeList with successorList := next.nodeList.successorList, r := next.nodeList.r } } ∧
      next.nodeList.successorList.length = self.nodeList.successorList.length := by
  obtain ⟨told, sent, done⟩ := bind_ok _ _ _ done
  rw [send_clientid_part self told true sent] at done
  obtain ⟨⟨ttl, inbox⟩, _, done⟩ := bind_ok _ _ _ done
  cases ttl with
  | none =>
      cases done
      exact ⟨rfl, rfl⟩
  | some ttl =>
      obtain ⟨⟨nr, inbox⟩, _, done⟩ := bind_ok _ _ _ done
      cases nr with
      | none =>
          cases done
          exact ⟨rfl, rfl⟩
      | some nr =>
          dsimp only at done
          split at done
          · cases done
            exact ⟨rfl, rfl⟩
          · cases inbox with
            | nil =>
                cases done
                exact ⟨rfl, rfl⟩
            | cons part later =>
                dsimp only at done
                split at done
                · obtain ⟨copied, listed, done⟩ := bind_ok _ _ _ done
                  obtain ⟨frame, length⟩ := copy_list_frame _ copied _ _ listed
                  cases done
                  rw [frame]
                  exact ⟨rfl, length⟩
                · cases done
                  exact ⟨rfl, rfl⟩

theorem clear_slots_length (list cleared : Bytes) (count : UInt32) (done : clearSlots list count = .ok cleared) :
    cleared.length = list.length := by
  unfold clearSlots at done
  dsimp only at done
  split at done
  · cases done
  · rename_i inside
    cases done
    simp only [List.length_append, List.length_replicate, List.length_drop]
    omega

theorem write_address_length (list chars written : Bytes) (short : chars.length < maxIdLen)
    (done : writeAddress list chars = .ok written) : written.length = list.length := by
  unfold writeAddress at done
  split at done
  · cases done
  · rename_i inside
    cases done
    simp only [List.length_append, List.length_cons, List.length_drop]
    omega

theorem set_successor_frame (self next : P2pmNodeInfo) (chars : Bytes) (done : p2pmNiSetSuccessor self chars = .ok next) :
    next = { self with successor := next.successor, successorList := next.successorList } ∧
      next.successorList.length = self.successorList.length := by
  unfold p2pmNiSetSuccessor at done
  split at done
  · cases done
    exact ⟨rfl, rfl⟩
  · rename_i short
    obtain ⟨list, written, done⟩ := bind_ok _ _ _ done
    cases done
    exact ⟨rfl, write_address_length _ chars list (by omega) written⟩

theorem set_predecessor_frame (self : P2pmNodeInfo) (chars : Bytes) :
    p2pmNiSetPredecessor self chars = { self with predecessor := (p2pmNiSetPredecessor self chars).predecessor } := by
  unfold p2pmNiSetPredecessor
  split <;> rfl

theorem one_ring_join_frame (env : P2pmEnv) (self next : P2pm) (code : P2pmOpcodes)
    (done : oneRingJoinReqHandler env self = .ok (code, next)) :
    next = { self with
        serverInbox := next.serverInbox
        serverSent := next.serverSent
        successorSocket := next.successorSocket
        predecessorSocket := next.predecessorSocket
        currentStatus := next.currentStatus
        nodeList := { self.nodeList with
          successorList := next.nodeList.successorList
          predecessor := next.nodeList.predecessor
          successor := next.nodeList.successor } } ∧
      next.nodeList.successorList.length = self.nodeList.successorList.length := by
  obtain ⟨told, sent, done⟩ := bind_ok _ _ _ done
  rw [send_clientid_part self told true sent] at done
  split at done
  · cases done
    exact ⟨rfl, rfl⟩
  · obtain ⟨⟨buf, inbox⟩, _, done⟩ := bind_ok _ _ _ done
    cases buf with
    | missing => cases done
    | freed => cases done
    | str chars =>
        obtain ⟨nodeList, set, done⟩ := bind_ok _ _ _ done
        obtain ⟨cleared, clear, done⟩ := bind_ok _ _ _ done
        obtain ⟨list, written, done⟩ := bind_ok _ _ _ done
        obtain ⟨frame, length⟩ := set_successor_frame _ nodeList chars set
        have before := set_predecessor_frame self.nodeList chars
        have size : list.length = self.nodeList.successorList.length := by
          rw [write_slot_length _ list _ 0 (filled_length env _ _) written, clear_slots_length _ cleared _ clear, length]
          exact congrArg (fun info => info.successorList.length) before
        rw [frame, serverSend, before] at done
        dsimp only at done
        repeat' split at done
        all_goals cases done
        all_goals exact ⟨rfl, size⟩

theorem form_one_ring_frame (env : P2pmEnv) (self next : P2pm) (done : p2pmFormOneRing env self = .ok next) :
    next = { self with
        nodeList := { self.nodeList with
          successor := env.endpoint
          predecessor := env.endpoint
          successorList := next.nodeList.successorList }
        closed := next.closed
        predecessorSocket := zmqSocket self.opened
        successorSocket := zmqSocket (self.opened + 1)
        opened := next.opened
        currentStatus := .oneRing } ∧
      next.nodeList.successorList.length = self.nodeList.successorList.length := by
  obtain ⟨list, written, done⟩ := bind_ok _ _ _ done
  cases done
  exact ⟨rfl, write_address_length _ _ list env.short written⟩

theorem form_one_ring_after_frame (env : P2pmEnv) (self next : P2pm) (code : P2pmOpcodes)
    (done : formOneRingAfter env self = .ok (code, next)) : p2pmFormOneRing env self = .ok next := by
  obtain ⟨formed, form, done⟩ := bind_ok _ _ _ done
  cases done
  exact form

-- What TAIL_FOUND and HEAD_FOUND can change.
structure FoundFrame (old next : P2pm) : Prop where
  same : next = { old with
    serverInbox := next.serverInbox
    successorSocket := next.successorSocket
    predecessorSocket := next.predecessorSocket
    opened := next.opened
    closed := next.closed
    currentStatus := next.currentStatus
    nodeList := { old.nodeList with
      successorList := next.nodeList.successorList
      predecessor := next.nodeList.predecessor
      successor := next.nodeList.successor } }
  length : next.nodeList.successorList.length = old.nodeList.successorList.length

theorem form_one_ring_found (env : P2pmEnv) (self before next : P2pm) (code : P2pmOpcodes)
    (done : formOneRingAfter env before = .ok (code, next)) (frame : FoundFrame self before) : FoundFrame self next := by
  obtain ⟨same, length⟩ := form_one_ring_frame env before next (form_one_ring_after_frame env before next code done)
  refine ⟨?_, length.trans frame.length⟩
  rw [same, frame.same]

theorem tail_found_frame (env : P2pmEnv) (self next : P2pm) (code : P2pmOpcodes)
    (done : tailFoundHandler env self = .ok (code, next)) : FoundFrame self next := by
  obtain ⟨⟨endpoint, inbox⟩, _, done⟩ := bind_ok _ _ _ done
  cases endpoint with
  | missing =>
      dsimp only at done
      exact form_one_ring_found env self _ next code done ⟨rfl, rfl⟩
  | freed =>
      dsimp only at done
      exact form_one_ring_found env self _ next code done ⟨rfl, rfl⟩
  | str chars =>
      dsimp only at done
      split at done
      · exact form_one_ring_found env self _ next code done ⟨rfl, rfl⟩
      · split at done
        · exact form_one_ring_found env self _ next code done ⟨rfl, rfl⟩
        · by_cases long : maxIdLen ≤ chars.length
          · rw [if_pos long] at done
            cases done
          · rw [if_neg long] at done
            cases done
            exact ⟨rfl, rfl⟩

theorem head_found_frame (env : P2pmEnv) (self next : P2pm) (code : P2pmOpcodes)
    (done : headFoundHandler env self = .ok (code, next)) : FoundFrame self next := by
  obtain ⟨⟨endpoint, inbox⟩, _, done⟩ := bind_ok _ _ _ done
  cases endpoint with
  | missing =>
      dsimp only at done
      exact form_one_ring_found env self _ next code done ⟨rfl, rfl⟩
  | freed =>
      dsimp only at done
      exact form_one_ring_found env self _ next code done ⟨rfl, rfl⟩
  | str chars =>
      dsimp only at done
      split at done
      · exact form_one_ring_found env self _ next code done ⟨rfl, rfl⟩
      · split at done
        · exact form_one_ring_found env self _ next code done ⟨rfl, rfl⟩
        · obtain ⟨cleared, clear, done⟩ := bind_ok _ _ _ done
          by_cases long : maxIdLen ≤ chars.length
          · rw [if_pos long] at done
            cases done
          · rw [if_neg long] at done
            obtain ⟨list, written, done⟩ := bind_ok _ _ _ done
            cases done
            exact ⟨rfl, (write_address_length _ chars list (by omega) written).trans (clear_slots_length _ cleared _ clear)⟩

theorem token_frame (env : P2pmEnv) (self next : P2pm) (code : P2pmOpcodes) (done : p2pmTokenHandler env self = .ok (code, next)) :
    recvToken env.host self.recvToken self.serverInbox = .ok (next.recvToken, next.serverInbox) ∧
      next = { self with serverInbox := next.serverInbox, recvToken := next.recvToken, recvHasToken := true } := by
  obtain ⟨⟨token, inbox⟩, received, done⟩ := bind_ok _ _ _ done
  cases done
  exact ⟨received, rfl⟩

-- What the handlers of the server can change altogether.
structure ServerFrame (old next : P2pm) : Prop where
  same : next = { old with
    nodeList := { next.nodeList with rMax := old.nodeList.rMax }
    currentStatus := next.currentStatus
    serverTriggeredActions := next.serverTriggeredActions
    ticks := next.ticks
    lastTtl := next.lastTtl
    clientid := next.clientid
    serverInbox := next.serverInbox
    serverSent := next.serverSent
    successorSocket := next.successorSocket
    predecessorSocket := next.predecessorSocket
    opened := next.opened
    closed := next.closed
    recvHasToken := next.recvHasToken
    recvToken := next.recvToken }
  length : next.nodeList.successorList.length = old.nodeList.successorList.length

theorem found_server_frame (old next : P2pm) (found : FoundFrame old next) : ServerFrame old next := by
  refine ⟨?_, found.length⟩
  rw [found.same]

theorem serve_frame (env : P2pmEnv) (self next : P2pm) (request : ServerCase) (code : P2pmOpcodes)
    (done : serve env self request = .ok (code, next)) : ServerFrame self next := by
  cases request with
  | getReq =>
      rw [get_req_frame env self next code done]
      exact ⟨rfl, rfl⟩
  | joinReq =>
      rw [join_req_frame env self next code done]
      exact ⟨rfl, rfl⟩
  | joinCmt =>
      obtain ⟨same, length⟩ := join_cmt_frame env self next code done
      refine ⟨?_, length⟩
      rw [same]
  | stabilizeNsynReq =>
      rw [stabilize_nsyn_req_frame self next code done]
      exact ⟨rfl, rfl⟩
  | joinAbrt =>
      cases done
      exact ⟨rfl, rfl⟩
  | predJoinCmt =>
      cases done
      exact ⟨rfl, rfl⟩
  | predJoinAbrt =>
      cases done
      exact ⟨rfl, rfl⟩
  | pingReq =>
      rw [ping_req_frame env self next code done]
      exact ⟨rfl, rfl⟩
  | stabilizeReq =>
      rw [stabilize_req_frame env self next code done]
      exact ⟨rfl, rfl⟩
  | stabilizeSynReq =>
      have result : next = (stabilizeSynReqHandler env self).2 := congrArg Prod.snd (Except.ok.inj done).symm
      rw [result, stabilize_syn_req_frame env self]
      exact ⟨rfl, rfl⟩
  | syncSlist =>
      obtain ⟨same, length⟩ := sync_slist_frame env self next code done
      refine ⟨?_, length⟩
      rw [same]
  | oneRingJoinReq =>
      obtain ⟨same, length⟩ := one_ring_join_frame env self next code done
      refine ⟨?_, length⟩
      rw [same]
  | tailFound => exact found_server_frame self next (tail_found_frame env self next code done)
  | headFound => exact found_server_frame self next (head_found_frame env self next code done)
  | token =>
      rw [(token_frame env self next code done).2]
      exact ⟨rfl, rfl⟩
  | ignored =>
      cases done
      exact ⟨rfl, rfl⟩

structure RequestFrame (request : ServerCase) (old next : P2pm) : Prop where
  tempSuccessor : request ∉ [ServerCase.getReq, .joinCmt, .joinAbrt] → next.nodeList.tempSuccessor = old.nodeList.tempSuccessor
  predecessor : request ∈ [ServerCase.getReq, .joinCmt, .joinAbrt, .pingReq, .syncSlist, .token, .ignored] →
    next.nodeList.predecessor = old.nodeList.predecessor ∧ next.nodeList.tempPredecessor = old.nodeList.tempPredecessor
  received : request ≠ .token → next.recvHasToken = old.recvHasToken
  r : request ∉ [ServerCase.joinCmt, .syncSlist] → next.nodeList.r = old.nodeList.r

theorem serve_request_frame (env : P2pmEnv) (self next : P2pm) (request : ServerCase) (code : P2pmOpcodes)
    (done : serve env self request = .ok (code, next)) : RequestFrame request self next := by
  cases request with
  | getReq =>
      rw [get_req_frame env self next code done]
      exact ⟨fun other => absurd (by simp) other, fun _ => ⟨rfl, rfl⟩, fun _ => rfl, fun _ => rfl⟩
  | joinReq =>
      rw [join_req_frame env self next code done]
      exact ⟨fun _ => rfl, fun other => absurd other (by simp), fun _ => rfl, fun _ => rfl⟩
  | joinCmt =>
      rw [(join_cmt_frame env self next code done).1]
      exact ⟨fun other => absurd (by simp) other, fun _ => ⟨rfl, rfl⟩, fun _ => rfl, fun other => absurd (by simp) other⟩
  | stabilizeNsynReq =>
      rw [stabilize_nsyn_req_frame self next code done]
      exact ⟨fun _ => rfl, fun other => absurd other (by simp), fun _ => rfl, fun _ => rfl⟩
  | joinAbrt =>
      cases done
      exact ⟨fun other => absurd (by simp) other, fun _ => ⟨rfl, rfl⟩, fun _ => rfl, fun _ => rfl⟩
  | predJoinCmt =>
      cases done
      exact ⟨fun _ => rfl, fun other => absurd other (by simp), fun _ => rfl, fun _ => rfl⟩
  | predJoinAbrt =>
      cases done
      exact ⟨fun _ => rfl, fun other => absurd other (by simp), fun _ => rfl, fun _ => rfl⟩
  | pingReq =>
      rw [ping_req_frame env self next code done]
      exact ⟨fun _ => rfl, fun _ => ⟨rfl, rfl⟩, fun _ => rfl, fun _ => rfl⟩
  | stabilizeReq =>
      rw [stabilize_req_frame env self next code done]
      exact ⟨fun _ => rfl, fun other => absurd other (by simp), fun _ => rfl, fun _ => rfl⟩
  | stabilizeSynReq =>
      have result : next = (stabilizeSynReqHandler env self).2 := congrArg Prod.snd (Except.ok.inj done).symm
      rw [result, stabilize_syn_req_frame env self]
      exact ⟨fun _ => rfl, fun other => absurd other (by simp), fun _ => rfl, fun _ => rfl⟩
  | syncSlist =>
      rw [(sync_slist_frame env self next code done).1]
      exact ⟨fun _ => rfl, fun _ => ⟨rfl, rfl⟩, fun _ => rfl, fun other => absurd (by simp) other⟩
  | oneRingJoinReq =>
      rw [(one_ring_join_frame env self next code done).1]
      exact ⟨fun _ => rfl, fun other => absurd other (by simp), fun _ => rfl, fun _ => rfl⟩
  | tailFound =>
      rw [(tail_found_frame env self next code done).same]
      exact ⟨fun _ => rfl, fun other => absurd other (by simp), fun _ => rfl, fun _ => rfl⟩
  | headFound =>
      rw [(head_found_frame env self next code done).same]
      exact ⟨fun _ => rfl, fun other => absurd other (by simp), fun _ => rfl, fun _ => rfl⟩
  | token =>
      rw [(token_frame env self next code done).2]
      exact ⟨fun _ => rfl, fun _ => ⟨rfl, rfl⟩, fun other => absurd rfl other, fun _ => rfl⟩
  | ignored =>
      cases done
      exact ⟨fun _ => rfl, fun _ => ⟨rfl, rfl⟩, fun _ => rfl, fun _ => rfl⟩

-- The request a message of server_socket makes.
def requestOf (env : P2pmEnv) (later : List MsgPart) : Option ServerCase :=
  match recvWord env.host later with
  | .error _ => none
  | .ok (ubuf, _) => some (ServerCase.ofCode (ubuf.getD env.strayWord))

theorem serve_message_served (env : P2pmEnv) (self next : P2pm) (identity : MsgPart) (later : List MsgPart) (code : P2pmOpcodes)
    (done : serveMessage env self identity later = .ok (code, next)) :
    ∃ clientid ubuf inbox, putClientid self.clientid identity.bytes = .ok clientid ∧
      recvWord env.host later = .ok (ubuf, inbox) ∧
      serve env { self with clientid := clientid, serverInbox := inbox } (ServerCase.ofCode (ubuf.getD env.strayWord)) =
        .ok (code, next) := by
  obtain ⟨clientid, put, done⟩ := bind_ok _ _ _ done
  obtain ⟨⟨ubuf, inbox⟩, received, done⟩ := bind_ok _ _ _ done
  exact ⟨clientid, ubuf, inbox, put, received, done⟩

theorem serve_message_frame (env : P2pmEnv) (self next : P2pm) (identity : MsgPart) (later : List MsgPart) (code : P2pmOpcodes)
    (done : serveMessage env self identity later = .ok (code, next)) : ServerFrame self next := by
  obtain ⟨clientid, ubuf, inbox, _, _, served⟩ := serve_message_served env self next identity later code done
  have frame := serve_frame env _ next _ code served
  refine ⟨?_, frame.length⟩
  rw [frame.same]

-- What _successor_socket_handler can change before it looks at the token.
structure SuccessorFrame (old next : P2pm) : Prop where
  same : next = { old with
    nodeList := { old.nodeList with
      successorList := next.nodeList.successorList
      r := next.nodeList.r
      successor := next.nodeList.successor }
    currentStatus := next.currentStatus
    successorSocketExpectedActions := next.successorSocketExpectedActions
    serverTriggeredActions := next.serverTriggeredActions
    successorLastpollTime := next.successorLastpollTime
    lastStabilizeTime := next.lastStabilizeTime
    ticks := next.ticks
    successorSocket := next.successorSocket
    successorSent := next.successorSent }
  length : next.nodeList.successorList.length = old.nodeList.successorList.length

theorem SuccessorFrame.after (old middle next : P2pm) (second : SuccessorFrame middle next) (first : SuccessorFrame old middle) :
    SuccessorFrame old next := by
  refine ⟨?_, second.length.trans first.length⟩
  rw [second.same, first.same]

theorem stabilize_acked_frame (env : P2pmEnv) (self next : P2pm) (sRecv : UInt32) (done : stabilizeAcked env self sRecv = .ok next) :
    SuccessorFrame self next := by
  obtain ⟨⟨word, inbox⟩, _, done⟩ := bind_ok _ _ _ done
  dsimp only at done
  split at done
  · cases done
    exact ⟨rfl, rfl⟩
  · obtain ⟨⟨r, inbox⟩, _, done⟩ := bind_ok _ _ _ done
    cases r with
    | none =>
        cases done
        exact ⟨rfl, rfl⟩
    | some r =>
        dsimp only at done
        split at done
        · cases done
          exact ⟨rfl, rfl⟩
        · cases inbox with
          | nil =>
              cases done
              exact ⟨rfl, rfl⟩
          | cons part later =>
              obtain ⟨copied, listed, done⟩ := bind_ok _ _ _ done
              obtain ⟨frame, length⟩ := copy_list_frame _ copied _ _ listed
              cases done
              rw [frame]
              exact ⟨rfl, length⟩

theorem stabilize_pinged_frame (env : P2pmEnv) (self : P2pm) (sRecv : UInt32) : SuccessorFrame self (stabilizePinged env self sRecv) := by
  unfold stabilizePinged
  split
  · exact ⟨rfl, rfl⟩
  · exact ⟨rfl, rfl⟩

theorem successor_readable_frame (env : P2pmEnv) (self next : P2pm) (done : successorReadable env self = .ok next) :
    SuccessorFrame self next := by
  unfold successorReadable at done
  dsimp only [zclockMono] at done
  split at done
  · cases done
  · obtain ⟨sRecv, _, done⟩ := bind_ok _ _ _ done
    split at done
    · cases done
      exact SuccessorFrame.after self _ _ (stabilize_pinged_frame env _ sRecv) ⟨rfl, rfl⟩
    · cases done
      exact SuccessorFrame.after self _ _ (stabilize_pinged_frame env _ sRecv) ⟨rfl, rfl⟩
    · cases done
      exact SuccessorFrame.after self _ _ (stabilize_pinged_frame env _ sRecv) ⟨rfl, rfl⟩
    · exact SuccessorFrame.after self _ next (stabilize_acked_frame env _ next sRecv done) ⟨rfl, rfl⟩
    · cases done
      exact ⟨rfl, rfl⟩

theorem read_slot_block (list block : Bytes) (k : Nat) (done : readSlot list k = .ok block) :
    (k + 1) * maxIdLen ≤ list.length ∧ block = Pieces.piece maxIdLen k list := by
  unfold readSlot at done
  split at done
  · cases done
  · rename_i inside
    exact ⟨by omega, (Except.ok.inj done).symm⟩

theorem read_slot_length (list block : Bytes) (k : Nat) (done : readSlot list k = .ok block) : block.length = maxIdLen := by
  obtain ⟨inside, same⟩ := read_slot_block list block k done
  rw [same]
  exact Pieces.piece_full maxIdLen k list inside

theorem condense_loop_length (rounds ptr : Nat) (ok : Bool) (list condensed : Bytes)
    (done : condenseLoop rounds ptr ok list = .ok condensed) : condensed.length = list.length := by
  induction rounds generalizing ptr ok list with
  | zero => rw [Except.ok.inj done]
  | succ rounds ih =>
      unfold condenseLoop at done
      split at done
      · exact ih _ _ _ done
      · split at done
        · obtain ⟨block, read, done⟩ := bind_ok _ _ _ done
          obtain ⟨copied, copy, done⟩ := bind_ok _ _ _ done
          obtain ⟨cleared, clear, done⟩ := bind_ok _ _ _ done
          rw [ih _ _ _ done, write_slot_length _ cleared _ _ (List.length_replicate ..) clear,
            write_slot_length _ copied _ _ (read_slot_length list block 0 read) copy]
        · exact ih _ _ _ done

theorem fix_list_frame (self fixed : NodeInfo) (done : p2pmNiFixSuccessorList self = .ok fixed) :
    fixed = { self with successorList := fixed.successorList } ∧ fixed.successorList.length = self.successorList.length := by
  unfold p2pmNiFixSuccessorList at done
  split at done
  · cases done
    exact ⟨rfl, rfl⟩
  · obtain ⟨condensed, looped, done⟩ := bind_ok _ _ _ done
    cases done
    exact ⟨rfl, condense_loop_length _ _ _ _ _ looped⟩

theorem fail_over_frame (env : P2pmEnv) (self next : P2pm) (done : failOver env self = .ok next) : SuccessorFrame self next := by
  obtain ⟨address, read, done⟩ := bind_ok _ _ _ done
  split at done
  · obtain ⟨list, written, done⟩ := bind_ok _ _ _ done
    obtain ⟨fixed, fix, done⟩ := bind_ok _ _ _ done
    obtain ⟨first, _, done⟩ := bind_ok _ _ _ done
    obtain ⟨frame, length⟩ := fix_list_frame _ fixed fix
    have size := length.trans (write_slot_length _ list _ 0 (read_slot_length _ address 1 read) written)
    by_cases unterminated : 0 ∉ first
    · rw [if_pos unterminated] at done
      cases done
    · rw [if_neg unterminated, frame] at done
      cases done
      exact ⟨rfl, size⟩
  · cases done
    exact ⟨rfl, rfl⟩

theorem successor_timeout_frame (env : P2pmEnv) (self next : P2pm) (done : successorTimeout env self = .ok next) :
    SuccessorFrame self next := by
  unfold successorTimeout at done
  dsimp only [zclockMono] at done
  split at done
  · cases done
    exact ⟨rfl, rfl⟩
  · cases done
    exact ⟨rfl, rfl⟩
  · exact SuccessorFrame.after self _ next (fail_over_frame env _ next done) ⟨rfl, rfl⟩
  · exact SuccessorFrame.after self _ next (fail_over_frame env _ next done) ⟨rfl, rfl⟩
  · cases done
    exact ⟨rfl, rfl⟩

theorem successor_event_frame (env : P2pmEnv) (self next : P2pm) (done : successorEvent env self = .ok next) :
    SuccessorFrame self next := by
  unfold successorEvent at done
  split at done
  · exact successor_readable_frame env self next done
  · dsimp only [zclockMono] at done
    split at done
    · exact SuccessorFrame.after self _ next (successor_timeout_frame env _ next done) ⟨rfl, rfl⟩
    · split at done
      · cases done
        exact ⟨rfl, rfl⟩
      · split at done
        · cases done
          exact ⟨rfl, rfl⟩
        · cases done
          exact ⟨rfl, rfl⟩

theorem flush_token_frame (env : P2pmEnv) (self next : P2pm) (done : flushToken env self = .ok next) :
    next = { self with
      successorLastpollTime := next.successorLastpollTime
      ticks := next.ticks
      successorSent := next.successorSent
      sendHasToken := next.sendHasToken
      sendToken := next.sendToken } := by
  unfold flushToken at done
  split at done
  · dsimp only [zclockMono] at done
    split at done
    · cases done
    · cases done
      rfl
  · cases done
    rfl

theorem successor_handler_parts (env : P2pmEnv) (self next : P2pm) (done : successorSocketHandler env self = .ok next) :
    ∃ middle, successorEvent env self = .ok middle ∧ flushToken env middle = .ok next := bind_ok _ _ _ done

-- What _predecessor_socket_handler can change.
structure PredecessorFrame (old next : P2pm) : Prop where
  same : next = { old with
    nodeList := { old.nodeList with
      successorList := next.nodeList.successorList
      predecessor := next.nodeList.predecessor
      successor := next.nodeList.successor }
    currentStatus := next.currentStatus
    predecessorSocketExpectedActions := next.predecessorSocketExpectedActions
    successorSocketExpectedActions := next.successorSocketExpectedActions
    serverTriggeredActions := next.serverTriggeredActions
    predecessorTriggeredActions := next.predecessorTriggeredActions
    predecessorLastpollTime := next.predecessorLastpollTime
    ticks := next.ticks
    successorSocket := next.successorSocket
    predecessorSocket := next.predecessorSocket
    predecessorSent := next.predecessorSent
    opened := next.opened
    closed := next.closed }
  length : next.nodeList.successorList.length = old.nodeList.successorList.length

theorem PredecessorFrame.after (old middle next : P2pm) (second : PredecessorFrame middle next)
    (first : PredecessorFrame old middle) : PredecessorFrame old next := by
  refine ⟨?_, second.length.trans first.length⟩
  rw [second.same, first.same]

theorem form_one_ring_predecessor (env : P2pmEnv) (self next : P2pm) (done : p2pmFormOneRing env self = .ok next) :
    PredecessorFrame self next := by
  obtain ⟨same, length⟩ := form_one_ring_frame env self next done
  refine ⟨?_, length⟩
  rw [same]

theorem send_slist_sent (env : P2pmEnv) (self next : P2pm) (ttl : UInt32) (done : sendSlist env self ttl = .ok next) :
    ∃ list, self.nodeList.firstSlots = .ok list ∧ next = predecessorSend self
      [wordPart env.host P2pmReqtypes.syncSlist.code true, wordPart env.host ttl true, wordPart env.host self.nodeList.r true, list] := by
  obtain ⟨list, listed, done⟩ := bind_ok _ _ _ done
  exact ⟨list, listed, (Except.ok.inj done).symm⟩

theorem predecessor_answered_frame (env : P2pmEnv) (self next : P2pm) (done : predecessorAnswered env self = .ok next) :
    PredecessorFrame self next := by
  unfold predecessorAnswered at done
  split at done
  · cases done
    exact ⟨rfl, rfl⟩
  · obtain ⟨told, sent, done⟩ := bind_ok _ _ _ done
    obtain ⟨list, _, same⟩ := send_slist_sent env self told _ sent
    rw [same] at done
    cases done
    exact ⟨rfl, rfl⟩
  · obtain ⟨told, sent, done⟩ := bind_ok _ _ _ done
    obtain ⟨list, _, same⟩ := send_slist_sent env self told _ sent
    rw [same] at done
    cases done
    exact ⟨rfl, rfl⟩
  · cases done
    exact ⟨rfl, rfl⟩

theorem predecessor_readable_frame (env : P2pmEnv) (self next : P2pm) (done : predecessorReadable env self = .ok next) :
    PredecessorFrame self next := by
  obtain ⟨⟨word, inbox⟩, _, done⟩ := bind_ok _ _ _ done
  dsimp only [zclockMono] at done
  have answered : ∀ middle : P2pm,
      (if word.getD env.strayWord = P2pmReptypes.pongRep.code then predecessorAnswered env middle else pure (backwardsDone middle)) =
        .ok next → PredecessorFrame self middle → PredecessorFrame self next := by
    intro middle done frame
    split at done
    · exact PredecessorFrame.after self middle next (predecessor_answered_frame env middle next done) frame
    · cases done
      exact PredecessorFrame.after self middle _ ⟨rfl, rfl⟩ frame
  split at done
  · exact answered _ done ⟨rfl, rfl⟩
  · exact answered _ done ⟨rfl, rfl⟩
  · exact answered _ done ⟨rfl, rfl⟩
  · cases done
    exact ⟨rfl, rfl⟩
  · cases done
    exact ⟨rfl, rfl⟩
  · cases done
    exact ⟨rfl, rfl⟩

theorem predecessor_failed_frame (env : P2pmEnv) (self next : P2pm) (done : predecessorFailed env self = .ok next) :
    PredecessorFrame self next := by
  unfold predecessorFailed at done
  split at done
  · cases done
    exact ⟨rfl, rfl⟩
  · exact PredecessorFrame.after self _ next (form_one_ring_predecessor env _ next done) ⟨rfl, rfl⟩

theorem predecessor_idle_frame (env : P2pmEnv) (self : P2pm) : PredecessorFrame self (predecessorIdle env self) := by
  unfold predecessorIdle
  dsimp only [zclockMono]
  split
  · exact ⟨rfl, rfl⟩
  · split
    · exact ⟨rfl, rfl⟩
    · exact ⟨rfl, rfl⟩

theorem predecessor_handler_frame (env : P2pmEnv) (depth : Nat) (self next : P2pm)
    (done : predecessorSocketHandler env depth self = .ok next) : PredecessorFrame self next := by
  induction depth generalizing self with
  | zero => cases done
  | succ depth ih =>
      unfold predecessorSocketHandler at done
      split at done
      · exact predecessor_readable_frame env self next done
      · dsimp only [zclockMono] at done
        split at done
        · split at done
          · cases done
            exact ⟨rfl, rfl⟩
          · cases done
            exact ⟨rfl, rfl⟩
          · exact PredecessorFrame.after self _ next (predecessor_failed_frame env _ next done) ⟨rfl, rfl⟩
          · exact PredecessorFrame.after self _ next (predecessor_failed_frame env _ next done) ⟨rfl, rfl⟩
          · exact PredecessorFrame.after self _ next (ih _ done) ⟨rfl, rfl⟩
          · exact PredecessorFrame.after self _ next (ih _ done) ⟨rfl, rfl⟩
          · cases done
            exact ⟨rfl, rfl⟩
        · cases done
          exact PredecessorFrame.after self _ _ (predecessor_idle_frame env _) ⟨rfl, rfl⟩

structure LoopFrame (old next : P2pm) : Prop where
  same : next = { old with
    nodeList := { old.nodeList with
      successorList := next.nodeList.successorList
      r := next.nodeList.r
      predecessor := next.nodeList.predecessor
      successor := next.nodeList.successor }
    currentStatus := next.currentStatus
    predecessorSocketExpectedActions := next.predecessorSocketExpectedActions
    successorSocketExpectedActions := next.successorSocketExpectedActions
    serverTriggeredActions := next.serverTriggeredActions
    predecessorTriggeredActions := next.predecessorTriggeredActions
    predecessorLastpollTime := next.predecessorLastpollTime
    successorLastpollTime := next.successorLastpollTime
    lastStabilizeTime := next.lastStabilizeTime
    ticks := next.ticks
    successorSocket := next.successorSocket
    successorSent := next.successorSent
    predecessorSocket := next.predecessorSocket
    predecessorSent := next.predecessorSent
    opened := next.opened
    closed := next.closed
    sendHasToken := next.sendHasToken
    sendToken := next.sendToken }
  length : next.nodeList.successorList.length = old.nodeList.successorList.length

theorem LoopFrame.after (old middle next : P2pm) (second : LoopFrame middle next) (first : LoopFrame old middle) :
    LoopFrame old next := by
  refine ⟨?_, second.length.trans first.length⟩
  rw [second.same, first.same]

theorem stabilize_timer_frame (env : P2pmEnv) (self : P2pm) :
    stabilizeTimer env self = { self with
      serverTriggeredActions := (stabilizeTimer env self).serverTriggeredActions
      currentStatus := (stabilizeTimer env self).currentStatus
      ticks := (stabilizeTimer env self).ticks } := by
  unfold stabilizeTimer
  dsimp only [zclockMono]
  split
  · split
    · rfl
    · rfl
  · rfl

theorem successor_handler_frame (env : P2pmEnv) (self next : P2pm) (done : successorSocketHandler env self = .ok next) :
    LoopFrame self next := by
  obtain ⟨middle, happened, flushed⟩ := successor_handler_parts env self next done
  have event := successor_event_frame env self middle happened
  have flush := flush_token_frame env middle next flushed
  have first : LoopFrame self middle := by
    refine ⟨?_, event.length⟩
    rw [event.same]
  have second : LoopFrame middle next := by
    rw [flush]
    exact ⟨rfl, rfl⟩
  exact LoopFrame.after self middle next second first

theorem loop_sockets_parts (env : P2pmEnv) (self next : P2pm) (done : loopSockets env self = .ok next) :
    ∃ middle last, successorSocketHandler env (stabilizeTimer env self) = .ok middle ∧
      predecessorSocketHandler env env.depth middle = .ok last ∧ next = { last with serverTriggeredActions := .noXpv } := by
  obtain ⟨middle, successor, done⟩ := bind_ok _ _ _ done
  obtain ⟨last, predecessor, done⟩ := bind_ok _ _ _ done
  exact ⟨middle, last, successor, predecessor, (Except.ok.inj done).symm⟩

theorem loop_sockets_frame (env : P2pmEnv) (self next : P2pm) (done : loopSockets env self = .ok next) : LoopFrame self next := by
  obtain ⟨middle, last, successor, predecessor, same⟩ := loop_sockets_parts env self next done
  have timer : LoopFrame self (stabilizeTimer env self) := by
    rw [stabilize_timer_frame env self]
    exact ⟨rfl, rfl⟩
  have first := LoopFrame.after self _ middle (successor_handler_frame env _ middle successor) timer
  have second : LoopFrame middle next := by
    have frame := predecessor_handler_frame env env.depth middle last predecessor
    refine ⟨?_, ?_⟩
    · rw [same, frame.same]
    · rw [same]
      exact frame.length
  exact LoopFrame.after self middle next second first

end Synergy
