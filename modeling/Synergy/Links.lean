import Synergy.Admission
import Synergy.Deferrals
import Synergy.FailOver

set_option autoImplicit false

namespace Synergy

-- The pollers watch the two sockets, which are open and connected to the neighbours and nothing else, and the successor is the
-- first address of the list.
structure P2pm.SocketsFollow (node : P2pm) : Prop where
  successorPoller : node.successorPoller = node.successorSocket.id
  predecessorPoller : node.predecessorPoller = node.predecessorSocket.id
  successorOpen : node.successorSocket.id ∉ node.closed
  predecessorOpen : node.predecessorSocket.id ∉ node.closed
  successor : node.successorSocket.connected = if node.currentStatus = .oneRing then [] else [node.nodeList.successor]
  predecessor : node.predecessorSocket.connected = if node.currentStatus = .oneRing then [] else [node.nodeList.predecessor]
  first : node.nodeList.slot 0 = node.nodeList.successor

structure Address (chars : Bytes) : Prop where
  clean : NulFree chars
  short : chars.length < maxIdLen

theorem address_nil : Address [] :=
  ⟨List.not_mem_nil, by decide⟩

-- Outside a ring of one, with the address that a JOIN_CMT would connect to.
structure P2pm.Follows (node : P2pm) : Prop where
  sockets : node.SocketsFollow
  status : node.currentStatus ≠ .oneRing
  address : Address node.nodeList.tempSuccessor

-- What SocketsFollow speaks of, but for the status.
structure Links where
  successorPoller : Nat
  predecessorPoller : Nat
  closed : List Nat
  successorId : Nat
  predecessorId : Nat
  successorConnected : List Bytes
  predecessorConnected : List Bytes
  successor : Bytes
  predecessor : Bytes
  first : Bytes

def P2pm.links (self : P2pm) : Links where
  successorPoller := self.successorPoller
  predecessorPoller := self.predecessorPoller
  closed := self.closed
  successorId := self.successorSocket.id
  predecessorId := self.predecessorSocket.id
  successorConnected := self.successorSocket.connected
  predecessorConnected := self.predecessorSocket.connected
  successor := self.nodeList.successor
  predecessor := self.nodeList.predecessor
  first := self.nodeList.slot 0

structure Kept (old next : P2pm) : Prop where
  links : next.links = old.links
  status : old.currentStatus ≠ .oneRing → next.currentStatus ≠ .oneRing
  address : Address old.nodeList.tempSuccessor → Address next.nodeList.tempSuccessor

theorem kept_same (old next : P2pm) (links : next.links = old.links) (status : next.currentStatus = old.currentStatus)
    (address : next.nodeList.tempSuccessor = old.nodeList.tempSuccessor) : Kept old next :=
  ⟨links, fun other => status ▸ other, fun was => address ▸ was⟩

theorem Kept.after (old middle next : P2pm) (second : Kept middle next) (first : Kept old middle) : Kept old next :=
  ⟨second.links.trans first.links, fun other => second.status (first.status other), fun was => second.address (first.address was)⟩

theorem kept_follows (old next : P2pm) (kept : Kept old next) (follows : old.Follows) : next.Follows := by
  obtain ⟨sockets, status, address⟩ := follows
  have other := kept.status status
  have poller : next.successorPoller = old.successorPoller := congrArg Links.successorPoller kept.links
  have predecessorPoller : next.predecessorPoller = old.predecessorPoller := congrArg Links.predecessorPoller kept.links
  have closed : next.closed = old.closed := congrArg Links.closed kept.links
  have successorId : next.successorSocket.id = old.successorSocket.id := congrArg Links.successorId kept.links
  have predecessorId : next.predecessorSocket.id = old.predecessorSocket.id := congrArg Links.predecessorId kept.links
  have connected : next.successorSocket.connected = old.successorSocket.connected := congrArg Links.successorConnected kept.links
  have predecessorConnected : next.predecessorSocket.connected = old.predecessorSocket.connected :=
    congrArg Links.predecessorConnected kept.links
  have successor : next.nodeList.successor = old.nodeList.successor := congrArg Links.successor kept.links
  have predecessor : next.nodeList.predecessor = old.nodeList.predecessor := congrArg Links.predecessor kept.links
  have first : next.nodeList.slot 0 = old.nodeList.slot 0 := congrArg Links.first kept.links
  have successorIs := sockets.successor
  have predecessorIs := sockets.predecessor
  rw [if_neg status] at successorIs predecessorIs
  refine ⟨⟨?_, ?_, ?_, ?_, ?_, ?_, ?_⟩, other, kept.address address⟩
  · rw [poller, successorId, sockets.successorPoller]
  · rw [predecessorPoller, predecessorId, sockets.predecessorPoller]
  · rw [successorId, closed]
    exact sockets.successorOpen
  · rw [predecessorId, closed]
    exact sockets.predecessorOpen
  · rw [if_neg other, connected, successor, successorIs]
  · rw [if_neg other, predecessorConnected, predecessor, predecessorIs]
  · rw [first, successor, sockets.first]

theorem recv_string_clean (host : HostOrder) (inbox rest : List MsgPart) (chars : Bytes)
    (received : recvString host inbox = .ok (.str chars, rest)) : NulFree chars := by
  obtain ⟨⟨announced, later⟩, _, received⟩ := bind_ok _ _ _ received
  dsimp only at received
  split at received
  · cases received
  · cases received
  · split at received
    · cases received
    · obtain ⟨str, heard, received⟩ := bind_ok _ _ _ received
      cases received
      unfold p2pmRecvStr at heard
      split at heard
      · cases heard
      · split at heard
        · cases heard
          exact cstr_nul_free _
        · cases heard

theorem get_req_kept (env : P2pmEnv) (self next : P2pm) (code : P2pmOpcodes) (done : getReqHandler env self = .ok (code, next)) :
    Kept self next := by
  obtain ⟨told, sent, done⟩ := bind_ok _ _ _ done
  rw [send_clientid_part self told true sent] at done
  obtain ⟨⟨buf, inbox⟩, received, done⟩ := bind_ok _ _ _ done
  cases buf with
  | missing =>
      cases done
      exact kept_same self _ rfl rfl rfl
  | freed => cases done
  | str chars =>
      have clean := recv_string_clean env.host _ inbox chars received
      dsimp only at done
      by_cases long : maxIdLen ≤ chars.length
      · rw [if_pos long] at done
        cases done
      · rw [if_neg long] at done
        have address : Address chars := ⟨clean, by omega⟩
        split at done
        · cases done
          exact ⟨rfl, id, fun _ => address⟩
        · split at done
          · cases done
            exact ⟨rfl, fun _ => by simp, fun _ => address⟩
          · cases done
            exact ⟨rfl, id, fun _ => address⟩

theorem end_handling_one_ring (handling current : P2pmStatus) (other : current ≠ .oneRing) :
    endHandling handling current ≠ .oneRing := by
  unfold endHandling
  split
  · decide
  · exact other

theorem stabilize_req_kept (env : P2pmEnv) (self next : P2pm) (code : P2pmOpcodes)
    (done : stabilizeReqHandler env self = .ok (code, next)) : Kept self next := by
  have frame := stabilize_req_frame env self next code done
  refine ⟨by rw [frame]; rfl, ?_, by rw [frame]; exact id⟩
  unfold stabilizeReqHandler at done
  split at done
  · cases done
    exact id
  · obtain ⟨told, sent, done⟩ := bind_ok _ _ _ done
    rw [send_clientid_part _ told true sent] at done
    obtain ⟨⟨addr, inbox⟩, _, done⟩ := bind_ok _ _ _ done
    cases addr with
    | freed => cases done
    | missing =>
        cases done
        exact fun _ => by simp [reply, serverSend]
    | str chars =>
        dsimp only at done
        by_cases long : maxIdLen ≤ chars.length
        · rw [if_pos long] at done
          cases done
        · rw [if_neg long] at done
          obtain ⟨replied, sent, done⟩ := bind_ok _ _ _ done
          obtain ⟨list, _, same⟩ := reply_slist_sent env _ replied _ sent
          cases done
          rw [same]
          exact fun _ => by simp [serverSend]

theorem sync_slist_kept (env : P2pmEnv) (self next : P2pm) (code : P2pmOpcodes)
    (done : p2pmSyncSlistHandler env self = .ok (code, next)) : Kept self next := by
  obtain ⟨frame, _⟩ := sync_slist_frame env self next code done
  have first : next.nodeList.slot 0 = self.nodeList.slot 0 := by
    obtain ⟨told, sent, done⟩ := bind_ok _ _ _ done
    rw [send_clientid_part self told true sent] at done
    obtain ⟨⟨ttl, inbox⟩, _, done⟩ := bind_ok _ _ _ done
    cases ttl with
    | none =>
        cases done
        rfl
    | some ttl =>
        obtain ⟨⟨nr, inbox⟩, _, done⟩ := bind_ok _ _ _ done
        cases nr with
        | none =>
            cases done
            rfl
        | some nr =>
            dsimp only at done
            split at done
            · cases done
              rfl
            · cases inbox with
              | nil =>
                  cases done
                  rfl
              | cons part later =>
                  dsimp only at done
                  split at done
                  · obtain ⟨copied, listed, done⟩ := bind_ok _ _ _ done
                    cases done
                    exact copy_list_first _ copied _ _ listed
                  · cases done
                    rfl
  refine kept_same self next ?_ (by rw [frame]) (by rw [frame])
  rw [P2pm.links, first, frame]
  rfl

theorem one_ring_join_kept (env : P2pmEnv) (self next : P2pm) (code : P2pmOpcodes) (status : self.currentStatus ≠ .oneRing)
    (done : oneRingJoinReqHandler env self = .ok (code, next)) : Kept self next := by
  obtain ⟨told, sent, done⟩ := bind_ok _ _ _ done
  have same := send_clientid_part self told true sent
  have other : told.currentStatus ≠ .oneRing := by rwa [same]
  rw [if_pos other] at done
  cases done
  refine kept_same self _ ?_ ?_ ?_ <;> rw [same] <;> rfl

-- Where a message makes the node connect to an address, zmq_connect takes it; TAIL_FOUND and HEAD_FOUND replace a socket that
-- is still polled, or close both.
def P2pm.Connectable (env : P2pmEnv) (self : P2pm) : ServerCase → Prop
  | .tailFound | .headFound => False
  | .joinCmt => ∀ r part later, recvWord env.host self.serverInbox = .ok (some r, part :: later) → r ≠ 0 →
      env.connects self.nodeList.tempSuccessor = true
  | .predJoinCmt => env.connects self.nodeList.tempPredecessor = true
  | .stabilizeSynReq => self.currentStatus = .handlingStabilize → self.nodeList.predecessor ≠ self.nodeList.tempPredecessor →
      env.connects self.nodeList.tempPredecessor = true
  | _ => True

theorem reconnected (env : P2pmEnv) (closed : List Nat) (socket : Dealer) (old new : Bytes) (open_ : socket.id ∉ closed)
    (connected : socket.connected = [old]) (accepts : env.connects new = true) :
    (zmqConnect env closed (zmqDisconnect socket old) new).2.id = socket.id ∧
      (zmqConnect env closed (zmqDisconnect socket old) new).2.connected = [new] := by
  have taken : ¬ ((zmqDisconnect socket old).id ∈ closed ∨ env.connects new = false) := by
    rintro (shut | refused)
    · exact open_ shut
    · rw [accepts] at refused
      cases refused
  rw [zmqConnect, if_neg taken]
  refine ⟨rfl, ?_⟩
  simp only [zmqDisconnect, connected, List.erase_cons_head, List.nil_append]

theorem join_commit_follows (env : P2pmEnv) (self next : P2pm) (r : UInt32) (buf : Bytes) (follows : self.Follows)
    (accepts : env.connects self.nodeList.tempSuccessor = true) (done : joinCommit env self r buf = .ok next) : next.Follows := by
  obtain ⟨sockets, status, address⟩ := follows
  have frame := (join_commit_frame env self next r buf done).1
  obtain ⟨successor, first, cleared⟩ := join_commit_installs env self next r buf done address.clean address.short
  have changed : next.successorSocket =
        (zmqConnect env self.closed (zmqDisconnect self.successorSocket self.nodeList.successor) self.nodeList.tempSuccessor).2 ∧
      next.currentStatus ≠ .oneRing := by
    obtain ⟨list, _, done⟩ := bind_ok _ _ _ done
    obtain ⟨copied, _, done⟩ := bind_ok _ _ _ done
    have status : (reply env self P2pmReptypes.joinAck2.code).currentStatus ≠ .oneRing := status
    dsimp only at done
    repeat' split at done
    all_goals cases done
    · exact ⟨rfl, status⟩
    · exact ⟨rfl, status⟩
    · exact ⟨rfl, by simp⟩
    · exact ⟨rfl, status⟩
  obtain ⟨socket, other⟩ := changed
  have connected := sockets.successor
  have behind := sockets.predecessor
  rw [if_neg status] at connected behind
  obtain ⟨sameId, attached⟩ := reconnected env self.closed self.successorSocket _ _ sockets.successorOpen connected accepts
  rw [← socket] at sameId attached
  have poller : next.successorPoller = self.successorPoller := by rw [frame]
  have closed : next.closed = self.closed := by rw [frame]
  have predecessorPoller : next.predecessorPoller = self.predecessorPoller := by rw [frame]
  have predecessorSocket : next.predecessorSocket = self.predecessorSocket := by rw [frame]
  have predecessor : next.nodeList.predecessor = self.nodeList.predecessor := by rw [frame]
  refine ⟨⟨?_, ?_, ?_, ?_, ?_, ?_, ?_⟩, other, ?_⟩
  · rw [poller, sameId, sockets.successorPoller]
  · rw [predecessorPoller, predecessorSocket, sockets.predecessorPoller]
  · rw [sameId, closed]
    exact sockets.successorOpen
  · rw [predecessorSocket, closed]
    exact sockets.predecessorOpen
  · rw [if_neg other, attached, successor]
  · rw [if_neg other, predecessorSocket, predecessor, behind]
  · rw [first, successor]
  · rw [cleared]
    exact address_nil

theorem join_cmt_follows (env : P2pmEnv) (self next : P2pm) (code : P2pmOpcodes) (follows : self.Follows)
    (connectable : self.Connectable env .joinCmt) (done : joinCmtHandler env self = .ok (code, next)) : next.Follows := by
  obtain ⟨told, sent, done⟩ := bind_ok _ _ _ done
  rw [send_clientid_part self told true sent] at done
  obtain ⟨⟨word, inbox⟩, received, done⟩ := bind_ok _ _ _ done
  have received : recvWord env.host self.serverInbox = .ok (word, inbox) := received
  cases word with
  | none =>
      cases done
      exact kept_follows self _ (kept_same self _ rfl rfl rfl) follows
  | some r =>
      dsimp only at done
      by_cases zero : r = 0
      · rw [if_pos zero] at done
        cases done
        exact kept_follows self _ (kept_same self _ rfl rfl rfl) follows
      · rw [if_neg zero] at done
        cases inbox with
        | nil =>
            cases done
            exact kept_follows self _ (kept_same self _ rfl rfl rfl) follows
        | cons part later =>
            obtain ⟨committed, commits, done⟩ := bind_ok _ _ _ done
            have result : next = committed := congrArg Prod.snd (Except.ok.inj done).symm
            rw [result]
            refine join_commit_follows env _ committed r _ ?_ ?_ commits
            · exact kept_follows self _ (kept_same self _ rfl rfl rfl) follows
            · exact connectable r part later received zero

theorem predecessor_follows (env : P2pmEnv) (self : P2pm) (status : P2pmStatus) (triggered : P2pmExpectedActions) (follows : self.Follows)
    (other : status ≠ .oneRing) (accepts : env.connects self.nodeList.tempPredecessor = true) :
    ({ self with
      nodeList := { self.nodeList with predecessor := self.nodeList.tempPredecessor, tempPredecessor := [] }
      predecessorSocket :=
        (zmqConnect env self.closed (zmqDisconnect self.predecessorSocket self.nodeList.predecessor) self.nodeList.tempPredecessor).2
      serverTriggeredActions := triggered
      currentStatus := status } : P2pm).Follows := by
  obtain ⟨sockets, before, address⟩ := follows
  have connected := sockets.successor
  have behind := sockets.predecessor
  rw [if_neg before] at connected behind
  obtain ⟨sameId, attached⟩ := reconnected env self.closed self.predecessorSocket _ _ sockets.predecessorOpen behind accepts
  refine ⟨⟨sockets.successorPoller, ?_, sockets.successorOpen, ?_, ?_, ?_, sockets.first⟩, other, address⟩
  · exact sockets.predecessorPoller.trans sameId.symm
  · dsimp only
    rw [sameId]
    exact sockets.predecessorOpen
  · dsimp only
    rw [if_neg other, connected]
  · dsimp only
    rw [if_neg other, attached]

theorem serve_follows (env : P2pmEnv) (self next : P2pm) (request : ServerCase) (code : P2pmOpcodes) (follows : self.Follows)
    (connectable : self.Connectable env request) (done : serve env self request = .ok (code, next)) : next.Follows := by
  cases request with
  | getReq => exact kept_follows self next (get_req_kept env self next code done) follows
  | joinReq =>
      have frame := join_req_frame env self next code done
      exact kept_follows self next (kept_same self next (by rw [frame]; rfl) (by rw [frame]) (by rw [frame])) follows
  | joinCmt => exact join_cmt_follows env self next code follows connectable done
  | stabilizeNsynReq =>
      have frame := stabilize_nsyn_req_frame self next code done
      refine kept_follows self next ⟨by rw [frame]; rfl, fun other => ?_, by rw [frame]; exact id⟩ follows
      rw [frame]
      exact end_handling_one_ring _ _ other
  | joinAbrt =>
      cases done
      exact kept_follows self _ ⟨rfl, end_handling_one_ring _ _, fun _ => address_nil⟩ follows
  | predJoinCmt =>
      cases done
      exact predecessor_follows env self _ _ follows (end_handling_one_ring _ _ follows.status) connectable
  | predJoinAbrt =>
      cases done
      exact kept_follows self _ ⟨rfl, end_handling_one_ring _ _, id⟩ follows
  | pingReq =>
      have frame := ping_req_frame env self next code done
      exact kept_follows self next (kept_same self next (by rw [frame]; rfl) (by rw [frame]) (by rw [frame])) follows
  | stabilizeReq => exact kept_follows self next (stabilize_req_kept env self next code done) follows
  | stabilizeSynReq =>
      have result : next = (stabilizeSynReqHandler env self).2 := congrArg Prod.snd (Except.ok.inj done).symm
      rw [result]
      unfold stabilizeSynReqHandler
      by_cases other : self.currentStatus ≠ .handlingStabilize
      · rw [if_pos other]
        exact kept_follows self _ (kept_same self _ rfl rfl rfl) follows
      · rw [if_neg other]
        by_cases same : self.nodeList.predecessor = self.nodeList.tempPredecessor
        · rw [if_pos same]
          exact kept_follows self _ ⟨rfl, fun _ => by simp, id⟩ follows
        · rw [if_neg same]
          exact predecessor_follows env self _ _ follows (by decide) (connectable (Classical.not_not.mp other) same)
  | syncSlist => exact kept_follows self next (sync_slist_kept env self next code done) follows
  | oneRingJoinReq => exact kept_follows self next (one_ring_join_kept env self next code follows.status done) follows
  | tailFound => exact connectable.elim
  | headFound => exact connectable.elim
  | token =>
      have frame := (token_frame env self next code done).2
      exact kept_follows self next (kept_same self next (by rw [frame]; rfl) (by rw [frame]) (by rw [frame])) follows
  | ignored =>
      cases done
      exact follows

theorem stabilize_acked_kept (env : P2pmEnv) (self next : P2pm) (sRecv : UInt32) (done : stabilizeAcked env self sRecv = .ok next) :
    Kept self next := by
  obtain ⟨⟨word, inbox⟩, _, done⟩ := bind_ok _ _ _ done
  dsimp only at done
  split at done
  · cases done
    exact kept_same self _ rfl rfl rfl
  · obtain ⟨⟨r, inbox⟩, _, done⟩ := bind_ok _ _ _ done
    cases r with
    | none =>
        cases done
        exact kept_same self _ rfl rfl rfl
    | some r =>
        dsimp only at done
        split at done
        · cases done
          exact kept_same self _ rfl rfl rfl
        · cases inbox with
          | nil =>
              cases done
              exact kept_same self _ rfl rfl rfl
          | cons part later =>
              obtain ⟨copied, listed, done⟩ := bind_ok _ _ _ done
              have first := copy_list_first _ copied _ _ listed
              cases done
              refine ⟨?_, fun _ => by simp [successorSend], id⟩
              rw [P2pm.links]
              dsimp only [successorSend]
              rw [first]
              rfl

theorem stabilize_pinged_kept (env : P2pmEnv) (self : P2pm) (sRecv : UInt32) : Kept self (stabilizePinged env self sRecv) := by
  unfold stabilizePinged
  split
  · exact kept_same self _ rfl rfl rfl
  · exact kept_same self _ rfl rfl rfl

theorem successor_readable_kept (env : P2pmEnv) (self next : P2pm) (done : successorReadable env self = .ok next) :
    Kept self next := by
  unfold successorReadable at done
  dsimp only [zclockMono] at done
  split at done
  · cases done
  · obtain ⟨sRecv, _, done⟩ := bind_ok _ _ _ done
    split at done
    · cases done
      exact Kept.after self _ _ (stabilize_pinged_kept env _ sRecv) (kept_same self _ rfl rfl rfl)
    · cases done
      exact Kept.after self _ _ (stabilize_pinged_kept env _ sRecv) (kept_same self _ rfl rfl rfl)
    · cases done
      exact Kept.after self _ _ (stabilize_pinged_kept env _ sRecv) (kept_same self _ rfl rfl rfl)
    · exact Kept.after self _ next (stabilize_acked_kept env _ next sRecv done) (kept_same self _ rfl rfl rfl)
    · cases done
      exact kept_same self _ rfl rfl rfl

theorem fail_over_follows (env : P2pmEnv) (self next : P2pm) (follows : self.Follows)
    (accepts : self.nodeList.slot 1 ≠ [] → env.connects (self.nodeList.slot 1) = true) (done : failOver env self = .ok next) :
    next.Follows := by
  have frame := (fail_over_frame env self next done).same
  have room : 2 * maxIdLen ≤ self.nodeList.successorList.length := by
    by_contra short
    rw [fail_over_outside env self (by omega)] at done
    cases done
  obtain ⟨first, second, later, list, full, fullSecond, address⟩ := two_slots self.nodeList.toNodeInfo room
  by_cases none_ : second.head? = some 0
  · rw [fail_over_none env self first second later list full fullSecond none_] at done
    cases done
    exact kept_follows self _ ⟨rfl, fun _ => by simp [noMoreSuccessors], id⟩ follows
  · by_cases ends : 0 ∈ second
    · obtain ⟨after, did, ⟨successor, socket⟩, _, status, _, stored⟩ :=
        fail_over_second env self first second later list full fullSecond none_ ends
      have same : after = next := Except.ok.inj (did.symm.trans done)
      rw [same] at successor socket status stored
      have nonempty : cstr second ≠ [] := fun empty => none_ ((starts_empty second fullSecond).mpr empty)
      rw [← address] at accepts
      have connected := follows.sockets.successor
      have behind := follows.sockets.predecessor
      rw [if_neg follows.status] at connected behind
      obtain ⟨sameId, attached⟩ :=
        reconnected env self.closed self.successorSocket _ _ follows.sockets.successorOpen connected (accepts nonempty)
      rw [← socket] at sameId attached
      have other : next.currentStatus ≠ .oneRing := by
        rw [status]
        exact follows.status
      have poller : next.successorPoller = self.successorPoller := by rw [frame]
      have closed : next.closed = self.closed := by rw [frame]
      have predecessorPoller : next.predecessorPoller = self.predecessorPoller := by rw [frame]
      have predecessorSocket : next.predecessorSocket = self.predecessorSocket := by rw [frame]
      have predecessor : next.nodeList.predecessor = self.nodeList.predecessor := by rw [frame]
      have temp : next.nodeList.tempSuccessor = self.nodeList.tempSuccessor := by rw [frame]
      refine ⟨⟨?_, ?_, ?_, ?_, ?_, ?_, ?_⟩, other, ?_⟩
      · rw [poller, sameId, follows.sockets.successorPoller]
      · rw [predecessorPoller, predecessorSocket, follows.sockets.predecessorPoller]
      · rw [sameId, closed]
        exact follows.sockets.successorOpen
      · rw [predecessorSocket, closed]
        exact follows.sockets.predecessorOpen
      · rw [if_neg other, attached, successor]
      · rw [if_neg other, predecessorSocket, predecessor, behind]
      · rw [successor, NodeInfo.slot, stored, Pieces.piece_front maxIdLen second _ fullSecond]
      · rw [temp]
        exact follows.address
    · rw [fail_over_endless env self first second later list full fullSecond none_ ends] at done
      cases done

-- When a reply of the successor is overdue for good, zmq_connect takes the next address of the list.
def P2pm.Replaceable (env : P2pmEnv) (self : P2pm) : Prop :=
  self.revents.successor = false → self.SuccessorOverdue env →
    self.successorSocketExpectedActions = .pingAndStabilizeReq2 ∨ self.successorSocketExpectedActions = .stabilizeFailure →
    self.nodeList.slot 1 ≠ [] → env.connects (self.nodeList.slot 1) = true

theorem successor_timeout_follows (env : P2pmEnv) (self next : P2pm) (follows : self.Follows)
    (accepts : self.successorSocketExpectedActions = .pingAndStabilizeReq2 ∨ self.successorSocketExpectedActions = .stabilizeFailure →
      self.nodeList.slot 1 ≠ [] → env.connects (self.nodeList.slot 1) = true)
    (done : successorTimeout env self = .ok next) : next.Follows := by
  unfold successorTimeout at done
  dsimp only [zclockMono] at done
  have noted : ∀ now : Int, ({ self with ticks := self.ticks + 1, successorLastpollTime := now } : P2pm).Follows :=
    fun now => kept_follows self _ (kept_same self _ rfl rfl rfl) follows
  split at done
  · cases done
    exact kept_follows self _ (kept_same self _ rfl rfl rfl) follows
  · cases done
    exact kept_follows self _ (kept_same self _ rfl rfl rfl) follows
  · rename_i expected
    exact fail_over_follows env _ next (noted _) (accepts (Or.inl expected)) done
  · rename_i expected
    exact fail_over_follows env _ next (noted _) (accepts (Or.inr expected)) done
  · cases done
    exact noted _

theorem successor_event_follows (env : P2pmEnv) (self next : P2pm) (follows : self.Follows) (replaceable : self.Replaceable env)
    (done : successorEvent env self = .ok next) : next.Follows := by
  unfold successorEvent at done
  split at done
  · exact kept_follows self next (successor_readable_kept env self next done) follows
  · rename_i silent
    have silent : self.revents.successor = false := by simpa using silent
    dsimp only [zclockMono] at done
    split at done
    · rename_i overdue
      refine successor_timeout_follows env _ next ?_ ?_ done
      · exact kept_follows self _ (kept_same self _ rfl rfl rfl) follows
      · exact replaceable silent overdue
    · split at done
      · cases done
        exact kept_follows self _ (kept_same self _ rfl rfl rfl) follows
      · split at done
        · cases done
          exact kept_follows self _ (kept_same self _ rfl rfl rfl) follows
        · cases done
          exact kept_follows self _ (kept_same self _ rfl rfl rfl) follows

theorem successor_handler_follows (env : P2pmEnv) (self next : P2pm) (follows : self.Follows) (replaceable : self.Replaceable env)
    (done : successorSocketHandler env self = .ok next) : next.Follows := by
  obtain ⟨middle, event, flush⟩ := successor_handler_parts env self next done
  have flushed : Kept middle next := by
    rw [flush_token_frame env middle next flush]
    exact kept_same middle _ rfl rfl rfl
  exact kept_follows middle next flushed (successor_event_follows env self middle follows replaceable event)

theorem predecessor_answered_kept (env : P2pmEnv) (self next : P2pm) (done : predecessorAnswered env self = .ok next) :
    Kept self next := by
  unfold predecessorAnswered at done
  split at done
  · cases done
    exact ⟨rfl, fun _ => by simp, id⟩
  · obtain ⟨told, sent, done⟩ := bind_ok _ _ _ done
    obtain ⟨list, _, same⟩ := send_slist_sent env self told _ sent
    rw [same] at done
    cases done
    exact kept_same self _ rfl rfl rfl
  · obtain ⟨told, sent, done⟩ := bind_ok _ _ _ done
    obtain ⟨list, _, same⟩ := send_slist_sent env self told _ sent
    rw [same] at done
    cases done
    exact kept_same self _ rfl rfl rfl
  · cases done
    exact kept_same self _ rfl rfl rfl

theorem predecessor_readable_kept (env : P2pmEnv) (self next : P2pm) (done : predecessorReadable env self = .ok next) :
    Kept self next := by
  obtain ⟨⟨word, inbox⟩, _, done⟩ := bind_ok _ _ _ done
  dsimp only [zclockMono] at done
  have answered : ∀ middle : P2pm,
      (if word.getD env.strayWord = P2pmReptypes.pongRep.code then predecessorAnswered env middle else pure (backwardsDone middle)) =
        .ok next → Kept self middle → Kept self next := by
    intro middle done kept
    split at done
    · exact Kept.after self middle next (predecessor_answered_kept env middle next done) kept
    · cases done
      exact Kept.after self middle _ (kept_same middle _ rfl rfl rfl) kept
  split at done
  · exact answered _ done (kept_same self _ rfl rfl rfl)
  · exact answered _ done (kept_same self _ rfl rfl rfl)
  · exact answered _ done (kept_same self _ rfl rfl rfl)
  · cases done
    exact kept_same self _ rfl rfl rfl
  · cases done
    exact kept_same self _ rfl rfl rfl
  · cases done
    exact kept_same self _ rfl rfl rfl

-- A predecessor that is given up on leaves a member a member; in another status the node would close both sockets.
def P2pm.Deserted (env : P2pmEnv) (self : P2pm) : Prop :=
  self.PredecessorOverdue env ∧
    (self.predecessorSocketExpectedActions = .predRepPing3 ∨ self.predecessorSocketExpectedActions = .predFailure)

theorem predecessor_handler_kept (env : P2pmEnv) (depth : Nat) (self next : P2pm)
    (member : self.Deserted env → self.currentStatus = .member) (done : predecessorSocketHandler env depth self = .ok next) :
    Kept self next := by
  induction depth generalizing self with
  | zero => cases done
  | succ depth ih =>
      unfold predecessorSocketHandler at done
      split at done
      · exact predecessor_readable_kept env self next done
      · rename_i silent
        have silent : self.revents.predecessor = false := by simpa using silent
        dsimp only [zclockMono] at done
        split at done
        · rename_i overdue
          have failing : self.predecessorSocketExpectedActions = .predRepPing3 ∨
              self.predecessorSocketExpectedActions = .predFailure → self.currentStatus = .member :=
            fun expected => member ⟨⟨silent, overdue⟩, expected⟩
          split at done
          · cases done
            exact kept_same self _ rfl rfl rfl
          · cases done
            exact kept_same self _ rfl rfl rfl
          · rename_i expected
            rw [predecessorFailed, if_pos (failing (Or.inl expected))] at done
            cases done
            exact kept_same self _ rfl rfl rfl
          · rename_i expected
            rw [predecessorFailed, if_pos (failing (Or.inr expected))] at done
            cases done
            exact kept_same self _ rfl rfl rfl
          · rename_i expected
            refine Kept.after self _ next (ih _ ?_ done) (kept_same self _ rfl rfl rfl)
            rintro ⟨_, now | now⟩
            · cases expected.symm.trans now
            · cases expected.symm.trans now
          · rename_i expected
            refine Kept.after self _ next (ih _ ?_ done) (kept_same self _ rfl rfl rfl)
            rintro ⟨_, now | now⟩
            · cases expected.symm.trans now
            · cases expected.symm.trans now
          · cases done
            exact kept_same self _ rfl rfl rfl
        · cases done
          unfold predecessorIdle
          dsimp only [zclockMono]
          split
          · exact kept_same self _ rfl rfl rfl
          · split
            · exact kept_same self _ rfl rfl rfl
            · exact kept_same self _ rfl rfl rfl

theorem stabilize_timer_kept (env : P2pmEnv) (self : P2pm) : Kept self (stabilizeTimer env self) := by
  unfold stabilizeTimer
  dsimp only [zclockMono]
  split
  · split
    · exact ⟨rfl, fun _ => by simp, id⟩
    · exact kept_same self _ rfl rfl rfl
  · exact kept_same self _ rfl rfl rfl

theorem polled_kept (actor : P2pmdActor) (turn : ActorTurn) : Kept actor.node (actor.polled turn).node := by
  cases turn with
  | interrupted => exact kept_same _ _ rfl rfl rfl
  | repeats arrivals => exact kept_same _ _ rfl rfl rfl
  | polls arrivals revents command =>
      simp only [P2pmdActor.polled]
      split
      · exact kept_same _ _ rfl rfl rfl
      · split
        · cases command with
          | _ => exact kept_same _ _ rfl rfl rfl
        · exact kept_same _ _ rfl rfl rfl

theorem after_loop_kept (env : P2pmEnv) (actor : P2pmdActor) : Kept actor.node (afterLoop env actor).node := by
  have passed : Kept actor.node (passUp actor).node := by
    unfold passUp
    split
    · exact kept_same _ _ rfl rfl rfl
    · exact kept_same _ _ rfl rfl rfl
  unfold afterLoop
  dsimp only [zclockMono]
  split
  · exact Kept.after _ (passUp actor).node _ (kept_same _ _ rfl rfl rfl) passed
  · exact Kept.after _ (passUp actor).node _ (kept_same _ _ rfl rfl rfl) passed

def LoopProgress.Connects (env : P2pmEnv) (self : LoopProgress) : LoopStage → Prop
  | .serves => self.actor.node.revents.server = true → ∀ identity later ubuf inbox, self.actor.node.serverInbox = identity :: later →
      recvWord env.host later = .ok (ubuf, inbox) →
      P2pm.Connectable env { self.actor.node with serverInbox := inbox } (ServerCase.ofCode (ubuf.getD env.strayWord))
  | .follows => self.actor.node.Replaceable env
  | .precedes => self.actor.node.Deserted env → self.actor.node.currentStatus = .member
  | _ => True

theorem stage_follows (env : P2pmEnv) (self next : LoopProgress) (stage : LoopStage) (follows : self.actor.node.Follows)
    (connects : self.Connects env stage) (taken : self.step env stage = some next) : next.actor.node.Follows := by
  cases stage with
  | begins turn =>
      simp only [LoopProgress.step] at taken
      split at taken
      · cases taken
      · cases taken
        exact kept_follows _ _ (polled_kept self.actor turn) follows
  | serves =>
      simp only [LoopProgress.step] at taken
      split at taken
      · cases taken
      · split at taken
        · rename_i readable
          split at taken
          · cases taken
            exact follows
          · rename_i identity later waiting
            split at taken
            · cases taken
            · rename_i code node serve
              cases taken
              obtain ⟨clientid, ubuf, inbox, _, received, served⟩ := serve_message_served env _ node identity later code serve
              refine serve_follows env _ node _ code ?_ ?_ served
              · exact kept_follows self.actor.node _ (kept_same _ _ rfl rfl rfl) follows
              · exact connects readable identity later ubuf inbox waiting received
        · cases taken
          exact follows
  | times =>
      simp only [LoopProgress.step] at taken
      split at taken
      · cases taken
      · cases taken
        exact kept_follows _ _ (stabilize_timer_kept env self.actor.node) follows
  | follows =>
      simp only [LoopProgress.step] at taken
      split at taken
      · cases taken
      · split at taken
        · cases taken
        · rename_i node follow
          cases taken
          exact successor_handler_follows env _ node follows connects follow
  | precedes =>
      simp only [LoopProgress.step] at taken
      split at taken
      · cases taken
      · split at taken
        · cases taken
        · rename_i node precede
          cases taken
          exact kept_follows _ node (predecessor_handler_kept env _ _ node connects precede) follows
  | returns =>
      simp only [LoopProgress.step] at taken
      split at taken
      · cases taken
        exact kept_follows _ _ (after_loop_kept env self.actor) follows
      · split at taken
        · cases taken
          refine kept_follows _ _ (after_loop_kept env _) ?_
          exact kept_follows self.actor.node _ (kept_same _ _ rfl rfl rfl) follows
        · cases taken

-- In a run in which every stage keeps to its guard, the sockets follow the ring pointers.
theorem sockets_follow (env : P2pmEnv) (actor : P2pmdActor) (stages : List LoopStage) (final : LoopProgress)
    (member : actor.node.currentStatus = .member) (start : actor.node.SocketsFollow) (address : Address actor.node.nodeList.tempSuccessor)
    (connects : Runs.Meets (LoopProgress.step env) (LoopProgress.Connects env) (LoopProgress.start actor) stages)
    (ran : Runs.run (LoopProgress.step env) (LoopProgress.start actor) stages = some final) :
    final.actor.node.SocketsFollow := by
  have other : actor.node.currentStatus ≠ .oneRing := by
    rw [member]
    decide
  have follows := Runs.run_guarded_invariant (LoopProgress.step env) (LoopProgress.Connects env) (fun self => self.actor.node.Follows)
    (fun self stage next follows connects taken => stage_follows env self next stage follows connects taken) _ final stages
    ⟨start, other, address⟩ connects ran
  exact follows.sockets

theorem sample_heard_follows : (sampleHeard 0).node.SocketsFollow where
  successorPoller := rfl
  predecessorPoller := rfl
  successorOpen := List.not_mem_nil
  predecessorOpen := List.not_mem_nil
  successor := rfl
  predecessor := rfl
  first := rfl

-- The sample node has accepted a joiner, which commits.
def sampleJoined : P2pmdActor :=
  { sampleHeard 0 with node := { (sampleHeard 0).node with
    nodeList := { (sampleHeard 0).node.nodeList with tempPredecessor := [84] } } }

def sampleCommitTurn : ActorTurn :=
  .polls { server := [⟨[some 7], true⟩, wordPart .little P2pmReqtypes.predJoinCmt.code false], successor := [], predecessor := [] }
    { server := true, successor := false, predecessor := false, pipe := false } .terminate

def sampleCommitStages : List LoopStage := [.begins sampleCommitTurn, .serves, .times, .follows, .precedes, .returns]

theorem sample_joined_follows : sampleJoined.node.SocketsFollow :=
  ⟨rfl, rfl, List.not_mem_nil, List.not_mem_nil, rfl, rfl, rfl⟩

set_option maxRecDepth 20000 in
theorem sockets_follow_sample : ∃ final : LoopProgress,
    Runs.run (LoopProgress.step sampleP2pmEnv) (LoopProgress.start sampleJoined) sampleCommitStages = some final ∧
      final.actor.node.nodeList.predecessor = [84] ∧ final.actor.node.SocketsFollow := by
  obtain ⟨called, begins, inbox, served, serves, timed, times, expected, followed, follows, silent, final, rest, installed⟩ :
      ∃ called, (LoopProgress.start sampleJoined).step sampleP2pmEnv (.begins sampleCommitTurn) = some called ∧
        called.actor.node.serverInbox = [⟨[some 7], true⟩, wordPart .little P2pmReqtypes.predJoinCmt.code false] ∧
      ∃ served, called.step sampleP2pmEnv .serves = some served ∧
      ∃ timed, served.step sampleP2pmEnv .times = some timed ∧ timed.actor.node.successorSocketExpectedActions = .noXpv ∧
      ∃ followed, timed.step sampleP2pmEnv .follows = some followed ∧
        followed.actor.node.predecessorSocketExpectedActions = .noXpv ∧
      ∃ final, Runs.run (LoopProgress.step sampleP2pmEnv) followed [.precedes, .returns] = some final ∧
        final.actor.node.nodeList.predecessor = [84] :=
    ⟨_, rfl, rfl, _, rfl, _, rfl, rfl, _, rfl, rfl, _, rfl, rfl⟩
  have ran : Runs.run (LoopProgress.step sampleP2pmEnv) (LoopProgress.start sampleJoined) sampleCommitStages = some final := by
    simp only [sampleCommitStages, Runs.run, begins, serves, times, follows]
    exact rest
  refine ⟨final, ran, installed,
    sockets_follow sampleP2pmEnv sampleJoined sampleCommitStages final rfl sample_joined_follows address_nil ?_ ran⟩
  intro next taken
  cases begins.symm.trans taken
  refine ⟨trivial, fun next taken => ?_⟩
  cases serves.symm.trans taken
  refine ⟨fun _ identity later ubuf rest waiting received => ?_, fun next taken => ?_⟩
  · cases inbox.symm.trans waiting
    cases (recv_word_part .little .little P2pmReqtypes.predJoinCmt.code false []).symm.trans received
    exact rfl
  cases times.symm.trans taken
  refine ⟨trivial, fun next taken => ?_⟩
  cases follows.symm.trans taken
  refine ⟨fun _ _ waits => ?_, fun next _ => ⟨fun deserted => absurd silent deserted.1.2.2, fun _ _ => ⟨trivial, trivial⟩⟩⟩
  rw [expected] at waits
  rcases waits with is | is
  · cases is
  · cases is

-- A TAIL_FOUND with an address.
def sampleTailTurn : ActorTurn :=
  .polls { server := [⟨[some 7], true⟩, wordPart .little P2pmReptypes.tailFound.code true] ++ strParts .little [84]
           successor := [], predecessor := [] }
    { server := true, successor := false, predecessor := false, pipe := false } .terminate

set_option maxRecDepth 20000 in
-- The node forms a ring of one and goes on polling the sockets that it has closed.
theorem pollers_left_behind : ¬ ∀ (env : P2pmEnv) (actor : P2pmdActor) (stages : List LoopStage) (final : LoopProgress),
    actor.node.currentStatus = .member → actor.node.SocketsFollow → Address actor.node.nodeList.tempSuccessor →
      Runs.run (LoopProgress.step env) (LoopProgress.start actor) stages = some final → final.actor.node.SocketsFollow := by
  intro claim
  obtain ⟨final, ran, poller, socket⟩ : ∃ final : LoopProgress,
      Runs.run (LoopProgress.step sampleP2pmEnv) (LoopProgress.start (sampleHeard 0))
        [.begins sampleTailTurn, .serves, .times, .follows, .precedes, .returns] = some final ∧
        final.actor.node.successorPoller = 1 ∧ final.actor.node.successorSocket.id = 4 :=
    ⟨_, rfl, rfl, rfl⟩
  have follows := claim sampleP2pmEnv (sampleHeard 0) _ final rfl sample_heard_follows address_nil ran
  have same := follows.successorPoller
  rw [poller, socket] at same
  cases same

end Synergy
