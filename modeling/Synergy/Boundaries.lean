import Synergy.Failures
import Synergy.Lib.Multipart

set_option autoImplicit false

namespace Synergy

-- What is sent is nothing, or a whole message that starts with the identity of who is answered, which is clientid.
def Answers (identity : MsgPart) (clientid : Bytes) (sent : List MsgPart) : Prop :=
  sent = [] ∨ Multipart.Message MsgPart.more sent ∧
    ∃ first rest, sent = first :: rest ∧ first.bytes = identity.bytes ∧ first.bytes = (cstr clientid).map some

-- Of the frames that wait only those of other messages are left, and what goes out answers the sender.
structure KeepsBoundaries (identity : MsgPart) (later : List MsgPart) (old next : P2pm) : Prop where
  left : next.serverInbox = later
  answers : ∃ sent, next.serverSent = old.serverSent ++ sent ∧ Answers identity next.clientid sent

-- What a handler sends on server_socket: nothing, a message that starts with clientid, one that goes no further, or one without it.
inductive ReplyShape where
  | silent | whole | unfinished | bare
deriving DecidableEq, Repr

def ReplyShape.Of (env : P2pmEnv) (clientid : Bytes) : ReplyShape → List MsgPart → Prop
  | .silent, sent => sent = []
  | .whole, sent => Multipart.Message MsgPart.more sent ∧ ∃ more rest, sent = ⟨(cstr clientid).map some, more⟩ :: rest
  | .unfinished, sent => sent = [⟨(cstr clientid).map some, true⟩]
  | .bare, sent => sent = [wordPart env.host P2pmReptypes.stabilizeNack.code false]

-- A SYNC_SLIST is answered when its list is there and no longer than r_max.
def slistComes (env : P2pmEnv) (rMax : UInt32) (inbox : List MsgPart) : Bool :=
  match recvWord env.host (inbox.drop 1) with
  | .ok (some nr, _ :: _) => 1 ≤ nr && nr ≤ rMax
  | _ => false

def replyShape (env : P2pmEnv) (self : P2pm) : ServerCase → ReplyShape
  | .getReq | .joinReq | .joinCmt | .stabilizeNsynReq | .pingReq | .oneRingJoinReq => .whole
  | .stabilizeReq => if self.currentStatus = .member ∨ self.currentStatus = .handlingStabilize then .whole else .bare
  | .syncSlist => if slistComes env self.nodeList.rMax self.serverInbox then .whole else .unfinished
  | _ => .silent

-- A JOIN_CMT that announces nothing has no list.
def commitFrames (host : HostOrder) (inbox : List MsgPart) : Nat :=
  match recvWord host inbox with
  | .ok (some r, _) => if r = 0 then 1 else 2
  | _ => 2

-- How many frames behind its code a request has its handler receive, if they are there.
def framesOf (env : P2pmEnv) (self : P2pm) : ServerCase → Nat
  | .getReq | .joinReq | .tailFound | .headFound => 2
  | .joinCmt => commitFrames env.host self.serverInbox
  | .stabilizeReq => if self.currentStatus = .member ∨ self.currentStatus = .handlingStabilize then 2 else 0
  | .syncSlist => if slistComes env self.nodeList.rMax self.serverInbox then 3 else 2
  | .oneRingJoinReq => if self.currentStatus = .oneRing then 2 else 0
  | .token => 6
  | _ => 0

-- What a handler has done to server_socket.
structure ServesFrames (env : P2pmEnv) (frames : Nat) (shape : ReplyShape) (old next : P2pm) : Prop where
  left : next.serverInbox = old.serverInbox.drop frames
  clientid : next.clientid = old.clientid
  sent : ∃ sent, next.serverSent = old.serverSent ++ sent ∧ shape.Of env old.clientid sent

theorem word_message (host : HostOrder) (clientid : Bytes) (word : UInt32) :
    Multipart.Message MsgPart.more [⟨(cstr clientid).map some, true⟩, wordPart host word false] :=
  ⟨[⟨(cstr clientid).map some, true⟩], wordPart host word false, rfl, by simp, rfl⟩

theorem serves_word (env : P2pmEnv) (frames : Nat) (old next : P2pm) (word : UInt32)
    (left : next.serverInbox = old.serverInbox.drop frames) (clientid : next.clientid = old.clientid)
    (sent : next.serverSent = old.serverSent ++ [⟨(cstr old.clientid).map some, true⟩] ++ [wordPart env.host word false]) :
    ServesFrames env frames .whole old next :=
  ⟨left, clientid, _, by rw [sent, List.append_assoc]; rfl, word_message env.host old.clientid word, true, _, rfl⟩

theorem list_part_last (self : NodeInfo) (list : MsgPart) (listed : self.firstSlots = .ok list) : list.more = false := by
  unfold NodeInfo.firstSlots at listed
  dsimp only at listed
  split at listed
  · cases listed
  · cases listed
    rfl

theorem serves_list (env : P2pmEnv) (frames : Nat) (old before next : P2pm) (word : UInt32)
    (replied : replySlist env before word = .ok next) (left : before.serverInbox = old.serverInbox.drop frames)
    (clientid : before.clientid = old.clientid)
    (told : before.serverSent = old.serverSent ++ [⟨(cstr old.clientid).map some, true⟩]) :
    ServesFrames env frames .whole old next := by
  obtain ⟨list, listed, same⟩ := reply_slist_sent env before next word replied
  have last := list_part_last before.nodeList.toNodeInfo list listed
  rw [same]
  refine ⟨left, clientid, _, ?_, ⟨[⟨(cstr old.clientid).map some, true⟩, wordPart env.host word true,
    wordPart env.host before.nodeList.r true], list, rfl, ?_, last⟩, true, _, rfl⟩
  · simp only [serverSend, told, List.append_assoc]
    rfl
  · simp [wordPart]

theorem recv_word_left (host : HostOrder) (inbox rest : List MsgPart) (word : Option UInt32)
    (received : recvWord host inbox = .ok (word, rest)) : rest = inbox.drop 1 := by
  cases word with
  | none =>
      obtain ⟨empty, nothing⟩ := recv_word_none host inbox rest received
      rw [empty, nothing]
      rfl
  | some word =>
      obtain ⟨part, same, _⟩ := recv_word_some host inbox rest word received
      rw [same]
      rfl

theorem recv_long_left (host : HostOrder) (inbox rest : List MsgPart) (word : Option UInt64)
    (received : recvLong host inbox = .ok (word, rest)) : rest = inbox.drop 1 := by
  cases inbox with
  | nil =>
      cases received
      rfl
  | cons part later =>
      obtain ⟨read, _, received⟩ := bind_ok _ _ _ received
      cases received
      rfl

theorem recv_string_left (host : HostOrder) (inbox rest : List MsgPart) (str : RecvStr)
    (received : recvString host inbox = .ok (str, rest)) : rest = inbox.drop 2 := by
  obtain ⟨⟨announced, later⟩, word, received⟩ := bind_ok _ _ _ received
  have first := recv_word_left host inbox later announced word
  have second : inbox.drop 2 = later.drop 1 := by rw [first, List.drop_drop]
  rw [second]
  cases announced with
  | none =>
      cases received
      rw [(recv_word_none host inbox rest word).2]
      rfl
  | some announced =>
      cases later with
      | nil =>
          cases received
          rfl
      | cons part later =>
          dsimp only at received
          split at received
          · cases received
          · obtain ⟨chars, _, received⟩ := bind_ok _ _ _ received
            cases received
            rfl

theorem get_req_serves (env : P2pmEnv) (self next : P2pm) (code : P2pmOpcodes) (done : getReqHandler env self = .ok (code, next)) :
    ServesFrames env 2 .whole self next := by
  obtain ⟨told, sent, done⟩ := bind_ok _ _ _ done
  rw [send_clientid_part self told true sent] at done
  obtain ⟨⟨buf, inbox⟩, received, done⟩ := bind_ok _ _ _ done
  have left := recv_string_left env.host self.serverInbox inbox buf received
  cases buf with
  | freed => cases done
  | missing =>
      cases done
      exact serves_word env 2 self _ _ left rfl rfl
  | str chars =>
      dsimp only at done
      split at done
      · cases done
      · split at done
        · cases done
          exact serves_word env 2 self _ _ left rfl rfl
        · split at done
          · cases done
            refine ⟨left, rfl, _, ?_, ⟨[⟨(cstr self.clientid).map some, true⟩, wordPart env.host P2pmReptypes.getAck.code true,
              ⟨(p2pmSendStr env.host self.nodeList.successor).1.map some, true⟩],
              ⟨(p2pmSendStr env.host self.nodeList.successor).2.map some, false⟩, rfl, ?_, rfl⟩, true, _, rfl⟩
            · simp only [serverSend, strParts, List.append_assoc]
              rfl
            · simp [wordPart]
          · cases done
            exact serves_word env 2 self _ _ left rfl rfl

theorem join_req_serves (env : P2pmEnv) (self next : P2pm) (code : P2pmOpcodes) (done : joinReqHandler env self = .ok (code, next)) :
    ServesFrames env 2 .whole self next := by
  obtain ⟨told, sent, done⟩ := bind_ok _ _ _ done
  rw [send_clientid_part self told true sent] at done
  obtain ⟨⟨buf, inbox⟩, received, done⟩ := bind_ok _ _ _ done
  have left := recv_string_left env.host self.serverInbox inbox buf received
  cases buf with
  | freed => cases done
  | missing => cases done
  | str chars =>
      dsimp only at done
      by_cases long : maxIdLen ≤ chars.length
      · rw [if_pos long] at done
        cases done
      · rw [if_neg long] at done
        split at done
        · cases done
          exact serves_word env 2 self _ _ left rfl rfl
        · split at done
          · obtain ⟨replied, reply, done⟩ := bind_ok _ _ _ done
            cases done
            exact serves_list env 2 self _ next _ reply left rfl rfl
          · cases done
            exact serves_word env 2 self _ _ left rfl rfl

theorem join_commit_sends (env : P2pmEnv) (self next : P2pm) (r : UInt32) (buf : Bytes) (done : joinCommit env self r buf = .ok next) :
    next.serverSent = self.serverSent ++ [wordPart env.host P2pmReptypes.joinAck2.code false] := by
  obtain ⟨list, _, done⟩ := bind_ok _ _ _ done
  obtain ⟨copied, _, done⟩ := bind_ok _ _ _ done
  dsimp only at done
  repeat' split at done
  all_goals cases done
  all_goals rfl

theorem join_cmt_serves (env : P2pmEnv) (self next : P2pm) (code : P2pmOpcodes) (done : joinCmtHandler env self = .ok (code, next)) :
    ServesFrames env (commitFrames env.host self.serverInbox) .whole self next := by
  obtain ⟨told, sent, done⟩ := bind_ok _ _ _ done
  rw [send_clientid_part self told true sent] at done
  obtain ⟨⟨word, rest⟩, received, done⟩ := bind_ok _ _ _ done
  have received : recvWord env.host self.serverInbox = .ok (word, rest) := received
  have left := recv_word_left env.host _ rest word received
  cases word with
  | none =>
      obtain ⟨empty, nothing⟩ := recv_word_none env.host _ rest received
      cases done
      exact serves_word env _ self _ _ (by rw [empty, List.drop_nil]; exact nothing) rfl rfl
  | some r =>
      dsimp only at done
      by_cases zero : r = 0
      · have one : commitFrames env.host self.serverInbox = 1 := by simp only [commitFrames, received, if_pos zero]
        rw [if_pos zero] at done
        cases done
        rw [one]
        exact serves_word env 1 self _ _ left rfl rfl
      · have two : commitFrames env.host self.serverInbox = 2 := by simp only [commitFrames, received, if_neg zero]
        have second : self.serverInbox.drop 2 = rest.drop 1 := by rw [left, List.drop_drop]
        rw [if_neg zero] at done
        rw [two]
        cases rest with
        | nil =>
            cases done
            exact serves_word env 2 self _ _ second.symm rfl rfl
        | cons part later =>
            obtain ⟨committed, commit, done⟩ := bind_ok _ _ _ done
            cases done
            have frame := (join_commit_frame env _ next r _ commit).1
            refine serves_word env 2 self next P2pmReptypes.joinAck2.code ?_ ?_ (join_commit_sends env _ next r _ commit)
            · rw [frame]
              exact second.symm
            · rw [frame]
              rfl

theorem stabilize_req_serves (env : P2pmEnv) (self next : P2pm) (code : P2pmOpcodes)
    (done : stabilizeReqHandler env self = .ok (code, next)) :
    ServesFrames env (framesOf env self .stabilizeReq) (replyShape env self .stabilizeReq) self next := by
  unfold stabilizeReqHandler at done
  by_cases busy : self.currentStatus ≠ .member ∧ self.currentStatus ≠ .handlingStabilize
  · have other : ¬ (self.currentStatus = .member ∨ self.currentStatus = .handlingStabilize) := not_or.mpr busy
    rw [if_pos busy] at done
    cases done
    simp only [framesOf, replyShape, if_neg other]
    exact ⟨rfl, rfl, _, rfl, rfl⟩
  · have free : self.currentStatus = .member ∨ self.currentStatus = .handlingStabilize := by
      by_contra other
      exact busy (not_or.mp other)
    rw [if_neg busy] at done
    simp only [framesOf, replyShape, if_pos free]
    obtain ⟨told, sent, done⟩ := bind_ok _ _ _ done
    rw [send_clientid_part _ told true sent] at done
    obtain ⟨⟨addr, inbox⟩, received, done⟩ := bind_ok _ _ _ done
    have left : inbox = self.serverInbox.drop 2 := recv_string_left env.host _ inbox addr received
    cases addr with
    | freed => cases done
    | missing =>
        cases done
        exact serves_word env 2 self _ _ left rfl rfl
    | str chars =>
        dsimp only at done
        split at done
        · cases done
        · obtain ⟨replied, reply, done⟩ := bind_ok _ _ _ done
          cases done
          exact serves_list env 2 self _ next _ reply left rfl rfl

theorem sync_slist_serves (env : P2pmEnv) (self next : P2pm) (code : P2pmOpcodes)
    (done : p2pmSyncSlistHandler env self = .ok (code, next)) :
    ServesFrames env (framesOf env self .syncSlist) (replyShape env self .syncSlist) self next := by
  obtain ⟨told, sent, done⟩ := bind_ok _ _ _ done
  rw [send_clientid_part self told true sent] at done
  obtain ⟨⟨ttl, rest⟩, received, done⟩ := bind_ok _ _ _ done
  have received : recvWord env.host self.serverInbox = .ok (ttl, rest) := received
  have first := recv_word_left env.host _ rest ttl received
  cases ttl with
  | none =>
      obtain ⟨empty, nothing⟩ := recv_word_none env.host _ rest received
      have missing : slistComes env self.nodeList.rMax self.serverInbox = false := by
        rw [empty]
        rfl
      cases done
      simp only [framesOf, replyShape, missing]
      exact ⟨by rw [empty]; exact nothing, rfl, _, rfl, rfl⟩
  | some ttl =>
      obtain ⟨⟨nr, inbox⟩, counted, done⟩ := bind_ok _ _ _ done
      have second := recv_word_left env.host _ inbox nr counted
      have left : inbox = self.serverInbox.drop 2 := by rw [second, first, List.drop_drop]
      rw [first] at counted
      cases nr with
      | none =>
          have missing : slistComes env self.nodeList.rMax self.serverInbox = false := by simp only [slistComes, counted]
          cases done
          simp only [framesOf, replyShape, missing]
          exact ⟨left, rfl, _, rfl, rfl⟩
      | some nr =>
          dsimp only at done
          split at done
          · rename_i refused
            have missing : slistComes env self.nodeList.rMax self.serverInbox = false := by
              simp only [slistComes, counted]
              cases inbox with
              | nil => rfl
              | cons part later =>
                  dsimp only
                  rw [Bool.and_eq_false_iff, decide_eq_false_iff_not, decide_eq_false_iff_not, word_positive, UInt32.not_le]
                  exact refused.imp not_not_intro id
            cases done
            simp only [framesOf, replyShape, missing]
            exact ⟨left, rfl, _, rfl, rfl⟩
          · rename_i accepted
            cases inbox with
            | nil =>
                have missing : slistComes env self.nodeList.rMax self.serverInbox = false := by simp only [slistComes, counted]
                cases done
                simp only [framesOf, replyShape, missing]
                exact ⟨left, rfl, _, rfl, rfl⟩
            | cons part later =>
                have third : later = self.serverInbox.drop 3 := by
                  have tail := congrArg (List.drop 1) left
                  rw [List.drop_drop] at tail
                  exact tail
                have comes : slistComes env self.nodeList.rMax self.serverInbox = true := by
                  simp only [slistComes, counted]
                  obtain ⟨positive, within⟩ := not_or.mp accepted
                  rw [Bool.and_eq_true, decide_eq_true_iff, decide_eq_true_iff, word_positive]
                  exact ⟨positive, UInt32.not_lt.mp within⟩
                simp only [framesOf, replyShape, comes, if_true]
                dsimp only at done
                split at done
                · obtain ⟨copied, _, done⟩ := bind_ok _ _ _ done
                  cases done
                  exact serves_word env 3 self _ _ third rfl rfl
                · cases done
                  exact serves_word env 3 self _ _ third rfl rfl

theorem one_ring_join_serves (env : P2pmEnv) (self next : P2pm) (code : P2pmOpcodes)
    (done : oneRingJoinReqHandler env self = .ok (code, next)) :
    ServesFrames env (framesOf env self .oneRingJoinReq) .whole self next := by
  obtain ⟨told, sent, done⟩ := bind_ok _ _ _ done
  rw [send_clientid_part self told true sent] at done
  change (if self.currentStatus ≠ .oneRing then _ else _) = _ at done
  by_cases alone : self.currentStatus = .oneRing
  · rw [if_neg (not_not_intro alone)] at done
    simp only [framesOf, if_pos alone]
    obtain ⟨⟨buf, inbox⟩, received, done⟩ := bind_ok _ _ _ done
    have left : inbox = self.serverInbox.drop 2 := recv_string_left env.host _ inbox buf received
    cases buf with
    | missing => cases done
    | freed => cases done
    | str chars =>
        obtain ⟨nodeList, _, done⟩ := bind_ok _ _ _ done
        obtain ⟨cleared, _, done⟩ := bind_ok _ _ _ done
        obtain ⟨list, _, done⟩ := bind_ok _ _ _ done
        dsimp only at done
        split at done
        · cases done
          exact serves_word env 2 self _ _ left rfl rfl
        · split at done
          · cases done
            exact serves_word env 2 self _ _ left rfl rfl
          · cases done
            exact serves_word env 2 self _ _ left rfl rfl
  · rw [if_pos alone] at done
    cases done
    simp only [framesOf, if_neg alone]
    exact serves_word env 0 self _ _ rfl rfl rfl

theorem form_one_ring_serves (env : P2pmEnv) (self before next : P2pm) (code : P2pmOpcodes)
    (done : formOneRingAfter env before = .ok (code, next)) (left : before.serverInbox = self.serverInbox.drop 2)
    (clientid : before.clientid = self.clientid) (sent : before.serverSent = self.serverSent) :
    ServesFrames env 2 .silent self next := by
  rw [(form_one_ring_frame env before next (form_one_ring_after_frame env before next code done)).1]
  exact ⟨left, clientid, [], by rw [List.append_nil]; exact sent, rfl⟩

theorem tail_found_serves (env : P2pmEnv) (self next : P2pm) (code : P2pmOpcodes)
    (done : tailFoundHandler env self = .ok (code, next)) : ServesFrames env 2 .silent self next := by
  obtain ⟨⟨endpoint, inbox⟩, received, done⟩ := bind_ok _ _ _ done
  have left := recv_string_left env.host _ inbox endpoint received
  cases endpoint with
  | missing => exact form_one_ring_serves env self _ next code done left rfl rfl
  | freed => exact form_one_ring_serves env self _ next code done left rfl rfl
  | str chars =>
      dsimp only at done
      split at done
      · exact form_one_ring_serves env self _ next code done left rfl rfl
      · split at done
        · exact form_one_ring_serves env self _ next code done left rfl rfl
        · split at done
          · cases done
          · cases done
            exact ⟨left, rfl, [], (List.append_nil _).symm, rfl⟩

theorem head_found_serves (env : P2pmEnv) (self next : P2pm) (code : P2pmOpcodes)
    (done : headFoundHandler env self = .ok (code, next)) : ServesFrames env 2 .silent self next := by
  obtain ⟨⟨endpoint, inbox⟩, received, done⟩ := bind_ok _ _ _ done
  have left := recv_string_left env.host _ inbox endpoint received
  cases endpoint with
  | missing => exact form_one_ring_serves env self _ next code done left rfl rfl
  | freed => exact form_one_ring_serves env self _ next code done left rfl rfl
  | str chars =>
      dsimp only at done
      split at done
      · exact form_one_ring_serves env self _ next code done left rfl rfl
      · split at done
        · exact form_one_ring_serves env self _ next code done left rfl rfl
        · obtain ⟨cleared, _, done⟩ := bind_ok _ _ _ done
          by_cases long : maxIdLen ≤ chars.length
          · rw [if_pos long] at done
            cases done
          · rw [if_neg long] at done
            obtain ⟨list, _, done⟩ := bind_ok _ _ _ done
            cases done
            exact ⟨left, rfl, [], (List.append_nil _).symm, rfl⟩

theorem recv_token_buf_left (len : UInt64) (inbox : List MsgPart) : (recvTokenBuf len inbox).2 = inbox.drop 1 := by
  cases inbox with
  | nil => rfl
  | cons part later => rfl

theorem token_serves (env : P2pmEnv) (self next : P2pm) (code : P2pmOpcodes) (done : p2pmTokenHandler env self = .ok (code, next)) :
    ServesFrames env 6 .silent self next := by
  obtain ⟨⟨token, inbox⟩, received, done⟩ := bind_ok _ _ _ done
  cases done
  refine ⟨?_, rfl, [], (List.append_nil _).symm, rfl⟩
  obtain ⟨⟨id, first⟩, one, received⟩ := bind_ok _ _ _ received
  obtain ⟨⟨ttl, second⟩, two, received⟩ := bind_ok _ _ _ received
  obtain ⟨⟨len1, third⟩, three, received⟩ := bind_ok _ _ _ received
  obtain ⟨⟨len2, fourth⟩, four, received⟩ := bind_ok _ _ _ received
  cases received
  change (recvTokenBuf _ (recvTokenBuf _ fourth).2).2 = _
  rw [recv_token_buf_left, recv_token_buf_left, recv_long_left _ _ _ _ four, recv_long_left _ _ _ _ three,
    recv_word_left _ _ _ _ two, recv_word_left _ _ _ _ one]
  simp only [List.drop_drop]

theorem serves_silently (env : P2pmEnv) (old next : P2pm) (left : next.serverInbox = old.serverInbox)
    (clientid : next.clientid = old.clientid) (sent : next.serverSent = old.serverSent) : ServesFrames env 0 .silent old next :=
  ⟨left, clientid, [], by rw [List.append_nil]; exact sent, rfl⟩

theorem serve_serves (env : P2pmEnv) (self next : P2pm) (request : ServerCase) (code : P2pmOpcodes)
    (done : serve env self request = .ok (code, next)) :
    ServesFrames env (framesOf env self request) (replyShape env self request) self next := by
  cases request with
  | getReq => exact get_req_serves env self next code done
  | joinReq => exact join_req_serves env self next code done
  | joinCmt => exact join_cmt_serves env self next code done
  | stabilizeNsynReq =>
      obtain ⟨told, sent, done⟩ := bind_ok _ _ _ done
      cases done
      rw [send_clientid_part _ next false sent]
      exact ⟨rfl, rfl, _, rfl, ⟨[], _, rfl, by simp, rfl⟩, false, [], rfl⟩
  | joinAbrt =>
      cases done
      exact serves_silently env _ _ rfl rfl rfl
  | predJoinCmt =>
      cases done
      exact serves_silently env _ _ rfl rfl rfl
  | predJoinAbrt =>
      cases done
      exact serves_silently env _ _ rfl rfl rfl
  | pingReq =>
      obtain ⟨told, sent, done⟩ := bind_ok _ _ _ done
      cases done
      rw [send_clientid_part _ told true sent]
      exact serves_word env 0 self _ _ rfl rfl rfl
  | stabilizeReq => exact stabilize_req_serves env self next code done
  | stabilizeSynReq =>
      have result : next = (stabilizeSynReqHandler env self).2 := congrArg Prod.snd (Except.ok.inj done).symm
      rw [result, stabilize_syn_req_frame env self]
      exact serves_silently env _ _ rfl rfl rfl
  | syncSlist => exact sync_slist_serves env self next code done
  | oneRingJoinReq => exact one_ring_join_serves env self next code done
  | tailFound => exact tail_found_serves env self next code done
  | headFound => exact head_found_serves env self next code done
  | token => exact token_serves env self next code done
  | ignored =>
      cases done
      exact serves_silently env _ _ rfl rfl rfl

-- The frames of a message are as many as are received, or there is nothing else to receive.
def FramesFit (frames : Nat) (rest later : List MsgPart) : Prop := rest.length = frames ∨ rest.length < frames ∧ later = []

def AnswerFits (identity : MsgPart) (clientid : Bytes) : ReplyShape → Prop
  | .silent => True
  | .whole => identity.bytes = (cstr clientid).map some
  | _ => False

-- Behind its identity a message has its code and the frames that its request makes the handler receive in this state, and where it
-- is answered, the identity is the string that clientid has become.
def BoundariesFit (env : P2pmEnv) (self : P2pm) (identity : MsgPart) (rest later : List MsgPart) : Prop :=
  ∀ clientid ubuf inbox, putClientid self.clientid identity.bytes = .ok clientid →
    recvWord env.host (rest ++ later) = .ok (ubuf, inbox) →
      let served := { self with clientid := clientid, serverInbox := inbox }
      let request := ServerCase.ofCode (ubuf.getD env.strayWord)
      FramesFit (framesOf env served request + 1) rest later ∧ AnswerFits identity clientid (replyShape env served request)

theorem drop_fits (frames : Nat) (rest later : List MsgPart) : (rest ++ later).drop frames = later ↔ FramesFit frames rest later := by
  by_cases short : rest.length < frames
  · obtain ⟨more, same⟩ : ∃ more, frames = rest.length + (more + 1) := ⟨frames - rest.length - 1, by omega⟩
    rw [same, List.drop_append, List.drop_eq_nil_of_le (by omega), List.nil_append, Nat.add_sub_cancel_left, FramesFit]
    constructor
    · intro left
      have size := congrArg List.length left
      rw [List.length_drop] at size
      exact Or.inr ⟨by omega, List.eq_nil_of_length_eq_zero (by omega)⟩
    · intro fits
      rcases fits with equal | ⟨_, nothing⟩
      · omega
      · rw [nothing, List.drop_nil]
  · rw [List.drop_append_of_le_length (by omega)]
    constructor
    · intro left
      have size := congrArg List.length left
      rw [List.length_append, List.length_drop] at size
      exact Or.inl (by omega)
    · intro fits
      rcases fits with equal | ⟨fewer, _⟩
      · rw [← equal, List.drop_length, List.nil_append]
      · exact absurd fewer short

theorem nack_no_string (host : HostOrder) (clientid : Bytes) :
    (wordPart host P2pmReptypes.stabilizeNack.code false).bytes ≠ (cstr clientid).map some := by
  intro same
  have wire : p2pmSendUint32 host P2pmReptypes.stabilizeNack.code = cstr clientid :=
    List.map_injective_iff.mpr (Option.some_injective UInt8) same
  have zero : (0 : UInt8) ∈ p2pmSendUint32 host P2pmReptypes.stabilizeNack.code := by
    cases host with
    | little => decide
    | big => decide
  exact cstr_nul_free clientid (wire ▸ zero)

theorem shape_answers (env : P2pmEnv) (identity : MsgPart) (clientid : Bytes) (shape : ReplyShape) (sent : List MsgPart)
    (is : shape.Of env clientid sent) : Answers identity clientid sent ↔ AnswerFits identity clientid shape := by
  cases shape with
  | silent => exact ⟨fun _ => trivial, fun _ => Or.inl is⟩
  | whole =>
      obtain ⟨whole, more, rest, same⟩ := is
      constructor
      · intro answers
        rcases answers with none | ⟨_, first, others, split, fromSender, _⟩
        · rw [same] at none
          cases none
        · rw [same] at split
          cases split
          exact fromSender.symm
      · intro fits
        exact Or.inr ⟨whole, _, rest, same, fits.symm, rfl⟩
  | unfinished =>
      refine ⟨fun answers => ?_, fun fits => fits.elim⟩
      rw [ReplyShape.Of] at is
      rcases answers with none | ⟨⟨front, last, split, _, ends⟩, _⟩
      · rw [is] at none
        cases none
      · rw [is, ← List.nil_append [_]] at split
        have final := List.singleton_injective (List.append_inj' split rfl).2
        rw [← final] at ends
        cases ends
  | bare =>
      refine ⟨fun answers => ?_, fun fits => fits.elim⟩
      rw [ReplyShape.Of] at is
      rcases answers with none | ⟨_, first, rest, split, _, string⟩
      · rw [is] at none
        cases none
      · rw [is] at split
        cases split
        exact absurd string (nack_no_string env.host clientid)

theorem serve_message_boundaries (env : P2pmEnv) (self next : P2pm) (identity : MsgPart) (rest later : List MsgPart) (code : P2pmOpcodes)
    (done : serveMessage env self identity (rest ++ later) = .ok (code, next)) :
    KeepsBoundaries identity later self next ↔ BoundariesFit env self identity rest later := by
  obtain ⟨clientid, ubuf, inbox, put, received, served⟩ := serve_message_served env self next identity _ code done
  have serves := serve_serves env _ next _ code served
  have behind : ∀ frames, inbox.drop frames = (rest ++ later).drop (frames + 1) := by
    intro frames
    rw [recv_word_left env.host _ inbox ubuf received, List.drop_drop, Nat.add_comm]
  have left := serves.left.trans (behind _)
  obtain ⟨sent, out, shape⟩ := serves.sent
  have answered := shape_answers env identity clientid _ sent shape
  constructor
  · intro keeps other word behind putOther receivedOther
    rw [put] at putOther
    rw [received] at receivedOther
    cases putOther
    cases receivedOther
    refine ⟨(drop_fits _ rest later).mp (left.symm.trans keeps.left), answered.mp ?_⟩
    obtain ⟨same, outSame, answers⟩ := keeps.answers
    rw [serves.clientid] at answers
    have equal : sent = same := List.append_cancel_left (out.symm.trans outSame)
    rw [equal]
    exact answers
  · intro fits
    obtain ⟨frames, answer⟩ := fits clientid ubuf inbox put received
    refine ⟨left.trans ((drop_fits _ rest later).mpr frames), sent, out, ?_⟩
    rw [serves.clientid]
    exact answered.mpr answer

-- A pass takes the frames of one message and answers its sender exactly when the message fits what its handler receives.
theorem pass_keeps_boundaries (env : P2pmEnv) (self next : P2pm) (identity : MsgPart) (rest later : List MsgPart) (code : P2pmOpcodes)
    (readable : self.revents.server = true) (waiting : self.serverInbox = identity :: (rest ++ later))
    (done : p2pmLoopServer env self = .ok (code, next)) :
    KeepsBoundaries identity later self next ↔ BoundariesFit env self identity rest later := by
  unfold p2pmLoopServer at done
  rw [if_pos readable] at done
  simp only [waiting] at done
  obtain ⟨⟨answer, served⟩, serve, done⟩ := bind_ok _ _ _ done
  obtain ⟨last, went, done⟩ := bind_ok _ _ _ done
  cases done
  rw [← serve_message_boundaries env self served identity rest later answer serve]
  have frame := (loop_sockets_frame env served next went).same
  have inbox : next.serverInbox = served.serverInbox := by rw [frame]
  have clientid : next.clientid = served.clientid := by rw [frame]
  have sent : next.serverSent = served.serverSent := by rw [frame]
  constructor
  · intro keeps
    refine ⟨inbox ▸ keeps.left, ?_⟩
    rw [← clientid, ← sent]
    exact keeps.answers
  · intro keeps
    refine ⟨inbox.trans keeps.left, ?_⟩
    rw [clientid, sent]
    exact keeps.answers

-- A node with a readable server_socket.
def sampleWaiting (status : P2pmStatus) (inbox : List MsgPart) : P2pm :=
  { sampleP2pm with
    currentStatus := status
    serverInbox := inbox
    revents := { server := true, successor := false, predecessor := false, pipe := false } }

set_option maxRecDepth 20000 in
-- Two pings.
theorem pass_keeps_boundaries_sample : ∃ code next,
    p2pmLoopServer sampleP2pmEnv (sampleWaiting .member [⟨[some 7], true⟩, pingPart sampleP2pmEnv, ⟨[some 8], true⟩,
      pingPart sampleP2pmEnv]) = .ok (code, next) ∧
        KeepsBoundaries ⟨[some 7], true⟩ [⟨[some 8], true⟩, pingPart sampleP2pmEnv]
          (sampleWaiting .member [⟨[some 7], true⟩, pingPart sampleP2pmEnv, ⟨[some 8], true⟩, pingPart sampleP2pmEnv]) next := by
  refine ⟨_, _, rfl, ?_⟩
  refine (pass_keeps_boundaries sampleP2pmEnv _ _ ⟨[some 7], true⟩ [pingPart sampleP2pmEnv] [⟨[some 8], true⟩, pingPart sampleP2pmEnv]
    .success rfl rfl rfl).mpr ?_
  intro clientid ubuf inbox put received
  cases put
  cases received
  exact ⟨Or.inl rfl, rfl⟩

set_option maxRecDepth 20000 in
-- A STABILIZE_REQ that comes while a join is handled.
theorem address_left_behind : ¬ ∀ (env : P2pmEnv) (self next : P2pm) (identity : MsgPart) (rest later : List MsgPart) (code : P2pmOpcodes),
    self.revents.server = true → self.serverInbox = identity :: (rest ++ later) → p2pmLoopServer env self = .ok (code, next) →
      KeepsBoundaries identity later self next := by
  intro claim
  have kept := claim sampleP2pmEnv (sampleWaiting .handlingJoin (⟨[some 7], true⟩ ::
    wordPart .little P2pmReqtypes.stabilizeReq.code true :: strParts .little [65])) _ ⟨[some 7], true⟩
      (wordPart .little P2pmReqtypes.stabilizeReq.code true :: strParts .little [65]) [] _ rfl rfl rfl
  have left := congrArg List.length kept.left
  exact absurd left (by decide)

end Synergy
