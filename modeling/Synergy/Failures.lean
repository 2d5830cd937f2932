import Synergy.P2pmMessages

set_option autoImplicit false

namespace Synergy

-- The requests that join a node to a ring or change its neighbours, and report whether they have.
def ServerCase.ringRequest : ServerCase → Bool
  | .getReq | .joinReq | .joinCmt | .stabilizeReq | .syncSlist | .oneRingJoinReq => true
  | _ => false

-- What a node knows of the ring, and what it does there.
structure SameRing (old next : P2pm) : Prop where
  currentStatus : next.currentStatus = old.currentStatus
  successor : next.nodeList.successor = old.nodeList.successor
  predecessor : next.nodeList.predecessor = old.nodeList.predecessor
  successorList : next.nodeList.successorList = old.nodeList.successorList
  r : next.nodeList.r = old.nodeList.r

-- Where a request that fails does so before it has changed anything: a JOIN_CMT without its list announces the r of this node or
-- none, a STABILIZE_REQ without anything does not come while another one is handled, and a ONE_RING_JOIN_REQ gets no further than
-- to the status.
def FailsFirst (env : P2pmEnv) (self : P2pm) : ServerCase → Prop
  | .joinCmt => ∀ part r, self.serverInbox = [part] → partWord env.host part = .ok r → r = 0 ∨ r = self.nodeList.r
  | .stabilizeReq => self.currentStatus = .handlingStabilize → self.serverInbox ≠ []
  | .oneRingJoinReq => self.currentStatus ≠ .oneRing
  | _ => True

theorem recv_word_none (host : HostOrder) (inbox rest : List MsgPart) (received : recvWord host inbox = .ok (none, rest)) :
    inbox = [] ∧ rest = [] := by
  cases inbox with
  | nil =>
      cases received
      exact ⟨rfl, rfl⟩
  | cons part later =>
      obtain ⟨word, _, received⟩ := bind_ok _ _ _ received
      cases received

theorem recv_word_some (host : HostOrder) (inbox rest : List MsgPart) (word : UInt32)
    (received : recvWord host inbox = .ok (some word, rest)) :
    ∃ part, inbox = part :: rest ∧ partWord host part = .ok word := by
  cases inbox with
  | nil => cases received
  | cons part later =>
      obtain ⟨read, parted, received⟩ := bind_ok _ _ _ received
      cases received
      exact ⟨part, rfl, parted⟩

theorem recv_string_missing (host : HostOrder) (inbox rest : List MsgPart) (received : recvString host inbox = .ok (.missing, rest)) :
    inbox = [] := by
  obtain ⟨⟨announced, later⟩, word, received⟩ := bind_ok _ _ _ received
  cases announced with
  | none => exact (recv_word_none host inbox later word).1
  | some announced =>
      cases later with
      | nil => cases received
      | cons part later =>
          dsimp only at received
          split at received
          · cases received
          · obtain ⟨chars, _, received⟩ := bind_ok _ _ _ received
            cases received

theorem get_req_fails (env : P2pmEnv) (self next : P2pm) (failed : getReqHandler env self = .ok (.failure, next)) :
    SameRing self next := by
  obtain ⟨told, sent, done⟩ := bind_ok _ _ _ failed
  rw [send_clientid_part self told true sent] at done
  obtain ⟨⟨buf, inbox⟩, _, done⟩ := bind_ok _ _ _ done
  dsimp only at done
  repeat' split at done
  all_goals cases done
  all_goals exact ⟨rfl, rfl, rfl, rfl, rfl⟩

theorem join_req_fails (env : P2pmEnv) (self next : P2pm) (failed : joinReqHandler env self = .ok (.failure, next)) :
    SameRing self next := by
  rw [join_req_frame env self next .failure failed]
  exact ⟨rfl, rfl, rfl, rfl, rfl⟩

theorem join_cmt_fails (env : P2pmEnv) (self next : P2pm) (failed : joinCmtHandler env self = .ok (.failure, next)) :
    SameRing self next ↔ FailsFirst env self .joinCmt := by
  obtain ⟨told, sent, done⟩ := bind_ok _ _ _ failed
  rw [send_clientid_part self told true sent] at done
  obtain ⟨⟨word, rest⟩, received, done⟩ := bind_ok _ _ _ done
  have received : recvWord env.host self.serverInbox = .ok (word, rest) := received
  cases word with
  | none =>
      obtain ⟨empty, _⟩ := recv_word_none env.host _ rest received
      cases done
      refine ⟨fun _ part r only _ => ?_, fun _ => ⟨rfl, rfl, rfl, rfl, rfl⟩⟩
      rw [empty] at only
      cases only
  | some r =>
      obtain ⟨part, inbox, word⟩ := recv_word_some env.host _ rest r received
      dsimp only at done
      by_cases zero : r = 0
      · rw [if_pos zero] at done
        cases done
        refine ⟨fun _ other announced only read => ?_, fun _ => ⟨rfl, rfl, rfl, rfl, rfl⟩⟩
        rw [inbox] at only
        cases only
        rw [word] at read
        cases read
        exact Or.inl zero
      · rw [if_neg zero] at done
        cases rest with
        | nil =>
            cases done
            constructor
            · intro same other announced only read
              rw [inbox] at only
              cases only
              rw [word] at read
              cases read
              exact Or.inr same.r
            · intro first
              cases first part r inbox word with
              | inl none => exact absurd none zero
              | inr same => exact ⟨rfl, rfl, rfl, rfl, same⟩
        | cons list later =>
            obtain ⟨committed, _, done⟩ := bind_ok _ _ _ done
            cases done

theorem stabilize_req_fails (env : P2pmEnv) (self next : P2pm) (failed : stabilizeReqHandler env self = .ok (.failure, next)) :
    SameRing self next ↔ FailsFirst env self .stabilizeReq := by
  unfold stabilizeReqHandler at failed
  by_cases busy : self.currentStatus ≠ .member ∧ self.currentStatus ≠ .handlingStabilize
  · rw [if_pos busy] at failed
    cases failed
    exact ⟨fun _ handling => absurd handling busy.2, fun _ => ⟨rfl, rfl, rfl, rfl, rfl⟩⟩
  · rw [if_neg busy] at failed
    obtain ⟨told, sent, done⟩ := bind_ok _ _ _ failed
    rw [send_clientid_part _ told true sent] at done
    obtain ⟨⟨addr, inbox⟩, received, done⟩ := bind_ok _ _ _ done
    cases addr with
    | freed => cases done
    | missing =>
        have empty : self.serverInbox = [] := recv_string_missing env.host _ inbox received
        cases done
        constructor
        · intro same handling
          have status := same.currentStatus
          rw [handling] at status
          cases status
        · intro first
          have member : self.currentStatus = .member := by
            by_contra other
            exact busy ⟨other, fun handling => first handling empty⟩
          exact ⟨member.symm, rfl, rfl, rfl, rfl⟩
    | str chars =>
        dsimp only at done
        split at done
        · cases done
        · obtain ⟨replied, _, done⟩ := bind_ok _ _ _ done
          cases done

theorem sync_slist_fails (env : P2pmEnv) (self next : P2pm) (failed : p2pmSyncSlistHandler env self = .ok (.failure, next)) :
    SameRing self next := by
  obtain ⟨told, sent, done⟩ := bind_ok _ _ _ failed
  rw [send_clientid_part self told true sent] at done
  obtain ⟨⟨ttl, inbox⟩, _, done⟩ := bind_ok _ _ _ done
  cases ttl with
  | none =>
      cases done
      exact ⟨rfl, rfl, rfl, rfl, rfl⟩
  | some ttl =>
      obtain ⟨⟨nr, inbox⟩, _, done⟩ := bind_ok _ _ _ done
      cases nr with
      | none =>
          cases done
          exact ⟨rfl, rfl, rfl, rfl, rfl⟩
      | some nr =>
          dsimp only at done
          split at done
          · cases done
            exact ⟨rfl, rfl, rfl, rfl, rfl⟩
          · cases inbox with
            | nil =>
                cases done
                exact ⟨rfl, rfl, rfl, rfl, rfl⟩
            | cons part later =>
                dsimp only at done
                split at done
                · obtain ⟨copied, _, done⟩ := bind_ok _ _ _ done
                  cases done
                · cases done

-- The status is changed before either neighbour is connected.
theorem one_ring_join_fails (env : P2pmEnv) (self next : P2pm) (failed : oneRingJoinReqHandler env self = .ok (.failure, next)) :
    SameRing self next ↔ FailsFirst env self .oneRingJoinReq := by
  obtain ⟨told, sent, done⟩ := bind_ok _ _ _ failed
  rw [send_clientid_part self told true sent] at done
  change (if self.currentStatus ≠ .oneRing then _ else _) = _ at done
  by_cases alone : self.currentStatus = .oneRing
  · have never : next.currentStatus = .handlingJoin := by
      rw [if_neg (not_not_intro alone)] at done
      obtain ⟨⟨buf, inbox⟩, _, done⟩ := bind_ok _ _ _ done
      cases buf with
      | missing => cases done
      | freed => cases done
      | str chars =>
          obtain ⟨nodeList, _, done⟩ := bind_ok _ _ _ done
          obtain ⟨cleared, _, done⟩ := bind_ok _ _ _ done
          obtain ⟨list, _, done⟩ := bind_ok _ _ _ done
          dsimp only at done
          repeat' split at done
          all_goals cases done
          all_goals rfl
    constructor
    · intro same
      have status := same.currentStatus
      rw [never, alone] at status
      cases status
    · exact fun first => absurd alone first
  · rw [if_pos alone] at done
    cases done
    exact ⟨fun _ => alone, fun _ => ⟨rfl, rfl, rfl, rfl, rfl⟩⟩

-- A request that fails leaves the ring as it was exactly when it fails before it has changed anything.
theorem failed_request_keeps_ring (env : P2pmEnv) (self next : P2pm) (request : ServerCase) (asked : request.ringRequest = true)
    (failed : serve env self request = .ok (.failure, next)) : SameRing self next ↔ FailsFirst env self request := by
  cases request with
  | getReq => exact ⟨fun _ => trivial, fun _ => get_req_fails env self next failed⟩
  | joinReq => exact ⟨fun _ => trivial, fun _ => join_req_fails env self next failed⟩
  | joinCmt => exact join_cmt_fails env self next failed
  | stabilizeReq => exact stabilize_req_fails env self next failed
  | syncSlist => exact ⟨fun _ => trivial, fun _ => sync_slist_fails env self next failed⟩
  | oneRingJoinReq => exact one_ring_join_fails env self next failed
  | stabilizeNsynReq => cases asked
  | joinAbrt => cases asked
  | predJoinCmt => cases asked
  | predJoinAbrt => cases asked
  | pingReq => cases asked
  | stabilizeSynReq => cases asked
  | tailFound => cases asked
  | headFound => cases asked
  | token => cases asked
  | ignored => cases asked

-- A JOIN_CMT that announces a number of addresses and has none.
def sampleEmptyCommit (r : UInt32) : P2pm := { sampleP2pm with serverInbox := [wordPart .little r false] }

-- The node knows of one successor.
theorem failed_request_keeps_ring_sample :
    (∃ next, serve sampleP2pmEnv (sampleEmptyCommit 1) .joinCmt = .ok (.failure, next) ∧ SameRing (sampleEmptyCommit 1) next) ∧
      ∃ next, serve sampleP2pmEnv (sampleEmptyCommit 9) .joinCmt = .ok (.failure, next) ∧ ¬ SameRing (sampleEmptyCommit 9) next := by
  constructor
  · refine ⟨_, rfl, ?_⟩
    refine (failed_request_keeps_ring sampleP2pmEnv (sampleEmptyCommit 1) _ .joinCmt rfl rfl).mpr ?_
    intro part r only read
    cases only
    cases read
    exact Or.inr rfl
  · refine ⟨_, rfl, fun same => ?_⟩
    have first := (failed_request_keeps_ring sampleP2pmEnv (sampleEmptyCommit 9) _ .joinCmt rfl rfl).mp same _ 9 rfl rfl
    exact absurd first (by decide)

-- The same request, as a message.
theorem failed_commit_sets_r : ¬ ∀ (env : P2pmEnv) (self next : P2pm) (identity : MsgPart) (later : List MsgPart),
    requestOf env later = some .joinCmt → serveMessage env self identity later = .ok (.failure, next) → SameRing self next := by
  intro claim
  have same := claim sampleP2pmEnv sampleP2pm _ ⟨[some 7], true⟩
    [wordPart .little P2pmReqtypes.joinCmt.code true, wordPart .little 9 false] rfl rfl
  exact absurd same.r (by decide)

end Synergy
